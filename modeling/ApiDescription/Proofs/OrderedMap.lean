import ApiDescription.OrderedMap

/-!
# Maps from their entries

Writing the entries of a map one after the other gives the map back, because no key
is written twice. Where keys are written again, each keeps the place of its first entry
and has the value of its last one.
-/

namespace ApiDescription.OrderedMap

variable {κ α : Type}

/-- Maps with the same entries are the same. -/
theorem ext_entries {first second : OrderedMap κ α} (same : first.entries = second.entries) :
    first = second := by
  obtain ⟨entries, distinct⟩ := first
  cases same
  rfl

variable [DecidableEq κ]

/-- A key that is new is written at the end. -/
theorem write_of_not_mem {key : κ} {value : α} {entries : List (κ × α)}
    (fresh : key ∉ entries.map Prod.fst) : write key value entries = entries ++ [(key, value)] := by
  induction entries with
  | nil => rfl
  | cons entry rest inductionHypothesis =>
    rw [List.map_cons, List.mem_cons, not_or] at fresh
    rw [write, if_neg (Ne.symm fresh.1), inductionHypothesis fresh.2, List.cons_append]

/-- A key that is there keeps its place, and so do the entries around it. -/
theorem write_of_mem {key : κ} {value old : α} {before after : List (κ × α)}
    (first : key ∉ before.map Prod.fst) :
    write key value (before ++ (key, old) :: after) = before ++ (key, value) :: after := by
  induction before with
  | nil => rw [List.nil_append, write, if_pos rfl, List.nil_append]
  | cons entry before inductionHypothesis =>
    rw [List.map_cons, List.mem_cons, not_or] at first
    rw [List.cons_append, write, if_neg (Ne.symm first.1), inductionHypothesis first.2,
      List.cons_append]

/-- Entries with new and distinct keys are written behind those that are there. -/
theorem entries_foldl_insert {entries : List (κ × α)} {map : OrderedMap κ α}
    (distinct : ((map.entries ++ entries).map Prod.fst).Nodup) :
    (entries.foldl (fun map entry => map.insert entry.1 entry.2) map).entries =
      map.entries ++ entries := by
  induction entries generalizing map with
  | nil => simp
  | cons entry rest inductionHypothesis =>
    have fresh : entry.1 ∉ map.entries.map Prod.fst := by
      rw [List.map_append, List.map_cons, List.nodup_append] at distinct
      exact fun member => distinct.2.2 _ member _ List.mem_cons_self rfl
    have written : (map.insert entry.1 entry.2).entries = map.entries ++ [entry] :=
      write_of_not_mem fresh
    rw [List.foldl_cons, inductionHypothesis, written, List.append_assoc, List.singleton_append]
    rw [written, List.append_assoc, List.singleton_append]
    exact distinct

/-- Writing the entries of a list with distinct keys makes a map of just these entries. -/
theorem entries_ofList {entries : List (κ × α)} (distinct : (entries.map Prod.fst).Nodup) :
    (ofList entries).entries = entries :=
  entries_foldl_insert (show ((empty.entries ++ entries).map Prod.fst).Nodup from distinct)

/-- Writing the entries of a map makes the map. -/
theorem ofList_entries (map : OrderedMap κ α) : ofList map.entries = map :=
  ext_entries (entries_ofList map.distinct)

/-- Writing a key adds it to the keys if it is new. -/
theorem keys_write (key : κ) (value : α) (entries : List (κ × α)) :
    (write key value entries).map Prod.fst =
      if key ∈ entries.map Prod.fst then entries.map Prod.fst
      else entries.map Prod.fst ++ [key] := by
  induction entries with
  | nil => rfl
  | cons entry rest inductionHypothesis =>
    obtain ⟨here, old⟩ := entry
    by_cases same : here = key
    · simp [write, same]
    · rw [write, if_neg same, List.map_cons, inductionHypothesis]
      by_cases known : key ∈ rest.map Prod.fst <;> simp [known, Ne.symm same]

/-- An entry in front of others decides about its own key. -/
theorem lookup_cons_eq_ite (entry : κ × α) (rest : List (κ × α)) (key : κ) :
    (entry :: rest).lookup key = if key = entry.1 then some entry.2 else rest.lookup key := by
  by_cases found : key = entry.1
  · rw [if_pos found, List.lookup_cons, beq_iff_eq.mpr found]
  · rw [if_neg found, List.lookup_cons, beq_false_of_ne found]

/-- A key has the value that was written last. -/
theorem lookup_write (key other : κ) (value : α) (entries : List (κ × α)) :
    (write key value entries).lookup other =
      if other = key then some value else entries.lookup other := by
  induction entries with
  | nil => rw [write, lookup_cons_eq_ite]
  | cons entry rest inductionHypothesis =>
    obtain ⟨here, old⟩ := entry
    by_cases same : here = key
    · subst same
      rw [write, if_pos rfl, lookup_cons_eq_ite, lookup_cons_eq_ite]
      by_cases found : other = here <;> simp [found]
    · rw [write, if_neg same, lookup_cons_eq_ite, inductionHypothesis, lookup_cons_eq_ite]
      by_cases found : other = here
      · simp [found, same]
      · simp [found]

/-- The keys of entries written one after the other, each at the place of its first entry. -/
theorem keys_ofList (entries : List (κ × α)) :
    (ofList entries).entries.map Prod.fst = (entries.map Prod.fst).eraseDups := by
  have behind (map : OrderedMap κ α) :
      (entries.foldl (fun map entry => map.insert entry.1 entry.2) map).entries.map Prod.fst =
        map.entries.map Prod.fst ++
          ((entries.map Prod.fst).removeAll (map.entries.map Prod.fst)).eraseDups := by
    induction entries generalizing map with
    | nil => simp [List.removeAll]
    | cons entry rest inductionHypothesis =>
      have written := keys_write entry.1 entry.2 map.entries
      rw [List.foldl_cons, inductionHypothesis, insert, written, List.map_cons,
        List.cons_removeAll]
      by_cases known : entry.1 ∈ map.entries.map Prod.fst
      · simp only [if_pos known, List.contains_iff_mem.mpr known, Bool.true_eq_false, if_false]
      · have further : (rest.map Prod.fst).removeAll (map.entries.map Prod.fst ++ [entry.1]) =
            ((rest.map Prod.fst).removeAll (map.entries.map Prod.fst)).filter
              fun other => !other == entry.1 := by
          rw [List.removeAll, List.removeAll, List.filter_filter]
          refine List.filter_congr fun other _ => ?_
          rw [Bool.beq_eq_decide_eq, Bool.eq_iff_iff]
          simp [or_comm]
        rw [if_neg known, if_pos (by simpa using known), further, List.eraseDups_cons,
          List.append_assoc, List.singleton_append]
  have all : (entries.map Prod.fst).removeAll [] = entries.map Prod.fst := by
    simp [List.removeAll]
  have whole := behind empty
  rwa [empty, List.map_nil, List.nil_append, all] at whole

/-- The value of a key among entries written one after the other is that of its last entry. -/
theorem get?_ofList (entries : List (κ × α)) (key : κ) :
    (ofList entries).get? key = entries.reverse.lookup key := by
  have behind (map : OrderedMap κ α) :
      (entries.foldl (fun map entry => map.insert entry.1 entry.2) map).get? key =
        (entries.reverse.lookup key).or (map.get? key) := by
    induction entries generalizing map with
    | nil => rfl
    | cons entry rest inductionHypothesis =>
      obtain ⟨here, value⟩ := entry
      rw [List.foldl_cons, inductionHypothesis, List.reverse_cons, List.lookup_append,
        lookup_cons_eq_ite, get?, insert, lookup_write, get?]
      by_cases found : key = here <;> simp [found]
  exact (behind empty).trans (by simp [get?, empty])

/-- The value of the last entry of a key, from either end of the entries. -/
theorem lookup_reverse (entries : List (κ × α)) (key : κ) :
    entries.reverse.lookup key = (entries.filter (·.1 = key)).getLast?.map Prod.snd := by
  induction entries with
  | nil => rfl
  | cons entry rest inductionHypothesis =>
    rw [List.reverse_cons, List.lookup_append, inductionHypothesis, lookup_cons_eq_ite,
      List.filter_cons]
    by_cases found : entry.1 = key
    · rw [if_pos found.symm, if_pos (by simpa using found), List.getLast?_cons]
      cases (rest.filter (·.1 = key)).getLast? <;> rfl
    · rw [if_neg (Ne.symm found), if_neg (by simpa using found), List.lookup_nil, Option.or_none]

/-- What a key has is an entry of the map. -/
theorem get?_eq_some_iff {map : OrderedMap κ α} {key : κ} {value : α} :
    map.get? key = some value ↔ (key, value) ∈ map.entries := by
  obtain ⟨entries, distinct⟩ := map
  rw [get?]
  induction entries with
  | nil => simp
  | cons entry rest inductionHypothesis =>
    rw [List.map_cons, List.nodup_cons] at distinct
    rw [lookup_cons_eq_ite, List.mem_cons]
    by_cases here : key = entry.1
    · subst here
      have alone : (entry.1, value) ∉ rest := fun member =>
        distinct.1 (List.mem_map.mpr ⟨_, member, rfl⟩)
      simp [alone, Prod.ext_iff, eq_comm]
    · simp [here, inductionHypothesis distinct.2, Prod.ext_iff]

/-- A map as entries written one after the other leave it: every key stands where it was written
first, with the value that was written last. -/
structure LastWins (map : OrderedMap κ α) (entries : List (κ × α)) : Prop where
  keys : map.entries.map Prod.fst = (entries.map Prod.fst).eraseDups
  values : ∀ key, map.get? key = entries.reverse.lookup key

/-- Writing entries one after the other leaves the last values. -/
theorem lastWins_ofList (entries : List (κ × α)) : (ofList entries).LastWins entries :=
  ⟨keys_ofList entries, get?_ofList entries⟩

end ApiDescription.OrderedMap
