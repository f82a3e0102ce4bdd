import ApiDescription.Checked
import ApiDescription.Proofs.Json.RoundTrip

/-!
# Changes inside JSON values

A value may be changed at a path, or keys may be left out at many paths at once. What is looked up
in a changed object is what was looked up before, changed or left out.
-/

namespace ApiDescription.Json

/-- The value with another one at a path. Where there is nothing at the path, it stays as it is. -/
def update : List Step → (Json → Json) → Json → Json
  | [], change, json => change json
  | .key key :: path, change, .object members =>
    .object (members.map fun entry =>
      if entry.1 = key then (entry.1, update path change entry.2) else entry)
  | .index position :: path, change, .list items =>
    .list (items.modify position (update path change))
  | _, _, json => json

mutual

/-- The value without the keys at some paths. -/
def prune (dropped : List Step → Bool) : Json → Json
  | .object members => .object (pruneMembers dropped members)
  | .list items => .list (pruneItems dropped 0 items)
  | json => json

/-- The members of an object without the keys at some paths. -/
def pruneMembers (dropped : List Step → Bool) : List (Text × Json) → List (Text × Json)
  | [] => []
  | (key, value) :: rest =>
    if dropped [.key key] then pruneMembers dropped rest
    else
      (key, prune (fun path => dropped (.key key :: path)) value) :: pruneMembers dropped rest

/-- The items of a list, numbered from `position` on, without the keys at some paths. -/
def pruneItems (dropped : List Step → Bool) (position : Nat) : List Json → List Json
  | [] => []
  | item :: rest =>
    prune (fun path => dropped (.index position :: path)) item ::
      pruneItems dropped (position + 1) rest

end

section Lookup

variable {members : Members} {key : Text}

/-- What is found under a key is the value of a member. -/
theorem mem_of_member? {value : Json} (isMember : member? members key = some value) :
    (key, value) ∈ members := by
  obtain ⟨entry, found, rfl⟩ := Option.map_eq_some_iff.mp isMember
  have same : entry.1 = key := by simpa using List.find?_some found
  exact same ▸ List.mem_reverse.mp (List.mem_of_find?_eq_some found)

/-- A member in front of others counts if none of them has its key. -/
theorem member?_cons (entry : Text × Json) (rest : Members) (key : Text) :
    member? (entry :: rest) key =
      (member? rest key).or (if entry.1 = key then some entry.2 else none) := by
  rw [member?, List.reverse_cons, List.find?_append, member?]
  cases (rest.reverse.find? fun entry => entry.1 = key) with
  | some found => rfl
  | none => by_cases here : entry.1 = key <;> simp [here]

/-- Members behind others count first. -/
theorem member?_append (first second : Members) (key : Text) :
    member? (first ++ second) key = (member? second key).or (member? first key) := by
  induction first with
  | nil => simp [member?]
  | cons entry first inductionHypothesis =>
    rw [List.cons_append, member?_cons, inductionHypothesis, member?_cons, Option.or_assoc]

/-- A member with another key makes no difference. -/
theorem member?_insert {before after : Members} {added : Text} {value : Json}
    (other : added ≠ key) :
    member? (before ++ (added, value) :: after) key = member? (before ++ after) key := by
  rw [member?_append, member?_append, member?_cons, if_neg other, Option.or_none]

/-- Under a key whose value is changed stands the changed value, and nothing else is changed. -/
theorem member?_update (change : Json → Json) (changed : Text) :
    member? (members.map fun entry =>
        if entry.1 = changed then (entry.1, change entry.2) else entry) key =
      if key = changed then (member? members key).map change else member? members key := by
  induction members with
  | nil => by_cases same : key = changed <;> simp [same, member?]
  | cons entry rest inductionHypothesis =>
    rw [List.map_cons, member?_cons, member?_cons, inductionHypothesis]
    by_cases same : key = changed
    · subst same
      by_cases here : entry.1 = key <;> cases member? rest key <;> simp [here]
    · by_cases here : entry.1 = changed
      · simp [same, here, Ne.symm same]
      · simp [same, here]

/-- A key that is left out is found no more, and the others with what is left of their values. -/
theorem member?_prune (dropped : List Step → Bool) :
    member? (pruneMembers dropped members) key =
      if dropped [.key key] then none
      else (member? members key).map (prune fun path => dropped (.key key :: path)) := by
  induction members with
  | nil => by_cases out : dropped [.key key] = true <;> simp [out, pruneMembers, member?]
  | cons entry rest inductionHypothesis =>
    obtain ⟨here, value⟩ := entry
    rw [pruneMembers, member?_cons]
    by_cases same : here = key
    · subst same
      by_cases out : dropped [.key here] = true
      · simp [out, inductionHypothesis]
      · rw [if_neg out, member?_cons, inductionHypothesis]
        cases member? rest here <;> simp [out]
    · have others : member? (if dropped [.key here] = true then pruneMembers dropped rest
          else (here, prune (fun path => dropped (.key here :: path)) value) ::
            pruneMembers dropped rest) key = member? (pruneMembers dropped rest) key := by
        split
        · rfl
        · rw [member?_cons, if_neg same, Option.or_none]
      rw [others, inductionHypothesis, if_neg same, Option.or_none]

end Lookup

mutual

/-- A value of which nothing is left out stays as it is. -/
theorem prune_eq_self {dropped : List Step → Bool} (nothing : ∀ path, dropped path = false) :
    (json : Json) → json.prune dropped = json
  | .object members => by rw [prune, pruneMembers_eq_self nothing members]
  | .list items => by rw [prune, pruneItems_eq_self nothing 0 items]
  | .null | .bool _ | .number _ | .text _ => rfl

/-- Members of which nothing is left out stay as they are. -/
theorem pruneMembers_eq_self {dropped : List Step → Bool} (nothing : ∀ path, dropped path = false) :
    (members : List (Text × Json)) → pruneMembers dropped members = members
  | [] => rfl
  | (key, value) :: rest => by
    rw [pruneMembers, nothing, prune_eq_self (fun _ => nothing _) value,
      pruneMembers_eq_self nothing rest]
    rfl

/-- Items of which nothing is left out stay as they are. -/
theorem pruneItems_eq_self {dropped : List Step → Bool} (nothing : ∀ path, dropped path = false)
    (position : Nat) : (items : List Json) → pruneItems dropped position items = items
  | [] => rfl
  | item :: rest => by
    rw [pruneItems, prune_eq_self (fun _ => nothing _) item,
      pruneItems_eq_self nothing (position + 1) rest]

end

/-- The items that are left are what is left of the items. -/
theorem exists_of_mem_pruneItems {dropped : List Step → Bool} {position : Nat} {items : List Json}
    {item : Json} (member : item ∈ pruneItems dropped position items) :
    ∃ inside, ∃ whole ∈ items, item = whole.prune inside := by
  induction items generalizing position with
  | nil => exact absurd member List.not_mem_nil
  | cons first rest inductionHypothesis =>
    rw [pruneItems, List.mem_cons] at member
    rcases member with rfl | member
    · exact ⟨_, first, List.mem_cons_self, rfl⟩
    · obtain ⟨inside, whole, isItem, left⟩ := inductionHypothesis member
      exact ⟨inside, whole, List.mem_cons_of_mem _ isItem, left⟩

/-- The members that are left are what is left of the members. -/
theorem exists_of_mem_pruneMembers {dropped : List Step → Bool} {members : Members}
    {entry : Text × Json} (member : entry ∈ pruneMembers dropped members) :
    ∃ inside, ∃ whole ∈ members, entry = (whole.1, whole.2.prune inside) := by
  induction members with
  | nil => exact absurd member List.not_mem_nil
  | cons first rest inductionHypothesis =>
    rw [pruneMembers] at member
    split at member
    · obtain ⟨inside, whole, isMember, left⟩ := inductionHypothesis member
      exact ⟨inside, whole, List.mem_cons_of_mem _ isMember, left⟩
    · rcases List.mem_cons.mp member with rfl | member
      · exact ⟨_, first, List.mem_cons_self, rfl⟩
      · obtain ⟨inside, whole, isMember, left⟩ := inductionHypothesis member
        exact ⟨inside, whole, List.mem_cons_of_mem _ isMember, left⟩

namespace Plain

variable {depth : Nat}

/-- What is left of a plain value is plain. -/
theorem prune {json : Json} (plain : Plain depth json) (dropped : List Step → Bool) :
    Plain depth (json.prune dropped) := by
  induction plain generalizing dropped with
  | null => exact .null
  | bool value => exact .bool value
  | text textual => exact .text textual
  | list _ inductionHypothesis =>
    refine .list fun item member => ?_
    obtain ⟨inside, whole, isItem, rfl⟩ := exists_of_mem_pruneItems member
    exact inductionHypothesis whole isItem inside
  | object textual _ inductionHypothesis =>
    constructor
    · intro entry member
      obtain ⟨inside, whole, isMember, rfl⟩ := exists_of_mem_pruneMembers member
      exact textual whole isMember
    · intro entry member
      obtain ⟨inside, whole, isMember, rfl⟩ := exists_of_mem_pruneMembers member
      exact inductionHypothesis whole isMember inside

/-- A plain value stays plain when a plain one is put into it. -/
theorem update {json new : Json} {path : List Step} (plain : Plain (depth + path.length) json)
    (newPlain : Plain depth new) : Plain (depth + path.length) (json.update path fun _ => new) := by
  induction path generalizing json with
  | nil => exact newPlain
  | cons step path inductionHypothesis =>
    cases step with
    | key key =>
      cases plain with
      | @object _ members textual plain =>
        constructor
        · intro entry member
          obtain ⟨whole, isMember, rfl⟩ := List.mem_map.mp member
          split <;> exact textual whole isMember
        · intro entry member
          obtain ⟨whole, isMember, rfl⟩ := List.mem_map.mp member
          split
          · exact inductionHypothesis (plain whole isMember)
          · exact plain whole isMember
      | null => exact .null
      | bool value => exact .bool value
      | text textual => exact .text textual
      | list plain => exact .list plain
    | index position =>
      cases plain with
      | @list _ items plain =>
        rw [Json.update]
        by_cases inside : position < items.length
        · obtain ⟨before, item, after, rfl, -, changed⟩ :=
            List.exists_of_modify (Json.update path fun _ => new) inside
          simp only [List.forall_mem_append, List.forall_mem_cons] at plain
          rw [changed]
          refine .list ?_
          simp only [List.forall_mem_append, List.forall_mem_cons]
          exact ⟨plain.1, inductionHypothesis plain.2.1, plain.2.2⟩
        · rw [List.modify_eq_self (Nat.le_of_not_lt inside)]
          exact .list plain
      | null => exact .null
      | bool value => exact .bool value
      | text textual => exact .text textual
      | object textual plain => exact .object textual plain

end Plain

end ApiDescription.Json
