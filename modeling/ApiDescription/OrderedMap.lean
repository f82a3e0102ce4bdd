/-!
# Ordered maps

A map from keys to values that remembers the order in which its keys were first
written. Writing a key again replaces its value and keeps its position.
-/

namespace ApiDescription

/-- Entries in the order of their keys' first writing; no key occurs twice. -/
structure OrderedMap (κ α : Type) where
  entries : List (κ × α) := []
  distinct : (entries.map Prod.fst).Nodup := by simp
  deriving DecidableEq, Repr

namespace OrderedMap

variable {κ α : Type} [DecidableEq κ]

/-- Replaces the value of a key where it stands, or adds the key at the end. -/
def write (key : κ) (value : α) : List (κ × α) → List (κ × α)
  | [] => [(key, value)]
  | (other, old) :: rest =>
    if other = key then (key, value) :: rest else (other, old) :: write key value rest

/-- Writing a key leaves the other keys as they are. -/
theorem mem_keys_write {key other : κ} {value : α} {entries : List (κ × α)} :
    other ∈ (write key value entries).map Prod.fst ↔
      other = key ∨ other ∈ entries.map Prod.fst := by
  induction entries with
  | nil => simp [write]
  | cons entry rest inductionHypothesis =>
    obtain ⟨here, old⟩ := entry
    by_cases same : here = key
    · subst same; simp [write]
    · simp only [write, same, ↓reduceIte, List.map_cons, List.mem_cons, inductionHypothesis]
      constructor
      · rintro (first | second | third)
        · exact .inr (.inl first)
        · exact .inl second
        · exact .inr (.inr third)
      · rintro (first | second | third)
        · exact .inr (.inl first)
        · exact .inl second
        · exact .inr (.inr third)

/-- Writing a key keeps the keys distinct. -/
theorem nodup_keys_write {key : κ} {value : α} {entries : List (κ × α)}
    (distinct : (entries.map Prod.fst).Nodup) :
    ((write key value entries).map Prod.fst).Nodup := by
  induction entries with
  | nil => simp [write]
  | cons entry rest inductionHypothesis =>
    obtain ⟨here, old⟩ := entry
    simp only [List.map_cons, List.nodup_cons] at distinct
    by_cases same : here = key
    · subst same; simpa [write] using distinct
    · rw [write, if_neg same, List.map_cons, List.nodup_cons, mem_keys_write, not_or]
      exact ⟨⟨same, distinct.1⟩, inductionHypothesis distinct.2⟩

/-- The map without entries. -/
def empty : OrderedMap κ α := {}

instance : Inhabited (OrderedMap κ α) := ⟨empty⟩

/-- Writes a key: the value is replaced in place, or the key is added at the end. -/
def insert (map : OrderedMap κ α) (key : κ) (value : α) : OrderedMap κ α :=
  ⟨write key value map.entries, nodup_keys_write map.distinct⟩

/-- The value of a key. -/
def get? (map : OrderedMap κ α) (key : κ) : Option α := map.entries.lookup key

/-- Writes entries one after the other. -/
def ofList (entries : List (κ × α)) : OrderedMap κ α :=
  entries.foldl (fun map entry => map.insert entry.1 entry.2) empty

/-- Whether the map has no entries. -/
def isEmpty (map : OrderedMap κ α) : Bool := map.entries.isEmpty

end OrderedMap

end ApiDescription
