import ApiDescription.Toml

/-!
# Building TOML tables

A TOML document is a sequence of headers and entries that fill one table. A table may be
declared once and extended by dotted keys only inside the section that began it; an
inline table or array is closed, and nothing can be added below it. An array of
tables gets a new last item with each of its headers, and the rules start anew below
that item.
-/

namespace ApiDescription.Toml

/-- The parts of a dotted key. -/
abbrev Key := List String

/-- The entries of a table. -/
abbrev Entries := List (String × Toml)

/-- Replaces the value of a key that is there. -/
def replace (key : String) (value : Toml) (entries : Entries) : Entries :=
  entries.map fun entry => if entry.1 = key then (key, value) else entry

/-- Changes the table under a dotted key, which is created if it is not there. Where an
array of tables is on the way and may be entered, its last item is meant. -/
def update (entersArrays : Bool) (change : Entries → Option Entries) :
    Key → Entries → Option Entries
  | [], entries => change entries
  | part :: rest, entries =>
    match entries.lookup part with
    | none =>
      (update entersArrays change rest []).map fun inner => entries ++ [(part, .table inner)]
    | some (.table inner) =>
      (update entersArrays change rest inner).map fun changed =>
        replace part (.table changed) entries
    | some (.list items) =>
      match entersArrays, items.getLast? with
      | true, some (.table inner) =>
        (update entersArrays change rest inner).map fun changed =>
          replace part (.list (items.dropLast ++ [.table changed])) entries
      | _, _ => none
    | some _ => none

/-- Adds an entry under a key that is not there yet. -/
def add (key : String) (value : Toml) (entries : Entries) : Option Entries :=
  match entries.lookup key with
  | none => some (entries ++ [(key, value)])
  | some _ => none

/-- Adds an empty table to the array of tables under a key. -/
def addItem (key : String) (entries : Entries) : Option Entries :=
  match entries.lookup key with
  | none => some (entries ++ [(key, .list [.table []])])
  | some (.list items) => some (replace key (.list (items ++ [.table []])) entries)
  | some _ => none

/-- The parts of a dotted key as a message shows them. -/
def shownKey (key : Key) : String :=
  "(" ++ String.intercalate ", " (key.map fun (part : String) => Text.quoted part) ++
    (if key.length = 1 then ",)" else ")")

/-- The outcome of a change that cannot be made where a value stands in the way. -/
def unlessValue (changed : Option Entries) : Except String Entries :=
  match changed with
  | some entries => .ok entries
  | none => .error "Cannot overwrite a value"

/-- Whether a value is an inline table or an array. -/
def isCollection : Toml → Bool
  | .list _ | .table _ => true
  | _ => false

/-- A document being built: its entries so far, the tables that may not be declared
again, those that will not be once the section ends, the closed values, and the key of
the section. -/
structure Draft where
  entries : Entries := []
  declared : List Key := []
  pending : List Key := []
  closed : List Key := []
  header : Key := []

namespace Draft

/-- Whether nothing can be added below a key. -/
def isClosed (draft : Draft) (key : Key) : Bool := draft.closed.any (·.isPrefixOf key)

/-- The draft at the end of a section. -/
def endSection (draft : Draft) : Draft :=
  { draft with declared := draft.declared ++ draft.pending, pending := [] }

/-- Fails because nothing can be added below a key. -/
def rejectClosed {α : Type} (key : Key) : Except String α :=
  .error ("Cannot mutate immutable namespace " ++ shownKey key)

/-- Opens the section of a table. -/
def openTable (key : Key) (draft : Draft) : Except String Draft := do
  let draft := draft.endSection
  if draft.declared.contains key || draft.isClosed key then
    throw ("Cannot declare " ++ shownKey key ++ " twice")
  let entries ← unlessValue (update true some key draft.entries)
  return { draft with entries, declared := key :: draft.declared, header := key }

/-- Opens the section of a new item of an array of tables. What was declared below
earlier items is forgotten. -/
def openItem (key : Key) (draft : Draft) : Except String Draft := do
  let draft := draft.endSection
  if draft.isClosed key then rejectClosed key
  let entries ← unlessValue
    (update true (addItem (key.getLastD "")) key.dropLast draft.entries)
  let outside := fun (other : Key) => !key.isPrefixOf other
  return { draft with
    entries
    declared := key :: draft.declared.filter outside
    closed := draft.closed.filter outside
    header := key }

/-- Adds an entry to the section. The tables that its dotted key passes through must not
be declared elsewhere, and cannot be declared later. -/
def addEntry (key : Key) (value : Toml) (draft : Draft) : Except String Draft := do
  let passed := ((List.range key.length).drop 1).map fun count =>
    draft.header ++ key.take count
  match passed.find? draft.declared.contains with
  | some other => throw ("Cannot redefine namespace " ++ shownKey other)
  | none => pure ()
  let parent := draft.header ++ key.dropLast
  if draft.isClosed parent then rejectClosed parent
  let entries ← unlessValue
    (update true (add (key.getLastD "") value) parent draft.entries)
  return { draft with
    entries
    pending := draft.pending ++ passed
    closed :=
      if value.isCollection then (draft.header ++ key) :: draft.closed else draft.closed }

end Draft

/-- An inline table being built: its entries so far, and the closed values. -/
structure InlineDraft where
  entries : Entries := []
  closed : List Key := []

/-- Adds an entry to an inline table. -/
def InlineDraft.addEntry (key : Key) (value : Toml) (draft : InlineDraft) :
    Except String InlineDraft := do
  if draft.closed.any (·.isPrefixOf key) then Draft.rejectClosed key
  let last := key.getLastD ""
  let parents ← unlessValue (update false some key.dropLast draft.entries)
  match update false (add last value) key.dropLast parents with
  | some entries =>
    return { entries, closed := if value.isCollection then key :: draft.closed else draft.closed }
  | none => throw ("Duplicate inline table key " ++ Text.quoted last)

end ApiDescription.Toml
