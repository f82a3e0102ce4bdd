import ApiDescription.Text.CodePoint

/-!
# Type expressions

A type expression keeps at every level the name it was written with. The reader
of descriptions computes that name from the parts; a decoded tree may bring any
name, and it is kept as it came.
-/

namespace ApiDescription

/-- A type: builtin, declared elsewhere, of any value, or built from other types. -/
inductive TypeExpr where
  | primitive (name : Text)
  | named (name : Text)
  | interface (name : Text)
  | array (name : Text) (value : TypeExpr)
  | map (name : Text) (key : Text) (value : TypeExpr)
  | pointer (name : Text) (target : TypeExpr)
  deriving DecidableEq, Repr, Inhabited

namespace TypeExpr

/-- The type as it was written. -/
def name : TypeExpr → Text
  | primitive name | named name | interface name => name
  | array name _ | map name _ _ | pointer name _ => name

/-- The names of the builtin types. -/
def primitiveNames : List String :=
  ["bool", "uint8", "uint16", "uint32", "uint64", "int8", "int16", "int32", "int64",
   "float32", "float64", "complex64", "complex128", "string", "int", "uint", "uintptr",
   "byte", "rune"]

/-- The name of the empty interface. -/
def emptyInterface : Text := Text.ofString "interface\x7b\x7d"

/-- The type a bare word names. -/
def ofName (word : Text) : TypeExpr :=
  if word = Text.ofString "any" then .interface word
  else if (primitiveNames.map Text.ofString).contains word then .primitive word
  else .named word

/-- The type a word names has that name. -/
@[simp] theorem name_ofName (word : Text) : (ofName word).name = word := by
  unfold ofName
  split
  · rfl
  · split <;> rfl

/-- A pointer to a type, named as it is written. -/
def pointerTo (target : TypeExpr) : TypeExpr := .pointer (Text.ofString "*" ++ target.name) target

/-- An array or slice of a type, named as it is written. -/
def arrayOf (size : Text) (value : TypeExpr) : TypeExpr :=
  .array (Text.ofString "[" ++ size ++ Text.ofString "]" ++ value.name) value

/-- A map between types, named as it is written. -/
def mapOf (key value : TypeExpr) : TypeExpr :=
  .map (Text.ofString "map[" ++ key.name ++ Text.ofString "]" ++ value.name) key.name value

end TypeExpr

end ApiDescription
