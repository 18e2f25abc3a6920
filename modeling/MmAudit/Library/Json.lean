import Mathlib.Data.List.Basic
import Mathlib.Data.Int.Notation

/-!
# JSON values

A value as a reader returns it: integers apart from other numbers, and objects as their
fields in order.  A field that is missing reads as a missing value, and so does a null
where a value is expected.
-/

namespace MmAudit

inductive Json where
  | null
  | bool (value : Bool)
  | int (value : ℤ)
  | float (text : List Char)
  | string (text : List Char)
  | array (items : List Json)
  | object (fields : List (List Char × Json))

namespace Json

/-- The fields of an object. -/
abbrev Fields := List (List Char × Json)

/-- The value of a field, unless it is missing or null. -/
def field? (fields : Fields) (key : String) : Option Json :=
  match (fields.find? (·.1 = key.toList)).map Prod.snd with
  | some .null => none
  | value => value

/-- The value of a field, a null included, unless it is missing. -/
def get? (fields : Fields) (key : String) : Option Json :=
  (fields.find? (·.1 = key.toList)).map Prod.snd

/-- The keys of an object are all among the given ones. -/
def keysWithin (fields : Fields) (keys : List String) : Bool :=
  fields.all fun field => keys.any (·.toList = field.1)

/-- The value of a field is assigned, in the place of a field that exists. -/
def setField (fields : Fields) (key : String) (value : Json) : Fields :=
  if fields.any (·.1 = key.toList) then
    fields.map fun field => if field.1 = key.toList then (field.1, value) else field
  else
    fields ++ [(key.toList, value)]

/-- The value is this text. -/
def isText : Json → List Char → Bool
  | .string text, other => text = other
  | _, _ => false

def object? : Json → Option Fields
  | .object fields => some fields
  | _ => none

def array? : Json → Option (List Json)
  | .array items => some items
  | _ => none

def string? : Json → Option (List Char)
  | .string text => some text
  | _ => none

def int? : Json → Option ℤ
  | .int value => some value
  | _ => none

end Json

end MmAudit
