import MmAudit.Library.Backtracking
import MmAudit.Library.Json
import MmAudit.Library.Scanning
import MmAudit.Library.TextLines
import MmAudit.Library.TextSearch

/-!
# JSON documents in the output of a property engine

The output of an engine is one JSON document, or text with documents on lines of their own.
What the interpreter's library computes on texts is a parameter.
-/

namespace MmAudit

namespace Formal

open Backtracking TextSearch

/-- What the code takes from the standard library. -/
structure Texts where
  /-- `json.loads`, where a text that is no document has no value. -/
  loads : List Char → Option Json
  /-- `json.dumps(value, sort_keys=True)` -/
  dumps : Json → List Char
  /-- `json.dumps(value, sort_keys=True, separators=(",", ":"))` -/
  compactDumps : Json → List Char
  /-- `str` of a value that is no text. -/
  str : Json → List Char
  casefold : List Char → List Char
  lower : List Char → List Char
  /-- `\w` -/
  isWord : Char → Bool

variable (texts : Texts)

/-- `_json_documents`.  What ends a line is stripped with the other spaces. -/
def jsonDocuments (value : List Char) : List Json :=
  if (strip value).isEmpty then []
  else
    match texts.loads value with
    | some document => [document]
    | none => (TextLines.splitLines value).filterMap fun line =>
        let candidate := strip line
        if candidate.head?.any fun char => char = '[' || char = '\x7b' then texts.loads candidate
        else none

mutual

/-- `_walk_dicts` -/
def walkDicts : Json → List Json.Fields
  | .object fields => fields :: walkFields fields
  | .array items => walkItems items
  | _ => []

def walkItems : List Json → List Json.Fields
  | [] => []
  | item :: items => walkDicts item ++ walkItems items

def walkFields : Json.Fields → List Json.Fields
  | [] => []
  | (_, value) :: fields => walkDicts value ++ walkFields fields

end

/-- The objects in some documents. -/
def walkedDicts (documents : List Json) : List Json.Fields :=
  documents.flatMap walkDicts

/-- `" ".join(value.split())[:2_000]` -/
def boundedSummary (value : List Char) : List Char :=
  ([' '].intercalate ((value.splitOnP isSpace).filter (· ≠ []))).take 2000

/-! ## Names in a field -/

/-- `[A-Za-z0-9_]` -/
def isNameCharacter (char : Char) : Bool :=
  char.isAlphanum || char = '_'

/-- `[0-9a-f]` -/
def isHexDigit (char : Char) : Bool :=
  char.isDigit || ('a' ≤ char && char ≤ 'f')

/-- `\b(?P<name>name)\b` at a place of a text. -/
def wordAt (name : Part) (previous : Option Char) (text : List Char) :
    Option (List Char × List Char) :=
  if isBoundary texts.isWord previous text.head? then
    ((name text).find? fun rest =>
      isBoundary texts.isWord (taken text rest).getLast? rest.head?).map fun rest =>
        (taken text rest, rest)
  else
    none

/-- The name that `re.search` finds in the first of some fields that holds one. -/
def nameFromFields (name : Part) (keys : List String) (item : Json.Fields) :
    Option (List Char) :=
  keys.findSome? fun key => do
    let candidate ← (Json.get? item key).bind Json.string?
    let found ← Scanning.search (wordAt texts name) none candidate
    return found.value

/-- `(?:echidna_|invariant_)[A-Za-z0-9_]+` -/
def propertyNamePart : Part :=
  andThen (orElse (literal "echidna_".toList) (literal "invariant_".toList))
    (greedy isNameCharacter)

/-- `_property_name_from_json` -/
def propertyNameFromJson : Json.Fields → Option (List Char) :=
  nameFromFields texts propertyNamePart ["name", "property", "test", "testName", "propertyName"]

/-- The value counts as true.  The text of a number is its `repr`. -/
def isTruthy : Json → Bool
  | .null => false
  | .bool value => value
  | .int value => value ≠ 0
  | .float text => text ≠ "0.0".toList && text ≠ "-0.0".toList
  | .string text => !text.isEmpty
  | .array items => !items.isEmpty
  | .object fields => !fields.isEmpty

/-- `str(item.get("status") or item.get("result") or item.get("state") or "")` -/
def statusText (item : Json.Fields) : List Char :=
  match ["status", "result", "state"].findSome? fun key =>
      (Json.get? item key).filter isTruthy with
  | some (.string text) => text
  | some value => texts.str value
  | none => []

/-- `status.strip().casefold()` -/
def normalizedStatus (item : Json.Fields) : List Char :=
  texts.casefold (strip (statusText texts item))

end Formal

end MmAudit
