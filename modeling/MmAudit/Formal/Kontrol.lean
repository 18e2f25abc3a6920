import MmAudit.Formal.Documents
import MmAudit.Library.SortedSets
import Mathlib.Data.Char
import Mathlib.Data.List.Lex

/-!
# Results of Kontrol

`parse_kontrol_output` takes failed proofs from JSON documents, and from the text itself where
these give none.
-/

namespace MmAudit

namespace Formal

open Backtracking SortedSets

structure KontrolCounterexample where
  propertyName : List Char
  counterexample : Json.Fields

def maxCounterexamples : ℕ :=
  64

variable (texts : Texts)

/-! ## From JSON documents -/

/-- `_property_name` -/
def kontrolPropertyName : Json.Fields → Option (List Char) :=
  nameFromFields texts
    (andThen (literal "testKontrol_".toList) (exactly isHexDigit 24))
    ["test", "name", "property", "proof"]

/-- `_status` -/
def kontrolStatus (item : Json.Fields) : Option (List Char) :=
  ["status", "result", "outcome"].findSome? fun key =>
    ((Json.get? item key).bind Json.string?).map fun value =>
      (texts.lower (TextSearch.strip value)).map fun char => if char = ' ' then '_' else char

/-- `_bounded_json`, with the depth that is left. -/
def boundedJson : ℕ → Json → Json
  | 0, _ => .string "<depth-limit>".toList
  | depth + 1, value =>
      match value with
      | .string text => .string (text.take 2000)
      | .array items => .array ((items.take 64).map (boundedJson depth))
      | .object fields => .object
          ((((sortedBy Prod.fst fields).take 64).filter fun field =>
            ["command", "cwd", "query_file"].all (·.toList ≠ field.1)).foldl (fun bounded field =>
              Json.setField bounded (String.ofList (field.1.take 200)) (boundedJson depth field.2))
            [])
      | other => other

/-- `_counterexample` -/
def kontrolCounterexample (item : Json.Fields) : Json.Fields :=
  let normalized := match (Json.get? item "counterexample").map (boundedJson 8) with
    | some (.object fields) => fields
    | _ => []
  let counterexample := ["depth", "nodes", "iterations"].foldl (fun counterexample key =>
    match Json.get? item key with
    | some (.int value) =>
        if 0 ≤ value then Json.setField counterexample key (.int value) else counterexample
    | _ => counterexample) normalized
  if (Json.get? counterexample "summary").isSome then counterexample
  else counterexample ++ [("summary".toList, .string
    ("Kontrol produced a bounded failed proof for ".toList ++
      (kontrolPropertyName texts item).getD "property".toList))]

/-- The property of an object that reports a failed proof. -/
def kontrolFailedProperty (item : Json.Fields) : Option (List Char) :=
  (kontrolPropertyName texts item).filter fun _ =>
    (kontrolStatus texts item).any fun status =>
      ["failed", "failure", "counterexample", "violated"].any (·.toList = status)

/-- The loop over the objects: what it has seen, and what it has found. -/
def kontrolJsonLoop : List Json.Fields → List (List Char × List Char) →
    List KontrolCounterexample → List KontrolCounterexample
  | [], _, found => found
  | item :: items, seen, found =>
      match kontrolFailedProperty texts item with
      | none => kontrolJsonLoop items seen found
      | some propertyName =>
          let counterexample := kontrolCounterexample texts item
          let key := (propertyName, texts.compactDumps (.object counterexample))
          if key ∈ seen then kontrolJsonLoop items seen found
          else
            let found := found ++ [{ propertyName, counterexample }]
            if maxCounterexamples ≤ found.length then found
            else kontrolJsonLoop items (key :: seen) found

/-! ## From the text -/

/-- `testKontrol_[0-9a-f]{24}`, ignoring case. -/
def kontrolPropertyPart : Part :=
  andThen (oneOf ["testKontrol_".toList]) (exactly (fun char => isHexDigit (foldLetter char)) 24)

/-- `.{0,500}?`, where the dot matches every character. -/
def kontrolGap : Part :=
  upTo (fun _ => true) 500

/-- `counterexample|failed|failure|violated`, ignoring case. -/
def kontrolStatusPart : Part :=
  oneOf ["counterexample".toList, "failed".toList, "failure".toList, "violated".toList]

/-- `pattern` with the name and the whole match. -/
def kontrolPattern : List Char → Option ((List Char × List Char) × List Char) :=
  attribution kontrolPropertyPart kontrolGap kontrolStatusPart

/-- The loop over the matches. -/
def kontrolTextLoop : List (List Char × List Char) → List KontrolCounterexample →
    List KontrolCounterexample
  | [], found => found
  | (propertyName, shown) :: matched, found =>
      if found.any (·.propertyName = propertyName) then kontrolTextLoop matched found
      else
        let found := found ++ [{
          propertyName
          counterexample := [("summary".toList, .string (boundedSummary shown))] }]
        if maxCounterexamples ≤ found.length then found
        else kontrolTextLoop matched found

/-- `parse_kontrol_output` -/
def parseKontrolOutput (raw : List Char) : List KontrolCounterexample :=
  match kontrolJsonLoop texts (walkedDicts (jsonDocuments texts raw)) [] [] with
  | [] => sortedBy KontrolCounterexample.propertyName
      (kontrolTextLoop (findAll kontrolPattern (raw.take 2000000)) [])
  | found => sortedBy KontrolCounterexample.propertyName found

end Formal

end MmAudit
