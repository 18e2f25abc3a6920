import MmAudit.Formal.Documents

/-!
# Textual results of property engines

`PropertyToolAdapter.parse` reads a counterexample out of every name of a property that a
failing word follows in the same line.
-/

namespace MmAudit

namespace Formal

open Backtracking

inductive FormalToolStatus where
  | success
  | unavailable
  | failed
  | timedOut
  | inconclusive
  | skipped
deriving DecidableEq

inductive FormalResultKind where
  | proof
  | counterexample
  | unknown
  | none
deriving DecidableEq

/-- The evidence of one result.  The locations and the confidence are left out. -/
structure FormalEvidence where
  tool : String
  propertyId : List Char
  propertyDescription : List Char
  status : FormalToolStatus
  resultKind : FormalResultKind
  assumptions : List (List Char)
  counterexample : Json.Fields
  artifactPaths : List (List Char)

/-- `_property_counterexample_evidence` -/
def propertyCounterexampleEvidence (tool : String) (propertyName : List Char)
    (counterexample : Json.Fields) : FormalEvidence where
  tool
  propertyId := propertyName
  propertyDescription := "Property engine produced a counterexample for ".toList ++ propertyName
  status := .success
  resultKind := .counterexample
  assumptions := ["Configured bounded property campaign".toList]
  counterexample
  artifactPaths := []

/-- `_property_pass_evidence` -/
def propertyPassEvidence (tool : String) (propertyName : List Char) : FormalEvidence where
  tool
  propertyId := propertyName
  propertyDescription := "Bounded property campaign completed for ".toList ++ propertyName
  status := .success
  resultKind := .none
  assumptions := ["Configured bounded property campaign".toList]
  counterexample := []
  artifactPaths := []

/-! ## `PropertyToolAdapter.parse` -/

/-- The prefixes of a property: `invariant_|echidna_`. -/
def propertyPrefixes : List (List Char) :=
  ["invariant_".toList, "echidna_".toList]

/-- `(?:invariant_|echidna_)[A-Za-z0-9_]+`, ignoring case. -/
def failurePropertyPart : Part :=
  andThen (oneOf propertyPrefixes) (greedy fun char => isNameCharacter (foldLetter char))

/-- `fail(?:ed|ure)?|counterexample`, ignoring case. -/
def failureResultPart : Part :=
  orElse
    (andThen (caseless "fail".toList)
      (maybe (orElse (caseless "ed".toList) (caseless "ure".toList))))
    (caseless "counterexample".toList)

/-- `.*?` -/
def restOfLine : Part := fun text =>
  upTo (· ≠ '\n') text.length text

/-- `failure_pattern` with the text from its match on. -/
def failurePattern (text : List Char) :
    Option ((List Char × List Char) × List Char) :=
  (attribution failurePropertyPart restOfLine failureResultPart text).map fun found =>
    ((found.1.1, text), found.2)

/-- The two streams of an engine as one text. -/
def combined (stdout stderr : List Char) : List Char :=
  ['\n'].intercalate [stdout, stderr]

/-- `PropertyToolAdapter.parse` -/
def parseTextual (tool : String) (stdout stderr : List Char) : List FormalEvidence :=
  (findAll failurePattern (combined stdout stderr)).map fun found =>
    propertyCounterexampleEvidence tool found.1
      [("summary".toList, .string (boundedSummary found.2))]

end Formal

end MmAudit
