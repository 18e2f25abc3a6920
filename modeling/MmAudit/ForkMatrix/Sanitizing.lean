import MmAudit.Library.Fallible
import MmAudit.Library.PercentText
import MmAudit.Library.Stabilizing
import Mathlib.Data.List.Infix

/-!
# Removing ephemeral data from a run

The evidence of an attempt must not keep a private path or an endpoint.  So every text in the
dump of a run is decoded until it is stable and searched, together with the keys, and a run
that keeps one is replaced by a failed run.

The model of a run, the tables of Unicode and the readers of addresses are parameters.
-/

namespace MmAudit

namespace ForkMatrix

open PercentText Stabilizing Fallible

/-- A value of `model_dump(mode="python")`: a text, a mapping, a sequence, or a value that
holds no other value. -/
inductive DumpValue where
  | text (chars : List Char)
  | mapping (entries : List (DumpValue × DumpValue))
  | sequence (items : List DumpValue)
  | other

/-- What is used of Python's texts, of `urlsplit` and of `ipaddress`. -/
structure Texts where
  casefold : List Char → List Char
  /-- The matches of the pattern of addresses in a text. -/
  addresses : List Char → List (List Char)
  /-- The host name of an address, unless the address is not valid. -/
  hostname : List Char → Except Unit (Option (List Char))
  /-- Whether a host is the number of a loopback address. -/
  isLoopbackNumber : List Char → Bool

section Texts

variable (texts : Texts)

/-- `_decoded_forms` -/
def decodedForms (value : List Char) : List (List Char) :=
  forms unquote 16 value

def localhost : List Char :=
  "localhost".toList

def dotLocalhost : List Char :=
  ".localhost".toList

/-- `_uri_is_loopback` -/
def uriIsLoopback (value : List Char) : Bool :=
  match texts.hostname value with
  | .error () => true
  | .ok none => false
  | .ok (some hostname) =>
      let normalized := (texts.casefold hostname).rdropWhile (· = '.')
      if normalized = localhost ∨ dotLocalhost <:+ normalized then true
      else if normalized = "::1".toList ∨ "127.".toList <+: normalized then true
      else texts.isLoopbackNumber normalized

/-- `part in text` -/
def occurs (part text : List Char) : Bool :=
  decide (part <:+: text)

variable (prohibitedPaths prohibitedEndpoints : List (List Char))

/-- The search of one decoded form of a text. -/
def formRetains (form : List Char) : Bool :=
  let casefolded := texts.casefold form
  prohibitedPaths.any (fun path => occurs (texts.casefold path) casefolded) ||
    prohibitedEndpoints.any (fun endpoint => occurs (texts.casefold endpoint) casefolded) ||
      (texts.addresses form).any (uriIsLoopback texts)

/-- `_retains_prohibited_private_reference` on a text -/
def textRetains (value : List Char) : Bool :=
  let last := (decodedForms value).getLastD value
  if (decodedForms value).length = 17 ∧ unquote last ≠ last then true
  else (decodedForms value).any (formRetains texts prohibitedPaths prohibitedEndpoints)

mutual

/-- `_retains_prohibited_private_reference` -/
def retains : DumpValue → Bool
  | .text chars => textRetains texts prohibitedPaths prohibitedEndpoints chars
  | .mapping entries => entriesRetain entries
  | .sequence items => itemsRetain items
  | .other => false

def entriesRetain : List (DumpValue × DumpValue) → Bool
  | [] => false
  | entry :: entries => entryRetains entry || entriesRetain entries

def entryRetains : DumpValue × DumpValue → Bool
  | (key, item) => retains key || retains item

def itemsRetain : List DumpValue → Bool
  | [] => false
  | item :: items => retains item || itemsRetain items

end

end Texts

/-! ## The run -/

structure ValidationError where
  message : String
deriving DecidableEq, Repr

/-- What is used of the model of a run. -/
structure RunModel (Run : Type) where
  dump : Run → List (DumpValue × DumpValue)
  validate : List (DumpValue × DumpValue) → Except ValidationError Run
  expectedObservation : Run → List Char
  /-- The failed run with this detail that finished when the given run did. -/
  failed : Run → String → Run

/-- The field of a payload is assigned. -/
def assign (payload : List (DumpValue × DumpValue)) (field : String) (value : DumpValue) :
    List (DumpValue × DumpValue) :=
  let isField : DumpValue × DumpValue → Bool := fun entry =>
    match entry.1 with
    | .text chars => chars = field.toList
    | _ => false
  if payload.any isField then
    payload.map fun entry => if isField entry then (entry.1, value) else entry
  else
    payload ++ [(.text field.toList, value)]

/-- The paths and endpoints of an attempt. -/
structure Ephemeral where
  originEndpoint : List Char
  bridgeEndpoint : List Char
  privateRoot : List Char
  repositoryExclusionRoot : List Char
  attemptDir : List Char
  matrixRoot : List Char

/-- What `_remove_ephemeral_run_data` returns: the sanitized run or the failed one. -/
inductive Removal (Run : Type) where
  | sanitized (run : Run)
  | replaced (run : Run)

section Removing

variable {Run : Type} (model : RunModel Run) (texts : Texts)
  (absoluteLexical : List Char → List Char)

/-- `_reseal_run` without egress -/
def resealRun (run : Run) : Except ValidationError Run := do
  let payload := assign (assign (assign (model.dump run) "raw_output_path" .other)
    "fork_rpc_egress" .other) "execution_observation_sha256" .other
  let provisional ← model.validate payload
  model.validate (assign payload "execution_observation_sha256"
    (.text (model.expectedObservation provisional)))

/-- The private paths of an attempt, as they are searched for. -/
def prohibitedPaths (ephemeral : Ephemeral) : List (List Char) :=
  [absoluteLexical ephemeral.privateRoot, absoluteLexical ephemeral.repositoryExclusionRoot,
    absoluteLexical ephemeral.matrixRoot, absoluteLexical ephemeral.attemptDir].eraseDups

def prohibitedEndpoints (ephemeral : Ephemeral) : List (List Char) :=
  [ephemeral.originEndpoint, ephemeral.bridgeEndpoint]

/-- The dump of a run keeps a prohibited path or endpoint, or a text that cannot be searched. -/
def runRetains (ephemeral : Ephemeral) (run : Run) : Bool :=
  retains texts (prohibitedPaths absoluteLexical ephemeral) (prohibitedEndpoints ephemeral)
    (.mapping (model.dump run))

/-- `_remove_ephemeral_run_data` -/
def removeEphemeralRunData (ephemeral : Ephemeral) (run : Run) :
    Except ValidationError (Removal Run) :=
  (resealRun model run).map fun sanitized =>
    if runRetains model texts absoluteLexical ephemeral sanitized then
      .replaced (model.failed sanitized
        "The matrix attempt retained prohibited ephemeral execution data.")
    else
      .sanitized sanitized

end Removing

/-! ## Texts at any depth -/

/-- The text is a value or a key of a mapping, at some depth. -/
inductive Holds (chars : List Char) : DumpValue → Prop where
  | text : Holds chars (.text chars)
  | key {entries : List (DumpValue × DumpValue)} {key item : DumpValue}
      (listed : (key, item) ∈ entries) (inside : Holds chars key) : Holds chars (.mapping entries)
  | value {entries : List (DumpValue × DumpValue)} {key item : DumpValue}
      (listed : (key, item) ∈ entries) (inside : Holds chars item) :
      Holds chars (.mapping entries)
  | item {items : List DumpValue} {item : DumpValue} (listed : item ∈ items)
      (inside : Holds chars item) : Holds chars (.sequence items)

section Searching

variable (texts : Texts) (paths endpoints : List (List Char))

theorem entriesRetain_of_mem {entries : List (DumpValue × DumpValue)}
    {entry : DumpValue × DumpValue} (listed : entry ∈ entries)
    (retained : retains texts paths endpoints entry.1 = true ∨
      retains texts paths endpoints entry.2 = true) :
    entriesRetain texts paths endpoints entries = true := by
  induction entries with
  | nil => cases listed
  | cons first entries ih =>
      rw [entriesRetain, Bool.or_eq_true]
      rcases List.mem_cons.mp listed with rfl | later
      · refine Or.inl ?_
        rw [entryRetains, Bool.or_eq_true]
        exact retained
      · exact Or.inr (ih later)

theorem itemsRetain_of_mem {items : List DumpValue} {item : DumpValue} (listed : item ∈ items)
    (retained : retains texts paths endpoints item = true) :
    itemsRetain texts paths endpoints items = true := by
  induction items with
  | nil => cases listed
  | cons first items ih =>
      rw [itemsRetain, Bool.or_eq_true]
      rcases List.mem_cons.mp listed with rfl | later
      · exact Or.inl retained
      · exact Or.inr (ih later)

/-- A text that must not be kept is found at every depth. -/
theorem retains_of_holds {chars : List Char} {value : DumpValue} (holds : Holds chars value)
    (retained : textRetains texts paths endpoints chars = true) :
    retains texts paths endpoints value = true := by
  induction holds with
  | text => exact retained
  | key listed _ ih => exact entriesRetain_of_mem texts paths endpoints listed (Or.inl ih)
  | value listed _ ih => exact entriesRetain_of_mem texts paths endpoints listed (Or.inr ih)
  | item listed _ ih => exact itemsRetain_of_mem texts paths endpoints listed ih

/-- The text contains a prohibited path or endpoint, its case set aside. -/
def Mentions (form : List Char) : Prop :=
  ∃ reference ∈ paths ++ endpoints, texts.casefold reference <:+: texts.casefold form

theorem formRetains_of_mentions {form : List Char}
    (mentions : Mentions texts paths endpoints form) :
    formRetains texts paths endpoints form = true := by
  obtain ⟨reference, listed, inside⟩ := mentions
  unfold formRetains
  rw [Bool.or_eq_true, Bool.or_eq_true, List.any_eq_true, List.any_eq_true]
  rcases List.mem_append.mp listed with path | endpoint
  · exact Or.inl (Or.inl ⟨reference, path, decide_eq_true inside⟩)
  · exact Or.inl (Or.inr ⟨reference, endpoint, decide_eq_true inside⟩)

theorem getLastD_decodedForms (chars : List Char) :
    (decodedForms chars).getLastD chars = lastForm unquote 16 chars := by
  rw [List.getLastD_eq_getLast?, decodedForms, getLast?_forms]
  rfl

/-- A text that needs more than sixteen decodings is not kept. -/
theorem textRetains_of_unstable {chars : List Char}
    (unstable : unquote^[17] chars ≠ unquote^[16] chars) :
    textRetains texts paths endpoints chars = true := by
  obtain ⟨length, last⟩ := forms_of_unstable unquote unstable
  unfold textRetains
  rw [getLastD_decodedForms, last]
  refine if_pos ⟨length, ?_⟩
  rw [← Function.iterate_succ_apply' unquote 16 chars]
  exact unstable

/-- A text is not kept if some number of decodings shows a prohibited path or endpoint. -/
theorem textRetains_of_mentions {chars : List Char} {count : ℕ}
    (mentions : Mentions texts paths endpoints (unquote^[count] chars)) :
    textRetains texts paths endpoints chars = true := by
  unfold textRetains
  rw [getLastD_decodedForms]
  by_cases searched : (decodedForms chars).length = 17 ∧
      unquote (lastForm unquote 16 chars) ≠ lastForm unquote 16 chars
  · exact if_pos searched
  · refine (if_neg searched).trans ?_
    have stable : unquote (lastForm unquote 16 chars) = lastForm unquote 16 chars := by
      by_cases length : (decodedForms chars).length = 17
      · by_contra changes
        exact searched ⟨length, changes⟩
      · have bound := length_forms_le unquote 16 chars
        exact stable_of_length_le unquote (by
          have : (decodedForms chars).length ≠ 17 := length
          rw [decodedForms] at this
          omega)
    exact List.any_eq_true.mpr ⟨_, iterate_mem_forms unquote stable count,
      formRetains_of_mentions texts paths endpoints mentions⟩

end Searching

/-! ## The kept run -/

section Kept

variable {Run : Type} (model : RunModel Run) (texts : Texts)
  (absoluteLexical : List Char → List Char)

/-- A removal reads the resealed run. -/
theorem removal_cases {ephemeral : Ephemeral} {run : Run} {removal : Removal Run}
    (removed : removeEphemeralRunData model texts absoluteLexical ephemeral run = .ok removal) :
    ∃ resealed, resealRun model run = .ok resealed ∧
      ((runRetains model texts absoluteLexical ephemeral resealed = true ∧
          ∃ failed, removal = .replaced failed) ∨
        (runRetains model texts absoluteLexical ephemeral resealed = false ∧
          removal = .sanitized resealed)) := by
  obtain ⟨resealed, sealedRun, rfl⟩ := map_eq_ok_iff.mp removed
  refine ⟨resealed, sealedRun, ?_⟩
  cases retained : runRetains model texts absoluteLexical ephemeral resealed with
  | true => exact Or.inl ⟨rfl, _, rfl⟩
  | false => exact Or.inr ⟨rfl, rfl⟩

/-- A sanitized run mentions no private path and no endpoint, at no depth and after no number
of decodings, and a text that sixteen decodings leave unstable replaces the run. -/
theorem sanitized_run_mentions_nothing (ephemeral : Ephemeral) (run : Run)
    {removal : Removal Run}
    (removed : removeEphemeralRunData model texts absoluteLexical ephemeral run = .ok removal) :
    (∀ kept, removal = .sanitized kept →
      ∀ chars, Holds chars (.mapping (model.dump kept)) → ∀ count,
        ¬Mentions texts (prohibitedPaths absoluteLexical ephemeral)
          (prohibitedEndpoints ephemeral) (unquote^[count] chars)) ∧
      ∀ resealed, resealRun model run = .ok resealed →
        ∀ chars, Holds chars (.mapping (model.dump resealed)) →
          unquote^[17] chars ≠ unquote^[16] chars → ∃ failed, removal = .replaced failed := by
  obtain ⟨resealed, sealedRun, outcome⟩ := removal_cases model texts absoluteLexical removed
  constructor
  · rintro kept rfl chars holds count mentions
    rcases outcome with ⟨_, failed, impossible⟩ | ⟨searched, same⟩
    · cases impossible
    · cases same
      have retained := retains_of_holds texts _ _ holds (textRetains_of_mentions texts _ _ mentions)
      exact absurd retained (by
        rw [runRetains] at searched
        rw [searched]
        exact Bool.false_ne_true)
  · intro other sealedOther chars holds unstable
    have same : resealed = other := Except.ok.inj (sealedRun.symm.trans sealedOther)
    subst same
    rcases outcome with ⟨_, replaced⟩ | ⟨searched, _⟩
    · exact replaced
    · have retained := retains_of_holds texts (prohibitedPaths absoluteLexical ephemeral)
        (prohibitedEndpoints ephemeral) holds (textRetains_of_unstable texts _ _ unstable)
      exact absurd retained (by
        rw [runRetains] at searched
        rw [searched]
        exact Bool.false_ne_true)

end Kept

/-! ## A sample -/

/-- Runs that are their dumps. -/
def sampleModel : RunModel (List (DumpValue × DumpValue)) where
  dump := id
  validate := .ok
  expectedObservation := fun _ => "5e".toList
  failed := fun _ detail => [(.text "detail".toList, .text detail.toList)]

def sampleTexts : Texts where
  casefold := List.map Char.toLower
  addresses := fun _ => []
  hostname := fun _ => .ok none
  isLoopbackNumber := fun _ => false

def sampleEphemeral : Ephemeral where
  originEndpoint := "wss://rpc.node".toList
  bridgeEndpoint := "http://[::1]".toList
  privateRoot := "/tmp/p".toList
  repositoryExclusionRoot := "/tmp/r".toList
  attemptDir := "/tmp/m/a".toList
  matrixRoot := "/tmp/m".toList

/-- A run whose texts are nested and encoded twice. -/
def sampleRun : List (DumpValue × DumpValue) :=
  [(.text "commands".toList, .sequence [.text "forge%2520test".toList, .other])]

def sampleKept : List (DumpValue × DumpValue) :=
  sampleRun ++ [(.text "raw_output_path".toList, .other), (.text "fork_rpc_egress".toList, .other),
    (.text "execution_observation_sha256".toList, .text "5e".toList)]

theorem sampleRun_sanitized :
    removeEphemeralRunData sampleModel sampleTexts id sampleEphemeral sampleRun =
      .ok (.sanitized sampleKept) :=
  rfl

theorem sanitized_run_mentions_nothing_sample :
    ¬Mentions sampleTexts (prohibitedPaths id sampleEphemeral)
      (prohibitedEndpoints sampleEphemeral) (unquote^[2] "forge%2520test".toList) :=
  (sanitized_run_mentions_nothing sampleModel sampleTexts id sampleEphemeral sampleRun
    sampleRun_sanitized).1 sampleKept rfl _
    (.value (List.mem_cons_self) (.item List.mem_cons_self .text)) 2

end ForkMatrix

end MmAudit
