import MmAudit.Verification.Mismatches

/-!
# The comparisons of a run verification

The three comparisons of `verify_run_evidence` that report files, and the payload that is
made of what they report.  A comparison raises where the constructor of a mismatch does.
What the system answers while the files are looked at is a parameter.
-/

namespace MmAudit

namespace Verification

open Fallible SortedSets Ignore Discovery Context

/-! ## Looking at a source -/

/-- What the system answers when a path is opened or looked up. -/
inductive Answer (Value : Type) where
  | found (value : Value)
  | notFound
  | refused

/-- Why a source was not observed. -/
inductive Unobserved where
  | missing
  | isUnsafe
deriving DecidableEq, Repr

def Unobserved.kind : Unobserved → RunVerificationMismatchKind
  | .missing => .missing
  | .isUnsafe => .isUnsafe

def Answer.orUnobserved {Value : Type} : Answer Value → Except Unobserved Value
  | .found value => .ok value
  | .notFound => .error .missing
  | .refused => .error .isUnsafe

structure FileStatus (Identity : Type) where
  isRegular : Bool
  links : ℕ
  size : ℕ
  identity : Identity

/-- A file that was opened: its identity before and after it was read, and its bytes. -/
structure OpenedFile (Identity : Type) where
  opened : Identity
  data : List UInt8
  finished : Identity

/-- The answers below the root of the repository, one after the other. -/
structure SourceTree (Identity : Type) where
  openRoot : Answer Unit
  /-- Whether what was opened at the path is a directory. -/
  openDirectory : Path → Answer Bool
  before : Path → Answer (FileStatus Identity)
  openFile : Path → Answer (OpenedFile Identity)
  after : Path → Answer (FileStatus Identity)

section Observing

variable {Digest Identity : Type} [DecidableEq Identity]
  (texts : Texts Digest) (tree : SourceTree Identity)

/-- The directories above the last name of a path, from an opened directory on. -/
def openDirectories : Path → Path → Except Unobserved Unit
  | _, [] => .ok ()
  | _, [_] => .ok ()
  | directory, part :: rest => do
      let isDirectory ← (tree.openDirectory (directory ++ [part])).orUnobserved
      raiseIf (isDirectory = false) .isUnsafe
      openDirectories (directory ++ [part]) rest

/-- The part of `_observe_source_binding` that asks the system. -/
def observe (path : Path) : Except Unobserved (Digest × ℕ) := do
  tree.openRoot.orUnobserved
  openDirectories tree [] path
  let before ← (tree.before path).orUnobserved
  raiseIf (before.isRegular = false ∨ before.links ≠ 1 ∨ 100000000 < before.size) .isUnsafe
  let file ← (tree.openFile path).orUnobserved
  let after ← (tree.after path).orUnobserved
  let data := file.data.take (before.size + 1)
  raiseIf (file.opened ≠ before.identity ∨ file.finished ≠ before.identity ∨
    after.identity ≠ before.identity ∨ data.length ≠ before.size) .isUnsafe
  return (texts.sha256 data, data.length)

/-- `_observe_source_binding` -/
def observeSourceBinding (path : Path) :
    Except ValueError (Except Unobserved (Digest × ℕ)) :=
  match normalizeRelativePath texts.control path.text with
  | none => .error (normalizeError texts.control path)
  | some normalized => .ok (observe texts tree normalized)

end Observing

/-! ## The sources of the manifest -/

section Sources

variable {Digest Identity : Type} [DecidableEq Digest] [DecidableEq Identity]
  (texts : Texts Digest) (tree : SourceTree Identity)

/-- What is reported of a source that was looked at. -/
def sourceMismatch (identifierPrefix : List Char) (expected : ManifestFileBinding texts) :
    Except Unobserved (Digest × ℕ) → Option (MismatchFields Digest)
  | .error unobserved =>
      some { category := .source
             identifier := identifierPrefix ++ expected.path.text
             kind := unobserved.kind
             expectedSha256 := some expected.sha256
             expectedSize := some expected.size }
  | .ok (sha256, size) =>
      if sha256 ≠ expected.sha256 ∨ size ≠ expected.size then
        some { category := .source
               identifier := identifierPrefix ++ expected.path.text
               kind := .changed
               expectedSha256 := some expected.sha256
               observedSha256 := some sha256
               expectedSize := some expected.size
               observedSize := some size }
      else
        none

/-- One turn of the loop of `_source_binding_mismatches`. -/
def compareSource (identifierPrefix : List Char) (expected : ManifestFileBinding texts) :
    Except ValueError (Option (RunVerificationMismatch Digest)) := do
  let observed ← observeSourceBinding texts tree expected.path
  (sourceMismatch texts identifierPrefix expected observed).mapM report

/-- `_source_binding_mismatches` -/
def sourceBindingMismatches (identifierPrefix : List Char)
    (expectedSources : List (ManifestFileBinding texts)) :
    Except ValueError (List (RunVerificationMismatch Digest)) :=
  (expectedSources.mapM (compareSource texts tree identifierPrefix)).map List.reduceOption

/-- `_source_mismatches` -/
def sourceMismatches (manifest : RunEvidenceManifest texts) :
    Except ValueError (List (RunVerificationMismatch Digest)) :=
  sourceBindingMismatches texts tree [] manifest.sources

end Sources

/-! ## The sources of the language-capability artifact -/

/-- The languages of the suffixes of files. -/
def languages : List (List Char × String) :=
  [(".py", "Python"), (".js", "JavaScript"), (".jsx", "JavaScript"), (".mjs", "JavaScript"),
    (".cjs", "JavaScript"), (".ts", "TypeScript"), (".tsx", "TypeScript"), (".go", "Go"),
    (".rs", "Rust"), (".java", "Java"), (".kt", "Kotlin"), (".kts", "Kotlin"), (".rb", "Ruby"),
    (".php", "PHP"), (".cs", "C#"), (".c", "C"), (".cc", "C++"), (".cpp", "C++"),
    (".h", "C/C++ Header"), (".hpp", "C++ Header"), (".sol", "Solidity"), (".sh", "Shell"),
    (".yml", "YAML"), (".yaml", "YAML"), (".json", "JSON"), (".toml", "TOML"), (".xml", "XML"),
    (".tf", "Terraform"), (".sql", "SQL"), (".html", "HTML"), (".jinja", "Template"),
    (".j2", "Template"), (".md", "Markdown")].map fun entry => (entry.1.toList, entry.2)

/-- `source_language_for_path` -/
def sourceLanguageForPath (lower : List Char → List Char) (path : Path) : String :=
  (languages.lookup (lower (suffix path.name))).getD "Text"

/-- The part of the configuration that discovery reads. -/
structure AuditConfig where
  repository : DiscoveryConfig
  priorAudit : Option PriorAuditPath

/-- What a verification finds besides the sources of the manifest. -/
structure Surroundings (Digest : Type) where
  config : Option AuditConfig
  /-- What opening and parsing the language-capability artifact gives. -/
  capability : Except ValueError (LanguageCapabilityArtifact Digest)
  /-- The run directory below the repository root, where it lies there. -/
  currentRun : Option Path
  /-- The tree that discovery walks, unless it refuses the root. -/
  discovered : Except ValueError FileTree
  changed : Finset (List Char)
  gitCommit : Option String

def capabilityPrefix : List Char :=
  "language-capability/".toList

def languageEnding : List Char :=
  "/language".toList

def omissionsName : List Char :=
  "omissions".toList

section Capability

variable {Digest Identity : Type} [DecidableEq Digest] [DecidableEq Identity]
  (texts : Texts Digest) (tree : SourceTree Identity) (around : Surroundings Digest)

/-- The rules that the artifact recorded, with the output of this run left out again. -/
def rebuiltMatcher (artifact : LanguageCapabilityArtifact Digest) : IgnoreMatcher where
  rules :=
    match artifact.runtimeOutputExclusionRoot, around.currentRun with
    | some output, some run =>
        if run.take output.length = output then
          artifact.effectiveIgnoreRules ++ [['/'] ++ output.text ++ ['/']]
        else
          artifact.effectiveIgnoreRules
    | _, _ => artifact.effectiveIgnoreRules

def discoveryMapping : Mapping Digest where
  lower := texts.lower
  sha256 := texts.sha256
  language := sourceLanguageForPath texts.lower
  categories := texts.categories

/-- The discovery that is compared with the inventory, without the prior audit. -/
def rediscover (artifact : LanguageCapabilityArtifact Digest) (config : AuditConfig) :
    Except ValueError (DiscoveryResult Digest) := do
  let tree ← around.discovered
  let discovery ← discoverRepository (discoveryMapping texts) tree
    (matcherRules texts.lower texts.control (rebuiltMatcher around artifact)) config.repository
    around.changed around.gitCommit
  return (withholdPriorAuditFromDiscovery discovery config.priorAudit).1

/-- The artifact could not be read. -/
def inventoryUnverifiable (binding : Option (ManifestFileBinding texts)) :
    MismatchFields Digest where
  category := .artifact
  identifier := "language-capability/source-inventory".toList
  kind := .unverifiable
  expectedSha256 := binding.map fun binding => binding.sha256
  expectedSize := binding.map fun binding => binding.size

def languageMismatch (file : LanguageCapabilityFile Digest) : MismatchFields Digest where
  category := .source
  identifier := capabilityPrefix ++ file.path.text ++ languageEnding
  kind := .unverifiable
  expectedSha256 := some file.sha256
  expectedSize := some file.size

/-- The inventory could not be found again. -/
def reconstructionUnverifiable : MismatchFields Digest where
  category := .source
  identifier := "language-capability/source-inventory/reconstruction".toList
  kind := .unverifiable

def foundAt (files : List (MappedFile Digest)) (path : Path) : Option (MappedFile Digest) :=
  files.find? fun file => file.relativePath = path

theorem lawfulBEq_identifier : LawfulBEq (List Char) :=
  inferInstance

attribute [local instance] lawfulBEq_identifier

/-- What is reported of a file of the inventory that discovery does not find as it was. -/
def inventoryMismatch (existing : List (List Char)) (files : List (MappedFile Digest))
    (expected : LanguageCapabilityFile Digest) : Option (MismatchFields Digest) :=
  let identifier := capabilityPrefix ++ expected.path.text
  match foundAt files expected.path with
  | none =>
      if identifier ∉ existing then
        some { category := .source
               identifier := identifier
               kind := .missing
               expectedSha256 := some expected.sha256
               expectedSize := some expected.size }
      else
        none
  | some observed =>
      if identifier ∉ existing ∧
          (observed.sha256 ≠ expected.sha256 ∨ observed.size ≠ expected.size) then
        some { category := .source
               identifier := identifier
               kind := .changed
               expectedSha256 := some expected.sha256
               observedSha256 := some observed.sha256
               expectedSize := some expected.size
               observedSize := some observed.size }
      else
        none

def addedMismatch (observed : MappedFile Digest) : MismatchFields Digest where
  category := .source
  identifier := capabilityPrefix ++ observed.relativePath.text
  kind := .unexpected
  observedSha256 := some observed.sha256
  observedSize := some observed.size

def omissionsMismatch (expected observed : List (List Char)) : MismatchFields Digest where
  category := .source
  identifier := capabilityPrefix ++ omissionsName
  kind := .changed
  expectedSha256 := some (texts.canonicalSha256 expected)
  observedSha256 := some (texts.canonicalSha256 observed)
  expectedSize := some expected.length
  observedSize := some observed.length

def wrongLanguage (file : LanguageCapabilityFile Digest) : Bool :=
  decide (sourceLanguageForPath texts.lower file.path ≠ file.language)

/-- The discovered files that the inventory does not have. -/
def addedFiles (artifact : LanguageCapabilityArtifact Digest) (files : List (MappedFile Digest)) :
    List (MappedFile Digest) :=
  files.filter fun file => !(artifact.files.map fun known => known.path).contains file.relativePath

/-- What is reported of the omissions. -/
def omissionsChange (artifact : LanguageCapabilityArtifact Digest)
    (discovery : DiscoveryResult Digest) : Option (MismatchFields Digest) :=
  if sortedSet discovery.omitted ≠ artifact.omitted then
    some (omissionsMismatch texts artifact.omitted (sortedSet discovery.omitted))
  else
    none

/-- The comparison of the inventory with a discovery, after what was reported before. -/
def discoveryMismatches (artifact : LanguageCapabilityArtifact Digest)
    (before : List (RunVerificationMismatch Digest)) (discovery : DiscoveryResult Digest) :
    Except ValueError (List (RunVerificationMismatch Digest)) := do
  let existing := before.map fun mismatch => mismatch.identifier
  let inventory ←
    (artifact.files.filterMap (inventoryMismatch existing discovery.files)).mapM report
  let added ← ((addedFiles artifact discovery.files).map addedMismatch).mapM report
  let omissions ← (omissionsChange texts artifact discovery).toList.mapM report
  return before ++ inventory ++ added ++ omissions

/-- The discovery, where there is a configuration and discovery does not raise. -/
def rediscovered (artifact : LanguageCapabilityArtifact Digest) :
    Option (DiscoveryResult Digest) :=
  around.config.bind fun config => (rediscover texts around artifact config).toOption

/-- The comparisons with an artifact whose paths were all bound. -/
def artifactMismatches (artifact : LanguageCapabilityArtifact Digest)
    (sourceBindings : List (ManifestFileBinding texts)) :
    Except ValueError (List (RunVerificationMismatch Digest)) := do
  let changed ← sourceBindingMismatches texts tree capabilityPrefix sourceBindings
  let misnamed ← ((artifact.files.filter (wrongLanguage texts)).map languageMismatch).mapM report
  match rediscovered texts around artifact with
  | none =>
      (report reconstructionUnverifiable).map fun mismatch => changed ++ misnamed ++ [mismatch]
  | some discovery => discoveryMismatches texts artifact (changed ++ misnamed) discovery

/-- The files of the artifact as sources of a manifest. -/
def boundFiles (artifact : LanguageCapabilityArtifact Digest) :
    Except ValueError (List (ManifestFileBinding texts)) :=
  artifact.files.mapM fun file => manifestFileBinding texts file.path.text file.sha256 file.size

/-- The artifact with its bound files, if it was read and its paths were all accepted. -/
def readArtifact :
    Except ValueError (LanguageCapabilityArtifact Digest × List (ManifestFileBinding texts)) := do
  let artifact ← around.capability
  let sourceBindings ← boundFiles texts artifact
  return (artifact, sourceBindings)

/-- `_language_capability_source_mismatches` -/
def languageCapabilitySourceMismatches (manifest : RunEvidenceManifest texts) :
    Except ValueError (List (RunVerificationMismatch Digest)) :=
  match manifest.artifacts.find? fun binding =>
      binding.path.text = languageCapabilityArtifactPath with
  | none =>
      if manifest.schemaVersion ≠ .v12 then .ok []
      else [inventoryUnverifiable texts none].mapM report
  | some binding =>
      match readArtifact texts around with
      | .error _ => [inventoryUnverifiable texts (some binding)].mapM report
      | .ok (artifact, sourceBindings) => artifactMismatches texts tree around artifact sourceBindings

end Capability

/-! ## The artifacts of the run -/

def certificateMark : List Char :=
  "benchmark-certificate".toList

section Artifacts

variable {Digest : Type} [DecidableEq Digest] (texts : Texts Digest)

/-- The binding under a path in the dictionary of the bindings. -/
def bindingAt (bindings : List (ManifestFileBinding texts)) (path : List Char) :
    Option (ManifestFileBinding texts) :=
  bindings.reverse.find? fun binding => binding.path.text = path

def categoryOf (path : List Char) (default : RunVerificationCategory) : RunVerificationCategory :=
  if certificateMark <:+: path then .certificate else default

/-- One turn of the loop of `_file_binding_mismatches`. -/
def bindingMismatch (default : RunVerificationCategory)
    (expectedBindings observedBindings : List (ManifestFileBinding texts)) (path : List Char) :
    Option (MismatchFields Digest) :=
  match bindingAt texts expectedBindings path, bindingAt texts observedBindings path with
  | none, some observed =>
      some { category := categoryOf path default
             identifier := path
             kind := .unexpected
             observedSha256 := some observed.sha256
             observedSize := some observed.size }
  | some expected, none =>
      some { category := categoryOf path default
             identifier := path
             kind := .missing
             expectedSha256 := some expected.sha256
             expectedSize := some expected.size }
  | some expected, some observed =>
      if expected.sha256 ≠ observed.sha256 ∨ expected.size ≠ observed.size then
        some { category := categoryOf path default
               identifier := path
               kind := .changed
               expectedSha256 := some expected.sha256
               observedSha256 := some observed.sha256
               expectedSize := some expected.size
               observedSize := some observed.size }
      else
        none
  | none, none => none

/-- The paths of both lists of bindings. -/
def bindingPaths (expectedBindings observedBindings : List (ManifestFileBinding texts)) :
    List (List Char) :=
  sortedSet ((expectedBindings ++ observedBindings).map fun binding => binding.path.text)

/-- `_file_binding_mismatches` -/
def fileBindingMismatches (expectedBindings observedBindings : List (ManifestFileBinding texts))
    (default : RunVerificationCategory) :
    Except ValueError (List (RunVerificationMismatch Digest)) :=
  ((bindingPaths texts expectedBindings observedBindings).filterMap
    (bindingMismatch texts default expectedBindings observedBindings)).mapM report

end Artifacts

/-! ## The verification -/

section Verifying

variable {Digest Identity : Type} [DecidableEq Digest] [DecidableEq Identity]
  (texts : Texts Digest)

/-- The evidence that was recorded, and what is there now. -/
structure Evidence (Identity : Type) extends Surroundings Digest where
  manifest : RunEvidenceManifest texts
  tree : SourceTree Identity
  observedArtifacts : List (ManifestFileBinding texts)

variable (evidence : Evidence texts Identity)

/-- What the three comparisons report. -/
def fileMismatches : Except ValueError (List (RunVerificationMismatch Digest)) := do
  let sources ← sourceMismatches texts evidence.tree evidence.manifest
  let capability ← languageCapabilitySourceMismatches texts evidence.tree evidence.toSurroundings
    evidence.manifest
  let artifacts ← fileBindingMismatches texts evidence.manifest.artifacts
    evidence.observedArtifacts .artifact
  return sources ++ capability ++ artifacts

/-- The payload of `verify_run_evidence` on what the three comparisons report. -/
def verifyFiles : Except ValueError (RunVerificationPayload Digest) := do
  let mismatches ← fileMismatches texts evidence
  let ordered := sortedBy (fun mismatch => mismatch.sortKey) mismatches
  payload { status := if ordered.isEmpty then .current else .stale
            runId := evidence.manifest.runId
            manifestSha256 := evidence.manifest.manifestSha256
            mismatches := ordered }

end Verifying

end Verification

end MmAudit
