import MmAudit.Library.Glob
import MmAudit.Library.Fallible
import Mathlib.Data.List.DropRight

/-!
# The ignore rules of a repository

A small matcher in the style of an ignore file.  A rule may be negated, and the last
rule that matches decides; sensitive names and the permanent exclusions cannot be
negated.  Discovery does not descend into a directory that is ignored, unless a
negated rule could include something below it.

Paths are lists of names, as they are after normalization.  How Python lowers the case
of a text is a parameter.
-/

namespace MmAudit

namespace Ignore

/-- One component of a normalized path. -/
structure Name where
  chars : List Char
  nonempty : chars ≠ []
  noSeparator : '/' ∉ chars ∧ '\\' ∉ chars
  notDots : chars ≠ ['.'] ∧ chars ≠ ['.', '.']
deriving DecidableEq, Repr

/-- A path relative to the root of the repository. -/
abbrev Path := List Name

namespace Path

def parts (path : Path) : List (List Char) :=
  path.map Name.chars

/-- The path as text. -/
def text (path : Path) : List Char :=
  Glob.pathText path.parts

/-- The last component. -/
def name (path : Path) : List Char :=
  path.parts.getLastD []

/-- The path lies strictly below the directory. -/
def Below (directory path : Path) : Prop :=
  ∃ rest, rest ≠ [] ∧ path = directory ++ rest

end Path

structure ValueError where
  message : String
deriving DecidableEq, Repr

/-! ## One pattern -/

/-- What `_matches` reads off a pattern before it looks at the path. -/
structure Shape where
  rooted : Bool
  directory : Bool
  core : List Char
deriving DecidableEq, Repr

def shapeOf (pattern : List Char) : Shape :=
  let unrooted := pattern.dropWhile (· = '/')
  { rooted := pattern.head? = some '/'
    directory := unrooted.getLast? = some '/'
    core := unrooted.rdropWhile (· = '/') }

/-- `_matches` -/
def pathMatches (path : Path) (pattern : List Char) (isDir : Bool) : Except ValueError Bool :=
  let shape := shapeOf pattern
  if shape.core.isEmpty then
    .ok false
  else if shape.directory then
    if shape.core.contains '/' || shape.rooted then
      .ok (path.text == shape.core || (shape.core ++ ['/']).isPrefixOf path.text)
    else
      .ok (path.parts.dropLast.contains shape.core || isDir && path.parts.contains shape.core)
  else if !shape.core.contains '/' then
    .ok (Glob.fnmatch path.name shape.core || path.parts.any (Glob.fnmatch · shape.core))
  else if Glob.fnmatch path.text shape.core then
    .ok true
  else
    match Glob.pathMatch path.parts shape.core with
    | some matched => .ok matched
    | none => .error ⟨"empty pattern"⟩

/-! ## Sensitive names -/

section Sensitive

variable (lower : List Char → List Char)

def sensitiveFileNames : List (List Char) :=
  ["credential", "credentials", "credentials.json", "id_ed25519", "id_rsa", "key", "key.json",
    "keys", "keystore", "keystore.json", "mnemonic", "mnemonic.txt", "mnemonics", "seed",
    "seed.txt", "seeds", "secrets.json", "wallet", "wallet.json", "wallets"].map String.toList

def sensitiveBeginnings : List (List Char) :=
  ["credential.", "credentials.", "key.", "keys.", "keystore.", "mnemonic.", "mnemonics.",
    "seed.", "seeds.", "wallet.", "wallets."].map String.toList

def sensitiveEndings : List (List Char) :=
  [".key", ".keystore", ".pem", ".wallet"].map String.toList

def auditableSourceSuffixes : List (List Char) :=
  [".c", ".cc", ".cpp", ".go", ".h", ".hpp", ".java", ".js", ".jsx", ".kt", ".php", ".py", ".rb",
    ".rs", ".sol", ".ts", ".tsx", ".vy", ".yul"].map String.toList

def controlPlaneDirectoryNames : List (List Char) :=
  [".aws", ".azure", ".docker", ".git", ".gnupg", ".kube", ".ssh"].map String.toList

def controlPlaneFileNames : List (List Char) :=
  [".netrc", ".npmrc", ".pypirc"].map String.toList

def controlPlanePathSequences : List (List (List Char)) :=
  [[".config", "gcloud"].map String.toList]

def envBeginning : List Char :=
  ".env.".toList

/-- The suffix of a name: from its last dot on, where that is neither its first nor its last
character. -/
def suffix (name : List Char) : List Char :=
  let extension_ := name.rtakeWhile (· ≠ '.')
  if extension_.length + 1 < name.length && !extension_.isEmpty then '.' :: extension_ else []

def isSensitiveWorkspaceName (name : List Char) : Bool :=
  let normalized := lower name
  if normalized = ".env".toList || envBeginning.isPrefixOf normalized then
    true
  else if auditableSourceSuffixes.contains (suffix normalized) then
    false
  else
    sensitiveBeginnings.any (·.isPrefixOf normalized) ||
      sensitiveEndings.any (·.isSuffixOf normalized) || sensitiveFileNames.contains normalized

/-- A name that makes everything at and below it sensitive. -/
def isControlPlaneName (part : List Char) : Bool :=
  controlPlaneDirectoryNames.contains part || part = ".env".toList || envBeginning.isPrefixOf part

def isSensitiveWorkspacePath (path : Path) (isDir : Bool) : Bool :=
  let parts := path.parts.map lower
  if parts.isEmpty then
    false
  else if parts.any isControlPlaneName then
    true
  else if controlPlanePathSequences.any fun sequence => parts.tails.any sequence.isPrefixOf then
    true
  else if isDir then
    false
  else
    controlPlaneFileNames.contains (parts.getLastD []) ||
      isSensitiveWorkspaceName lower (parts.getLastD [])

end Sensitive

/-! ## Rules -/

def permanentExclusions : List (List Char) :=
  [".git", ".git/**", ".env", ".env.*", "**/.env", "**/.env.*", "operator-secrets.example",
    "**/operator-secrets.example", "*.keystore", "**/*.keystore", "*.pem", "*.key", "**/*.pem",
    "**/*.key", ".ssh", ".ssh/**", "**/.ssh", "**/.ssh/**", ".aws", ".aws/**", "**/.aws",
    "**/.aws/**", ".azure", ".azure/**", "**/.azure", "**/.azure/**", ".config/gcloud",
    ".config/gcloud/**", "**/.config/gcloud", "**/.config/gcloud/**", ".kube/config",
    "**/.kube/config", ".docker/config.json", "**/.docker/config.json", ".netrc", "**/.netrc",
    ".npmrc", "**/.npmrc", ".pypirc", "**/.pypirc", "id_rsa", "**/id_rsa", "id_ed25519",
    "**/id_ed25519"].map String.toList

def defaultExclusions : List (List Char) :=
  [".git/", "node_modules/", "vendor/", "dist/", "build/", "coverage/", ".next/", "target/",
    "out/", "artifacts/", "cache/", "broadcast/", ".venv/", "venv/", "__pycache__/", "*.min.js",
    "*.map", "*.lock", "*.png", "*.jpg", "*.jpeg", "*.gif", "*.pdf", "*.zip", "*.tar", "*.gz",
    "*.pem", "*.key", ".env", ".env.*", ".mmaudit/", ".mmaudit/runs/",
    ".mmaudit/latest/"].map String.toList

def negated (rawRule : List Char) : Bool :=
  rawRule.head? = some '!'

/-- The pattern of a rule. -/
def ruleOf (rawRule : List Char) : List Char :=
  if negated rawRule then rawRule.tail else rawRule

/-- The rules that a matcher works with, in order. -/
structure IgnoreMatcher where
  rules : List (List Char)
deriving DecidableEq, Repr

namespace IgnoreMatcher

/-- The default exclusions followed by the rules of the user. -/
def ofUserRules (rules : List (List Char)) : IgnoreMatcher :=
  ⟨defaultExclusions ++ rules⟩

variable (lower : List Char → List Char) (matcher : IgnoreMatcher)

def permanentlyExcluded (path : Path) (isDir : Bool) : Except ValueError Bool :=
  permanentExclusions.anyM (pathMatches path · isDir)

/-- What one rule makes of the decision so far. -/
def applyRule (path : Path) (isDir ignored : Bool) (rawRule : List Char) :
    Except ValueError Bool :=
  (pathMatches path (ruleOf rawRule) isDir).map fun matched =>
    if matched then !negated rawRule else ignored

def ignored (path : Path) (isDir : Bool) : Except ValueError Bool :=
  if isSensitiveWorkspacePath lower path isDir then
    .ok true
  else do
    let decided ← matcher.rules.foldlM (applyRule path isDir) false
    let permanent ← permanentlyExcluded path isDir
    return permanent || decided

/-- Whether `may_include_descendant` expects the rule to reach below the directory. -/
def foreseen (directory : Path) (rawRule : List Char) : Bool :=
  let normalized := directory.text ++ ['/']
  let rule := (rawRule.tail.dropWhile (· = '/')).rdropWhile (· = '/')
  let isMetacharacter := fun char => char = '*' || char = '?' || char = '['
  let literalBeginning := rule.takeWhile (!isMetacharacter ·)
  let wildcardMayReach := rule.any isMetacharacter &&
    (literalBeginning.isEmpty || literalBeginning.isPrefixOf normalized)
  normalized.isPrefixOf rule || normalized.isPrefixOf literalBeginning || wildcardMayReach

def mayIncludeDescendant (directory : Path) : Except ValueError Bool :=
  if isSensitiveWorkspacePath lower directory true then
    .ok false
  else do
    let permanent ← permanentlyExcluded directory true
    return !permanent && matcher.rules.any fun rawRule =>
      negated rawRule && foreseen directory rawRule

/-- Whether discovery leaves a directory out together with everything below it. -/
def prunes (directory : Path) : Except ValueError Bool := do
  if ← matcher.ignored lower directory true then
    return !(← matcher.mayIncludeDescendant lower directory)
  else
    return false

end IgnoreMatcher

end Ignore

end MmAudit
