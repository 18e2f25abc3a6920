import MmAudit.Library.Fallible
import MmAudit.Library.Glob
import MmAudit.Library.Json
import MmAudit.Library.TextLines
import Mathlib.Data.List.DropRight

/-!
# Paths, names and checksums of locked packages

The texts that a lockfile and a snapshot use: relative paths, which are normalized as they
are read, npm names and the paths they appear at, exact versions, and integrity values.

A preparation that fails raises one of three things.  It rejects the project, it raises
something that its caller turns into a failed result, or it raises something that the caller
does not expect.
-/

namespace MmAudit

namespace Dependencies

open Fallible

inductive DependencyScanStatus where
  | notRun
  | passed
  | failed
deriving DecidableEq, Repr

/-- What a preparation raises. -/
inductive Failure where
  | rejected (message : String) (checks : List (String × Bool)) (scanStatus : DependencyScanStatus)
  | failed (exception : String)
  | escaping (exception : String)
deriving DecidableEq, Repr

/-- `_PreparationRejected` without further evidence. -/
def rejection (message : String) : Failure :=
  .rejected message [] .notRun

def valueError : Failure :=
  .failed "ValueError"

def validationError : Failure :=
  .failed "ValidationError"

/-! ## Relative paths -/

/-- A letter and a colon. -/
def hasDrive : List Char → Bool
  | letter :: ':' :: _ => letter.isAlpha
  | _ => false

def isControl (char : Char) : Bool :=
  decide (char.toNat < 32) || char.toNat == 127

/-- The text of a relative path, as pathlib writes it. -/
def asPosix (parts : List (List Char)) : List Char :=
  if parts = [] then ['.'] else Glob.pathText parts

/-- `_safe_relative` -/
def safeRelative (value : List Char) : Except Failure (List Char) := do
  raiseIf (value = [] ∨ '\\' ∈ value ∨ value.head? = some '/' ∨ value.head? = some '-' ∨
    hasDrive value = true ∨ value.any isControl = true) valueError
  raiseIf (['.', '.'] ∈ Glob.pathParts value) valueError
  return asPosix (Glob.pathParts value)

/-! ## npm names -/

def isNameStart (char : Char) : Bool :=
  char.isLower || char.isDigit

def isNameChar (char : Char) : Bool :=
  isNameStart char || char = '.' || char = '_' || char = '-'

/-- A scope or the name of a package in it. -/
def isNameWord : List Char → Bool
  | [] => false
  | first :: rest => isNameStart first && rest.all isNameChar

/-- `_NPM_NAME` -/
def isNpmName : List Char → Bool
  | '@' :: rest =>
      match rest.splitOn '/' with
      | [scope, name] => isNameWord scope && isNameWord name
      | _ => false
  | name => isNameWord name

/-- `_VERSION` -/
def isVersion : List Char → Bool
  | [] => false
  | first :: rest =>
      first.isAlphanum && decide (rest.length ≤ 127) &&
        rest.all fun char => char.isAlphanum || char = '.' || char = '+' || char = '_' || char = '-'

def nodeModules : List Char :=
  "node_modules".toList

/-- The text begins with the directory of the packages. -/
def isBelowNodeModules (path : List Char) : Bool :=
  (nodeModules ++ ['/']).isPrefixOf path

/-- The parts after the last directory of packages. -/
def packageTail (parts : List (List Char)) : Option (List (List Char)) :=
  if nodeModules ∈ parts then
    some (parts.rtakeWhile (· ≠ nodeModules))
  else
    none

/-- `_npm_name_from_lock_path` -/
def npmNameFromLockPath (lockPath : List Char) : Except Failure (List Char) := do
  let name ← (match packageTail (Glob.pathParts lockPath) with
    | some [name] => .ok name
    | some [scope, name] =>
        if scope.head? = some '@' then .ok (scope ++ '/' :: name) else .error valueError
    | _ => .error valueError)
  raiseIf (isNpmName name = false) valueError
  return name

/-! ## Integrity values -/

def isBase64Char (char : Char) : Bool :=
  char.isAlphanum || char = '+' || char = '/'

/-- How many bytes are decoded from so many characters and so many signs of padding. -/
def base64Length (chars padding : ℕ) : Option ℕ :=
  if chars % 4 = 0 ∧ padding = 0 then some (chars / 4 * 3)
  else if chars % 4 = 2 ∧ padding = 2 then some (chars / 4 * 3 + 1)
  else if chars % 4 = 3 ∧ padding = 1 then some (chars / 4 * 3 + 2)
  else none

/-- The characters and the padding of a text that `_INTEGRITY` matches. -/
def matchIntegrity (integrity : List Char) : Option (ℕ × ℕ) :=
  if "sha512-".toList.isPrefixOf integrity then
    let encoded := integrity.drop 7
    let chars := encoded.rdropWhile (· = '=')
    let padding := encoded.length - chars.length
    if chars ≠ [] ∧ chars.all isBase64Char = true ∧ padding ≤ 2 then
      some (chars.length, padding)
    else
      none
  else
    none

/-- `_lock_integrity` -/
def lockIntegrity (entry : Json.Fields) : Except Failure (List Char) :=
  match (Json.field? entry "integrity").bind Json.string? with
  | none => .error (rejection "every locked package requires sha512 integrity")
  | some integrity =>
      match matchIntegrity integrity with
      | none => .error (rejection "every locked package requires sha512 integrity")
      | some (chars, padding) =>
          match base64Length chars padding with
          | none => .error (rejection "package-lock integrity is not valid base64")
          | some length =>
              if length = 64 then .ok integrity
              else .error (rejection "package-lock integrity must contain a sha512 digest")

/-! ## Package URLs -/

def hexDigit (value : ℕ) : Char :=
  Char.ofNat (if value < 10 then 48 + value else 55 + value)

/-- `quote` of the standard library, with one more safe character. -/
def quote (safe : Option Char) (text : List Char) : List Char :=
  text.flatMap fun char =>
    if char.isAlphanum || ['_', '.', '-', '~'].contains char || safe = some char then [char]
    else (String.utf8EncodeChar char).flatMap fun byte =>
      ['%', hexDigit (byte.toNat / 16), hexDigit (byte.toNat % 16)]

/-- `_npm_purl` -/
def npmPurl (name version : List Char) : List Char :=
  "pkg:npm/".toList ++ quote (some '/') name ++ '@' :: quote none version

/-- A name can be read in more than one spelling of its path. -/
example : safeRelative "node_modules/./a".toList = safeRelative "node_modules//a/".toList := by
  decide +kernel

end Dependencies

end MmAudit
