import MmAudit.Library.HexText
import MmAudit.Library.TextLines

/-!
# Percent-encoded texts

`unquote(text)` replaces every percent sign with two hexadecimal digits by the byte that they
denote, in each run of ASCII characters, and decodes the bytes of the run.
-/

namespace MmAudit

namespace PercentText

open HexText TextLines

def isAscii (char : Char) : Bool :=
  decide (char.toNat < 128)

/-- `unquote_to_bytes` on ASCII characters -/
def unquoteToBytes : List Char → List UInt8
  | [] => []
  | '%' :: high :: low :: rest =>
      match hexDigit? high, hexDigit? low with
      | some upper, some lower => UInt8.ofNat (upper * 16 + lower) :: unquoteToBytes rest
      | _, _ => UInt8.ofNat '%'.toNat :: unquoteToBytes (high :: low :: rest)
  | char :: rest => UInt8.ofNat char.toNat :: unquoteToBytes rest

/-- The longest runs of characters that are all ASCII characters or all others. -/
def runs (text : List Char) : List (List Char) :=
  text.splitBy fun first second => isAscii first == isAscii second

/-- `unquote` -/
def unquote (text : List Char) : List Char :=
  (runs text).flatMap fun run =>
    if run.all isAscii then decode (unquoteToBytes run) else run

end PercentText

end MmAudit
