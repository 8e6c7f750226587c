import Listing.Text.Digit
import Listing.Text.Utf8
set_option autoImplicit false

/-!
# Query strings

A query string is a row of fields between ampersands, each a key and a value at the first equals
sign. A plus is a blank and a percent sign with two hexadecimal digits is a byte of UTF-8; other
percent signs stand for themselves. Writing escapes every byte but letters, digits and `_.-~`.
-/

namespace Listing.UrlEncoded
open Listing.Text

/-- Decode percent escapes. `bytes` are the bytes of the current run of ASCII characters, the last
one first; a character outside ASCII ends the run and stands for itself. -/
def unescapeFrom (bytes : List Nat) : List Char → List Char
  | [] => Utf8.decode bytes.reverse
  | '%' :: a :: b :: cs =>
    match hexValue? a, hexValue? b with
    | some x, some y => unescapeFrom ((16 * x + y) :: bytes) cs
    | _, _ => unescapeFrom ('%'.toNat :: bytes) (a :: b :: cs)
  | c :: cs =>
    if c.toNat < 0x80 then unescapeFrom (c.toNat :: bytes) cs
    else Utf8.decode bytes.reverse ++ c :: unescapeFrom [] cs
termination_by cs => cs.length

def unescape (cs : List Char) : String :=
  String.ofList (unescapeFrom [] (cs.map fun c => if c = '+' then ' ' else c))

def field (cs : List Char) : String × String :=
  (unescape (cs.takeWhile (· != '=')), unescape ((cs.dropWhile (· != '=')).drop 1))

def fields (query : List Char) : List (String × String) :=
  ((query.splitOn '&').filter (!·.isEmpty)).map field

def isPlain (b : Nat) : Bool :=
  (0x30 ≤ b && b ≤ 0x39) || (0x41 ≤ b && b ≤ 0x5A) || (0x61 ≤ b && b ≤ 0x7A) ||
    b == 0x5F || b == 0x2E || b == 0x2D || b == 0x7E

def escapeByte (b : Nat) : List Char :=
  if isPlain b then [Char.ofNat b]
  else if b = 0x20 then ['+']
  else '%' :: (paddedHex 2 b).map Char.toUpper

def escape (s : String) : List Char := (Utf8.encode s.toList).flatMap escapeByte

def render (fields : List (String × String)) : List Char :=
  ['&'].intercalate (fields.map fun f => escape f.1 ++ '=' :: escape f.2)

end Listing.UrlEncoded
