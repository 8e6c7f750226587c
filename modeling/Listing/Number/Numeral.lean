import Listing.Number.Binary64
import Listing.Text.Blank
import Listing.Text.Case
import Listing.Text.Digit
set_option autoImplicit false

/-!
# Numerals

An integer is written as an optional sign and digits of any script, with single underscores
allowed between digits and blanks around the whole. A fractional numeral has the same digits
around an optional point and an optional exponent, or is one of the words for infinity and for no
number. An integer of more than 4300 digits is refused, leading zeros counted.
-/

namespace Listing.Numeral
open Listing.Text

/-- Most digits an integer may be written with. -/
def maxIntegerDigits : Nat := 4300

/-- Longest run of digits with single underscores between them, and the rest of the text. -/
def takeDigits : List Char → List Nat × List Char
  | [] => ([], [])
  | c :: cs =>
    match digitValue? c with
    | some d =>
      match cs with
      | '_' :: c' :: cs' =>
        match digitValue? c' with
        | some _ =>
          let (ds, rest) := takeDigits (c' :: cs')
          (d :: ds, rest)
        | none => ([d], cs)
      | cs =>
        let (ds, rest) := takeDigits cs
        (d :: ds, rest)
    | none => ([], c :: cs)
termination_by cs => cs.length

def takeSign : List Char → Bool × List Char
  | '+' :: cs => (false, cs)
  | '-' :: cs => (true, cs)
  | cs => (false, cs)

def signed (negative : Bool) (n : Nat) : Int := if negative then -(n : Int) else n

def readInteger? (cs : List Char) : Option Int :=
  let (negative, cs) := takeSign (trimBy isNumeralBlank cs)
  match takeDigits cs with
  | ([], _) => none
  | (ds, []) =>
    if ds.length ≤ maxIntegerDigits then some (signed negative (valueOfDigits ds)) else none
  | _ => none

/-- The number nearest to `n * 10 ^ e`. An exponent far outside the format is not computed. -/
def ofScientific (negative : Bool) (n : Nat) (e : Int) : Binary64 :=
  let size : Int := (digits n).length
  if n = 0 then .finite negative 0 (-1074)
  else if 400 < size + e then .infinite negative
  else if size + e < -400 then .finite negative 0 (-1074)
  else if 0 ≤ e then .ofQuotient negative (n * Nat.pow 10 e.toNat) 1
  else .ofQuotient negative n (Nat.pow 10 (-e).toNat)

def readExponent? : List Char → Option Int
  | [] => some 0
  | c :: cs =>
    if c = 'e' ∨ c = 'E' then
      let (negative, cs) := takeSign cs
      match takeDigits cs with
      | ([], _) => none
      | (ds, []) => some (signed negative (valueOfDigits ds))
      | _ => none
    else none

def readMagnitude? (cs : List Char) : Option (Nat × Int) :=
  let (whole, rest) := takeDigits cs
  let (fraction, rest) :=
    match rest with
    | '.' :: rest => takeDigits rest
    | rest => ([], rest)
  if whole.isEmpty && fraction.isEmpty then none
  else
    (readExponent? rest).map fun e =>
      (valueOfDigits (whole ++ fraction), e - fraction.length)

def readBinary64? (cs : List Char) : Option Binary64 :=
  let (negative, cs) := takeSign (trimBy isNumeralBlank cs)
  match String.ofList (lowerAscii cs) with
  | "inf" => some (.infinite negative)
  | "infinity" => some (.infinite negative)
  | "nan" => some .nan
  | _ => (readMagnitude? cs).map fun (n, e) => ofScientific negative n e

end Listing.Numeral
