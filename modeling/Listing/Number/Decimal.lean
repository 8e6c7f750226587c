import Listing.Number.Numeral
set_option autoImplicit false

/-!
# Decimal numbers of arbitrary precision

A decimal keeps the digits and the exponent it was written with. Its text has a point as long as
the exponent is not positive and at most six zeros would stand between the point and the digits;
otherwise it has an exponent. Infinities and quiet or signaling non-numbers with a payload are
decimals too.
-/

namespace Listing

/-- `finite s n e` is `n * 10 ^ e`, negated when `s`. -/
inductive Decimal where
  | finite (negative : Bool) (coefficient : Nat) (exponent : Int)
  | infinite (negative : Bool)
  | nan (negative signaling : Bool) (payload : List Char)
deriving DecidableEq, Repr

namespace Decimal
open Listing.Text

inductive ReadError where
  | malformed
  | outOfRange
deriving DecidableEq, Repr

def maxExponent : Int := 999999999999999999
def minExponent : Int := -1999999999999999997

/-- Whether the exponent of a decimal and that of its first digit are representable. -/
def inRange (coefficient : Nat) (exponent : Int) : Bool :=
  let lead := if coefficient = 0 then exponent else exponent + (digits coefficient).length - 1
  minExponent ≤ exponent && lead ≤ maxExponent

def asciiDigit (c : Char) : Char :=
  match digitValue? c with
  | some d => Char.ofNat (0x30 + d)
  | none => c

/-- The text with blanks at its ends and all underscores removed and its digits made ASCII. -/
def normalized (cs : List Char) : List Char :=
  ((trim cs).filter (· != '_')).map asciiDigit

def asciiDigits (cs : List Char) : Bool := cs.all Char.isDigit

def readUnsigned (negative : Bool) (cs : List Char) : Except ReadError Decimal :=
  match lowerAscii cs with
  | 'i' :: rest =>
    if rest = ['n', 'f'] ∨ rest = "nfinity".toList then .ok (infinite negative)
    else .error .malformed
  | 'n' :: 'a' :: 'n' :: payload =>
    if asciiDigits payload then .ok (nan negative false (payload.dropWhile (· == '0')))
    else .error .malformed
  | 's' :: 'n' :: 'a' :: 'n' :: payload =>
    if asciiDigits payload then .ok (nan negative true (payload.dropWhile (· == '0')))
    else .error .malformed
  | cs =>
    match Numeral.readMagnitude? cs with
    | none => .error .malformed
    | some (n, e) => if inRange n e then .ok (finite negative n e) else .error .outOfRange

def read (cs : List Char) : Except ReadError Decimal :=
  let (negative, cs) := Numeral.takeSign (normalized cs)
  readUnsigned negative cs

def signText (negative : Bool) : List Char := if negative then ['-'] else []

def magnitudeText (n : Nat) (e : Int) : List Char :=
  let ds := digits n
  let whole : Int := e + ds.length
  let place : Int := if e ≤ 0 ∧ -6 < whole then whole else 1
  let body :=
    if place ≤ 0 then '0' :: '.' :: List.replicate (-place).toNat '0' ++ ds
    else
      let fraction := ds.drop place.toNat
      ds.take place.toNat ++ (if fraction.isEmpty then [] else '.' :: fraction)
  if whole = place then body
  else body ++ 'E' :: (if whole < place then '-' else '+') :: digits (whole - place).natAbs

def text : Decimal → String
  | finite s n e => String.ofList (signText s ++ magnitudeText n e)
  | infinite s => String.ofList (signText s ++ "Infinity".toList)
  | nan s signaling payload =>
    String.ofList (signText s ++ (if signaling then ['s'] else []) ++ "NaN".toList ++ payload)

end Decimal
end Listing
