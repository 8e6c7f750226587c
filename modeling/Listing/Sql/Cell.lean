import Listing.Number.Word64
import Listing.Sql.ColumnType
import Listing.Sql.RealText
import Listing.Time.Iso
set_option autoImplicit false

/-!
# Cells

What a database stores: nothing, integers, floating point numbers and texts. Columns have an
affinity, which says as what an operand is read when it is compared with the column. Numbers come
before texts, and nothing comes first.
-/

namespace Listing.Sql
open Listing.Text

inductive Cell where
  | null
  | int (n : Int)
  | real (x : Binary64)
  | text (s : String)
deriving DecidableEq, Repr, Inhabited

inductive Affinity where
  | number
  | text
  | none
deriving DecidableEq, Repr

def affinityOf : ColumnType → Affinity
  | .string => .text
  | .text => .text
  | .labels => .text
  | .enum _ => .text
  | .uuid => .text
  | .binary => .none
  | .array => .none
  | .unknown => .none
  | _ => .number

namespace Cell

def isSpace (c : Char) : Bool := c == ' ' || (9 ≤ c.toNat && c.toNat ≤ 13)

def takeAsciiDigits (cs : List Char) : List Nat × List Char :=
  ((cs.takeWhile Char.isDigit).map fun c => c.toNat - 0x30, cs.dropWhile Char.isDigit)

def takeExponent (cs : List Char) : Option (Bool × List Nat) × List Char :=
  match cs with
  | c :: after =>
    if c == 'e' || c == 'E' then
      let (negative, after) := Numeral.takeSign after
      let (ds, rest) := takeAsciiDigits after
      if ds.isEmpty then (none, cs) else (some (negative, ds), rest)
    else (none, cs)
  | [] => (none, [])

/-- The longest number at the start of a text without blanks before it, and the rest. -/
def takeNumber (cs : List Char) : Option Cell × List Char :=
  let (negative, after) := Numeral.takeSign cs
  let (whole, after) := takeAsciiDigits after
  let pointed := after.head? == some '.'
  let (fraction, after) := if pointed then takeAsciiDigits (after.drop 1) else ([], after)
  if whole.isEmpty && fraction.isEmpty then (none, cs)
  else
    let (exponent, rest) := takeExponent after
    let integer := Numeral.signed negative (valueOfDigits whole)
    if !pointed && exponent.isNone && Word64.holds integer then
      (some (.int integer), rest)
    else
      let (negativeExponent, digits) := exponent.getD (false, [])
      (some (.real (RealText.ofDigits negative whole fraction negativeExponent digits)), rest)

def numberOfText? (s : String) : Option Cell :=
  match takeNumber (trimBy isSpace s.toList) with
  | (some c, []) => some c
  | _ => none

def leadingNumber (s : String) : Cell :=
  (takeNumber (s.toList.dropWhile isSpace)).1.getD (.int 0)

def text? : Cell → Option String
  | null => none
  | int n => some (toString n)
  | real x => some (RealText.write x)
  | text s => some s

def rank : Cell → Nat
  | null => 0
  | int _ => 1
  | real _ => 1
  | text _ => 2

def compareWithin : Cell → Cell → Ordering
  | int m, int n => compare m n
  | int n, real x => ((x.compareInt? n).map Ordering.swap).getD .eq
  | real x, int n => (x.compareInt? n).getD .eq
  | real x, real y => (x.compare? y).getD .eq
  | text s, text t => if s < t then .lt else if s = t then .eq else .gt
  | _, _ => .eq

def order (a b : Cell) : Ordering :=
  match compare a.rank b.rank with
  | .eq => compareWithin a b
  | o => o

def asNumber : Cell → Cell
  | text s => (numberOfText? s).getD (text s)
  | c => c

def asText (c : Cell) : Cell := (c.text?.map text).getD null

/-- Two cells as they are compared, given the affinities they come with. -/
def aligned (a b : Affinity) (x y : Cell) : Cell × Cell :=
  match a, b with
  | .number, .number => (x, y)
  | .number, _ => (x, y.asNumber)
  | _, .number => (x.asNumber, y)
  | .text, .none => (x, y.asText)
  | .none, .text => (x.asText, y)
  | _, _ => (x, y)

def compare? (a b : Affinity) (x y : Cell) : Option Ordering :=
  if x = null ∨ y = null then none
  else
    let (x, y) := aligned a b x y
    some (order x y)

/-- A floating point number without a fraction as an integer, if it fits inside 64 bits. -/
def asInteger : Cell → Cell
  | real x =>
    match x.toInt? with
    | some n => if Word64.least < n ∧ n < Word64.greatest then int n else real x
    | none => real x
  | c => c

def asReal : Cell → Cell
  | int n => real (.ofInt n)
  | c => c

def stored (t : ColumnType) (c : Cell) : Cell :=
  match t, affinityOf t with
  | .float, _ => c.asNumber.asReal
  | _, .number => c.asNumber.asInteger
  | _, .text => c.asText
  | _, .none => c

def ofValue (t : ColumnType) (v : Value) : Cell :=
  stored t <| match t, v with
  | _, .bool b => int b.toNat
  | _, .int n => int n
  | _, .float x => if x.isNan then null else real x
  | .datetime, .text s => text (((IsoDate.read? s.toList).map DateTime.storedText).getD s)
  | _, .text s => text s
  | _, .datetime d => text d.storedText
  | _, .member m => text m.name
  | _, _ => null

def plain : Cell → Value
  | null => .null
  | int n => .int n
  | real x => .float x
  | text s => .text s

def toValue (t : ColumnType) (c : Cell) : Value :=
  match t, c with
  | .boolean, int n => .bool (n != 0)
  | .boolean, real x => .bool (x.toRat? != some 0)
  | .datetime, text s => ((IsoDate.read? s.toList).map Value.datetime).getD (.text s)
  | .enum e, text s => ((e.ofName? s).map Value.member).getD (.text s)
  | _, c => c.plain

end Cell
end Listing.Sql
