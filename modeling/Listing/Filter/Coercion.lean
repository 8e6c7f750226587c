import Listing.Fault
import Listing.Number.Numeral
import Listing.Sql.ColumnType
import Listing.Time.FreeForm
import Listing.Time.Iso
set_option autoImplicit false

/-!
# Coercion of operands

A text that filters a column is turned into a value of the column's kind where the text denotes
one, and stays a text otherwise. Values that are no texts are kept.
-/

namespace Listing.Coercion
open Listing.Text

def trueWords : List String := ["true", "1", "t", "yes", "y"]
def falseWords : List String := ["false", "0", "f", "no", "n"]

def readBool? (s : String) : Option Bool :=
  let word := String.ofList (lowerAscii (trim s.toList))
  if trueWords.contains word then some true
  else if falseWords.contains word then some false
  else none

/-- An integer numeral, or the integer part of a fractional one. Infinity has none. -/
def toInteger (s : String) : Outcome Value :=
  match Numeral.readInteger? s.toList with
  | some n => .ok (.int n)
  | none =>
    match Numeral.readBinary64? s.toList with
    | none => .ok (.text s)
    | some .nan => .ok (.text s)
    | some (.infinite _) => .error .infiniteToInteger
    | some x => .ok ((x.truncate?.map Value.int).getD (.text s))

def toDateTime (s : String) : Outcome Value :=
  match IsoDate.read? s.toList with
  | some t => .ok (.datetime t)
  | none =>
    match FreeForm.read s.toList with
    | .ok t => .ok (.datetime t)
    | .error .notADate => .ok (.text s)
    | .error .indivisible => .error .decimalIndivisible

def toDecimal (s : String) : Outcome Value :=
  match Decimal.read s.toList with
  | .ok d => .ok (.decimal d)
  | .error .malformed => .error .malformedDecimal
  | .error .outOfRange => .error .decimalOutOfRange

def eraseWord (word : List Char) : Nat → List Char → List Char
  | 0, cs => cs
  | fuel + 1, cs =>
    match cs with
    | [] => []
    | c :: rest =>
      if word.isPrefixOf cs then eraseWord word fuel (cs.drop word.length)
      else c :: eraseWord word fuel rest

/-- A hexadecimal numeral: a sign, the mark `0x`, and digits with single underscores. -/
def readHex? (cs : List Char) : Option Int :=
  let (negative, cs) := Numeral.takeSign (trimBy isNumeralBlank cs)
  let marked := cs.take 2 == ['0', 'x'] || cs.take 2 == ['0', 'X']
  let cs := if marked then cs.drop 2 else cs
  let cs := if marked && cs.head? == some '_' then cs.drop 1 else cs
  let doubled := (cs.zip (cs.drop 1)).any fun p => p.1 == '_' && p.2 == '_'
  if cs.isEmpty || cs.head? == some '_' || cs.getLast? == some '_' || doubled then none
  else
    ((cs.filter (· != '_')).mapM fun c =>
      (hexValue? c).orElse fun _ => digitValue? c).map fun ds =>
      Numeral.signed negative (ds.foldl (fun n d => 16 * n + d) 0)

/-- An identifier of thirty-two hexadecimal digits, with marks, braces and hyphens left out. -/
def readUuid? (cs : List Char) : Option Nat :=
  let cs := eraseWord "urn:".toList (cs.length + 1) cs
  let cs := eraseWord "uuid:".toList (cs.length + 1) cs
  let cs := (trimBy (fun c => c == '\x7b' || c == '\x7d') cs).filter (· != '-')
  if cs.length = 32 then
    match readHex? cs with
    | some n => if 0 ≤ n then some n.toNat else none
    | none => none
  else none

def ofText (k : Kind) (s : String) : Outcome Value :=
  match k with
  | .bool => .ok (((readBool? s).map Value.bool).getD (.text s))
  | .int => toInteger s
  | .datetime => toDateTime s
  | .date => .ok (((Day.ofPacked? s.toList).map Value.date).getD (.text s))
  | .time => .ok (((Clock.ofPacked? s.toList).map Value.time).getD (.text s))
  | .float => .ok (((Numeral.readBinary64? s.toList).map Value.float).getD (.text s))
  | .decimal => toDecimal s
  | .uuid => .ok (((readUuid? s.toList).map Value.uuid).getD (.text s))
  | .enum e => .ok (((e.ofLabel? s).map Value.member).getD (.text s))
  | .list => .ok (.list (s.toList.map fun c => .text (String.singleton c)))
  | .map => .ok (if s.isEmpty then .map [] else .text s)
  | _ => .ok (.text s)

def coerce (k : Option Kind) (v : Value) : Outcome Value :=
  match k, v with
  | some k, .text s => ofText k s
  | _, v => .ok v

/-- The kind of coercion for a column: one that is asked for, else the column's own. -/
def kindFor (t : ColumnType) (asked : Option Kind) : Option Kind := asked.orElse fun _ => t.kind?

def splitItems (v : Value) : List String :=
  match v with
  | .list items => items.map fun item => trimmed item.display
  | v => (v.display.toList.splitOn ',').map fun cs => String.ofList (trim cs)

end Listing.Coercion
