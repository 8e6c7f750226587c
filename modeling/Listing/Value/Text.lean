import Listing.Number.Shortest
import Listing.Text.Quoted
import Listing.Value.Basic
set_option autoImplicit false

/-!
# The text of values

`text` is the text of a value on its own, `written` its text inside a list or a map: there a text
is quoted and a moment is spelled out as a call. Lists stand in brackets and maps in braces.
-/

namespace Listing

namespace Kind

def name : Kind → String
  | null => "NoneType"
  | bool => "bool"
  | int => "int"
  | float => "float"
  | text => "str"
  | list => "list"
  | map => "dict"
  | datetime => "datetime.datetime"
  | date => "datetime.date"
  | time => "datetime.time"
  | duration => "datetime.timedelta"
  | decimal => "decimal.Decimal"
  | uuid => "UUID"
  | enum e => e.name
  | bytes => "bytes"

end Kind

namespace DateTime

def spanCall (micros : Int) : String :=
  let days := micros.fdiv (86400 * 1000000)
  let rest := micros.fmod (86400 * 1000000)
  let parts :=
    (if days = 0 then [] else [s!"days={days}"]) ++
    (if rest / 1000000 = 0 then [] else [s!"seconds={rest / 1000000}"]) ++
    (if rest % 1000000 = 0 then [] else [s!"microseconds={rest % 1000000}"])
  "datetime.timedelta(" ++ String.intercalate ", " parts ++ ")"

/-- The moment as a call with its parts; seconds and microseconds only as far as needed. -/
def call (t : DateTime) : String :=
  let clock := if t.microsecond ≠ 0 then [t.second, t.microsecond]
    else if t.second ≠ 0 then [t.second] else []
  let numbers := [t.year, t.month, t.day, t.hour, t.minute] ++ clock
  let zone := match t.offset with
    | none => []
    | some o =>
      if o = 0 then ["tzinfo=datetime.timezone.utc"]
      else ["tzinfo=datetime.timezone(" ++ spanCall o ++ ")"]
  "datetime.datetime(" ++ String.intercalate ", " (numbers.map toString ++ zone) ++ ")"

end DateTime

def callWith (name : String) (arguments : List Nat) : String :=
  name ++ "(" ++ String.intercalate ", " (arguments.map toString) ++ ")"

def Day.call (d : Day) : String := callWith "datetime.date" [d.year, d.month, d.day]

def Clock.call (t : Clock) : String :=
  callWith "datetime.time" ([t.hour, t.minute] ++
    (if t.microsecond ≠ 0 then [t.second, t.microsecond]
     else if t.second ≠ 0 then [t.second] else []))

namespace Value
open Listing.Text

def uuidText (n : Nat) : String :=
  let ds := paddedHex 32 n
  let group (start size : Nat) := String.ofList ((ds.drop start).take size)
  String.intercalate "-" [group 0 8, group 8 4, group 12 4, group 16 4, group 20 12]

mutual

def written : Value → String
  | null => "None"
  | bool b => if b then "True" else "False"
  | int n => toString n
  | float x => x.text
  | text s => quoted s
  | list items => "[" ++ String.intercalate ", " (writtenItems items) ++ "]"
  | map entries => "\x7b" ++ String.intercalate ", " (writtenEntries entries) ++ "\x7d"
  | datetime t => t.call
  | date d => d.call
  | time t => t.call
  | decimal d => "Decimal('" ++ d.text ++ "')"
  | uuid n => "UUID('" ++ uuidText n ++ "')"
  | member m => "<" ++ m.enumeration.name ++ "." ++ m.name ++ ": " ++ quoted m.label ++ ">"

def writtenItems : List Value → List String
  | [] => []
  | v :: vs => v.written :: writtenItems vs

def writtenEntries : List (Value × Value) → List String
  | [] => []
  | e :: es => writtenEntry e :: writtenEntries es

def writtenEntry : Value × Value → String
  | (k, v) => k.written ++ ": " ++ v.written

end

def display : Value → String
  | text s => s
  | datetime t => t.textWith ' '
  | date d => d.text
  | time t => t.text
  | decimal d => d.text
  | uuid n => uuidText n
  | member m => m.enumeration.name ++ "." ++ m.name
  | v => v.written

mutual

def hasText : Value → Bool
  | list items => itemsHaveText items
  | map entries => entriesHaveText entries
  | datetime t => t.hasText
  | _ => true

def itemsHaveText : List Value → Bool
  | [] => true
  | v :: vs => v.hasText && itemsHaveText vs

def entriesHaveText : List (Value × Value) → Bool
  | [] => true
  | e :: es => entryHasText e && entriesHaveText es

def entryHasText : Value × Value → Bool
  | (k, v) => k.hasText && v.hasText

end

def term : Value → String
  | null => ""
  | v => v.display

end Value
end Listing
