import Listing.Sql.Name
set_option autoImplicit false

/-!
# Pieces of statements

A statement is written from pieces: texts, bound values, bound lists, and labels that need a
number. One pass from the first piece to the last gives the numbers, counted for each name by
itself, so that no two bound values share a name. The name of a bound value that is too long for its
database is cut and numbered once more, among all names that are cut.
-/

namespace Listing.Sql

inductive Piece where
  | text (s : String)
  /-- A bound value, with the conversion that follows its placeholder. -/
  | bind (name suffix : String) (value : Value)
  /-- A list of bound values between parentheses. -/
  | items (name : String) (values : List Value)
  /-- A generated label. -/
  | label (name : String)
  /-- The place where a label gets its number that stands further on. -/
  | reserved (name : String)
deriving Repr

structure Written where
  sql : String
  params : List (String × Value)
deriving Repr

def Written.shown (w : Written) : Outcome Written :=
  if w.params.all fun p => p.2.hasText then .ok w else .error .offsetTooLarge

abbrev Tally := List (String × Nat)

namespace Tally

def count (t : Tally) (name : String) : Nat := (Entries.lookup? t name).getD 0

def add (t : Tally) (name : String) : Tally := (name, t.count name + 1) :: t.filter (·.1 != name)

def numbered (t : Tally) (name : String) : String := name ++ s!"_{t.count name + 1}"

end Tally

/-- The names given so far: how often each has been numbered, and how many have been cut. -/
structure Naming where
  tally : Tally := []
  cut : Nat := 0
deriving Repr

namespace Naming

def longest : Dialect → Nat
  | .postgresql => 57
  | _ => 9993

def bound (d : Dialect) (n : Naming) (name : String) : String × Naming :=
  let numbered := n.tally.numbered name
  let tally := n.tally.add name
  if numbered.length ≤ longest d then (numbered, { n with tally })
  else
    let number := Text.paddedHex 1 (n.cut + 1)
    (String.ofList (numbered.toList.take (longest d) ++ '_' :: number), ⟨tally, n.cut + 1⟩)

def label (n : Naming) (name : String) : Naming := { n with tally := n.tally.add name }

end Naming

namespace Piece

/-- Characters that a parameter name cannot hold are replaced one by one. -/
def escapeChar (c : Char) : Char :=
  if c == ':' then 'C'
  else if c == '.' || c == '[' || c == ']' then '_'
  else c

def escaped (name : String) : String := String.ofList (name.toList.map escapeChar)

def isSeparator (c : Char) : Bool := c == '%' || c == '(' || c == ')' || c == ' ' || c == '$'

def joinParts : List Char → List Char
  | [] => []
  | [c] => [if isSeparator c then '_' else c]
  | c :: d :: cs =>
    if isSeparator c then
      if isSeparator d then joinParts (d :: cs) else '_' :: joinParts (d :: cs)
    else c :: joinParts (d :: cs)

def bindName (column : String) : String :=
  let cs := joinParts column.toList
  String.ofList ((cs.dropWhile (· == '_')).reverse.dropWhile (· == '_')).reverse

def placeholder (d : Dialect) (name : String) : String :=
  match d with
  | .standard => ":" ++ name
  | .postgresql => "%(" ++ name ++ ")s"
  | .sqlite => "?"

def writeFrom (d : Dialect) (names : Naming) : List Piece → Written
  | [] => ⟨"", []⟩
  | text s :: ps =>
    let w := writeFrom d names ps
    ⟨s ++ w.sql, w.params⟩
  | bind name suffix v :: ps =>
    let n := escaped (names.bound d name).1
    let w := writeFrom d (names.bound d name).2 ps
    ⟨placeholder d n ++ suffix ++ w.sql, (n, v) :: w.params⟩
  | items name vs :: ps =>
    let n := escaped (names.bound d name).1
    let w := writeFrom d (names.bound d name).2 ps
    ⟨"(__[POSTCOMPILE_" ++ n ++ "])" ++ w.sql, (n, .list vs) :: w.params⟩
  | label name :: ps =>
    let w := writeFrom d (names.label name) ps
    ⟨names.tally.numbered name ++ w.sql, w.params⟩
  | reserved name :: ps => writeFrom d (names.label name) ps

def write (d : Dialect) (ps : List Piece) : Written := writeFrom d {} ps

def joined (separator : String) : List (List Piece) → List Piece
  | [] => []
  | [ps] => ps
  | ps :: rest => ps ++ text separator :: joined separator rest

end Piece
end Listing.Sql
