import Listing.ListRequest.Basic
import Listing.Number.Numeral
import Listing.Number.Word64
import Listing.Quantity
set_option autoImplicit false

/-!
# Validation of records

Fields of records are checked one by one and every flaw is reported with its place, in the order
of the fields. Integers may be given as truth values, as floating point numbers without a
fraction, or as text; texts only as texts.
-/

namespace Listing.Validation
open Listing.Text

abbrev Checked (α : Type) := Except (List Detail) α

def flaw {α : Type} (place : List Step) (f : Flaw) : Checked α := .error [⟨place, f⟩]

def flaws {α : Type} : Checked α → List Detail
  | .ok _ => []
  | .error ds => ds

/-- An integer in its plain form: an optional minus and digits without leading zeros. Digits that
are too many are told before what follows them. -/
def plainInt (cs : List Char) : Except Flaw Int :=
  let magnitude := if cs.head? == some '-' then cs.drop 1 else cs
  let ds := magnitude.takeWhile Char.isDigit
  if ds.head? == some '0' then if magnitude.length = 1 then .ok 0 else .error .intParsing
  else if Numeral.maxIntegerDigits < ds.length then .error .intParsingSize
  else if ds.isEmpty || ds.length != magnitude.length then .error .intParsing
  else .ok (Numeral.signed (cs.head? == some '-')
    (valueOfDigits (ds.map fun c => c.toNat - 0x30)))

/-- What follows leading zeros with single underscores between them, the last of which is `last`.
A point keeps the character before it, and where nothing follows the last one is left. -/
def afterZeros? (last : Char) : List Char → Option (List Char)
  | [] => some [last]
  | c :: cs =>
    if c = '0' then afterZeros? c cs
    else if c = '_' then if last = '_' then none else afterZeros? c cs
    else if c = '.' then some (last :: c :: cs)
    else if c.isDigit || c = '-' then some (c :: cs)
    else none

def dropZeros? : List Char → Option (List Char)
  | [] => none
  | c :: cs =>
    if c = '0' then afterZeros? c cs
    else if c.isDigit || c = '-' then some (c :: cs)
    else none

def dropZeroFraction (cs : List Char) : List Char :=
  let zeros := (cs.dropWhile (· != '.')).drop 1
  if !zeros.isEmpty && zeros.all (· == '0') then cs.takeWhile (· != '.') else cs

def dropUnderscores (cs : List Char) : List Char :=
  let doubled := (cs.zip (cs.drop 1)).any fun p => p.1 == '_' && p.2 == '_'
  if cs.head? == some '_' || cs.getLast? == some '_' || doubled then cs else cs.filter (· != '_')

/-- The plain form of an integer written with blanks around it, a plus, leading zeros, underscores
or zeros after a point. -/
def plainForm? (cs : List Char) : Option (List Char) :=
  let clean (cs : List Char) := (dropZeros? cs).map (dropUnderscores ∘ dropZeroFraction)
  match trimBy isNumeralBlank cs with
  | '+' :: cs => if cs.head? == some '-' then none else clean cs
  | '-' :: cs => (clean cs).map ('-' :: ·)
  | cs => clean cs

def intOfText (s : String) : Except Flaw Int :=
  match plainInt s.toList with
  | .error .intParsing =>
    match (plainForm? s.toList).map plainInt with
    | some (.ok n) => .ok n
    | _ => .error .intParsing
  | r => r

def intOfReal (x : Binary64) : Except Flaw Int :=
  match x.toRat? with
  | none => .error .notFinite
  | some r =>
    if r.den ≠ 1 then .error .intFromFloat
    else if (r.num.natAbs : Int) ≤ Word64.greatest then .ok r.num
    else .error .intParsingSize

def int (v : Value) : Except Flaw Int :=
  match v with
  | .bool b => .ok b.toNat
  | .int n => .ok n
  | .float x => intOfReal x
  | .text s => intOfText s
  | _ => .error .intType

theorem int_of_int? {q : Quantity} {n : Int} (h : q.int? = some n) : int q.toValue = .ok n := by
  cases q with
  | real x => cases h
  | flag b =>
    cases h
    rfl
  | whole m =>
    cases h
    rfl

def intField (name : String) (v : Value) : Checked Int :=
  match int v with
  | .ok n => .ok n
  | .error f => flaw [.field name] f

def positiveField (name : String) (v : Value) : Checked Int :=
  match int v with
  | .ok n => if n < 1 then flaw [.field name] .tooSmall else .ok n
  | .error f => flaw [.field name] f

theorem positiveField_of_int? {name : String} {q : Quantity} {n : Int} (h : q.int? = some n)
    (hn : 1 ≤ n) : positiveField name q.toValue = .ok n := by
  unfold positiveField
  rw [int_of_int? h]
  exact if_neg (by omega)

def text (place : List Step) : Value → Checked String
  | .text s => .ok s
  | _ => flaw place .textType

/-- The step of a key: a position where it is an integer of 64 bits or a truth value, else its
text. -/
def keyStep : Value → Step
  | .int n => if Word64.holds n then .item n else .field (toString n)
  | .bool b => .item b.toNat
  | .text s => .field s
  | v => .field v.written

def gather {α : Type} : List (Checked α) → Checked (List α)
  | [] => .ok []
  | x :: xs =>
    match x, gather xs with
    | .ok a, .ok as => .ok (a :: as)
    | x, rest => .error (flaws x ++ flaws rest)

def both {α β : Type} (x : Checked α) (y : Checked β) : Checked (α × β) :=
  match x, y with
  | .ok a, .ok b => .ok (a, b)
  | x, y => .error (flaws x ++ flaws y)

def mapField {α : Type} (name : String) (entry : List Step → Value → Checked α) (v : Value) :
    Checked (List (String × α)) :=
  match v with
  | .map entries =>
    gather (entries.map fun (k, v) =>
      both (text [.field name, keyStep k, .field "[key]"] k) (entry [.field name, keyStep k] v))
  | _ => flaw [.field name] .mapType

def textsField (name : String) (v : Value) : Checked (List String) :=
  match v with
  | .list items =>
    gather (items.mapIdx fun i v => text [.field name, .item i] v)
  | _ => flaw [.field name] .listType

def sortOrderField (name : String) (v : Value) : Checked SortOrder :=
  match SortOrder.ofValue v with
  | .ok o => .ok o
  | .error _ => flaw [.field name] .notAMember

end Listing.Validation

namespace Listing.ListRequest
open Validation

/-- A request from fields given by name; fields not given have their defaults and unknown ones are
ignored. -/
def ofFields (fields : List (String × Value)) : Outcome ListRequest :=
  let get (name : String) : Option Value := Entries.lookup? fields name
  let field {α : Type} (name : String) (default : α) (check : String → Value → Checked α) :
      Checked α := (get name).elim (.ok default) (check name)
  let page := field "page" 1 positiveField
  let limit := field "limit" 10 positiveField
  let search := field "search" "" fun name => text [.field name]
  let columnSearch := field "column_search" [] fun name => mapField name text
  let sortBy := field "sort_by" "" fun name => text [.field name]
  let sortOrder := field "sort_order" SortOrder.desc sortOrderField
  let filters := field "filters" [] fun name => mapField name fun _ v => .ok v
  let relations := field "relations" [] textsField
  match page, limit, search, columnSearch, sortBy, sortOrder, filters, relations with
  | .ok page, .ok limit, .ok search, .ok columnSearch, .ok sortBy, .ok sortOrder, .ok filters,
    .ok relations =>
    .ok { page, limit, search, columnSearch, sortBy, sortOrder, filters, relations }
  | _, _, _, _, _, _, _, _ =>
    .error (.invalid (flaws page ++ flaws limit ++ flaws search ++ flaws columnSearch ++
      flaws sortBy ++ flaws sortOrder ++ flaws filters ++ flaws relations))

/-- A request is never changed after it is made. A name with a leading underscore is none of a
field, so nothing is lost when a value is given to it. -/
def assign (r : ListRequest) (name : String) (_ : Value) : Outcome ListRequest :=
  if name.toList.head? = some '_' then .ok r
  else .error (.invalid [⟨[.field name], .frozen⟩])

end Listing.ListRequest
