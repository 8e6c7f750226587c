import Listing.Sql.Reading.Term
set_option autoImplicit false

/-!
# Ways

A way is one plan for reading a table: all rows by their number or along the key, the rows that
some terms find there, the rows that alternatives find one after the other, or the rows of an index
that is made for the statement. Its cost and its number of rows are estimates. Every table counts
as equally large, and every kind of term keeps a fixed share of the rows.
-/

namespace Listing.Sql.Reading

inductive Access where
  | number
  | key
  | made
  | parts
deriving DecidableEq, Repr

def tableRows : Int := 200

structure Way where
  table : String
  access : Access
  /-- The tables that have to be read before. -/
  needs : List String
  terms : List Term := []
  /-- How many columns, from the first one, equal something. -/
  equal : Nat := 0
  /-- Whether there is at most one row. -/
  isSingle : Bool := false
  /-- Whether the key holds all columns that are read. -/
  isCovered : Bool := false
  /-- What it costs once. -/
  setup : Int := 0
  /-- What it costs each time. -/
  run : Int := 0
  /-- The number of rows. -/
  out : Int := tableRows
  /-- Ways of one table are rivals if they have the same rank. -/
  rank : Nat := 0
deriving Repr

namespace Way

def hasTerm (w : Way) (t : Term) : Bool :=
  w.terms.any fun u => u.group == t.group && (u.part == t.part || (u.part == 1 && t.part == 0))

def hasUse (w : Way) (use : Use) : Bool := w.terms.any (·.use == some use)

def cutOf (t : Term) : Int := if t.use == some .equal then (if t.isFlag then 10 else 20) else 0

/-- The way with fewer rows for the terms that it meets without using them. -/
def narrowed (w : Way) (terms : List Term) : Way :=
  let met := terms.filter fun t =>
    t.tables.contains w.table && t.tables.all (w.table :: w.needs).contains && !w.hasTerm t
  let cut := met.foldl (fun cut t => max cut (cutOf t)) 0
  { w with out := min (w.out - met.length) (tableRows - cut) }

end Way

namespace Source

def columnsOf (s : Source) : Access → List String
  | .number => [s.number]
  | .key => s.key ++ [s.number]
  | _ => []

/-- The rows that have the same first columns of the key, by the number of columns. -/
def rowsAlike (s : Source) (access : Access) (n : Nat) : Int :=
  if n = 0 then tableRows
  else if access = .number || s.key.length ≤ n then 0
  else
    match n with
    | 1 => 33
    | 2 => 32
    | 3 => 30
    | 4 => 28
    | 5 => 26
    | _ => 23

/-- The width of what is passed through for each row, in fifteenths of a row. -/
def share (s : Source) : Access → Int
  | .number => 45 / s.width
  | _ => 15 * s.keyWidth / s.width

def priced (s : Source) (own : List Term) (repeats : Int) (w : Way) : Way :=
  let found := Estimate.together (Estimate.depth tableRows) (w.out + 1 + s.share w.access)
  let run := if w.access = .key && !w.isCovered then Estimate.together found (w.out + 16) else found
  { w with run := run + repeats, out := w.out + repeats }.narrowed own

/-- The terms that find rows by a column, if the table may be joined by them and their values are
kept in the order of the column. -/
def termsOn (s : Source) (scan : List Term) (column : String) (uses : List Use) : List Term :=
  (Reading.termsOn scan ⟨s.name, column⟩ uses).filter fun t =>
    !t.needs.contains s.name && (!s.outer || t.join == some s.name) &&
      (column == s.number || t.affinity == .none || t.affinity == s.affinity column)

def withTerm (w : Way) (t : Term) (needs : List String) : Way :=
  { w with terms := w.terms ++ [t], needs := (w.needs ++ needs).eraseDups }

def rangeOut (out : Int) (ends : Nat) : Int :=
  min (out - ends) (max 10 (if ends = 1 then out - 20 else out - 60))

def repeatsOf (t : Term) : Int :=
  if t.use == some .among then (if t.count = 0 then 46 else Estimate.ofNat t.count) else 0

/-- The ways that find rows by the given columns of an access, the columns before them being equal
to something. -/
def waysOn (s : Source) (own scan : List Term) (w : Way) (repeats : Int) :
    List String → List Way
  | [] => []
  | column :: rest =>
    (s.termsOn scan column [.equal, .among, .above, .below]).flatMap fun t =>
      let next := withTerm w t t.needs
      match t.use with
      | some .above =>
        s.priced own repeats { next with out := rangeOut w.out 1 } ::
          (s.termsOn scan column [.below]).map fun u =>
            s.priced own repeats { withTerm next u u.needs with out := rangeOut w.out 2 }
      | some .below => [s.priced own repeats { next with out := rangeOut w.out 1 }]
      | _ =>
        let alike := s.rowsAlike w.access
        let isSingle := w.isSingle || (t.use == some .equal && (column == s.number ||
          (repeats == 0 && w.equal + 1 == s.key.length)))
        let next := { next with
          equal := w.equal + 1, isSingle, out := w.out + alike (w.equal + 1) - alike w.equal }
        let repeats' := repeats + repeatsOf t
        s.priced own repeats' next :: s.waysOn own scan next repeats' rest

def keyHolds (s : Source) (t : Term) : Bool :=
  t.fields.all fun f => f.table != s.name || f.column == s.number || s.key.contains f.column

/-- All rows along the key, and what it costs to look up those that the key does not rule out. -/
def keyWay (s : Source) (own : List Term) (all : List Term) (w : Way) : Way :=
  let through := tableRows + 1 + s.share .key
  let lookups := (all.takeWhile s.keyHolds).foldl
    (fun n t => n - if t.use == some .equal then 20 else 1) (tableRows + 16)
  let run := if w.isCovered then through else Estimate.together through lookups
  { w with run }.narrowed own

/-- The ways that read a table itself, where own terms narrow it and others find rows too. A way
that may give an order of the statement has a rank of its own. -/
def plainWays (s : Source) (wanted : List Field) (before : List String)
    (own scan all : List Term) : List Way :=
  let isWanted (columns : List String) : Bool :=
    wanted.any fun f => f.table == s.name && (f.column == s.number || columns.contains f.column)
  let byNumber : Way := {
    table := s.name, access := .number, needs := before, rank := if isWanted [] then 1 else 0 }
  let byKey : Way := {
    table := s.name, access := .key, needs := before, rank := if isWanted s.key then 2 else 0
    isCovered := s.keyCovers }
  { byNumber with run := tableRows + 16 }.narrowed own ::
    s.waysOn own scan byNumber 0 (s.columnsOf .number) ++
    if s.key.isEmpty then []
    else
      (if isWanted s.key || (s.keyCovers && s.keyWidth < s.width) then [s.keyWay own all byKey]
        else []) ++
      s.waysOn own scan byKey 0 (s.columnsOf .key)

def madeWays (s : Source) (rank : Nat) (before : List String) (all : List Term) : List Way :=
  (all.filter fun t =>
    t.use == some .equal && !t.needs.contains s.name && (!s.outer || t.join == some s.name) &&
      t.field.any fun f => f.table == s.name && f.column != s.number &&
        (t.affinity == .none || t.affinity == s.affinity f.column)).map fun t =>
    { table := s.name, access := .made, needs := (before ++ t.needs).eraseDups, terms := [t]
      equal := 1, setup := Estimate.depth tableRows + tableRows + 28
      run := Estimate.together (Estimate.depth tableRows) 43, out := 43, rank }

end Source
end Listing.Sql.Reading
