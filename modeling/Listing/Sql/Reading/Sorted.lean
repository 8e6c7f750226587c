import Listing.Sql.Reading.Choice
set_option autoImplicit false

/-!
# Orders that ways give

Ways that are run inside each other give the rows in an order. It answers the order that a statement
wants as far as one wanted column after the other is met: because terms leave it a single value,
because it is the next column along which a way is read, backwards if need be, or because all
ways so far tell the rows apart.
-/

namespace Listing.Sql.Reading

structure Want where
  field : Option Field
  /-- The tables that it depends on. -/
  tables : List String
  descends : Bool
  /-- Whether nothing is to stand at the end where it does not stand by itself. -/
  movesNull : Bool
deriving Repr

namespace Want

structure Progress where
  /-- The numbers of those that are met. -/
  met : List Nat := []
  /-- Whether the ways so far tell all rows apart. -/
  distinct : Bool := true
  /-- The tables of such ways. -/
  told : List String := []
  /-- The numbers of ways that are read backwards. -/
  back : List Nat := []
  /-- Whether a way is read in no order at all. -/
  isLost : Bool := false
deriving Repr

structure Along where
  met : List Nat
  distinct : Bool
  /-- Whether the way is read backwards, as soon as a column tells. -/
  back : Option Bool := none
  hasNumber : Bool := false
deriving Repr

/-- Find wanted orders among the columns of a way from some position on. A list of values counts as
one value when only the order inside the other ways matters. -/
def follow (wants : List Want) (s : Source) (w : Way) (isInner : Bool) :
    List String → Nat → Along → Along
  | [], _, a => a
  | column :: rest, j, a =>
    let use := if j < w.equal then (w.terms[j]?).bind (·.use) else none
    if use == some .equal || (isInner && use == some .among) then
      follow wants s w isInner rest (j + 1) a
    else
      let next := (wants.zipIdx.find? fun (_, i) => !a.met.contains i).filter fun (want, _) =>
        want.field == some ⟨s.name, column⟩
      let stop (a : Along) : Along :=
        { a with distinct := a.distinct && j != 0 && (w.access = .number || s.key.length ≤ j) }
      match next with
      | none => stop a
      | some (want, i) =>
        if a.back.any (· != want.descends) then stop a
        else
          let a := { a with back := some (a.back.getD want.descends) }
          if want.movesNull && j != w.equal then stop a
          else
            follow wants s w isInner rest (j + 1)
              { a with met := a.met ++ [i], hasNumber := a.hasNumber || column == s.number }

/-- Whether terms leave a wanted column a single value, given the tables that are read before. -/
def isFixed (ts : Terms) (ready : List String) (w : Way) (isInner : Bool) (want : Want) : Bool :=
  want.field.any fun f => f.table == w.table &&
    let uses := [Use.equal, .null] ++ if isInner then [.among] else []
    let terms := (termsOn ts.all f uses).filter fun t => within t.needs ready
    let best := (terms.find? fun t => t.needs.isEmpty && t.use == some .equal).or terms.head?
    best.any fun t => t.use != some .among || w.hasTerm t

def advance (wants : List Want) (sources : List Source) (ts : Terms) (ready : List String)
    (position : Nat) (isInner : Bool) (w : Way) (p : Progress) : Progress :=
  let unmet (met : List Nat) : List (Want × Nat) := wants.zipIdx.filter (!met.contains ·.2)
  let fixed := (unmet p.met).filter fun (want, _) => isFixed ts ready w isInner want
  let met := p.met ++ fixed.map (·.2)
  let found : Option Along :=
    if w.isSingle then some { met, distinct := p.distinct }
    else if w.access = .number || w.access = .key then
      (sources.find? (·.name == w.table)).map fun s =>
        let a := follow wants s w isInner (s.columnsOf w.access) 0 { met, distinct := true }
        { a with distinct := a.distinct || a.hasNumber }
    else none
  match found with
  | none => { p with isLost := true }
  | some a =>
    let back := if a.back == some true then p.back ++ [position] else p.back
    let told := if a.distinct then p.told ++ [w.table] else p.told
    let tied := if a.distinct then
        (unmet a.met).filter fun (want, _) => within want.tables told
      else []
    { met := a.met ++ tied.map (·.2), distinct := a.distinct, told, back }

/-- The progress through ways. Only the last one counts when only the order inside the others
matters. -/
def through (wants : List Want) (sources : List Source) (ts : Terms) (isInner : Bool) :
    List Way → Nat → List String → Progress → Progress
  | [], _, _, p => p
  | w :: rest, position, ready, p =>
    if p.isLost || !p.distinct || wants.length ≤ p.met.length then p
    else
      let p := if isInner && !rest.isEmpty then p
        else advance wants sources ts ready position isInner w p
      through wants sources ts isInner rest (position + 1) (ready ++ [w.table]) p

def prefixMet (met : List Nat) (n : Nat) : Nat := ((List.range n).takeWhile met.contains).length

/-- How many wanted orders ways meet, which is open while they might still meet all, and which ways
are read backwards for it. -/
def metBy (wants : List Want) (sources : List Source) (ts : Terms) (isInner : Bool)
    (ways : List Way) : Option Nat × List Nat :=
  let p := through wants sources ts isInner ways 0 [] {}
  if p.isLost then (some 0, p.back)
  else if wants.length ≤ p.met.length then (some wants.length, p.back)
  else if p.distinct then (none, p.back)
  else (some (prefixMet p.met wants.length), p.back)

end Want
end Listing.Sql.Reading
