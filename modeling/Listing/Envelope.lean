import Listing.ListRequest.Validation
import Listing.Paging
import Listing.Quantity
import Listing.Url
import Listing.Words
set_option autoImplicit false

namespace Listing

/-- The facts of a page. `first` and `last` are the positions of its rows, counted from one. -/
structure Meta where
  total : Int
  perPage : Int
  currentPage : Int
  lastPage : Int
  first : Int
  last : Int
deriving DecidableEq, Repr

inductive PageLink where
  | number (n : Int)
  | address (s : String)
deriving DecidableEq, Repr

structure Links where
  first : PageLink
  last : PageLink
  prev : Option PageLink
  next : Option PageLink
deriving DecidableEq, Repr

def Meta.ofPage {α : Type} (p : Page α) : Meta where
  total := p.total
  perPage := p.perPage
  currentPage := p.currentPage
  lastPage := p.lastPage
  first := (p.currentPage - 1) * p.perPage + 1
  last := if p.total < p.currentPage * p.perPage then p.total else p.currentPage * p.perPage

structure RichEnvelope (α : Type) where
  data : List α
  facts : Meta
  links : Links
deriving Repr

structure SimpleEnvelope (α : Type) where
  data : List α
  page : Int
  limit : Int
  total : Int
  totalPages : Int
deriving DecidableEq, Repr

inductive Envelope (α : Type) where
  | rich (e : RichEnvelope α)
  | simple (e : SimpleEnvelope α)
deriving Repr

structure PageFacts where
  currentPage : Value
  perPage : Value
  total : Value
  lastPage : Value
deriving Repr

namespace PageFacts

def ofPage {α : Type} (p : Page α) : PageFacts :=
  ⟨.int p.currentPage, .int p.perPage, .int p.total, .int p.lastPage⟩

def storable : Int := 1099511627776

def repetitions (q : Quantity) : Outcome Int :=
  match q.int? with
  | none => .error (.repeatedBy q.kind)
  | some n => if Word64.holds n then .ok n else .error .countTooLarge

/-- One quantity times a value. A text or a list times an integer is one again, which no number can
be added to. -/
def times (q : Quantity) (v : Value) : Outcome Quantity :=
  match v with
  | .text s => do
    let n ← repetitions q
    if Word64.greatest < n * s.length then .error .repeatedTextTooLong
    else if storable < n * s.length then .error .outOfMemory
    else .error (.joinedWith .text .int)
  | .list items => do
    let n ← repetitions q
    if storable < n * items.length then .error .outOfMemory
    else .error (.joinedWith .list .int)
  | v => do
    let (q, n) ← Value.operands "*" q.toValue v
    q.mul n

def firstRow (f : PageFacts) : Outcome Quantity := do
  let (page, one) ← Value.operands "-" f.currentPage (.int 1)
  let before ← page.sub one
  (← times before f.perPage).add (.whole 1)

theorem firstRow_of_int? {size : Quantity} {limit : Int} (h : size.int? = some limit)
    (number total last : Int) : firstRow ⟨.int number, size.toValue, .int total, .int last⟩ =
      .ok (.whole ((number - 1) * limit + 1)) := by
  cases size with
  | real x => cases h
  | flag b =>
    cases h
    rfl
  | whole n =>
    cases h
    rfl

/-- The position of the last row: that of a full page, or the total when it is less. -/
def lastRow (f : PageFacts) : Outcome Value := do
  let (page, size) ← Value.operands "*" f.currentPage f.perPage
  let full := (← page.mul size).toValue
  .ok (if ← Value.lessThan f.total full then f.total else full)

theorem lastRow_of_int? {size : Quantity} {limit : Int} (h : size.int? = some limit)
    (number total last : Int) : lastRow ⟨.int number, size.toValue, .int total, .int last⟩ =
      .ok (.int (if total < number * limit then total else number * limit)) := by
  have hcompared : lastRow ⟨.int number, size.toValue, .int total, .int last⟩ =
      Value.lessThan (.int total) (.int (number * limit)) >>= fun b =>
        .ok (if b then .int total else .int (number * limit)) := by
    cases size with
    | real x => cases h
    | flag b =>
      cases h
      rfl
    | whole n =>
      cases h
      rfl
  rw [hcompared, Value.lessThan_int]
  by_cases hshort : total < number * limit <;> simp [hshort, bind, Except.bind]

def checked (f : PageFacts) (first last : Value) : Outcome Meta :=
  let total := Validation.intField "total" f.total
  let perPage := Validation.intField "per_page" f.perPage
  let currentPage := Validation.intField "current_page" f.currentPage
  let lastPage := Validation.intField "last_page" f.lastPage
  let first := Validation.intField "from_" first
  let last := Validation.intField "to" last
  match total, perPage, currentPage, lastPage, first, last with
  | .ok total, .ok perPage, .ok currentPage, .ok lastPage, .ok first, .ok last =>
    .ok { total, perPage, currentPage, lastPage, first, last }
  | _, _, _, _, _, _ =>
    .error (.invalid (Validation.flaws total ++ Validation.flaws perPage ++
      Validation.flaws currentPage ++ Validation.flaws lastPage ++ Validation.flaws first ++
      Validation.flaws last))

def toMeta (f : PageFacts) : Outcome Meta := do
  let first ← f.firstRow
  let last ← f.lastRow
  f.checked first.toValue last

theorem toMeta_of_int? {size : Quantity} {limit : Int} (h : size.int? = some limit)
    (number total last : Int) : toMeta ⟨.int number, size.toValue, .int total, .int last⟩ = .ok {
      total, perPage := limit, currentPage := number, lastPage := last
      first := (number - 1) * limit + 1
      last := if total < number * limit then total else number * limit } := by
  have hsize := Validation.int_of_int? h
  simp only [toMeta, firstRow_of_int? h, lastRow_of_int? h, bind, Except.bind, checked,
    Validation.intField, hsize]
  rfl

theorem toMeta_ofPage {α : Type} (p : Page α) : toMeta (.ofPage p) = .ok (.ofPage p) := by
  have hsize : (Quantity.whole p.perPage).int? = some p.perPage := rfl
  exact toMeta_of_int? hsize _ _ _

def address (url : Option Url) : Outcome (Option Url.Address) :=
  match url with
  | some u => some <$> u.address
  | none => .ok none

/-- A value as an address has it. An integer with more digits than can be read is not written
either. -/
def wordOf : Value → Outcome String
  | .int n =>
    if n.natAbs < Nat.pow 10 Numeral.maxIntegerDigits then .ok (toString n)
    else .error .integerTextTooLong
  | v => .ok v.display

def link (address : Option Url.Address) (perPage page : Value) : Outcome PageLink :=
  match address with
  | some a => do
    let page ← wordOf page
    .ok (.address (a.withPage page (← wordOf perPage)))
  | none =>
    match Validation.int page with
    | .ok n => .ok (.number n)
    | .error _ => .ok (.address page.display)

def linkBy (address : Option Url.Address) (f : PageFacts) (pages : Int) (exists? : Bool) :
    Outcome (Option PageLink) :=
  if exists? then do
    let (page, n) ← Value.operands "+" f.currentPage (.int pages)
    some <$> link address f.perPage (← page.add n).toValue
  else .ok none

def links (url : Option Url) (f : PageFacts) : Outcome Links := do
  let address ← address url
  let first ← link address f.perPage (.int 1)
  let last ← link address f.perPage f.lastPage
  let prev ← linkBy address f (-1) (← Value.lessThan (.int 1) f.currentPage)
  let next ← linkBy address f 1 (← Value.lessThan f.currentPage f.lastPage)
  .ok { first, last, prev, next }

theorem linkBy_none {α : Type} (p : Page α) (pages : Int) (b : Bool) :
    linkBy none (.ofPage p) pages b =
      .ok (if b then some (.number (p.currentPage + pages)) else none) := by
  cases b <;> rfl

theorem links_ofPage {α : Type} (url : Option Url) (p : Page α) : links url (.ofPage p) = (do
    let address ← address url
    let first ← link address (.int p.perPage) (.int 1)
    let last ← link address (.int p.perPage) (.int p.lastPage)
    let prev ← linkBy address (.ofPage p) (-1) (decide (1 < p.currentPage))
    let next ← linkBy address (.ofPage p) 1 (decide (p.currentPage < p.lastPage))
    .ok { first, last, prev, next }) := by
  have hprev : Value.lessThan (.int 1) (PageFacts.ofPage p).currentPage =
      .ok (decide (1 < p.currentPage)) := Value.lessThan_int _ _
  have hnext : Value.lessThan (PageFacts.ofPage p).currentPage (PageFacts.ofPage p).lastPage =
      .ok (decide (p.currentPage < p.lastPage)) := Value.lessThan_int _ _
  unfold links
  rw [hprev, hnext]
  rfl

theorem links_none {α : Type} (p : Page α) : links none (.ofPage p) = .ok {
    first := .number 1
    last := .number p.lastPage
    prev := if 1 < p.currentPage then some (.number (p.currentPage - 1)) else none
    next := if p.currentPage < p.lastPage then some (.number (p.currentPage + 1)) else none } := by
  rw [links_ofPage]
  change (do
    let prev ← linkBy none (.ofPage p) (-1) (decide (1 < p.currentPage))
    let next ← linkBy none (.ofPage p) 1 (decide (p.currentPage < p.lastPage))
    .ok { first := .number 1, last := .number p.lastPage, prev, next } : Outcome Links) = _
  rw [linkBy_none, linkBy_none]
  simp only [decide_eq_true_eq, bind, Except.bind, Int.sub_eq_add_neg]

end PageFacts

namespace RichEnvelope

def ofFacts {α : Type} (url : Option Url) (data : List α) (f : PageFacts) :
    Outcome (RichEnvelope α) := do
  let facts ← f.toMeta
  let links ← f.links url
  .ok { data, facts, links }

def ofPage {α : Type} (url : Option Url) (p : Page α) : Outcome (RichEnvelope α) :=
  ofFacts url p.data (.ofPage p)

theorem ofPage_eq {α : Type} (url : Option Url) (p : Page α) : ofPage url p =
    (PageFacts.links url (.ofPage p)).map fun links => ⟨p.data, .ofPage p, links⟩ := by
  simp only [ofPage, ofFacts, PageFacts.toMeta_ofPage, bind, Except.bind]
  cases PageFacts.links url (.ofPage p) <;> rfl

theorem ofPage_none {α : Type} (p : Page α) : ofPage none p = .ok {
    data := p.data
    facts := .ofPage p
    links := {
      first := .number 1
      last := .number p.lastPage
      prev := if 1 < p.currentPage then some (.number (p.currentPage - 1)) else none
      next := if p.currentPage < p.lastPage then some (.number (p.currentPage + 1))
        else none } } := by
  rw [ofPage_eq, PageFacts.links_none]
  rfl

def ofValues (url : Option Url) (data : Value) (f : PageFacts) : Outcome (RichEnvelope Value) := do
  let e ← ofFacts url ([] : List Value) f
  match data with
  | .list items => .ok { e with data := items }
  | _ => .error (.invalid [⟨[.field "data"], .listType⟩])

def simple {α : Type} (e : RichEnvelope α) : SimpleEnvelope α :=
  { data := e.data, page := e.facts.currentPage, limit := e.facts.perPage, total := e.facts.total
    totalPages := e.facts.lastPage }

def inShape {α : Type} (e : RichEnvelope α) : EnvelopeShape → Envelope α
  | .rich => .rich e
  | .simple => .simple e.simple

end RichEnvelope

end Listing
