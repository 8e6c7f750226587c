import Listing.Fault
set_option autoImplicit false

namespace Listing

inductive FilterOperator where
  | eq
  | ne
  | gt
  | gte
  | lt
  | lte
  | like
  | within
deriving DecidableEq, Repr

namespace FilterOperator

def all : List FilterOperator := [eq, ne, gt, gte, lt, lte, like, within]

def word : FilterOperator → String
  | eq => "eq"
  | ne => "ne"
  | gt => "gt"
  | gte => "gte"
  | lt => "lt"
  | lte => "lte"
  | like => "like"
  | within => "in"

def ofWord? (s : String) : Option FilterOperator := all.find? (·.word == s)

def ofValue? : Value → Option FilterOperator
  | .text s => ofWord? s
  | _ => none

def ofValue (v : Value) : Outcome FilterOperator :=
  (ofValue? v).elim (.error (.notAWord .filterOperator v)) .ok

theorem ofWord?_word (o : FilterOperator) : ofWord? o.word = some o := by cases o <;> decide

end FilterOperator

inductive SortOrder where
  | asc
  | desc
deriving DecidableEq, Repr

namespace SortOrder

def all : List SortOrder := [asc, desc]

def word : SortOrder → String
  | asc => "asc"
  | desc => "desc"

def ofWord? (s : String) : Option SortOrder := all.find? (·.word == s)

end SortOrder

inductive NullsPosition where
  | first
  | last
deriving DecidableEq, Repr

def NullsPosition.word : NullsPosition → String
  | first => "first"
  | last => "last"

inductive AggregateKind where
  | avg
  | count
  | sum
  | min
  | max
deriving DecidableEq, Repr

namespace AggregateKind

def all : List AggregateKind := [avg, count, sum, min, max]

def word : AggregateKind → String
  | avg => "avg"
  | count => "count"
  | sum => "sum"
  | min => "min"
  | max => "max"

def ofWord? (s : String) : Option AggregateKind := all.find? (·.word == s)

def ofValue (v : Value) : Outcome AggregateKind :=
  match v with
  | .text s => (ofWord? s).elim (.error (.notAWord .aggregateKind v)) .ok
  | v => .error (.notAWord .aggregateKind v)

end AggregateKind

inductive EnvelopeShape where
  | simple
  | rich
deriving DecidableEq, Repr

namespace EnvelopeShape

def all : List EnvelopeShape := [simple, rich]

/-- The simple shape has a flat block of page numbers, the rich one a block of facts and links. -/
def word : EnvelopeShape → String
  | simple => "pagination"
  | rich => "meta"

def ofWord? (s : String) : Option EnvelopeShape := all.find? (·.word == s)

def ofValue (v : Value) : Outcome EnvelopeShape :=
  match v with
  | .text s => (ofWord? s).elim (.error (.notAWord .envelopeShape v)) .ok
  | v => .error (.notAWord .envelopeShape v)

end EnvelopeShape

def SortOrder.ofValue (v : Value) : Outcome SortOrder :=
  match v with
  | .text s => (ofWord? s).elim (.error (.notAWord .sortingOrder v)) .ok
  | v => .error (.notAWord .sortingOrder v)

end Listing
