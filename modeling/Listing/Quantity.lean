import Listing.Fault
set_option autoImplicit false

/-!
# Quantities

The numbers that settings and page facts are made of: truth values counting as zero and one,
integers without bound, and floating point numbers. Two quantities are compared exactly; integer
arithmetic is exact, and as soon as one operand is a floating point number the other is rounded
to one.
-/

namespace Listing

inductive Quantity where
  | flag (b : Bool)
  | whole (n : Int)
  | real (x : Binary64)
deriving DecidableEq, Repr

namespace Quantity

def toValue : Quantity → Value
  | flag b => .bool b
  | whole n => .int n
  | real x => .float x

def ofValue? : Value → Option Quantity
  | .bool b => some (flag b)
  | .int n => some (whole n)
  | .float x => some (real x)
  | _ => none

def kind (q : Quantity) : Kind := q.toValue.kind

def int? : Quantity → Option Int
  | flag b => some b.toNat
  | whole n => some n
  | real _ => none

def compare? (a b : Quantity) : Option Ordering :=
  match a, b with
  | real x, real y => x.compare? y
  | real x, flag b => x.compareInt? b.toNat
  | real x, whole n => x.compareInt? n
  | flag b, real y => (y.compareInt? b.toNat).map Ordering.swap
  | whole n, real y => (y.compareInt? n).map Ordering.swap
  | a, b => some (compare (a.int?.getD 0) (b.int?.getD 0))

/-- Whether one quantity is less than another; false when either is not a number. -/
def less (a b : Quantity) : Bool := a.compare? b == some .lt

theorem less_whole (a b : Int) : less (whole a) (whole b) = decide (a < b) := by
  simp only [less, compare?, int?, Option.getD_some, compare, compareOfLessAndEq]
  by_cases h : a < b
  · simp [h]
  · by_cases e : a = b <;> simp [h, e]

def truncate? : Quantity → Option Int
  | flag b => some b.toNat
  | whole n => some n
  | real x => x.truncate?

def toInteger (q : Quantity) : Outcome Int :=
  match q.truncate?, q with
  | some n, _ => .ok n
  | none, real .nan => .error .nanToInteger
  | none, _ => .error .infiniteToInteger

def toReal : Quantity → Outcome Binary64
  | flag b => .ok (.ofInt b.toNat)
  | whole n => if Binary64.overflows n then .error .integerTooLargeForReal else .ok (.ofInt n)
  | real x => .ok x

/-- An operation on integers, or on floating point numbers where one operand is one. -/
def combine (onInts : Int → Int → Int) (onReals : Binary64 → Binary64 → Binary64)
    (a b : Quantity) : Outcome Quantity :=
  match a.int?, b.int? with
  | some m, some n => .ok (whole (onInts m n))
  | _, _ => do
    let x ← a.toReal
    let y ← b.toReal
    .ok (real (onReals x y))

def add : Quantity → Quantity → Outcome Quantity := combine (· + ·) Binary64.add
def sub : Quantity → Quantity → Outcome Quantity := combine (· - ·) fun x y => x.add y.neg
def mul : Quantity → Quantity → Outcome Quantity := combine (· * ·) Binary64.mul

end Quantity

namespace Value

def operands (operator : String) (a b : Value) : Outcome (Quantity × Quantity) :=
  match Quantity.ofValue? a, Quantity.ofValue? b with
  | some x, some y => .ok (x, y)
  | _, _ => .error (.badOperands operator a.kind b.kind)

def lessThan (a b : Value) : Outcome Bool :=
  match a, b with
  | text s, text t => .ok (s < t)
  | a, b =>
    match Quantity.ofValue? a, Quantity.ofValue? b with
    | some x, some y => .ok (x.less y)
    | _, _ => .error (.incomparable a.kind b.kind)

theorem lessThan_int (a b : Int) : lessThan (int a) (int b) = .ok (decide (a < b)) := by
  simp only [lessThan, Quantity.ofValue?, Quantity.less_whole]

end Value
end Listing
