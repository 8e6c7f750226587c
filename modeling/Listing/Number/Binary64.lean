set_option autoImplicit false

/-!
# Binary floating point numbers of 64 bits

A number is a sign, a significand and a power of two, an infinity, or not a number. Arithmetic is
exact arithmetic on rational numbers followed by one rounding to the nearest number, ties to the
even significand.
-/

namespace Listing

/-- `finite s m e` is the number `m * 2 ^ e`, negated when `s`. In a number of the format
`m < 2 ^ 53`, `-1074 ≤ e ≤ 971`, and `2 ^ 52 ≤ m` unless `e = -1074`. Products with powers of two
are written as shifts. -/
inductive Binary64 where
  | finite (negative : Bool) (significand : Nat) (exponent : Int)
  | infinite (negative : Bool)
  | nan
deriving DecidableEq, Repr, Inhabited

namespace Binary64

/-- The nearest integer to `n / d`, the even one of two. -/
def roundHalfEven (n d : Nat) : Nat :=
  let q := n / d
  let r := n % d
  if 2 * r < d then q else if d < 2 * r then q + 1 else q + q % 2

def scaledRound (n d : Nat) (e : Int) : Nat :=
  if 0 ≤ e then roundHalfEven n (d <<< e.toNat) else roundHalfEven (n <<< (-e).toNat) d

/-- The exponent `k` with `2 ^ k ≤ n / d < 2 ^ (k + 1)`, for positive `n` and `d`. -/
def floorLog2 (n d : Nat) : Int :=
  let k : Int := (n.log2 : Int) - d.log2
  let reached := if 0 ≤ k then d <<< k.toNat ≤ n else d ≤ n <<< (-k).toNat
  if reached then k else k - 1

def ofQuotient (negative : Bool) (n d : Nat) : Binary64 :=
  if n = 0 then finite negative 0 (-1074)
  else
    let e := max (floorLog2 n d - 52) (-1074)
    let m := scaledRound n d e
    let (m, e) := if m = 1 <<< 53 then (1 <<< 52, e + 1) else (m, e)
    if 971 < e then infinite negative else finite negative m e

def ofRat (negativeZero : Bool) (x : Rat) : Binary64 :=
  if x = 0 then finite negativeZero 0 (-1074) else ofQuotient (x < 0) x.num.natAbs x.den

def toRat? : Binary64 → Option Rat
  | finite s m e =>
    let a : Rat := if 0 ≤ e then (m <<< e.toNat : Nat) else mkRat m (1 <<< (-e).toNat)
    some (if s then -a else a)
  | _ => none

def ofInt (n : Int) : Binary64 := ofQuotient (n < 0) n.natAbs 1

def overflows (n : Int) : Bool :=
  match ofInt n with
  | infinite _ => true
  | _ => false

def isNan : Binary64 → Bool
  | nan => true
  | _ => false

def isNegative : Binary64 → Bool
  | finite s _ _ => s
  | infinite s => s
  | nan => false

def neg : Binary64 → Binary64
  | finite s m e => finite (!s) m e
  | infinite s => infinite (!s)
  | nan => nan

def compare? : Binary64 → Binary64 → Option Ordering
  | nan, _ => none
  | _, nan => none
  | infinite s, infinite t => some (compare (!s).toNat (!t).toNat)
  | infinite s, _ => some (if s then .lt else .gt)
  | _, infinite t => some (if t then .gt else .lt)
  | a, b =>
    match a.toRat?, b.toRat? with
    | some x, some y => some (if x < y then .lt else if x = y then .eq else .gt)
    | _, _ => none

def compareInt? (a : Binary64) (n : Int) : Option Ordering :=
  match a with
  | nan => none
  | infinite s => some (if s then .lt else .gt)
  | a => a.toRat?.map fun x => if x < (n : Rat) then .lt else if x = (n : Rat) then .eq else .gt

def add : Binary64 → Binary64 → Binary64
  | nan, _ => nan
  | _, nan => nan
  | infinite s, infinite t => if s = t then infinite s else nan
  | infinite s, _ => infinite s
  | _, infinite t => infinite t
  | a, b =>
    match a.toRat?, b.toRat? with
    | some x, some y => ofRat (a.isNegative && b.isNegative) (x + y)
    | _, _ => nan

def mul (a b : Binary64) : Binary64 :=
  let s := a.isNegative != b.isNegative
  match a.toRat?, b.toRat? with
  | some x, some y => ofRat s (x * y)
  | some x, none => if b.isNan || x = 0 then nan else infinite s
  | none, some y => if a.isNan || y = 0 then nan else infinite s
  | none, none => if a.isNan || b.isNan then nan else infinite s

def div? (a b : Binary64) : Option Binary64 :=
  let s := a.isNegative != b.isNegative
  match a.toRat?, b.toRat? with
  | some x, some y => if y = 0 then none else some (ofRat s (x / y))
  | some _, none => some (if b.isNan then nan else finite s 0 (-1074))
  | none, some y => if y = 0 then none else some (if a.isNan then nan else infinite s)
  | none, none => some nan

def truncate? (a : Binary64) : Option Int :=
  a.toRat?.map fun x => if x < 0 then x.ceil else x.floor

def toInt? (a : Binary64) : Option Int :=
  match a.toRat? with
  | some x => if x.den = 1 then some x.num else none
  | none => none

def signBit : Nat := 1 <<< 63

def hiddenBit : Nat := 1 <<< 52

/-- The interchange format: sign, eleven bits of biased exponent, fifty-two bits of fraction. -/
def toBits : Binary64 → Nat
  | finite s m e =>
    (if s then signBit else 0) +
      (if m < hiddenBit then m else (e + 1075).toNat * hiddenBit + (m - hiddenBit))
  | infinite s => (if s then signBit else 0) + 2047 * hiddenBit
  | nan => 2047 * hiddenBit + hiddenBit / 2

def ofBits (bits : Nat) : Binary64 :=
  let s := bits / signBit % 2 == 1
  let biased : Nat := bits / hiddenBit % 2048
  let fraction := bits % hiddenBit
  if biased = 2047 then
    if fraction = 0 then infinite s else nan
  else if biased = 0 then finite s fraction (-1074)
  else finite s (fraction + hiddenBit) ((biased : Int) - 1075)

end Binary64
end Listing
