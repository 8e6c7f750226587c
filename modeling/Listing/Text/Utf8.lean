set_option autoImplicit false

/-!
# UTF-8

Characters to bytes and back. Bytes that form no character are replaced: each longest run of
bytes that could begin a character, or else each single byte, by one replacement character.
-/

namespace Listing.Utf8

def encode (cs : List Char) : List Nat :=
  (cs.flatMap String.utf8EncodeChar).map UInt8.toNat

def replacement : Char := '\uFFFD'

/-- A character of which some bytes have been read: how many are missing, the bits so far, and the
range of the next byte. -/
structure Partial where
  missing : Nat
  bits : Nat
  low : Nat
  high : Nat

inductive Lead where
  | complete (c : Char)
  | started (p : Partial)
  | invalid

def lead (b : Nat) : Lead :=
  if b < 0x80 then .complete (Char.ofNat b)
  else if 0xC2 ≤ b ∧ b ≤ 0xDF then .started ⟨1, b % 0x20, 0x80, 0xBF⟩
  else if 0xE0 ≤ b ∧ b ≤ 0xEF then
    .started ⟨2, b % 0x10, if b = 0xE0 then 0xA0 else 0x80, if b = 0xED then 0x9F else 0xBF⟩
  else if 0xF0 ≤ b ∧ b ≤ 0xF4 then
    .started ⟨3, b % 8, if b = 0xF0 then 0x90 else 0x80, if b = 0xF4 then 0x8F else 0xBF⟩
  else .invalid

/-- Decode after a character of which some bytes may have been read. Each result is a character or
nothing where bytes form none. -/
def decodeFrom : Option Partial → List Nat → List (Option Char)
  | none, [] => []
  | some _, [] => [none]
  | none, b :: bs =>
    match lead b with
    | .complete c => some c :: decodeFrom none bs
    | .started p => decodeFrom (some p) bs
    | .invalid => none :: decodeFrom none bs
  | some p, b :: bs =>
    if p.low ≤ b ∧ b ≤ p.high then
      let bits := p.bits * 64 + b % 64
      if p.missing = 1 then some (Char.ofNat bits) :: decodeFrom none bs
      else decodeFrom (some ⟨p.missing - 1, bits, 0x80, 0xBF⟩) bs
    else
      none ::
        match lead b with
        | .complete c => some c :: decodeFrom none bs
        | .started p => decodeFrom (some p) bs
        | .invalid => none :: decodeFrom none bs

def decode (bs : List Nat) : List Char := (decodeFrom none bs).map (·.getD replacement)

inductive Defect where
  | start
  | continuation
  | ended
deriving DecidableEq, Repr

structure Malformed where
  position : Nat
  size : Nat
  first : Nat
  defect : Defect
deriving DecidableEq, Repr

/-- The first bytes that form no character, after a character of which some bytes have been read.
The position is that of the character's first byte, given with the number of bytes read. -/
def malformedFrom (position read first : Nat) : Option Partial → List Nat → Option Malformed
  | none, [] => none
  | some _, [] => some ⟨position, read, first, .ended⟩
  | none, b :: bs =>
    match lead b with
    | .complete _ => malformedFrom (position + 1) 0 0 none bs
    | .started p => malformedFrom position 1 b (some p) bs
    | .invalid => some ⟨position, 1, b, .start⟩
  | some p, b :: bs =>
    if p.low ≤ b ∧ b ≤ p.high then
      if p.missing = 1 then malformedFrom (position + read + 1) 0 0 none bs
      else malformedFrom position (read + 1) first
        (some ⟨p.missing - 1, p.bits * 64 + b % 64, 0x80, 0xBF⟩) bs
    else some ⟨position, read, first, .continuation⟩

def malformed? (bs : List Nat) : Option Malformed := malformedFrom 0 0 0 none bs

end Listing.Utf8
