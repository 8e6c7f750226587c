import Listing.Number.Decimal
import Listing.Proofs.Number.Spellings

set_option autoImplicit false

/-!
# Spellings of decimals

A decimal of arbitrary precision is read from a text whose blanks at the ends and underscores are
dropped and whose digits and letters are made those of ASCII in small letters. What is left has to
be a sign with digits around a point and an exponent, with a word for infinity, or with a word for no
number and digits behind it. A spelling may be of a decimal that is out of range, and this is told
from a text that spells none.
-/

namespace Listing.Decimal

open Text Numeral

inductive Unsigned (negative : Bool) : List Char → Decimal → Prop
  | infinite {cs : List Char} : cs = "inf".toList ∨ cs = "infinity".toList →
      Unsigned negative cs (.infinite negative)
  | quiet {payload : List Char} : (∀ c ∈ payload, c.isDigit = true) →
      Unsigned negative ("nan".toList ++ payload)
        (.nan negative false (payload.dropWhile (· == '0')))
  | signaling {payload : List Char} : (∀ c ∈ payload, c.isDigit = true) →
      Unsigned negative ("snan".toList ++ payload)
        (.nan negative true (payload.dropWhile (· == '0')))
  | number {cs : List Char} {n : ℕ} {e : ℤ} :
      Magnitude cs n e → Unsigned negative cs (.finite negative n e)

inductive Spells : List Char → Decimal → Prop
  | signed {sign cs : List Char} {negative : Bool} {d : Decimal} :
      Sign sign negative → Unsigned negative cs d → Spells (sign ++ cs) d

def spelling (cs : List Char) : List Char := lowerAscii (normalized cs)

/-- A decimal that is no finite number, or one in range. -/
def IsRepresentable : Decimal → Prop
  | finite _ n e => inRange n e = true
  | _ => True

theorem begins_ne {c : Char} {cs : List Char} {n : ℕ} {e : ℤ} (h : Magnitude (c :: cs) n e) :
    c ≠ 'i' ∧ c ≠ 'n' ∧ c ≠ 's' :=
  ⟨h.begins.ne (by decide) (by decide), h.begins.ne (by decide) (by decide),
    h.begins.ne (by decide) (by decide)⟩

theorem Unsigned.signless {negative : Bool} {cs : List Char} {d : Decimal}
    (h : Unsigned negative cs d) : Signless cs := by
  cases h with
  | infinite hword =>
    rcases hword with rfl | rfl
    · exact signless_cons (by decide) (by decide) _
    · exact signless_cons (by decide) (by decide) _
  | quiet _ => exact signless_cons (by decide) (by decide) _
  | signaling _ => exact signless_cons (by decide) (by decide) _
  | number h => exact h.begins.signless

theorem readUnsigned_of_unsigned {negative : Bool} {cs : List Char} {d : Decimal}
    (h : Unsigned negative (lowerAscii cs) d) :
    (d.IsRepresentable → readUnsigned negative cs = .ok d) ∧
      (¬ d.IsRepresentable → readUnsigned negative cs = .error .outOfRange) := by
  unfold readUnsigned
  generalize lowerAscii cs = word at h
  cases h with
  | infinite hword =>
    refine ⟨fun _ => ?_, fun hd => absurd trivial hd⟩
    rcases hword with rfl | rfl
    · rfl
    · rfl
  | quiet hpayload =>
    refine ⟨fun _ => ?_, fun hd => absurd trivial hd⟩
    exact if_pos (List.all_eq_true.2 hpayload)
  | signaling hpayload =>
    refine ⟨fun _ => ?_, fun hd => absurd trivial hd⟩
    exact if_pos (List.all_eq_true.2 hpayload)
  | @number _ n e hnumber =>
    have hread := readMagnitude?_eq_some_iff.2 hnumber
    split
    · exact absurd rfl (begins_ne hnumber).1
    · exact absurd rfl (begins_ne hnumber).2.1
    · exact absurd rfl (begins_ne hnumber).2.2
    · rw [hread]
      exact ⟨fun hd => if_pos hd, fun hd => if_neg hd⟩

theorem exists_unsigned {negative : Bool} {cs : List Char}
    (h : readUnsigned negative cs ≠ .error .malformed) :
    ∃ d, Unsigned negative (lowerAscii cs) d := by
  unfold readUnsigned at h
  split at h
  · rename_i rest hrest
    rw [hrest]
    split_ifs at h with hword
    · refine ⟨_, .infinite ?_⟩
      rcases hword with rfl | rfl
      · exact .inl rfl
      · exact .inr rfl
    · exact absurd rfl h
  · rename_i payload hrest
    rw [hrest]
    split_ifs at h with hdigits
    · exact ⟨_, .quiet (List.all_eq_true.1 hdigits)⟩
    · exact absurd rfl h
  · rename_i payload hrest
    rw [hrest]
    split_ifs at h with hdigits
    · exact ⟨_, .signaling (List.all_eq_true.1 hdigits)⟩
    · exact absurd rfl h
  · cases hread : readMagnitude? (lowerAscii cs) with
    | none =>
      rw [hread] at h
      exact absurd rfl h
    | some found => exact ⟨_, .number (readMagnitude?_eq_some_iff.1 hread)⟩

theorem lowerAscii_sign {sign : List Char} {negative : Bool} (h : Sign sign negative) :
    lowerAscii sign = sign := by
  cases h <;> rfl

theorem eq_of_lowerAscii_sign {cs sign : List Char} {negative : Bool} (h : Sign sign negative)
    (hcs : lowerAscii cs = sign) : cs = sign := by
  subst hcs
  have hsmall : ∀ c ∈ cs, c.toNat < 0x41 := by
    intro c hc
    have hmem : c.toLower ∈ lowerAscii cs := List.mem_map_of_mem hc
    have hsign : c.toLower.toNat < 0x41 := by
      generalize lowerAscii cs = sign at h hmem
      cases h with
      | none => cases hmem
      | plus =>
        rw [List.mem_singleton.1 hmem]
        decide
      | minus =>
        rw [List.mem_singleton.1 hmem]
        decide
    rw [toNat_toLower] at hsign
    split_ifs at hsign <;> omega
  have hsame : ∀ c ∈ cs, c.toLower = id c := fun c hc => toLower_of_not_letter (.inl (hsmall c hc))
  rw [lowerAscii, List.map_congr_left hsame, List.map_id]

theorem read_of_spells {cs : List Char} {d : Decimal} (h : Spells (spelling cs) d) :
    (d.IsRepresentable → read cs = .ok d) ∧
      (¬ d.IsRepresentable → read cs = .error .outOfRange) := by
  unfold spelling at h
  unfold read
  generalize normalized cs = word at h
  generalize hlower : lowerAscii word = lower at h
  obtain ⟨hsign, hbody⟩ := h
  obtain ⟨front, body, rfl, hfront, rfl⟩ := List.map_eq_append_iff.1 hlower
  rw [eq_of_lowerAscii_sign hsign hfront,
    takeSign_signless hsign (signless_of_lowered hbody.signless)]
  exact readUnsigned_of_unsigned hbody

theorem exists_spells {cs : List Char} (h : read cs ≠ .error .malformed) :
    ∃ d, Spells (spelling cs) d := by
  unfold read at h
  unfold spelling
  generalize normalized cs = word at h
  obtain ⟨sign, hsign, hword⟩ := takeSign_front word
  obtain ⟨d, hd⟩ := exists_unsigned h
  refine ⟨d, ?_⟩
  rw [hword, lowerAscii, List.map_append]
  have hspells := Spells.signed hsign hd
  rwa [← lowerAscii_sign hsign] at hspells

variable {cs : List Char} {d : Decimal}

/-- A decimal is read exactly from the spellings of one that is representable. -/
theorem read_eq_ok_iff : read cs = .ok d ↔ Spells (spelling cs) d ∧ d.IsRepresentable := by
  refine ⟨fun h => ?_, fun ⟨h, hd⟩ => (read_of_spells h).1 hd⟩
  have hread : read cs ≠ .error .malformed := by
    rw [h]
    exact nofun
  obtain ⟨d', hd'⟩ := exists_spells hread
  obtain ⟨hok, hrange⟩ := read_of_spells hd'
  by_cases hrep : d'.IsRepresentable
  · rw [hok hrep] at h
    cases h
    exact ⟨hd', hrep⟩
  · rw [hrange hrep] at h
    cases h

theorem read_eq_outOfRange_iff :
    read cs = .error .outOfRange ↔ ∃ d, Spells (spelling cs) d ∧ ¬ d.IsRepresentable := by
  refine ⟨fun h => ?_, fun ⟨d, h, hd⟩ => (read_of_spells h).2 hd⟩
  have hread : read cs ≠ .error .malformed := by
    rw [h]
    exact nofun
  obtain ⟨d', hd'⟩ := exists_spells hread
  refine ⟨d', hd', fun hrep => ?_⟩
  rw [(read_of_spells hd').1 hrep] at h
  cases h

theorem read_eq_malformed_iff :
    read cs = .error .malformed ↔ ∀ d, ¬ Spells (spelling cs) d := by
  constructor
  · intro h d hd
    obtain ⟨hok, hrange⟩ := read_of_spells hd
    by_cases hrep : d.IsRepresentable
    · rw [hok hrep] at h
      cases h
    · rw [hrange hrep] at h
      cases h
  · intro h
    by_contra hread
    obtain ⟨d, hd⟩ := exists_spells hread
    exact h d hd

end Listing.Decimal
