set_option autoImplicit false

/-!
# Letter case

Keywords are matched without regard to the case of the Latin letters. No character outside ASCII
is folded: none of them has a lower case within the letters of any keyword this library knows.
-/

namespace Listing.Text

def lowerAscii (cs : List Char) : List Char := cs.map Char.toLower

def lowered (s : String) : String := String.ofList (lowerAscii s.toList)

theorem toNat_toLower (c : Char) : c.toLower.toNat =
    if 0x41 ≤ c.toNat ∧ c.toNat ≤ 0x5A then c.toNat + 0x20 else c.toNat := by
  by_cases hcapital : c.val ≥ 'A'.val ∧ c.val ≤ 'Z'.val
  · have hbounds : 0x41 ≤ c.toNat ∧ c.toNat ≤ 0x5A :=
      ⟨UInt32.le_iff_toNat_le.1 hcapital.1, UInt32.le_iff_toNat_le.1 hcapital.2⟩
    have hmoved : c.toLower.val = c.val + ('a'.val - 'A'.val) :=
      congrArg Char.val (show c.toLower = _ from dif_pos hcapital)
    have hgap : ('a'.val - 'A'.val).toNat = 0x20 := rfl
    have hhigh : c.val.toNat ≤ 0x5A := hbounds.2
    rw [if_pos hbounds]
    change c.toLower.val.toNat = c.val.toNat + 0x20
    rw [hmoved, UInt32.toNat_add, hgap, Nat.mod_eq_of_lt (by omega)]
  · have hbounds : ¬ (0x41 ≤ c.toNat ∧ c.toNat ≤ 0x5A) := fun h =>
      hcapital ⟨UInt32.le_iff_toNat_le.2 h.1, UInt32.le_iff_toNat_le.2 h.2⟩
    have hsame : c.toLower = c := dif_neg hcapital
    rw [if_neg hbounds, hsame]

theorem toLower_of_not_letter {c : Char} (h : c.toNat < 0x41 ∨ 0x5A < c.toNat) :
    c.toLower = c := by
  rw [← Char.toNat_inj, toNat_toLower, if_neg (by omega)]

end Listing.Text
