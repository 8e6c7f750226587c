import Mathlib
import Listing.Proofs.QueryStrings
import Listing.Url.Host

set_option autoImplicit false

namespace Listing.Url.Host

open Text

def isHostChar (c : Char) : Bool := isNameChar c || ":[]".toList.contains c

theorem isHostChar_hex {c : Char} (h : (hexValue? c).isSome = true) : isHostChar c = true := by
  have halnum : c.isAlphanum = true := by
    unfold hexValue? at h
    have hf : 'f'.val.toNat = 102 := rfl
    have hF : 'F'.val.toNat = 70 := rfl
    have hz : 'z'.val.toNat = 122 := rfl
    have hZ : 'Z'.val.toNat = 90 := rfl
    simp only [Char.isAlphanum, Char.isAlpha, Char.isUpper, Char.isLower, Bool.or_eq_true,
      Bool.and_eq_true, decide_eq_true_eq, ge_iff_le, UInt32.le_iff_toNat_le]
    split_ifs at h with hdigit hsmall hcapital
    · exact .inr hdigit
    · simp only [Char.le_def, UInt32.le_iff_toNat_le] at hsmall
      exact .inl (.inr ⟨hsmall.1, by omega⟩)
    · simp only [Char.le_def, UInt32.le_iff_toNat_le] at hcapital
      exact .inl (.inl ⟨hcapital.1, by omega⟩)
    · cases h
  simp [isHostChar, isNameChar, isUnreserved, halnum]

theorem isHostChar_digit {c : Char} (h : c.isDigit = true) : isHostChar c = true := by
  simp [isHostChar, isNameChar, isUnreserved, Char.isAlphanum, h]

theorem isVersion4_chars {cs : List Char} (h : isVersion4 cs = true) :
    ∀ c ∈ cs, isHostChar c = true := by
  intro c hc
  have hpieces : ['.'].intercalate (cs.splitOn '.') = cs := List.intercalate_splitOn '.'
  rw [← hpieces] at hc
  rcases mem_intercalate c hc with rfl | ⟨piece, hpiece, hc⟩
  · decide
  · simp only [isVersion4, Bool.and_eq_true, List.all_eq_true] at h
    have hoctet := h.2 piece hpiece
    simp only [isOctet, Bool.and_eq_true, List.all_eq_true] at hoctet
    exact isHostChar_digit (hoctet.1.1.1 c hc)

theorem isGroup_chars {cs : List Char} (h : isGroup cs = true) : ∀ c ∈ cs, isHostChar c = true := by
  simp only [isGroup, Bool.and_eq_true, List.all_eq_true] at h
  exact fun c hc => isHostChar_hex (h.2 c hc)

theorem groups?_chars {dotted : Bool} {pieces : List (List Char)} {n : Nat}
    (h : groups? dotted pieces = some n) : ∀ piece ∈ pieces, ∀ c ∈ piece, isHostChar c = true := by
  induction pieces generalizing n with
  | nil => simp
  | cons piece pieces ih =>
    cases pieces with
    | nil =>
      rw [groups?] at h
      split_ifs at h with hgroup hversion
      · simpa using isGroup_chars hgroup
      · simp at hversion
        simpa using isVersion4_chars hversion.2
    | cons next pieces =>
      rw [groups?] at h
      · split_ifs at h with hgroup
        obtain ⟨m, hm, -⟩ := Option.map_eq_some_iff.1 h
        intro other hother
        rcases List.mem_cons.1 hother with rfl | hother
        · exact isGroup_chars hgroup
        · exact ih hm other hother
      · simp

theorem sideGroups?_chars {dotted : Bool} {cs : List Char} {n : Nat}
    (h : sideGroups? dotted cs = some n) : ∀ c ∈ cs, isHostChar c = true := by
  intro c hc
  unfold sideGroups? at h
  split_ifs at h with hempty
  · simp_all
  · have hpieces : [':'].intercalate (cs.splitOn ':') = cs := List.intercalate_splitOn ':'
    rw [← hpieces] at hc
    rcases mem_intercalate c hc with rfl | ⟨piece, hpiece, hc⟩
    · decide
    · exact groups?_chars h piece hpiece c hc

theorem splitAtPair_eq {mark : Char} {cs before after : List Char}
    (h : splitAtPair mark cs = some (before, after)) : cs = before ++ mark :: mark :: after := by
  induction cs generalizing before with
  | nil => simp [splitAtPair] at h
  | cons a cs ih =>
    cases cs with
    | nil => simp [splitAtPair] at h
    | cons b cs =>
      rw [splitAtPair] at h
      split_ifs at h with hpair
      · simp_all
      · obtain ⟨⟨first, rest⟩, hsplit, hparts⟩ := Option.map_eq_some_iff.1 h
        have hbefore : a :: first = before := congrArg (·.1) hparts
        have hafter : rest = after := congrArg (·.2) hparts
        rw [ih (hafter ▸ hsplit), ← hbefore]
        rfl

theorem isVersion6_chars {cs : List Char} (h : isVersion6 cs = true) :
    ∀ c ∈ cs, isHostChar c = true := by
  unfold isVersion6 at h
  split at h
  · exact sideGroups?_chars (eq_of_beq h)
  · rename_i before after hsplit
    rw [splitAtPair_eq hsplit]
    split at h
    · rename_i m n hbefore hafter
      intro c hc
      simp only [List.mem_append, List.mem_cons] at hc
      rcases hc with hc | rfl | rfl | hc
      · exact sideGroups?_chars hbefore c hc
      · decide
      · decide
      · exact sideGroups?_chars hafter c hc
    · cases h

theorem isPort_chars {cs : List Char} (h : isPort cs = true) : ∀ c ∈ cs, isHostChar c = true := by
  unfold isPort at h
  split at h
  · simp
  · simp only [Bool.and_eq_true, List.all_eq_true] at h
    intro c hc
    rcases List.mem_cons.1 hc with rfl | hc
    · decide
    · exact isHostChar_digit (h.1.2 c hc)
  · cases h

theorem mem_takeWhile_or_dropWhile {p : Char → Bool} {cs : List Char} {c : Char} (hc : c ∈ cs) :
    c ∈ cs.takeWhile p ∨ c ∈ cs.dropWhile p := by
  rwa [← List.mem_append, List.takeWhile_append_dropWhile]

theorem isLaterVersion_chars {cs : List Char} (h : isLaterVersion cs = true) :
    ∀ c ∈ cs, isHostChar c = true := by
  unfold isLaterVersion at h
  split at h
  · rename_i cs
    obtain ⟨-, h⟩ := Bool.and_eq_true_iff.1 h
    intro c hc
    rcases List.mem_cons.1 hc with rfl | hc
    · decide
    · rcases mem_takeWhile_or_dropWhile (p := fun c => (hexValue? c).isSome) hc with hc | hc
      · exact isHostChar_hex (List.mem_takeWhile_imp (p := fun c => (hexValue? c).isSome) hc)
      · split at h
        · rename_i rest hrest
          rw [hrest] at hc
          simp only [Bool.and_eq_true, List.all_eq_true] at h
          rcases List.mem_cons.1 hc with rfl | hc
          · decide
          · have hchar := h.2 c hc
            simp only [Bool.or_eq_true, beq_iff_eq] at hchar
            rcases hchar with (hchar | hchar) | rfl
            · simp [isHostChar, isNameChar, hchar]
            · simp [isHostChar, isNameChar, hchar]
            · decide
        · cases h
  · cases h

/-- Hosts have characters of names, colons and brackets only. -/
theorem isHost_chars {cs : List Char} (h : isHost cs = true) : ∀ c ∈ cs, isHostChar c = true := by
  intro c hc
  unfold isHost at h
  split at h
  · rename_i cs
    simp only [Bool.and_eq_true, Bool.or_eq_true] at h
    obtain ⟨hinner, h⟩ := h
    rcases List.mem_cons.1 hc with rfl | hc
    · decide
    · rcases mem_takeWhile_or_dropWhile (p := (· != ']')) hc with hc | hc
      · rcases hinner with hinner | hinner
        · exact isVersion6_chars hinner c hc
        · exact isLaterVersion_chars hinner c hc
      · have hclosing : ∀ d ∈ (cs.dropWhile (· != ']')).head?, d = ']' := by
          intro d hd
          have hfirst := List.head?_dropWhile_not (· != ']') cs
          rw [hd] at hfirst
          simpa using hfirst
        split at h
        · rename_i d port hport
          rw [hport] at hc hclosing
          rcases List.mem_cons.1 hc with rfl | hc
          · rw [hclosing c rfl]
            decide
          · exact isPort_chars h c hc
        · cases h
  · simp only [Bool.and_eq_true] at h
    rcases mem_takeWhile_or_dropWhile (p := isNameChar) hc with hc | hc
    · simp [isHostChar, List.mem_takeWhile_imp hc]
    · exact isPort_chars h.2 c hc

end Listing.Url.Host
