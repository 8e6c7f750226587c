import Listing.Proofs.Number.Exact

set_option autoImplicit false

/-!
# Written decimals

The grammar of numerals for finite decimal numbers, and what such a numeral denotes. A numeral is
read as the number that it denotes: exactly, if it is written as an integer of not too many digits,
else as the nearest number of the format.
-/

namespace Listing.Numeral

open Text Binary64

/-- A run of digits, by their values. Single underscores may stand between them. -/
inductive Run (digit? : Char → Option ℕ) : List Char → List ℕ → Prop
  | last {c : Char} {d : ℕ} : digit? c = some d → Run digit? [c] [d]
  | digit {c : Char} {d : ℕ} {cs : List Char} {ds : List ℕ} :
      digit? c = some d → Run digit? cs ds → Run digit? (c :: cs) (d :: ds)
  | mark {c : Char} {d : ℕ} {cs : List Char} {ds : List ℕ} :
      digit? c = some d → Run digit? cs ds → Run digit? (c :: '_' :: cs) (d :: ds)

inductive OptionalRun : List Char → List ℕ → Prop
  | none : OptionalRun [] []
  | run {cs : List Char} {ds : List ℕ} : Run digitValue? cs ds → OptionalRun cs ds

inductive Sign : List Char → Bool → Prop
  | none : Sign [] false
  | plus : Sign ['+'] false
  | minus : Sign ['-'] true

/-- Digits, and how many of them stand behind a point. Not all digits may be left out. -/
inductive Fixed : List Char → List ℕ → ℕ → Prop
  | whole {cs : List Char} {ds : List ℕ} : Run digitValue? cs ds → Fixed cs ds 0
  | pointed {cs cs' : List Char} {ds ds' : List ℕ} :
      OptionalRun cs ds → OptionalRun cs' ds' → ds ++ ds' ≠ [] →
        Fixed (cs ++ '.' :: cs') (ds ++ ds') ds'.length

inductive Exponent : List Char → ℤ → Prop
  | none : Exponent [] 0
  | marked {c : Char} {sign cs : List Char} {negative : Bool} {ds : List ℕ} :
      c = 'e' ∨ c = 'E' → Sign sign negative → Run digitValue? cs ds →
        Exponent (c :: (sign ++ cs)) (signed negative (valueOfDigits ds))

/-- A numeral for a finite decimal number: a sign, digits around a point and an exponent, all of
them but some digits optional, with blanks around the whole. -/
inductive Denotes : List Char → ℚ → Prop
  | numeral {before sign cs es after : List Char} {negative : Bool} {ds : List ℕ} {k : ℕ} {e : ℤ} :
      (∀ c ∈ before, isNumeralBlank c = true) → Sign sign negative → Fixed cs ds k →
        Exponent es e → (∀ c ∈ after, isNumeralBlank c = true) →
          Denotes (before ++ (sign ++ (cs ++ es)) ++ after)
            (withSign negative ((valueOfDigits ds : ℚ) * 10 ^ (e - k)))

namespace Run

variable {digit? : Char → Option ℕ} {c c' : Char} {cs : List Char} {ds : List ℕ}

theorem head (h : Run digit? cs ds) :
    ∃ c d cs' ds', cs = c :: cs' ∧ ds = d :: ds' ∧ digit? c = some d := by
  cases h with
  | last hc => exact ⟨_, _, _, _, rfl, rfl, hc⟩
  | digit hc _ => exact ⟨_, _, _, _, rfl, rfl, hc⟩
  | mark hc _ => exact ⟨_, _, _, _, rfl, rfl, hc⟩

theorem ne (h : Run digit? (c :: cs) ds) (hc' : digit? c' = none) : c ≠ c' := by
  obtain ⟨_, d, _, _, heq, -, hd⟩ := h.head
  cases heq
  rintro rfl
  rw [hc'] at hd
  cases hd

theorem not_blank (h : Run digit? cs ds)
    (hdigit : ∀ {c d}, digit? c = some d → isNumeralBlank c = false) :
    ∀ c ∈ cs, isNumeralBlank c = false := by
  have hmark : isNumeralBlank '_' = false := by decide
  induction h with
  | last hc => simpa using hdigit hc
  | digit hc _ ih => simpa using ⟨hdigit hc, ih⟩
  | mark hc _ ih => simpa using ⟨hdigit hc, hmark, ih⟩

end Run

theorem scriptZeros_apart : ∀ z ∈ scriptZeros,
    z = 0x30 ∨ (0xA0 < z ∧ z + 10 ≤ 0x1680) ∨ (0x1680 < z ∧ z + 10 ≤ 0x2000) ∨ 0x3000 < z := by
  decide

theorem digit_range {c : Char} {d : ℕ} (h : digitValue? c = some d) :
    (0x30 ≤ c.toNat ∧ c.toNat ≤ 0x39) ∨ (0xA0 < c.toNat ∧ c.toNat < 0x1680) ∨
      (0x1680 < c.toNat ∧ c.toNat < 0x2000) ∨ 0x3000 < c.toNat := by
  unfold digitValue? at h
  split_ifs at h with hascii hdigit
  · left
    simp only [Char.isDigit, Bool.and_eq_true, decide_eq_true_eq] at hdigit
    exact hdigit
  · obtain ⟨z, hz, -⟩ := Option.map_eq_some_iff.1 h
    have hmem := List.mem_of_find?_eq_some hz
    have hrange := List.find?_some hz
    simp only [Bool.and_eq_true, decide_eq_true_eq] at hrange
    have hapart := scriptZeros_apart z hmem
    omega

theorem digit_not_blank {c : Char} {d : ℕ} (h : digitValue? c = some d) :
    isNumeralBlank c = false := by
  have hrange := digit_range h
  rw [← Bool.not_eq_true]
  simp only [isNumeralBlank, isBlank, Bool.and_eq_true, Bool.or_eq_true, decide_eq_true_eq,
    beq_iff_eq]
  omega

theorem not_digit_mark : digitValue? '_' = none := by decide

def Stops (rest : List Char) : Prop := ∀ c ∈ rest.head?, digitValue? c = none ∧ c ≠ '_'

theorem takeDigits_stops {rest : List Char} (h : Stops rest) : takeDigits rest = ([], rest) := by
  cases rest with
  | nil => rw [takeDigits]
  | cons c cs =>
    obtain ⟨hc, -⟩ := h c rfl
    rw [takeDigits, hc]

theorem takeDigits_digit {c : Char} {d : ℕ} {cs : List Char} (hc : digitValue? c = some d)
    (hcs : ∀ c' ∈ cs.head?, c' ≠ '_') :
    takeDigits (c :: cs) = (d :: (takeDigits cs).1, (takeDigits cs).2) := by
  rw [takeDigits]
  simp only [hc]
  split
  · exact absurd rfl (hcs '_' rfl)
  · rfl

theorem takeDigits_mark {c c' : Char} {d d' : ℕ} {cs : List Char} (hc : digitValue? c = some d)
    (hc' : digitValue? c' = some d') :
    takeDigits (c :: '_' :: c' :: cs) =
      (d :: (takeDigits (c' :: cs)).1, (takeDigits (c' :: cs)).2) := by
  rw [takeDigits]
  simp only [hc, hc']

theorem takeDigits_run {cs rest : List Char} {ds : List ℕ} (h : Run digitValue? cs ds)
    (hrest : Stops rest) :
    takeDigits (cs ++ rest) = (ds, rest) := by
  induction h with
  | last hc =>
    rw [List.singleton_append, takeDigits_digit hc fun c' hc' => (hrest c' hc').2,
      takeDigits_stops hrest]
  | digit hc hrun ih =>
    obtain ⟨c', -, cs', -, rfl, -, -⟩ := hrun.head
    have hnext : c' ≠ '_' := hrun.ne not_digit_mark
    rw [List.cons_append, takeDigits_digit hc, ih]
    intro c'' hhead
    cases hhead
    exact hnext
  | mark hc hrun ih =>
    obtain ⟨c', d', cs', -, rfl, -, hc'⟩ := hrun.head
    rw [List.cons_append, List.cons_append, List.cons_append, takeDigits_mark hc hc',
      ← List.cons_append, ih]

theorem takeDigits_optionalRun {cs rest : List Char} {ds : List ℕ} (h : OptionalRun cs ds)
    (hrest : Stops rest) : takeDigits (cs ++ rest) = (ds, rest) := by
  cases h with
  | none => exact takeDigits_stops hrest
  | run h => exact takeDigits_run h hrest

theorem dropWhile_append_of_pos {p : Char → Bool} {before mid : List Char}
    (hbefore : ∀ c ∈ before, p c = true) (hmid : ∀ c ∈ mid.head?, p c = false) :
    (before ++ mid).dropWhile p = mid := by
  induction before with
  | nil =>
    cases mid with
    | nil => rfl
    | cons c cs =>
      rw [List.nil_append, List.dropWhile_cons_of_neg]
      rw [hmid c rfl]
      exact Bool.false_ne_true
  | cons c cs ih =>
    rw [List.cons_append, List.dropWhile_cons_of_pos (hbefore c List.mem_cons_self)]
    exact ih fun c' hc' => hbefore c' (List.mem_cons_of_mem c hc')

theorem trimBy_around {p : Char → Bool} {before mid after : List Char}
    (hbefore : ∀ c ∈ before, p c = true) (hafter : ∀ c ∈ after, p c = true) (hne : mid ≠ [])
    (hmid : ∀ c ∈ mid, p c = false) : trimBy p (before ++ mid ++ after) = mid := by
  have hhead : ∀ c ∈ (mid ++ after).head?, p c = false := by
    intro c hc
    rw [List.head?_append_of_ne_nil _ hne] at hc
    exact hmid c (List.mem_of_mem_head? hc)
  have hlast : ∀ c ∈ mid.reverse.head?, p c = false := fun c hc =>
    hmid c (List.mem_reverse.1 (List.mem_of_mem_head? hc))
  unfold trimBy
  rw [List.append_assoc, dropWhile_append_of_pos hbefore hhead, List.reverse_append,
    dropWhile_append_of_pos (fun c hc => hafter c (List.mem_reverse.1 hc)) hlast,
    List.reverse_reverse]

theorem OptionalRun.not_blank {cs : List Char} {ds : List ℕ} (h : OptionalRun cs ds) :
    ∀ c ∈ cs, isNumeralBlank c = false := by
  cases h with
  | none => exact nofun
  | run h => exact h.not_blank digit_not_blank

theorem Sign.not_blank {sign : List Char} {negative : Bool} (h : Sign sign negative) :
    ∀ c ∈ sign, isNumeralBlank c = false := by
  cases h with
  | none => exact nofun
  | plus => exact List.forall_mem_singleton.2 (by decide)
  | minus => exact List.forall_mem_singleton.2 (by decide)

theorem Fixed.not_blank {cs : List Char} {ds : List ℕ} {k : ℕ} (h : Fixed cs ds k) :
    ∀ c ∈ cs, isNumeralBlank c = false := by
  have hpoint : isNumeralBlank '.' = false := by decide
  cases h with
  | whole h => exact h.not_blank digit_not_blank
  | pointed h h' _ =>
    intro c hc
    rcases List.mem_append.1 hc with hc | hc
    · exact h.not_blank c hc
    · rcases List.mem_cons.1 hc with rfl | hc
      · exact hpoint
      · exact h'.not_blank c hc

theorem Exponent.not_blank {es : List Char} {e : ℤ} (h : Exponent es e) :
    ∀ c ∈ es, isNumeralBlank c = false := by
  cases h with
  | none => exact nofun
  | marked hc hsign hrun =>
    intro c' hc'
    rcases List.mem_cons.1 hc' with rfl | hc'
    · rcases hc with rfl | rfl <;> decide
    · rcases List.mem_append.1 hc' with hc' | hc'
      · exact hsign.not_blank c' hc'
      · exact hrun.not_blank digit_not_blank c' hc'

def Begins (cs : List Char) : Prop :=
  ∃ c cs', cs = c :: cs' ∧ (c = '.' ∨ ∃ d, digitValue? c = some d)

theorem Run.begins {cs : List Char} {ds : List ℕ} (h : Run digitValue? cs ds) : Begins cs := by
  obtain ⟨c, d, cs', -, rfl, -, hc⟩ := h.head
  exact ⟨c, cs', rfl, .inr ⟨d, hc⟩⟩

theorem Fixed.begins {cs : List Char} {ds : List ℕ} {k : ℕ} (h : Fixed cs ds k) : Begins cs := by
  cases h with
  | whole h => exact h.begins
  | pointed h h' _ =>
    cases h with
    | none => exact ⟨'.', _, rfl, .inl rfl⟩
    | run h =>
      obtain ⟨c, cs'', rfl, hc⟩ := h.begins
      exact ⟨c, _, rfl, hc⟩

theorem Begins.append {cs : List Char} (h : Begins cs) (rest : List Char) :
    Begins (cs ++ rest) := by
  obtain ⟨c, cs', rfl, hc⟩ := h
  exact ⟨c, cs' ++ rest, rfl, hc⟩

/-- A numeral does not begin with a character that is no digit and no point. -/
theorem Begins.ne {c : Char} {cs : List Char} (h : Begins (c :: cs)) {c' : Char} (hpoint : c' ≠ '.')
    (hdigit : digitValue? c' = none) : c ≠ c' := by
  obtain ⟨c'', cs', heq, hc⟩ := h
  cases heq
  rintro rfl
  rcases hc with rfl | ⟨d, hd⟩
  · exact hpoint rfl
  · rw [hdigit] at hd
    cases hd

theorem takeSign_sign {sign cs : List Char} {negative : Bool} (h : Sign sign negative)
    (hcs : Begins cs) : takeSign (sign ++ cs) = (negative, cs) := by
  cases h with
  | plus => rfl
  | minus => rfl
  | none =>
    obtain ⟨c, cs', rfl, -⟩ := id hcs
    have hplus : c ≠ '+' := hcs.ne (by decide) (by decide)
    have hminus : c ≠ '-' := hcs.ne (by decide) (by decide)
    rw [List.nil_append]
    unfold takeSign
    split
    · cases ‹_ :: _ = _›
      exact absurd rfl hplus
    · cases ‹_ :: _ = _›
      exact absurd rfl hminus
    · rfl

theorem Exponent.stops {es : List Char} {e : ℤ} (h : Exponent es e) : Stops es := by
  cases h with
  | none => exact nofun
  | marked hc _ _ =>
    intro c' hhead
    cases hhead
    rcases hc with rfl | rfl <;> decide

theorem stops_nil : Stops [] := nofun

theorem stops_point (rest : List Char) : Stops ('.' :: rest) := by
  intro c hc
  cases hc
  decide

theorem readExponent?_exponent {es : List Char} {e : ℤ} (h : Exponent es e) :
    readExponent? es = some e := by
  cases h with
  | none => rfl
  | @marked c sign cs negative ds hc hsign hrun =>
    obtain ⟨_, d, _, ds', -, rfl, -⟩ := hrun.head
    have htake := takeDigits_run hrun stops_nil
    rw [List.append_nil] at htake
    simp only [readExponent?, if_pos hc, takeSign_sign hsign hrun.begins, htake]

theorem readMagnitude?_fixed {cs es : List Char} {ds : List ℕ} {k : ℕ} {e : ℤ} (h : Fixed cs ds k)
    (he : Exponent es e) : readMagnitude? (cs ++ es) = some (valueOfDigits ds, e - k) := by
  have hexponent := readExponent?_exponent he
  unfold readMagnitude?
  cases h with
  | whole h =>
    obtain ⟨-, d, -, ds', -, rfl, -⟩ := h.head
    rw [takeDigits_run h he.stops]
    cases he with
    | none => simp [hexponent]
    | marked hc _ _ => rcases hc with rfl | rfl <;> simp [hexponent]
  | @pointed cs cs' ds ds' h h' hne =>
    rw [List.append_assoc, List.cons_append, takeDigits_optionalRun h (stops_point _)]
    simp only [takeDigits_optionalRun h' he.stops]
    have hsome : (ds.isEmpty && ds'.isEmpty) = false := by
      rw [← Bool.not_eq_true, Bool.and_eq_true, List.isEmpty_iff, List.isEmpty_iff]
      rintro ⟨rfl, rfl⟩
      exact hne rfl
    rw [hsome, hexponent]
    rfl

theorem trimBy_numeral {before sign cs es after : List Char} {negative : Bool} {ds : List ℕ} {k : ℕ}
    {e : ℤ} (hbefore : ∀ c ∈ before, isNumeralBlank c = true) (hsign : Sign sign negative)
    (h : Fixed cs ds k) (he : Exponent es e) (hafter : ∀ c ∈ after, isNumeralBlank c = true) :
    trimBy isNumeralBlank (before ++ (sign ++ (cs ++ es)) ++ after) = sign ++ (cs ++ es) := by
  apply trimBy_around hbefore hafter
  · obtain ⟨c, cs', rfl, -⟩ := h.begins
    simp
  · intro c hc
    rcases List.mem_append.1 hc with hc | hc
    · exact hsign.not_blank c hc
    · rcases List.mem_append.1 hc with hc | hc
      · exact h.not_blank c hc
      · exact he.not_blank c hc

theorem signed_eq_withSign (negative : Bool) (n : ℕ) :
    ((signed negative n : ℤ) : ℚ) = withSign negative n := by
  cases negative with
  | false => rfl
  | true =>
    simp only [signed, withSign, if_true]
    push_cast
    rfl

theorem takeDigits_eq_whole {cs es : List Char} {ds ds' : List ℕ} {k : ℕ} {e : ℤ}
    (h : Fixed cs ds k) (he : Exponent es e) (hne : ds' ≠ [])
    (htake : takeDigits (cs ++ es) = (ds', [])) : ds' = ds ∧ k = 0 ∧ e = 0 := by
  cases h with
  | whole h =>
    rw [takeDigits_run h he.stops, Prod.mk.injEq] at htake
    obtain ⟨rfl, rfl⟩ := htake
    cases he
    exact ⟨rfl, rfl, rfl⟩
  | pointed h _ _ =>
    rw [List.append_assoc, List.cons_append, takeDigits_optionalRun h (stops_point _),
      Prod.mk.injEq] at htake
    exact absurd htake.2 (List.cons_ne_nil _ _)

theorem readInteger?_denotes {cs : List Char} {x : ℚ} (h : Denotes cs x) {n : ℤ}
    (hn : readInteger? cs = some n) : (n : ℚ) = x := by
  cases h with
  | @numeral before sign cs es after negative ds k e hbefore hsign hfixed he hafter =>
    unfold readInteger? at hn
    rw [trimBy_numeral hbefore hsign hfixed he hafter,
      takeSign_sign hsign (hfixed.begins.append es)] at hn
    simp only at hn
    split at hn
    · cases hn
    · rename_i ds' hne htake
      obtain ⟨rfl, rfl, rfl⟩ := takeDigits_eq_whole hfixed he hne htake
      split_ifs at hn
      cases hn
      rw [signed_eq_withSign]
      simp
    · cases hn

theorem Begins.lowered {cs : List Char} (h : Begins cs) :
    ∃ c, (lowerAscii cs).head? = some c ∧ (c = '.' ∨ ∃ d, digitValue? c = some d) := by
  obtain ⟨c, cs', rfl, hc⟩ := h
  have hsame : c.toLower = c := by
    apply toLower_of_not_letter
    rcases hc with rfl | ⟨d, hd⟩
    · exact .inl (by decide)
    · have hrange := digit_range hd
      omega
  exact ⟨c, by rw [lowerAscii, List.map_cons, hsame]; rfl, hc⟩

/-- A word that begins with a letter is no numeral. -/
theorem lowered_ne {cs : List Char} (h : Begins cs) {word : String} {c : Char}
    (hword : word.toList.head? = some c) (hpoint : c ≠ '.') (hdigit : digitValue? c = none) :
    String.ofList (lowerAscii cs) ≠ word := by
  rintro rfl
  obtain ⟨c', hc', hkind⟩ := h.lowered
  rw [String.toList_ofList, hc'] at hword
  obtain rfl := Option.some.inj hword
  rcases hkind with rfl | ⟨d, hd⟩
  · exact hpoint rfl
  · rw [hdigit] at hd
    cases hd

theorem readBinary64?_denotes {cs : List Char} {x : ℚ} (h : Denotes cs x) :
    ∃ negative n e, readBinary64? cs = some (ofScientific negative n e) ∧
      x = withSign negative ((n : ℚ) * 10 ^ e) := by
  cases h with
  | @numeral before sign cs es after negative ds k e hbefore hsign hfixed he hafter =>
    refine ⟨negative, valueOfDigits ds, e - k, ?_, rfl⟩
    have hbegins := hfixed.begins.append es
    unfold readBinary64?
    rw [trimBy_numeral hbefore hsign hfixed he hafter, takeSign_sign hsign hbegins]
    simp only
    split
    · exact absurd ‹_› (lowered_ne hbegins (c := 'i') rfl (by decide) (by decide))
    · exact absurd ‹_› (lowered_ne hbegins (c := 'i') rfl (by decide) (by decide))
    · exact absurd ‹_› (lowered_ne hbegins (c := 'n') rfl (by decide) (by decide))
    · rw [readMagnitude?_fixed hfixed he]
      rfl

end Listing.Numeral
