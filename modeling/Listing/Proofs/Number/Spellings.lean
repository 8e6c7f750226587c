import Mathlib.Data.List.TakeWhile
import Listing.Proofs.Number.Decimals

set_option autoImplicit false

namespace Listing.Numeral

open Text Binary64

theorem OptionalRun.digit {c : Char} {d : ℕ} {cs : List Char} {ds : List ℕ}
    (hc : digitValue? c = some d) (h : OptionalRun cs ds) : Run digitValue? (c :: cs) (d :: ds) := by
  cases h with
  | none => exact .last hc
  | run h => exact .digit hc h

theorem takeDigits_ne_nil {c : Char} {d : ℕ} (cs : List Char) (hc : digitValue? c = some d) :
    (takeDigits (c :: cs)).1 ≠ [] := by
  unfold takeDigits
  rw [hc]
  dsimp only
  split
  · split <;> exact List.cons_ne_nil _ _
  · exact List.cons_ne_nil _ _

theorem takeDigits_front (cs : List Char) :
    ∃ run, cs = run ++ (takeDigits cs).2 ∧ OptionalRun run (takeDigits cs).1 := by
  fun_induction takeDigits cs with
  | case1 => exact ⟨[], rfl, .none⟩
  | case2 c d hc c' cs' d' hc' ds rest heq ih =>
    -- Behind the mark stands a digit, so what follows is a run and not nothing.
    have hne := takeDigits_ne_nil cs' hc'
    rw [heq] at ih hne
    obtain ⟨run, hrun, hds⟩ := ih
    cases hds with
    | none => exact absurd rfl hne
    | run hds => exact ⟨c :: '_' :: run, by rw [hrun]; rfl, .run (.mark hc hds)⟩
  | case3 c d hc c' cs' hc' => exact ⟨[c], rfl, .run (.last hc)⟩
  | case4 c d hc cs hcs ds rest heq ih =>
    rw [heq] at ih
    obtain ⟨run, hrun, hds⟩ := ih
    exact ⟨c :: run, by rw [hrun]; rfl, .run (hds.digit hc)⟩
  | case5 c cs hc => exact ⟨[], rfl, .none⟩

theorem takeDigits_eq_all_iff {cs : List Char} {ds : List ℕ} :
    takeDigits cs = (ds, []) ↔ OptionalRun cs ds := by
  constructor
  · intro h
    obtain ⟨run, hrun, hds⟩ := takeDigits_front cs
    rw [h] at hrun hds
    rwa [hrun, List.append_nil]
  · intro h
    have htake := takeDigits_optionalRun h stops_nil
    rwa [List.append_nil] at htake

theorem takeSign_front (cs : List Char) :
    ∃ sign, Sign sign (takeSign cs).1 ∧ cs = sign ++ (takeSign cs).2 := by
  unfold takeSign
  split
  · exact ⟨['+'], .plus, rfl⟩
  · exact ⟨['-'], .minus, rfl⟩
  · exact ⟨[], .none, rfl⟩

theorem readExponent?_eq_some_iff {es : List Char} {e : ℤ} :
    readExponent? es = some e ↔ Exponent es e := by
  refine ⟨fun h => ?_, readExponent?_exponent⟩
  cases es with
  | nil =>
    cases h
    exact .none
  | cons c cs =>
    rw [readExponent?] at h
    split_ifs at h with hc
    obtain ⟨sign, hsign, hcs⟩ := takeSign_front cs
    generalize takeSign cs = taken at h hsign hcs
    obtain ⟨negative, body⟩ := taken
    dsimp only at h hsign hcs
    split at h
    · cases h
    · rename_i ds hne hdigits
      cases h
      subst hcs
      cases takeDigits_eq_all_iff.1 hdigits with
      | none => exact absurd rfl hne
      | run hrun => exact .marked hc hsign hrun
    · cases h

/-- Digits around a point with an exponent, all of them but some digits optional. -/
inductive Magnitude : List Char → ℕ → ℤ → Prop
  | fixed {cs es : List Char} {ds : List ℕ} {k : ℕ} {e : ℤ} :
      Fixed cs ds k → Exponent es e → Magnitude (cs ++ es) (valueOfDigits ds) (e - k)

theorem readMagnitude?_eq_some_iff {cs : List Char} {n : ℕ} {e : ℤ} :
    readMagnitude? cs = some (n, e) ↔ Magnitude cs n e := by
  constructor
  · intro h
    obtain ⟨run, hrun, hds⟩ := takeDigits_front cs
    unfold readMagnitude? at h
    generalize takeDigits cs = taken at h hrun hds
    obtain ⟨ds, rest⟩ := taken
    dsimp only at h hrun hds
    split at h
    · rename_i after
      obtain ⟨run', hrun', hds'⟩ := takeDigits_front after
      generalize takeDigits after = taken' at h hrun' hds'
      obtain ⟨ds', tail⟩ := taken'
      dsimp only at h hrun' hds'
      split_ifs at h with hnone
      obtain ⟨e', he', hvalue⟩ := Option.map_eq_some_iff.1 h
      cases hvalue
      have hne : ds ++ ds' ≠ [] := by
        intro happend
        obtain ⟨rfl, rfl⟩ := List.append_eq_nil_iff.1 happend
        exact hnone rfl
      have hcs : cs = (run ++ '.' :: run') ++ tail := by
        rw [hrun, hrun', List.append_assoc, List.cons_append]
      rw [hcs]
      exact .fixed (.pointed hds hds' hne) (readExponent?_eq_some_iff.1 he')
    · dsimp only at h
      split_ifs at h with hnone
      obtain ⟨e', he', hvalue⟩ := Option.map_eq_some_iff.1 h
      cases hvalue
      rw [hrun, List.append_nil]
      cases hds with
      | none => exact absurd rfl hnone
      | run hds => exact .fixed (.whole hds) (readExponent?_eq_some_iff.1 he')
  · rintro ⟨hfixed, hexponent⟩
    exact readMagnitude?_fixed hfixed hexponent

inductive Unsigned (negative : Bool) : List Char → Binary64 → Prop
  | infinite {cs : List Char} : lowerAscii cs = "inf".toList ∨ lowerAscii cs = "infinity".toList →
      Unsigned negative cs (.infinite negative)
  | nan {cs : List Char} : lowerAscii cs = "nan".toList → Unsigned negative cs .nan
  | number {cs : List Char} {n : ℕ} {e : ℤ} :
      Magnitude cs n e → Unsigned negative cs (ofScientific negative n e)

inductive Spells : List Char → Binary64 → Prop
  | between {before sign cs after : List Char} {negative : Bool} {x : Binary64} :
      (∀ c ∈ before, isNumeralBlank c = true) → Sign sign negative → Unsigned negative cs x →
        (∀ c ∈ after, isNumeralBlank c = true) → Spells (before ++ (sign ++ cs) ++ after) x

theorem exists_around_trimBy (p : Char → Bool) (cs : List Char) :
    ∃ before after, (∀ c ∈ before, p c = true) ∧ (∀ c ∈ after, p c = true) ∧
      cs = before ++ trimBy p cs ++ after := by
  refine ⟨cs.takeWhile p, ((cs.dropWhile p).reverse.takeWhile p).reverse,
    fun c hc => List.mem_takeWhile_imp hc,
    fun c hc => List.mem_takeWhile_imp (List.mem_reverse.1 hc), ?_⟩
  rw [trimBy, List.append_assoc, ← List.reverse_append, List.takeWhile_append_dropWhile,
    List.reverse_reverse, List.takeWhile_append_dropWhile]

theorem Magnitude.begins {cs : List Char} {n : ℕ} {e : ℤ} (h : Magnitude cs n e) : Begins cs := by
  cases h with
  | fixed hfixed _ => exact hfixed.begins.append _

theorem Magnitude.not_blank {cs : List Char} {n : ℕ} {e : ℤ} (h : Magnitude cs n e) :
    ∀ c ∈ cs, isNumeralBlank c = false := by
  cases h with
  | fixed hfixed hexponent =>
    intro c hc
    rcases List.mem_append.1 hc with hc | hc
    · exact hfixed.not_blank c hc
    · exact hexponent.not_blank c hc

theorem not_blank_of_lowered {cs : List Char} (h : (lowerAscii cs).any isNumeralBlank = false) :
    ∀ c ∈ cs, isNumeralBlank c = false := by
  intro c hc
  rw [← Bool.not_eq_true]
  intro hblank
  have hsame : c.toLower = c := by
    apply toLower_of_not_letter
    simp only [isNumeralBlank, isBlank, Bool.and_eq_true, Bool.or_eq_true, decide_eq_true_eq,
      beq_iff_eq] at hblank
    omega
  have hmem : c ∈ lowerAscii cs := by
    rw [← hsame]
    exact List.mem_map_of_mem hc
  exact List.any_eq_false.1 h c hmem hblank

def Signless (cs : List Char) : Prop := ∀ c ∈ cs.head?, c ≠ '+' ∧ c ≠ '-'

theorem takeSign_signless {sign cs : List Char} {negative : Bool} (h : Sign sign negative)
    (hcs : Signless cs) : takeSign (sign ++ cs) = (negative, cs) := by
  cases h with
  | plus => rfl
  | minus => rfl
  | none =>
    rw [List.nil_append]
    unfold takeSign
    split
    · exact absurd rfl (hcs '+' rfl).1
    · exact absurd rfl (hcs '-' rfl).2
    · rfl

theorem signless_cons {c : Char} (hplus : c ≠ '+') (hminus : c ≠ '-') (cs : List Char) :
    Signless (c :: cs) := by
  intro c' hc'
  cases hc'
  exact ⟨hplus, hminus⟩

theorem signless_of_lowered {cs : List Char} (h : Signless (lowerAscii cs)) : Signless cs := by
  intro c hc
  have hlower : c.toLower ≠ '+' ∧ c.toLower ≠ '-' :=
    h c.toLower (by rw [lowerAscii, List.head?_map, hc]; rfl)
  constructor
  · rintro rfl
    exact hlower.1 rfl
  · rintro rfl
    exact hlower.2 rfl

theorem Begins.signless {cs : List Char} (h : Begins cs) : Signless cs := by
  intro c hc
  obtain ⟨cs', rfl⟩ := List.head?_eq_some_iff.1 hc
  exact ⟨h.ne (by decide) (by decide), h.ne (by decide) (by decide)⟩

/-- What is needed of a text to be found between blanks and behind a sign. -/
structure Plain (cs : List Char) : Prop where
  nonempty : cs ≠ []
  signless : Signless cs
  not_blank : ∀ c ∈ cs, isNumeralBlank c = false

theorem plain_of_lowered {cs cs' : List Char} {c : Char} (h : lowerAscii cs = c :: cs')
    (hplus : c ≠ '+') (hminus : c ≠ '-') (hblank : (c :: cs').any isNumeralBlank = false) :
    Plain cs := by
  refine ⟨?_, signless_of_lowered ?_, not_blank_of_lowered (h ▸ hblank)⟩
  · rintro rfl
    cases h
  · rw [h]
    exact signless_cons hplus hminus cs'

theorem Unsigned.plain {negative : Bool} {cs : List Char} {x : Binary64}
    (h : Unsigned negative cs x) : Plain cs := by
  cases h with
  | infinite hword =>
    rcases hword with hword | hword
    · exact plain_of_lowered hword (by decide) (by decide) (by decide)
    · exact plain_of_lowered hword (by decide) (by decide) (by decide)
  | nan hword => exact plain_of_lowered hword (by decide) (by decide) (by decide)
  | number hnumber =>
    obtain ⟨c, cs', rfl, -⟩ := hnumber.begins
    exact ⟨List.cons_ne_nil c cs', hnumber.begins.signless, hnumber.not_blank⟩

theorem readUnsigned_iff {negative : Bool} {cs : List Char} {x : Binary64} :
    (match String.ofList (lowerAscii cs) with
      | "inf" => some (.infinite negative)
      | "infinity" => some (.infinite negative)
      | "nan" => some .nan
      | _ => (readMagnitude? cs).map fun (n, e) => ofScientific negative n e) = some x ↔
      Unsigned negative cs x := by
  constructor
  · intro h
    split at h
    · rename_i hword
      cases h
      exact .infinite (.inl (by rw [← hword, String.toList_ofList]))
    · rename_i hword
      cases h
      exact .infinite (.inr (by rw [← hword, String.toList_ofList]))
    · rename_i hword
      cases h
      exact .nan (by rw [← hword, String.toList_ofList])
    · obtain ⟨⟨n, e⟩, hread, rfl⟩ := Option.map_eq_some_iff.1 h
      exact .number (readMagnitude?_eq_some_iff.1 hread)
  · intro h
    cases h with
    | infinite hword => rcases hword with hword | hword <;> rw [hword] <;> rfl
    | nan hword =>
      rw [hword]
      rfl
    | number hnumber =>
      have hbegins := hnumber.begins
      split
      · exact absurd ‹_› (lowered_ne hbegins (c := 'i') rfl (by decide) (by decide))
      · exact absurd ‹_› (lowered_ne hbegins (c := 'i') rfl (by decide) (by decide))
      · exact absurd ‹_› (lowered_ne hbegins (c := 'n') rfl (by decide) (by decide))
      · rw [readMagnitude?_eq_some_iff.2 hnumber]
        rfl

/-- A text is read as a floating point number exactly if it spells this number. -/
theorem readBinary64?_eq_some_iff {cs : List Char} {x : Binary64} :
    readBinary64? cs = some x ↔ Spells cs x := by
  unfold readBinary64?
  constructor
  · intro h
    obtain ⟨before, after, hbefore, hafter, hcs⟩ := exists_around_trimBy isNumeralBlank cs
    obtain ⟨sign, hsign, hmid⟩ := takeSign_front (trimBy isNumeralBlank cs)
    generalize takeSign (trimBy isNumeralBlank cs) = taken at h hsign hmid
    obtain ⟨negative, body⟩ := taken
    rw [hcs, hmid]
    exact .between hbefore hsign (readUnsigned_iff.1 h) hafter
  · rintro ⟨hbefore, hsign, hbody, hafter⟩
    rename_i before sign body after negative
    have hplain := hbody.plain
    have hmid : ∀ c ∈ sign ++ body, isNumeralBlank c = false := by
      intro c hc
      rcases List.mem_append.1 hc with hc | hc
      · exact hsign.not_blank c hc
      · exact hplain.not_blank c hc
    have hne := List.append_ne_nil_of_right_ne_nil sign hplain.nonempty
    rw [trimBy_around hbefore hafter hne hmid, takeSign_signless hsign hplain.signless]
    exact readUnsigned_iff.2 hbody

end Listing.Numeral
