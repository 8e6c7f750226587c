import Mathlib.Data.List.Induction
import Listing.Filter.Coercion
import Listing.Proofs.Number.Spellings

set_option autoImplicit false

/-!
# Spellings of identifiers

An identifier is read from a text of thirty-two characters that are a hexadecimal numeral, once the
words `urn:` and `uuid:`, braces at the ends and all hyphens are left out. The numeral is not just
digits: it may have blanks around it, a sign, a mark and underscores, and all of them count.
-/

namespace Listing.Coercion

open Text Numeral

/-- A text and what is left of it without a word, where occurrences are looked for from the left. -/
inductive Erased (word : List Char) : List Char → List Char → Prop
  | done : Erased word [] []
  | word {cs out : List Char} : Erased word cs out → Erased word (word ++ cs) out
  | char {c : Char} {cs out : List Char} : ¬ word <+: c :: cs → Erased word cs out →
      Erased word (c :: cs) (c :: out)

variable {word cs out : List Char}

theorem erased_eraseWord (hword : word ≠ []) {fuel : ℕ} (hfuel : cs.length ≤ fuel) :
    Erased word cs (eraseWord word fuel cs) := by
  induction fuel generalizing cs with
  | zero =>
    rw [List.length_eq_zero_iff.1 (Nat.le_zero.1 hfuel)]
    exact .done
  | succ fuel ih =>
    cases cs with
    | nil => exact .done
    | cons c rest =>
      rw [List.length_cons] at hfuel
      rw [eraseWord]
      split_ifs with hprefix
      · obtain ⟨after, hafter⟩ := List.isPrefixOf_iff_prefix.1 hprefix
        rw [← hafter, List.drop_left]
        refine .word (ih ?_)
        have hlength := congrArg List.length hafter
        have hpos := List.length_pos_iff.2 hword
        rw [List.length_append, List.length_cons] at hlength
        omega
      · exact .char (fun h => hprefix (List.isPrefixOf_iff_prefix.2 h)) (ih (by omega))

theorem Erased.eraseWord_eq (hword : word ≠ []) (h : Erased word cs out) {fuel : ℕ}
    (hfuel : cs.length ≤ fuel) : eraseWord word fuel cs = out := by
  -- Along the relation, as the fuel goes down by one where a whole word is left out.
  induction h generalizing fuel with
  | done => cases fuel <;> rfl
  | @word cs out h ih =>
    obtain ⟨c, word, rfl⟩ := List.exists_cons_of_ne_nil hword
    rw [List.length_append, List.length_cons] at hfuel
    obtain ⟨fuel, rfl⟩ := Nat.exists_eq_add_one_of_ne_zero (show fuel ≠ 0 by omega)
    have hprefix : (c :: word).isPrefixOf (c :: (word ++ cs)) = true :=
      List.isPrefixOf_iff_prefix.2 (List.prefix_append (c :: word) cs)
    rw [List.cons_append, eraseWord, if_pos hprefix, ← List.cons_append, List.drop_left]
    exact ih (by omega)
  | char hprefix h ih =>
    rw [List.length_cons] at hfuel
    obtain ⟨fuel, rfl⟩ := Nat.exists_eq_add_one_of_ne_zero (show fuel ≠ 0 by omega)
    rw [eraseWord, if_neg fun h => hprefix (List.isPrefixOf_iff_prefix.1 h), ih (by omega)]

theorem exists_erased (word cs : List Char) (hword : word ≠ []) : ∃ out, Erased word cs out :=
  ⟨_, erased_eraseWord hword (Nat.le_refl _)⟩

def hexDigit? (c : Char) : Option ℕ := (hexValue? c).orElse fun _ => digitValue? c

inductive HexMark : List Char → Prop
  | none : HexMark []
  | small : HexMark ['0', 'x']
  | capital : HexMark ['0', 'X']
  | smallMarked : HexMark ['0', 'x', '_']
  | capitalMarked : HexMark ['0', 'X', '_']

def valueOfHex (ds : List ℕ) : ℕ := ds.foldl (fun n d => 16 * n + d) 0

inductive HexNumeral : List Char → ℤ → Prop
  | between {before sign mark cs after : List Char} {negative : Bool} {ds : List ℕ} :
      (∀ c ∈ before, isNumeralBlank c = true) → Sign sign negative → HexMark mark →
        Run hexDigit? cs ds → (∀ c ∈ after, isNumeralBlank c = true) →
          HexNumeral (before ++ (sign ++ (mark ++ cs)) ++ after) (signed negative (valueOfHex ds))

/-- Whether underscores stand elsewhere than between two digits, or nothing stands at all. -/
def isBroken (cs : List Char) : Bool :=
  cs.isEmpty || cs.head? == some '_' || cs.getLast? == some '_' ||
    (cs.zip (cs.drop 1)).any fun p => p.1 == '_' && p.2 == '_'

def hexDigits? (cs : List Char) : Option (List ℕ) := (cs.filter (· != '_')).mapM hexDigit?

theorem isBroken_digit {c c' : Char} (hc : c ≠ '_') (hc' : c' ≠ '_') (cs : List Char) :
    isBroken (c :: c' :: cs) = isBroken (c' :: cs) := by
  have hfirst := beq_eq_false_iff_ne.2 hc
  have hsecond := beq_eq_false_iff_ne.2 hc'
  simp [isBroken, hfirst, hsecond]

theorem isBroken_mark {c : Char} (hc : c ≠ '_') (cs : List Char) :
    isBroken (c :: '_' :: cs) = isBroken cs := by
  have hfirst := beq_eq_false_iff_ne.2 hc
  cases cs with
  | nil => simp [isBroken]
  | cons c' cs =>
    by_cases hc' : c' = '_'
    · subst hc'
      simp [isBroken]
    · have hsecond := beq_eq_false_iff_ne.2 hc'
      simp [isBroken, hfirst, hsecond]

theorem hexDigits?_cons {c : Char} (hc : c ≠ '_') (cs : List Char) :
    hexDigits? (c :: cs) =
      (hexDigit? c).bind fun d => (hexDigits? cs).map fun ds => d :: ds := by
  unfold hexDigits?
  rw [List.filter_cons_of_pos (by simpa using hc), List.mapM_cons]
  cases hexDigit? c with
  | none => rfl
  | some d => cases (cs.filter (· != '_')).mapM hexDigit? <;> rfl

theorem hexDigits?_mark (cs : List Char) : hexDigits? ('_' :: cs) = hexDigits? cs := rfl

theorem hexDigit_ne_mark {c : Char} {d : ℕ} (h : hexDigit? c = some d) : c ≠ '_' := by
  rintro rfl
  have hnone : hexDigit? '_' = none := by decide
  rw [hnone] at h
  cases h

theorem unbroken_of_run {cs : List Char} {ds : List ℕ} (h : Run hexDigit? cs ds) :
    isBroken cs = false ∧ hexDigits? cs = some ds := by
  induction h with
  | last hc =>
    have hmark := hexDigit_ne_mark hc
    constructor
    · simp [isBroken, hmark]
    · rw [hexDigits?_cons hmark, hc]
      rfl
  | digit hc hrun ih =>
    obtain ⟨hbroken, hdigits⟩ := ih
    obtain ⟨c', d', cs', -, rfl, -, hc'⟩ := hrun.head
    rw [isBroken_digit (hexDigit_ne_mark hc) (hexDigit_ne_mark hc'),
      hexDigits?_cons (hexDigit_ne_mark hc), hc, hdigits]
    exact ⟨hbroken, rfl⟩
  | mark hc hrun ih =>
    obtain ⟨hbroken, hdigits⟩ := ih
    rw [isBroken_mark (hexDigit_ne_mark hc), hexDigits?_cons (hexDigit_ne_mark hc), hc,
      hexDigits?_mark, hdigits]
    exact ⟨hbroken, rfl⟩

theorem run_of_unbroken {cs : List Char} {ds : List ℕ} (hbroken : isBroken cs = false)
    (hdigits : hexDigits? cs = some ds) : Run hexDigit? cs ds := by
  -- Two characters at a time: an underscore is taken together with the digit before it.
  induction cs using List.twoStepInduction generalizing ds with
  | nil => cases hbroken
  | singleton c =>
    have hc : c ≠ '_' := by
      rintro rfl
      cases hbroken
    rw [hexDigits?_cons hc] at hdigits
    obtain ⟨d, hd, hds⟩ := Option.bind_eq_some_iff.1 hdigits
    cases hds
    exact .last hd
  | cons_cons c c' cs ih ih' =>
    have hc : c ≠ '_' := by
      rintro rfl
      cases hbroken
    rw [hexDigits?_cons hc] at hdigits
    obtain ⟨d, hd, hds⟩ := Option.bind_eq_some_iff.1 hdigits
    obtain ⟨ds', hds', rfl⟩ := Option.map_eq_some_iff.1 hds
    by_cases hc' : c' = '_'
    · subst hc'
      rw [isBroken_mark hc] at hbroken
      exact .mark hd (ih hbroken hds')
    · rw [isBroken_digit hc hc'] at hbroken
      exact .digit hd (ih' c' hbroken hds')

theorem run_iff_unbroken {cs : List Char} {ds : List ℕ} :
    Run hexDigit? cs ds ↔ isBroken cs = false ∧ hexDigits? cs = some ds :=
  ⟨unbroken_of_run, fun ⟨hbroken, hdigits⟩ => run_of_unbroken hbroken hdigits⟩

theorem hexValue?_range {c : Char} {v : ℕ} (h : hexValue? c = some v) :
    0x30 ≤ c.toNat ∧ c.toNat ≤ 0x66 := by
  unfold hexValue? at h
  split_ifs at h with hdigit hsmall hcapital
  · simp only [Char.isDigit, Bool.and_eq_true, decide_eq_true_eq] at hdigit
    exact ⟨hdigit.1, hdigit.2.trans (by decide)⟩
  · exact ⟨(by decide : 0x30 ≤ 'a'.toNat).trans (UInt32.le_iff_toNat_le.1 hsmall.1),
      UInt32.le_iff_toNat_le.1 hsmall.2⟩
  · exact ⟨(by decide : 0x30 ≤ 'A'.toNat).trans (UInt32.le_iff_toNat_le.1 hcapital.1),
      (UInt32.le_iff_toNat_le.1 hcapital.2).trans (by decide)⟩

theorem hexDigit_not_blank {c : Char} {d : ℕ} (h : hexDigit? c = some d) :
    isNumeralBlank c = false := by
  unfold hexDigit? at h
  cases hhex : hexValue? c with
  | none =>
    rw [hhex] at h
    exact digit_not_blank h
  | some v =>
    have hrange := hexValue?_range hhex
    rw [← Bool.not_eq_true]
    simp only [isNumeralBlank, isBlank, Bool.and_eq_true, Bool.or_eq_true, decide_eq_true_eq,
      beq_iff_eq]
    omega

theorem HexMark.not_blank {mark : List Char} (h : HexMark mark) :
    ∀ c ∈ mark, isNumeralBlank c = false := by
  have hblank : mark.any isNumeralBlank = false := by cases h <;> decide
  exact fun c hc => Bool.eq_false_iff.2 (List.any_eq_false.1 hblank c hc)

theorem HexMark.signless {mark cs : List Char} {ds : List ℕ} (h : HexMark mark)
    (hrun : Run hexDigit? cs ds) : Signless (mark ++ cs) := by
  cases h with
  | none =>
    intro c hc
    obtain ⟨cs', rfl⟩ := List.head?_eq_some_iff.1 hc
    exact ⟨hrun.ne (by decide), hrun.ne (by decide)⟩
  | _ =>
    intro c hc
    cases hc
    decide

def unmarked (cs : List Char) : List Char :=
  let marked := cs.take 2 == ['0', 'x'] || cs.take 2 == ['0', 'X']
  let rest := if marked then cs.drop 2 else cs
  if marked && rest.head? == some '_' then rest.drop 1 else rest

theorem unmarked_marked {word : List Char} (h : word = ['0', 'x'] ∨ word = ['0', 'X'])
    (rest : List Char) :
    unmarked (word ++ rest) = if rest.head? == some '_' then rest.drop 1 else rest := by
  rcases h with rfl | rfl <;> rfl

theorem unmarked_plain {cs : List Char}
    (h : ¬ (cs.take 2 = ['0', 'x'] ∨ cs.take 2 = ['0', 'X'])) : unmarked cs = cs := by
  have hmarked : (cs.take 2 == ['0', 'x'] || cs.take 2 == ['0', 'X']) = false := by
    rw [← Bool.not_eq_true, Bool.or_eq_true, beq_iff_eq, beq_iff_eq]
    exact h
  unfold unmarked
  rw [hmarked]
  rfl

theorem exists_mark (cs : List Char) : ∃ mark, HexMark mark ∧ cs = mark ++ unmarked cs := by
  by_cases h : cs.take 2 = ['0', 'x'] ∨ cs.take 2 = ['0', 'X']
  · rw [← List.take_append_drop 2 cs, unmarked_marked h]
    generalize cs.drop 2 = rest
    split_ifs with hlast
    · obtain ⟨rest, rfl⟩ := List.head?_eq_some_iff.1 (beq_iff_eq.1 hlast)
      rcases h with h | h <;> rw [h]
      · exact ⟨_, .smallMarked, rfl⟩
      · exact ⟨_, .capitalMarked, rfl⟩
    · rcases h with h | h <;> rw [h]
      · exact ⟨_, .small, rfl⟩
      · exact ⟨_, .capital, rfl⟩
  · exact ⟨[], .none, (unmarked_plain h).symm⟩

theorem take_ne_of_run {cs : List Char} {ds : List ℕ} (h : Run hexDigit? cs ds) {c : Char}
    (hc : hexDigit? c = none) (hmark : c ≠ '_') : cs.take 2 ≠ ['0', c] := by
  intro htake
  cases h with
  | last _ => cases htake
  | digit _ hrun =>
    obtain ⟨c', _, _, _, rfl, -, -⟩ := hrun.head
    cases htake
    exact hrun.ne hc rfl
  | mark _ _ =>
    cases htake
    exact hmark rfl

theorem unmarked_append {mark cs : List Char} {ds : List ℕ} (h : HexMark mark)
    (hrun : Run hexDigit? cs ds) : unmarked (mark ++ cs) = cs := by
  obtain ⟨c, d, cs', _, rfl, -, hc⟩ := hrun.head
  have hhead : ¬ ((c :: cs').head? == some '_') = true := by
    rw [List.head?_cons, beq_iff_eq, Option.some.injEq]
    exact hexDigit_ne_mark hc
  cases h with
  | none =>
    apply unmarked_plain
    rintro (htake | htake)
    · exact take_ne_of_run hrun (by decide) (by decide) htake
    · exact take_ne_of_run hrun (by decide) (by decide) htake
  | small => exact (unmarked_marked (.inl rfl) _).trans (if_neg hhead)
  | capital => exact (unmarked_marked (.inr rfl) _).trans (if_neg hhead)
  | smallMarked => rfl
  | capitalMarked => rfl

theorem readHex?_eq (cs : List Char) : readHex? cs =
    let (negative, body) := takeSign (trimBy isNumeralBlank cs)
    if isBroken (unmarked body) then none
    else (hexDigits? (unmarked body)).map fun ds => signed negative (valueOfHex ds) := rfl

theorem readHex?_eq_some_iff {cs : List Char} {n : ℤ} : readHex? cs = some n ↔ HexNumeral cs n := by
  rw [readHex?_eq]
  constructor
  · intro h
    obtain ⟨before, after, hbefore, hafter, hcs⟩ := exists_around_trimBy isNumeralBlank cs
    obtain ⟨sign, hsign, hmid⟩ := takeSign_front (trimBy isNumeralBlank cs)
    generalize takeSign (trimBy isNumeralBlank cs) = taken at h hsign hmid
    obtain ⟨negative, body⟩ := taken
    obtain ⟨mark, hmark, hbody⟩ := exists_mark body
    dsimp only at h hmid
    split_ifs at h with hbroken
    obtain ⟨ds, hds, rfl⟩ := Option.map_eq_some_iff.1 h
    rw [hcs, hmid, hbody]
    exact .between hbefore hsign hmark (run_iff_unbroken.2 ⟨Bool.not_eq_true _ ▸ hbroken, hds⟩) hafter
  · rintro ⟨hbefore, hsign, hmark, hrun, hafter⟩
    rename_i before sign mark body after negative ds
    obtain ⟨hbroken, hdigits⟩ := run_iff_unbroken.1 hrun
    have hmid : ∀ c ∈ sign ++ (mark ++ body), isNumeralBlank c = false := by
      intro c hc
      rcases List.mem_append.1 hc with hc | hc
      · exact hsign.not_blank c hc
      · rcases List.mem_append.1 hc with hc | hc
        · exact hmark.not_blank c hc
        · exact hrun.not_blank hexDigit_not_blank c hc
    have hne : sign ++ (mark ++ body) ≠ [] := by
      obtain ⟨c, -, cs', -, rfl, -, -⟩ := hrun.head
      simp
    rw [trimBy_around hbefore hafter hne hmid, takeSign_signless hsign (hmark.signless hrun)]
    dsimp only
    rw [unmarked_append hmark hrun, hbroken, hdigits]
    rfl

def isBrace (c : Char) : Bool := c == '\x7b' || c == '\x7d'

def bare (cs : List Char) : List Char := (trimBy isBrace cs).filter (· != '-')

/-- A spelling of the identifier of a number. -/
inductive Identifies : List Char → ℕ → Prop
  | spelled {cs named tagged : List Char} {n : ℕ} :
      Erased "urn:".toList cs named → Erased "uuid:".toList named tagged →
        (bare tagged).length = 32 → HexNumeral (bare tagged) n → Identifies cs n

theorem readUuid?_eq {cs named tagged : List Char} (hnamed : Erased "urn:".toList cs named)
    (htagged : Erased "uuid:".toList named tagged) : readUuid? cs =
      if (bare tagged).length = 32 then
        (readHex? (bare tagged)).bind fun n => if 0 ≤ n then some n.toNat else none
      else none := by
  unfold readUuid?
  rw [hnamed.eraseWord_eq (by decide) (Nat.le_succ _)]
  dsimp only
  rw [htagged.eraseWord_eq (by decide) (Nat.le_succ _)]
  unfold bare isBrace
  split_ifs with hlength
  · cases readHex? ((trimBy (fun c => c == '\x7b' || c == '\x7d') tagged).filter (· != '-')) <;> rfl
  · rfl

/-- A text is read as an identifier exactly if it spells this identifier. -/
theorem readUuid?_eq_some_iff {cs : List Char} {n : ℕ} :
    readUuid? cs = some n ↔ Identifies cs n := by
  constructor
  · intro h
    obtain ⟨named, hnamed⟩ := exists_erased "urn:".toList cs (by decide)
    obtain ⟨tagged, htagged⟩ := exists_erased "uuid:".toList named (by decide)
    rw [readUuid?_eq hnamed htagged] at h
    split_ifs at h with hlength
    obtain ⟨m, hread, hm⟩ := Option.bind_eq_some_iff.1 h
    split_ifs at hm with hpos
    cases hm
    refine .spelled hnamed htagged hlength ?_
    rw [Int.toNat_of_nonneg hpos]
    exact readHex?_eq_some_iff.1 hread
  · rintro ⟨hnamed, htagged, hlength, hnumeral⟩
    rw [readUuid?_eq hnamed htagged, if_pos hlength, readHex?_eq_some_iff.2 hnumeral]
    rfl

end Listing.Coercion
