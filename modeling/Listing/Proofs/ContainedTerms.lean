import Mathlib.Data.List.TakeWhile
import Mathlib.Tactic.SplitIfs
import Listing.Proofs.Outcomes
import Listing.Proofs.Sql.Tests
import Listing.Query
import Listing.Sample.Heroes

set_option autoImplicit false

namespace Listing.Sql.Like

open Text

/-- Every character spells itself in either case. A percent sign spells any text as well, and an
underscore any one character. -/
inductive Spells : List Char → List Char → Prop where
  | done : Spells [] []
  | same {p c : Char} {ps cs : List Char} (hcase : p.toLower = c.toLower) (h : Spells ps cs) :
      Spells (p :: ps) (c :: cs)
  | one (c : Char) {ps cs : List Char} (h : Spells ps cs) : Spells ('_' :: ps) (c :: cs)
  | run (gap : List Char) {ps cs : List Char} (h : Spells ps cs) : Spells ('%' :: ps) (gap ++ cs)

def Fits (term text : List Char) : Prop :=
  ∃ before part after, text = before ++ part ++ after ∧ Spells term part

/-- The text has a part that is the term, up to the case of its letters. -/
def Occurs (term text : List Char) : Prop :=
  ∃ before part after, text = before ++ part ++ after ∧ lowerAscii term = lowerAscii part

def Wild (c : Char) : Prop := c = '%' ∨ c = '_'

variable {c d p : Char} {ps qs cs ds term text : List Char}

theorem toLower_of_wild (h : Wild c) : c.toLower = c := by
  rcases h with rfl | rfl <;> rfl

theorem eq_of_toLower (h : Wild c) (hcase : d.toLower = c) : d = c := by
  have hwild : c.toNat = 0x25 ∨ c.toNat = 0x5F := by
    rcases h with rfl | rfl
    · exact .inl rfl
    · exact .inr rfl
  have hnumber := toNat_toLower d
  rw [hcase] at hnumber
  rw [← Char.toNat_inj]
  split_ifs at hnumber <;> omega

theorem spells_append : Spells (ps ++ qs) text ↔
    ∃ cs ds, text = cs ++ ds ∧ Spells ps cs ∧ Spells qs ds := by
  induction ps generalizing text with
  | nil =>
    constructor
    · exact fun h => ⟨[], text, rfl, .done, h⟩
    · rintro ⟨cs, ds, rfl, h, hqs⟩
      cases h
      exact hqs
  | cons p ps ih =>
    constructor
    · intro h
      rw [List.cons_append] at h
      cases h with
      | same hcase h =>
        obtain ⟨cs, ds, rfl, hps, hqs⟩ := ih.1 h
        exact ⟨_ :: cs, ds, rfl, .same hcase hps, hqs⟩
      | one c h =>
        obtain ⟨cs, ds, rfl, hps, hqs⟩ := ih.1 h
        exact ⟨c :: cs, ds, rfl, .one c hps, hqs⟩
      | run gap h =>
        obtain ⟨cs, ds, rfl, hps, hqs⟩ := ih.1 h
        exact ⟨gap ++ cs, ds, (List.append_assoc _ _ _).symm, .run gap hps, hqs⟩
    · rintro ⟨cs, ds, rfl, h, hqs⟩
      cases h with
      | same hcase h => exact .same hcase (ih.2 ⟨_, ds, rfl, h, hqs⟩)
      | one c h => exact .one c (ih.2 ⟨_, ds, rfl, h, hqs⟩)
      | run gap h =>
        rw [List.append_assoc, List.cons_append]
        exact .run gap (ih.2 ⟨_, ds, rfl, h, hqs⟩)

theorem spells_percent : Spells ['%'] text := by
  rw [← List.append_nil text]
  exact .run text .done

theorem spells_wrapped : Spells ('%' :: (term ++ ['%'])) text ↔ Fits term text := by
  constructor
  · intro h
    have hparts : Spells (['%'] ++ (term ++ ['%'])) text := h
    obtain ⟨before, rest, rfl, -, h⟩ := spells_append.1 hparts
    obtain ⟨part, after, rfl, hpart, -⟩ := spells_append.1 h
    exact ⟨before, part, after, (List.append_assoc _ _ _).symm, hpart⟩
  · rintro ⟨before, part, after, rfl, h⟩
    rw [List.append_assoc]
    exact .run before (spells_append.2 ⟨part, after, rfl, h, spells_percent⟩)

theorem spells_of_same (h : lowerAscii ps = lowerAscii cs) : Spells ps cs := by
  induction ps generalizing cs with
  | nil =>
    obtain rfl := List.map_eq_nil_iff.1 h.symm
    exact .done
  | cons p ps ih =>
    obtain ⟨c, rest, rfl, hcase, hrest⟩ := List.map_eq_cons_iff.1 h.symm
    exact .same hcase.symm (ih hrest.symm)

theorem same_of_spells (h : Spells ps cs) (hplain : ∀ p ∈ ps, ¬ Wild p) :
    lowerAscii ps = lowerAscii cs := by
  induction h with
  | done => rfl
  | same hcase h ih =>
    have hrest := ih fun p hp => hplain p (List.mem_cons_of_mem _ hp)
    unfold lowerAscii at hrest ⊢
    rw [List.map_cons, List.map_cons, hcase, hrest]
  | one c h => exact absurd (.inr rfl) (hplain _ List.mem_cons_self)
  | run gap h => exact absurd (.inl rfl) (hplain _ List.mem_cons_self)

theorem fits_of_occurs (h : Occurs term text) : Fits term text := by
  obtain ⟨before, part, after, htext, hsame⟩ := h
  exact ⟨before, part, after, htext, spells_of_same hsame⟩

/-- A text that the term spells and that has no wild card in it. -/
def filled : List Char → List Char
  | [] => []
  | p :: ps => if p = '%' then filled ps else (if p = '_' then 'x' else p) :: filled ps

theorem spells_filled (ps : List Char) : Spells ps (filled ps) := by
  induction ps with
  | nil => exact .done
  | cons p ps ih =>
    unfold filled
    split_ifs with hpercent hunderscore
    · subst hpercent
      exact .run [] ih
    · subst hunderscore
      exact .one 'x' ih
    · exact .same rfl ih

theorem mem_filled (h : c ∈ filled ps) : ¬ Wild c ∧ (c = 'x' ∨ c ∈ ps) := by
  induction ps with
  | nil => cases h
  | cons p ps ih =>
    unfold filled at h
    split_ifs at h with hpercent hunderscore
    · exact (ih h).imp_right (Or.imp_right (List.mem_cons_of_mem _))
    · rcases List.mem_cons.1 h with rfl | h
      · exact ⟨by unfold Wild; decide, .inl rfl⟩
      · exact (ih h).imp_right (Or.imp_right (List.mem_cons_of_mem _))
    · rcases List.mem_cons.1 h with rfl | h
      · exact ⟨not_or.2 ⟨hpercent, hunderscore⟩, .inr List.mem_cons_self⟩
      · exact (ih h).imp_right (Or.imp_right (List.mem_cons_of_mem _))

theorem Occurs.mem_of_wild (h : Occurs term text) (hwild : Wild c) (hc : c ∈ term) : c ∈ text := by
  obtain ⟨before, part, after, rfl, hsame⟩ := h
  have hlow : c ∈ lowerAscii part := by
    rw [← hsame]
    exact List.mem_map.2 ⟨c, hc, toLower_of_wild hwild⟩
  obtain ⟨d, hd, hcase⟩ := List.mem_map.1 hlow
  rw [← eq_of_toLower hwild hcase]
  exact List.mem_append_left _ (List.mem_append_right _ hd)

/-- A term fits no text but those that it occurs in exactly if it has no wild card. -/
theorem fits_only_occurrences_iff (hterm : '\x00' ∉ term) :
    (∀ text, '\x00' ∉ text → Fits term text → Occurs term text) ↔ ∀ c ∈ term, ¬ Wild c := by
  constructor
  · intro h c hc hwild
    have hnull : '\x00' ∉ filled term := by
      intro hmem
      rcases (mem_filled hmem).2 with hx | hmem
      · cases hx
      · exact hterm hmem
    have hfits : Fits term (filled term) :=
      ⟨[], filled term, [], (List.append_nil _).symm, spells_filled term⟩
    exact (mem_filled ((h _ hnull hfits).mem_of_wild hwild hc)).1 hwild
  · rintro hplain text - ⟨before, part, after, htext, h⟩
    exact ⟨before, part, after, htext, same_of_spells h hplain⟩

theorem matchesFrom_run {cs : List Char} : matchesFrom ('%' :: ps) cs = true ↔
    ∃ gap rest, cs = gap ++ rest ∧ matchesFrom ps rest = true := by
  induction cs with
  | nil =>
    rw [matchesFrom, Bool.or_false]
    constructor
    · exact fun h => ⟨[], [], rfl, h⟩
    · rintro ⟨gap, rest, hsplit, h⟩
      obtain ⟨rfl, rfl⟩ := List.append_eq_nil_iff.1 hsplit.symm
      exact h
  | cons c cs ih =>
    rw [matchesFrom, Bool.or_eq_true, ih]
    constructor
    · rintro (h | ⟨gap, rest, rfl, h⟩)
      · exact ⟨[], c :: cs, rfl, h⟩
      · exact ⟨c :: gap, rest, rfl, h⟩
    · rintro ⟨gap, rest, hsplit, h⟩
      cases gap with
      | nil =>
        left
        rw [hsplit]
        exact h
      | cons d gap =>
        cases hsplit
        exact .inr ⟨gap, rest, rfl, h⟩

theorem matchesFrom_cons (hp : p ≠ '%') {cs : List Char} : matchesFrom (p :: ps) cs = true ↔
    ∃ c rest, cs = c :: rest ∧ (p = '_' ∨ p = c) ∧ matchesFrom ps rest = true := by
  cases cs with
  | nil =>
    have hnone : matchesFrom (p :: ps) [] = false := by
      rw [matchesFrom]
      exact hp
    rw [hnone]
    refine iff_of_false Bool.false_ne_true ?_
    rintro ⟨c, rest, hsplit, -⟩
    cases hsplit
  | cons c cs =>
    rw [matchesFrom]
    · simp only [Bool.and_eq_true, Bool.or_eq_true, beq_iff_eq]
      constructor
      · rintro ⟨hone, h⟩
        exact ⟨c, cs, rfl, hone, h⟩
      · rintro ⟨d, rest, hsplit, hone, h⟩
        cases hsplit
        exact ⟨hone, h⟩
    · exact hp

theorem matchesFrom_lowerAscii :
    matchesFrom (lowerAscii ps) (lowerAscii cs) = true ↔ Spells ps cs := by
  induction ps generalizing cs with
  | nil =>
    rw [show lowerAscii [] = [] from rfl, matchesFrom, List.isEmpty_iff]
    constructor
    · intro h
      obtain rfl := List.map_eq_nil_iff.1 h
      exact .done
    · intro h
      cases h
      rfl
  | cons p ps ih =>
    by_cases hp : p = '%'
    · subst hp
      rw [show lowerAscii ('%' :: ps) = '%' :: lowerAscii ps from rfl, matchesFrom_run]
      constructor
      · rintro ⟨gap, rest, hsplit, h⟩
        obtain ⟨gap', rest', rfl, -, rfl⟩ := List.map_eq_append_iff.1 hsplit
        exact .run gap' (ih.1 h)
      · intro h
        cases h with
        | same hcase h => exact ⟨[_], _, rfl, ih.2 h⟩
        | run gap h => exact ⟨lowerAscii gap, _, List.map_append, ih.2 h⟩
    · have hlow : p.toLower ≠ '%' := fun h => hp (eq_of_toLower (.inl rfl) h)
      rw [show lowerAscii (p :: ps) = p.toLower :: lowerAscii ps from rfl, matchesFrom_cons hlow]
      constructor
      · rintro ⟨c, rest, hsplit, hone, h⟩
        obtain ⟨c', rest', rfl, rfl, rfl⟩ := List.map_eq_cons_iff.1 hsplit
        rcases hone with hunderscore | hcase
        · rw [eq_of_toLower (.inr rfl) hunderscore]
          exact .one c' (ih.1 h)
        · exact .same hcase (ih.1 h)
      · intro h
        cases h with
        | same hcase h => exact ⟨_, _, rfl, .inr hcase, ih.2 h⟩
        | one c h => exact ⟨_, _, rfl, .inl rfl, ih.2 h⟩
        | run gap h => exact absurd rfl hp

theorem beforeNull_of_not_mem (h : '\x00' ∉ cs) : beforeNull cs = cs := by
  refine List.takeWhile_eq_self_iff.2 fun c hc => bne_iff_ne.2 ?_
  rintro rfl
  exact h hc

theorem isMatch_patternOf {term text : String} (hterm : '\x00' ∉ term.toList)
    (htext : '\x00' ∉ text.toList) :
    isMatch (Condition.patternOf term) text = true ↔ Fits term.toList text.toList := by
  have hpattern : (Condition.patternOf term).toList = '%' :: (term.toList ++ ['%']) := by
    simp only [Condition.patternOf, String.toList_append]
    rfl
  have hnull : '\x00' ∉ '%' :: (term.toList ++ ['%']) := by
    simp [hterm]
  rw [isMatch, hpattern, beforeNull_of_not_mem hnull, beforeNull_of_not_mem htext,
    matchesFrom_lowerAscii, spells_wrapped]

end Listing.Sql.Like

namespace Listing.Query

open Sql Outcome

def testOf (q : Query) (r : Registry) (p : Predicate) (t : Target) : Outcome (Option Test) := do
  match ← q.condition? r p with
  | none => .ok none
  | some c => some <$> (Bind.converted c >>= Test.ofCondition t)

theorem allHold_patternOf {term text : String} (hterm : '\x00' ∉ term.toList)
    (htext : '\x00' ∉ text.toList) {cell : Target → Cell} {t : Target}
    (hcell : (cell t).text? = some text) :
    Test.allHold cell [[.like t (Condition.patternOf term)]] = true ↔
      Like.Fits term.toList text.toList := by
  have heval : (Test.like t (Condition.patternOf term)).eval cell =
      some (Like.isMatch (Condition.patternOf term) text) := by
    rw [Test.eval, hcell, Option.map_some]
  rw [Test.allHold_singleton, ← Like.isMatch_patternOf hterm htext]
  constructor
  · rintro ⟨test, htest, h⟩
    rw [List.mem_singleton.1 htest, heval] at h
    exact Option.some.inj h
  · intro h
    exact ⟨_, List.mem_cons_self, heval.trans (congrArg some h)⟩

/-- A predicate for a term has a test, whatever its column is. The test holds of the texts that the
term fits, among them all in which it occurs; and these are all exactly if the term has no wild
card. -/
theorem contains_holds (q : Query) (r : Registry) (c : ColumnRef) (asText : Bool) {term : String}
    (hterm : '\x00' ∉ term.toList) (hsize : (Condition.patternOf term).utf8ByteSize ≤ 50000)
    (t : Target) :
    ∃ test, q.testOf r (.contains c term asText) t = .ok (some test) ∧
      (∀ (cell : Target → Cell) (text : String), (cell t).text? = some text →
        '\x00' ∉ text.toList → Test.fails cell [[test]] = false ∧
          (Test.allHold cell [[test]] = true ↔ Like.Fits term.toList text.toList) ∧
          (Like.Occurs term.toList text.toList → Test.allHold cell [[test]] = true)) ∧
      ((∀ text : String, '\x00' ∉ text.toList →
          (Test.allHold (fun _ => .text text) [[test]] = true ↔
            Like.Occurs term.toList text.toList)) ↔
        ∀ c ∈ term.toList, ¬ Like.Wild c) := by
  refine ⟨.like t (Condition.patternOf term), rfl, fun cell text hcell htext => ?_, ?_⟩
  · have hholds := allHold_patternOf hterm htext hcell
    have hshort : (Test.like t (Condition.patternOf term)).isTooLong = false :=
      decide_eq_false (not_lt.2 hsize)
    refine ⟨?_, hholds, fun hoccurs => hholds.2 (Like.fits_of_occurs hoccurs)⟩
    exact Test.fails_of_short
      (List.forall_mem_singleton.2 (List.forall_mem_singleton.2 hshort))
  · rw [← Like.fits_only_occurrences_iff hterm]
    constructor
    · intro h text htext hfits
      rw [← String.toList_ofList (l := text)] at htext hfits ⊢
      exact (h _ htext).1 ((allHold_patternOf hterm htext rfl).2 hfits)
    · intro h text htext
      rw [allHold_patternOf hterm htext rfl]
      exact ⟨h _ htext, Like.fits_of_occurs⟩

/-- An underscore in a term is found where the text has another character. -/
theorem contains_holds_underscore :
    let names := Query.ofModel Sample.Heroes.catalog
      { name := "Hero", table := Sample.Heroes.heroes, relations := [] }
    '\x00' ∉ "y_m".toList ∧ (Condition.patternOf "y_m").utf8ByteSize ≤ 50000 ∧
      ∃ test, names.testOf .builtin (.contains ⟨"name", false⟩ "y_m" false)
          (.field "heroes" "name" .string) = .ok (some test) ∧
        Test.allHold (fun _ => .text "RUSTY_MAN") [[test]] = true ∧
        Test.allHold (fun _ => .text "Rusty-Man") [[test]] = true ∧
        ¬ Like.Occurs "y_m".toList "Rusty-Man".toList := by
  have hterm : '\x00' ∉ "y_m".toList := by decide
  have hsize : (Condition.patternOf "y_m").utf8ByteSize ≤ 50000 := by decide
  obtain ⟨test, htest, hholds, -⟩ := contains_holds
    (Query.ofModel Sample.Heroes.catalog
      { name := "Hero", table := Sample.Heroes.heroes, relations := [] })
    .builtin ⟨"name", false⟩ false hterm hsize (.field "heroes" "name" .string)
  have hcapitals := hholds (fun _ => .text "RUSTY_MAN") "RUSTY_MAN" rfl (by decide)
  have hhyphen := hholds (fun _ => .text "Rusty-Man") "Rusty-Man" rfl (by decide)
  refine ⟨hterm, hsize, test, htest, hcapitals.2.2 ?_, hhyphen.2.1.2 ?_, ?_⟩
  · exact ⟨"RUST".toList, "Y_M".toList, "AN".toList, rfl, rfl⟩
  · exact ⟨"Rust".toList, "y-M".toList, "an".toList, rfl,
      .same rfl (.one '-' (.same rfl .done))⟩
  · intro hoccurs
    have hmem : '_' ∈ "Rusty-Man".toList := hoccurs.mem_of_wild (.inr rfl) (by decide)
    exact absurd hmem (by decide)

end Listing.Query
