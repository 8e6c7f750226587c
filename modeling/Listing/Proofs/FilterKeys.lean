import Mathlib.Data.List.Basic
import Mathlib.Data.List.TakeWhile
import Mathlib.Tactic.SplitIfs
import Listing.ListRequest.Reader

set_option autoImplicit false

namespace Listing

namespace FilterOperator

variable {o o' : FilterOperator} {s : String}

theorem ofWord?_eq_some_iff : ofWord? s = some o ↔ o.word = s := by
  constructor
  · intro h
    simpa using List.find?_some h
  · rintro rfl
    exact ofWord?_word o

theorem word_inj : o.word = o'.word ↔ o = o' := by
  rw [← ofWord?_eq_some_iff, ofWord?_word, Option.some_inj, eq_comm]

theorem not_mem_word (o : FilterOperator) : '[' ∉ o.word.toList := by cases o <;> decide

end FilterOperator

namespace ListRequest

variable {key field : String} {o : FilterOperator} {cs inner word : List Char}

/-- A text that names something: it has content and stands on one line. -/
def Names (name : String) : Prop := name ≠ "" ∧ '\n' ∉ name.toList

def IsSearchKey (key field : String) : Prop :=
  Names field ∧
    (key = "columnSearch[" ++ field ++ "]" ∨ key = "columnSearch[" ++ field ++ "]\n")

def IsOperatorKey (key field : String) (o : FilterOperator) : Prop :=
  Names field ∧ (key = field ++ "[" ++ o.word ++ "]" ∨ key = field ++ "[" ++ o.word ++ "]\n")

theorem isName_iff : isName field.toList = true ↔ Names field := by
  simp [isName, Names, String.toList_eq_nil_iff]

theorem dropLineBreak_break (cs : List Char) : dropLineBreak (cs ++ ['\n']) = cs := by
  unfold dropLineBreak
  rw [List.getLast?_concat, if_pos rfl, List.dropLast_concat]

theorem dropLineBreak_bracket (cs : List Char) : dropLineBreak (cs ++ [']']) = cs ++ [']'] := by
  unfold dropLineBreak
  rw [List.getLast?_concat, if_neg (by decide)]

theorem dropLineBreak_cases (cs : List Char) :
    cs = dropLineBreak cs ∨ cs = dropLineBreak cs ++ ['\n'] := by
  unfold dropLineBreak
  split_ifs with h
  · exact .inr (List.dropLast_append_getLast? '\n' h).symm
  · exact .inl rfl

theorem beforeBracket?_eq_some_iff :
    beforeBracket? cs = some inner ↔ cs = inner ++ [']'] ∨ cs = inner ++ [']', '\n'] := by
  have hbroken : inner ++ [']', '\n'] = inner ++ [']'] ++ ['\n'] := by simp
  unfold beforeBracket?
  rw [hbroken]
  dsimp only
  constructor
  · intro h
    split_ifs at h with hlast
    cases h
    rw [List.dropLast_append_getLast? ']' hlast]
    exact dropLineBreak_cases cs
  · rintro (rfl | rfl)
    · rw [dropLineBreak_bracket, List.getLast?_concat, if_pos rfl, List.dropLast_concat]
    · rw [dropLineBreak_break, List.getLast?_concat, if_pos rfl, List.dropLast_concat]

theorem columnSearchAlias?_eq_some_iff :
    columnSearchAlias? key = some field ↔ IsSearchKey key field := by
  have hspelled :
      (key = "columnSearch[" ++ field ++ "]" ∨ key = "columnSearch[" ++ field ++ "]\n") ↔
        ∃ rest, "columnSearch[".toList ++ rest = key.toList ∧
          beforeBracket? rest = some field.toList := by
    simp only [← String.toList_inj, String.toList_append, List.append_assoc,
      beforeBracket?_eq_some_iff]
    constructor
    · rintro (h | h)
      · exact ⟨_, h.symm, .inl rfl⟩
      · exact ⟨_, h.symm, .inr rfl⟩
    · rintro ⟨rest, hkey, rfl | rfl⟩
      · exact .inl hkey.symm
      · exact .inr hkey.symm
  unfold columnSearchAlias? IsSearchKey
  rw [hspelled, ← isName_iff]
  dsimp only
  constructor
  · intro h
    split_ifs at h with hprefix
    obtain ⟨rest, hrest⟩ := List.isPrefixOf_iff_prefix.1 hprefix
    rw [← hrest, List.drop_left] at h
    split at h
    · rename_i inner hinner
      split_ifs at h with hname
      cases h
      rw [String.toList_ofList]
      exact ⟨hname, rest, hrest, hinner⟩
    · cases h
  · rintro ⟨hname, rest, hrest, hinner⟩
    rw [← hrest, if_pos (List.isPrefixOf_iff_prefix.2 ⟨rest, rfl⟩), List.drop_left]
    simp only [hinner, hname, if_true, String.ofList_toList]

theorem not_bracket (h : '[' ∉ cs) : ∀ c ∈ cs.reverse, (c != '[') = true := by
  intro c hc
  rw [bne_iff_ne]
  rintro rfl
  exact h (List.mem_reverse.1 hc)

theorem takeWhile_bracket (field : List Char) (h : '[' ∉ word) :
    ((field ++ '[' :: word).reverse.takeWhile (· != '[')).reverse = word := by
  rw [List.reverse_append, List.reverse_cons, List.append_assoc,
    List.takeWhile_append_of_pos (not_bracket h)]
  simp

theorem exists_bracket (h : '[' ∈ cs) : ∃ field word, cs = field ++ '[' :: word ∧ '[' ∉ word := by
  obtain ⟨word, field, hcs, hword⟩ := List.eq_append_cons_of_mem (List.mem_reverse.2 h)
  refine ⟨field.reverse, word.reverse, ?_, fun hmem => hword (List.mem_reverse.1 hmem)⟩
  rw [← List.reverse_reverse cs, hcs]
  simp

/-- A key with brackets is cut at the last opening one. -/
theorem operatorKey?_cut {name : List Char} (hword : '[' ∉ word)
    (hkey : beforeBracket? key.toList = some (name ++ '[' :: word)) :
    operatorKey? key =
      if isName name then
        (FilterOperator.ofWord? (String.ofList word)).map (String.ofList name, ·)
      else none := by
  have hlength : (name ++ '[' :: word).length - word.length - 1 = name.length := by
    simp only [List.length_append, List.length_cons]
    omega
  have hless : word.length < (name ++ '[' :: word).length := by
    simp only [List.length_append, List.length_cons]
    omega
  unfold operatorKey?
  rw [hkey]
  dsimp only
  rw [takeWhile_bracket name hword, hlength, List.take_left, decide_eq_true hless, Bool.and_true]

theorem operatorKey?_uncut (hbracket : '[' ∉ cs) (hkey : beforeBracket? key.toList = some cs) :
    operatorKey? key = none := by
  have hall : cs.reverse.takeWhile (· != '[') = cs.reverse :=
    List.takeWhile_eq_self_iff.2 (not_bracket hbracket)
  unfold operatorKey?
  rw [hkey]
  dsimp only
  rw [hall, List.reverse_reverse]
  simp

theorem operatorKey?_eq_some_iff :
    operatorKey? key = some (field, o) ↔ IsOperatorKey key field o := by
  have hspelled : (key = field ++ "[" ++ o.word ++ "]" ∨ key = field ++ "[" ++ o.word ++ "]\n") ↔
      beforeBracket? key.toList = some (field.toList ++ '[' :: o.word.toList) := by
    simp only [← String.toList_inj, String.toList_append, beforeBracket?_eq_some_iff,
      List.append_assoc]
    rfl
  unfold IsOperatorKey
  rw [hspelled, ← isName_iff]
  constructor
  · intro h
    cases hinner : beforeBracket? key.toList with
    | none =>
      unfold operatorKey? at h
      rw [hinner] at h
      cases h
    | some cs =>
      by_cases hbracket : '[' ∈ cs
      · obtain ⟨name, word, rfl, hword⟩ := exists_bracket hbracket
        rw [operatorKey?_cut hword hinner] at h
        split_ifs at h with hname
        obtain ⟨o', ho, heq⟩ := Option.map_eq_some_iff.1 h
        cases heq
        rw [FilterOperator.ofWord?_eq_some_iff.1 ho, String.toList_ofList, String.toList_ofList]
        exact ⟨hname, rfl⟩
      · rw [operatorKey?_uncut hbracket hinner] at h
        cases h
  · rintro ⟨hname, hkey⟩
    rw [operatorKey?_cut o.not_mem_word hkey, if_pos hname, String.ofList_toList,
      String.ofList_toList, FilterOperator.ofWord?_word, Option.map_some]

theorem operatorKey?_eq_none_iff :
    operatorKey? key = none ↔ ∀ field o, ¬ IsOperatorKey key field o := by
  simp only [← operatorKey?_eq_some_iff, Option.eq_none_iff_forall_ne_some, Prod.forall, ne_eq]

end ListRequest
end Listing
