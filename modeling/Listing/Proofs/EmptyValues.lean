import Listing.Proofs.Contributions

set_option autoImplicit false

namespace Listing

inductive Value.HoldsEmpty : Value → Prop
  | text : HoldsEmpty (.text "")
  | list : HoldsEmpty (.list [])
  | item {items : List Value} {v : Value} : v ∈ items → HoldsEmpty v → HoldsEmpty (.list items)
  | operand {entries : List (Value × Value)} {e : Value × Value} :
      e ∈ entries → HoldsEmpty e.2 → HoldsEmpty (.map entries)

namespace ListRequest

open Value

variable {params : Params} {field : String} {o : FilterOperator} {v w : Value}

theorem holdsEmpty_text_iff {s : String} : HoldsEmpty (.text s) ↔ s = "" := by
  constructor
  · intro h
    cases h
    rfl
  · rintro rfl
    exact .text

theorem holdsEmpty_list_iff {items : List Value} (h : IsRaw (.list items)) :
    HoldsEmpty (.list items) ↔ items = [] ∨ .text "" ∈ items := by
  constructor
  · intro hempty
    cases hempty with
    | list => exact .inl rfl
    | item hv hempty =>
      obtain ⟨s, rfl⟩ := h _ hv
      rw [holdsEmpty_text_iff.1 hempty] at hv
      exact .inr hv
  · rintro (rfl | hitem)
    · exact .list
    · exact .item hitem .text

theorem IsPlainValue.not_holdsEmpty (hv : v.IsRaw) (h : IsPlainValue v w) : ¬ w.HoldsEmpty := by
  cases h with
  | text hs => rwa [holdsEmpty_text_iff]
  | one hone =>
    rename_i items
    have hw : w ∈ items.filter (!·.isEmpty) := hone ▸ List.mem_singleton_self w
    obtain ⟨s, rfl⟩ := hv w (List.mem_of_mem_filter hw)
    have hcontent := (List.mem_filter.1 hw).2
    rw [holdsEmpty_text_iff]
    rintro rfl
    cases hcontent
  | several hmany =>
    rename_i items
    rw [holdsEmpty_list_iff fun w hw => hv w (List.mem_of_mem_filter hw)]
    rintro (hnone | hempty)
    · rw [hnone] at hmany
      cases hmany
    · cases (List.mem_filter.1 hempty).2

theorem Contributes.plain_not_holdsEmpty {e : String × Value} (hraw : e.2.IsRaw)
    (h : Contributes e field none v) : ¬ v.HoldsEmpty := by
  cases h with
  | plain htaken hkey hvalue => exact hvalue.not_holdsEmpty hraw

theorem Says.notEmpty {e : String × Value} (hraw : e.2.IsRaw) (h : Says e field o v) :
    v ≠ .text "" ∧ v ≠ .list [] := by
  rcases h with h | ⟨-, h⟩
  · cases h with
    | operand htaken hkey => exact htaken.notEmpty
  · have hfull := h.plain_not_holdsEmpty hraw
    constructor
    · rintro rfl
      exact hfull .text
    · rintro rfl
      exact hfull .list

/-- The last thing said about an operator of a field is a list with an empty text, given by a key of
the operator. -/
def GivesEmptyItem (params : Params) (field : String) (o : FilterOperator) : Prop :=
  ∃ key items, (key, .list items) ∈ params ∧ IsOperatorKey key field o ∧ .text "" ∈ items ∧
    IsLast params field o (.list items)

theorem IsLast.exists_said (h : IsLast params field o v) : ∃ e ∈ params, Says e field o v := by
  obtain ⟨before, e, after, rfl, hsaid, -⟩ := h
  exact ⟨e, by simp, hsaid⟩

theorem holdsEmpty_iff_of_isLast (hraw : ∀ e ∈ params, e.2.IsRaw) (h : IsLast params field o v) :
    v.HoldsEmpty ↔ ∃ key items, v = .list items ∧ (key, v) ∈ params ∧ IsOperatorKey key field o ∧
      .text "" ∈ items := by
  constructor
  · intro hempty
    obtain ⟨e, he, hsaid⟩ := h.exists_said
    obtain ⟨htext, hlist⟩ := hsaid.notEmpty (hraw e he)
    rcases hsaid with hsaid | ⟨-, hsaid⟩
    · cases hsaid with
      | operand htaken hkey =>
        have hv := hraw _ he
        cases v with
        | text s => exact absurd (congrArg Value.text (holdsEmpty_text_iff.1 hempty)) htext
        | list items =>
          rcases (holdsEmpty_list_iff hv).1 hempty with rfl | hitem
          · exact absurd rfl hlist
          · exact ⟨_, items, rfl, he, hkey, hitem⟩
        | _ => exact hv.elim
    · exact absurd hempty (hsaid.plain_not_holdsEmpty (hraw e he))
  · rintro ⟨-, items, rfl, -, -, hitem⟩
    exact .item hitem .text

/-- No filter, no item of a plain list and no operand is empty. An empty text is left exactly where
the last thing said about an operator is a list that has one. -/
theorem empty_values_left_iff (hkeys : (params.map (·.1)).Nodup)
    (hraw : ∀ e ∈ params, e.2.IsRaw) (h : (field, v) ∈ filtersOf params) :
    ((∀ entries, v ≠ .map entries) → ¬ v.HoldsEmpty) ∧
      (∀ entries, v = .map entries → ∀ e ∈ entries, e.2 ≠ .text "" ∧ e.2 ≠ .list []) ∧
      (v.HoldsEmpty ↔ ∃ o, GivesEmptyItem params field o) := by
  have hcollects := collects_filtersOf hkeys hraw
  have hlookup := (Entries.lookup?_eq_some_iff hcollects.keys).2 h
  by_cases hoperand : ∃ e ∈ params, ∃ o v, Contributes e field (some o) v
  · obtain ⟨entries, hentries, hmap, hread⟩ := hcollects.operands field hoperand
    obtain rfl := Option.some.inj (hlookup.symm.trans hentries)
    have hlast {e : Value × Value} (he : e ∈ entries) : ∃ o, IsLast params field o e.2 := by
      obtain ⟨o, -, ho⟩ := (mem_operatorMap_iff hmap).1 he
      exact ⟨o, (hread o e.2).1 ho⟩
    refine ⟨fun hplain => absurd rfl (hplain entries), ?_, ?_⟩
    · rintro _ ⟨⟩ e he
      obtain ⟨o, ho⟩ := hlast he
      obtain ⟨e', he', hsaid⟩ := ho.exists_said
      exact hsaid.notEmpty (hraw e' he')
    · constructor
      · intro hempty
        cases hempty with
        | operand he hempty =>
          obtain ⟨o, ho⟩ := hlast he
          obtain ⟨key, items, hitems, hparam, hkey, hitem⟩ :=
            (holdsEmpty_iff_of_isLast hraw ho).1 hempty
          rw [hitems] at hparam ho
          exact ⟨o, key, items, hparam, hkey, hitem, ho⟩
      · rintro ⟨o, key, items, -, -, hitem, ho⟩
        have he : (.text o.word, .list items) ∈ entries :=
          (mem_operatorMap_iff hmap).2 ⟨o, rfl, (hread o _).2 ho⟩
        exact .operand he (.item hitem .text)
  · have hnone : ∀ e ∈ params, ∀ o v, ¬ Contributes e field (some o) v :=
      fun e he o v hc => hoperand ⟨e, he, o, v, hc⟩
    obtain ⟨e, he, hc⟩ := (hcollects.plain field hnone v).1 hlookup
    have hfull := hc.plain_not_holdsEmpty (hraw e he)
    refine ⟨fun _ => hfull, ?_, iff_of_false hfull ?_⟩
    · rintro entries rfl
      have hvalue := value_isRaw (hraw e he) ((contribution?_eq_some_iff (hraw e he)).2 hc)
      exact hvalue.elim
    · rintro ⟨o, key, items, -, -, hitem, ho⟩
      obtain ⟨e', he', hsaid | ⟨-, hsaid⟩⟩ := ho.exists_said
      · exact hnone e' he' o _ hsaid
      · exact hsaid.plain_not_holdsEmpty (hraw e' he') (.item hitem .text)

def nameParams : Params :=
  [("name[in]", .list [.text "a", .text "", .text "b"]), ("city", .list [.text "", .text "c"])]

/-- The empty name stays in the list, and the empty city is left out. -/
theorem empty_values_left_iff_name :
    (nameParams.map (·.1)).Nodup ∧ (∀ e ∈ nameParams, e.2.IsRaw) ∧
      filtersOf nameParams = [("name", .map [(.text "in", .list [.text "a", .text "", .text "b"])]),
        ("city", .text "c")] ∧
      (∃ o, GivesEmptyItem nameParams "name" o) ∧ ¬ ∃ o, GivesEmptyItem nameParams "city" o := by
  have hkeys : (nameParams.map (·.1)).Nodup := by decide
  have hraw : ∀ e ∈ nameParams, e.2.IsRaw := by simp [nameParams, Value.IsRaw]
  have hfilters : filtersOf nameParams =
      [("name", .map [(.text "in", .list [.text "a", .text "", .text "b"])]),
        ("city", .text "c")] := rfl
  obtain ⟨-, -, hname⟩ := empty_values_left_iff hkeys hraw (hfilters ▸ List.mem_cons_self)
  obtain ⟨-, -, hcity⟩ :=
    empty_values_left_iff hkeys hraw (hfilters ▸ List.mem_cons_of_mem _ List.mem_cons_self)
  refine ⟨hkeys, hraw, hfilters, hname.1 ?_, fun h => ?_⟩
  · exact .operand List.mem_cons_self (.item (by simp) .text)
  · exact absurd (holdsEmpty_text_iff.1 (hcity.2 h)) (by decide)

end ListRequest
end Listing
