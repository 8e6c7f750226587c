import Mathlib.Data.List.DropRight
import Listing.Proofs.RequestReading
import Listing.Service

set_option autoImplicit false

namespace Listing

namespace Text

variable {p : Char → Bool} {cs : List Char}

theorem trimBy_eq (p : Char → Bool) (cs : List Char) :
    trimBy p cs = (cs.dropWhile p).rdropWhile p := rfl

theorem dropWhile_trimBy : (trimBy p cs).dropWhile p = trimBy p cs := by
  rw [trimBy_eq, List.dropWhile_eq_self_iff]
  intro hlength hp
  have hinitial := List.rdropWhile_prefix p (cs.dropWhile p)
  have hkept : 0 < (cs.dropWhile p).length := hlength.trans_le hinitial.length_le
  rw [hinitial.getElem hlength] at hp
  exact List.dropWhile_get_zero_not p cs hkept hp

theorem trimBy_trimBy : trimBy p (trimBy p cs) = trimBy p cs := by
  rw [trimBy_eq p (trimBy p cs), dropWhile_trimBy, trimBy_eq, List.rdropWhile_idempotent]

theorem trimBy_subset : trimBy p cs ⊆ cs := by
  intro c hc
  rw [trimBy_eq] at hc
  exact (List.dropWhile_sublist p).subset ((List.rdropWhile_prefix p _).subset hc)

theorem not_mem_of_mem_splitOn {x : Char} {piece : List Char} (h : piece ∈ cs.splitOn x) :
    x ∉ piece := by
  induction cs generalizing piece with
  | nil => simp_all
  | cons c cs ih =>
    rw [List.splitOn_cons_eq_if_modifyHead] at h
    split_ifs at h with hc
    · rcases List.mem_cons.1 h with rfl | h
      · simp
      · exact ih h
    · obtain ⟨first, rest, hsplit⟩ := List.exists_cons_of_ne_nil (List.splitOn_ne_nil x cs)
      rw [hsplit, List.modifyHead_cons] at h
      rcases List.mem_cons.1 h with rfl | h
      · have hfirst := ih (hsplit ▸ List.mem_cons_self)
        have hx : x ≠ c := fun hx => hc (beq_iff_eq.2 hx.symm)
        exact List.not_mem_cons_of_ne_of_not_mem hx hfirst
      · exact ih (hsplit ▸ List.mem_cons_of_mem _ h)

end Text

namespace ListRequest

theorem relationsOf_names {v : Value} {name : String} (h : name ∈ relationsOf v) :
    name ≠ "" ∧ Text.trimmed name = name ∧ ',' ∉ name.toList := by
  unfold relationsOf at h
  split_ifs at h
  · obtain ⟨cs, hcs, rfl⟩ := List.mem_map.1 h
    obtain ⟨hpieces, hfull⟩ := List.mem_filter.1 hcs
    obtain ⟨piece, hpiece, rfl⟩ := List.mem_map.1 hpieces
    refine ⟨?_, ?_, ?_⟩
    · intro hempty
      simp_all
    · simp [Text.trimmed, Text.trim, Text.trimBy_trimBy]
    · intro hcomma
      rw [String.toList_ofList] at hcomma
      exact Text.not_mem_of_mem_splitOn hpiece (Text.trimBy_subset hcomma)
  · cases h

/-- Whatever the parameters are, a request is read, and the limits of the configuration leave its
page and its page size as they are. -/
theorem ofParams_keeps_limits {c : Config} (hwhole : c.IsWhole) (params : Params) :
    ∃ r, ofParams c params = .ok r ∧ 1 ≤ r.page ∧
      (∃ least most, c.minPerPage.int? = some least ∧ c.maxPerPage.int? = some most ∧
        least ≤ r.limit ∧ r.limit ≤ most) ∧
      (∀ name ∈ r.relations, name ≠ "" ∧ Text.trimmed name = name ∧ ',' ∉ name.toList) ∧
      ∀ s : Service, s.config = c → s.page r = r.page ∧ s.pageSize r = .whole r.limit := by
  obtain ⟨least, most, first, hl⟩ := hwhole.hasLimits
  obtain ⟨page, limit, hread, hpage, hleast, hmost⟩ := ofParams_within hl hwhole params
  refine ⟨readAs c params page limit, hread, hpage,
    ⟨least, most, hl.minPerPage, hl.maxPerPage, hleast, hmost⟩, ?_, ?_⟩
  · intro name hname
    exact relationsOf_names hname
  · intro s hs
    constructor
    · have hbound : c.boundPage (.whole page) = .whole page := Config.boundPage_whole hpage
      simp [Service.page, hs, readAs, hbound, Quantity.truncate?]
    · rw [Service.pageSize, hs]
      exact hl.boundPerPage_whole hleast hmost

/-- A page before the first, a page size beyond every number, and names with blanks. -/
theorem ofParams_keeps_limits_beyond :
    let args : List (String × Value) := [("max_per_page", .int 20), ("min_per_page", .int 5)]
    let c : Config := { maxPerPage := .whole 20, minPerPage := .whole 5 }
    let params : Params := [("page", .list [.text "2", .text "-3"]), ("limit", .text "1e999"),
      ("with", .text " team ,, members")]
    (Config.ofArguments .config args = .ok c ∧ c.IsWhole) ∧
      ∃ r, ofParams c params = .ok r ∧ 1 ≤ r.page ∧
        (∃ least most, c.minPerPage.int? = some least ∧ c.maxPerPage.int? = some most ∧
          least ≤ r.limit ∧ r.limit ≤ most) ∧
        (∀ name ∈ r.relations, name ≠ "" ∧ Text.trimmed name = name ∧ ',' ∉ name.toList) ∧
        ∀ s : Service, s.config = c → s.page r = r.page ∧ s.pageSize r = .whole r.limit := by
  intro args c params
  have hc : Config.ofArguments .config args = .ok c := by rfl
  have hwhole : c.IsWhole := ⟨rfl, rfl, rfl, rfl⟩
  exact ⟨⟨hc, hwhole⟩, ofParams_keeps_limits hwhole params⟩

end ListRequest

end Listing
