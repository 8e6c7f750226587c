import Listing.Proofs.CountingModes
import Listing.Proofs.FollowingLinks
import Listing.Proofs.PageLinks

set_option autoImplicit false

namespace Listing

open Outcome Sql

/-- A link names a page: by its number, or by the address of a query that asks for this page and
for no other. -/
inductive PageLink.Names : PageLink → Int → Prop
  | number (n : Int) : Names (.number n) n
  | address {a : Url.Address} {n : Int}
      (h : a.fields.filter (·.1 == "page") = [("page", toString n)]) :
      Names (.address (String.ofList a.written)) n

theorem names_of_link {address : Option Url.Address} {perPage page : Int} {l : PageLink}
    (h : PageFacts.link address (.int perPage) (.int page) = .ok l) : l.Names page := by
  cases address with
  | none =>
    cases h
    exact .number page
  | some a =>
    obtain ⟨-, -, rfl⟩ := PageFacts.link_address_iff.1 h
    refine .address (a := { a with query := _ }) ?_
    unfold Url.Address.fields
    rw [UrlEncoded.fields_render]
    unfold Url.Address.fieldsFor
    rw [List.filter_append, List.filter_filter]
    have hnone : a.fields.filter (fun f => f.1 == "page" && (f.1 != "page" && f.1 != "limit")) =
        [] := by
      refine List.filter_eq_nil_iff.2 fun f _ => ?_
      by_cases hpage : f.1 = "page" <;> simp [hpage]
    rw [hnone]
    rfl

namespace Links

structure AreOf {α : Type} (links : Links) (p : Page α) : Prop where
  first : links.first.Names 1
  last : links.last.Names p.lastPage
  prev : links.prev.isSome ↔ 1 < p.currentPage
  prev_names : ∀ link, links.prev = some link → link.Names (p.currentPage - 1)
  next : links.next.isSome ↔ p.currentPage < p.lastPage
  next_names : ∀ link, links.next = some link → link.Names (p.currentPage + 1)

end Links

theorem links_areOf {α : Type} {url : Option Url} {p : Page α} {e : RichEnvelope α}
    (h : RichEnvelope.ofPage url p = .ok e) : e.links.AreOf p := by
  obtain ⟨address, -, hprev, hnext, hlinks⟩ := ofPage_ok h
  exact {
    first := names_of_link (hlinks _ _ .first)
    last := names_of_link (hlinks _ _ .last)
    prev := hprev
    prev_names := fun link hlink => names_of_link (hlinks _ _ (.prev hlink))
    next := hnext
    next_names := fun link hlink => names_of_link (hlinks _ _ (.next hlink)) }

namespace Paging

variable {α : Type} {s : Source α} {along : Bool} {limit number total n : Int} {p : Page α}

theorem page_ok {data : List α} (h : page data total limit number = .ok p) :
    p.currentPage = number ∧ p.total = total ∧ lastPage total limit = .ok p.lastPage := by
  obtain ⟨last, hlast, h⟩ := bind_eq_ok_iff.1 h
  cases h
  exact ⟨rfl, rfl, hlast⟩

theorem paginate_ok (h : paginate s along limit number = .ok p) :
    p.currentPage = number ∧ 0 ≤ p.total ∧ lastPage p.total limit = .ok p.lastPage := by
  have htaken {data : List α} {total : ℕ} (h : page data total limit number = .ok p) :
      p.currentPage = number ∧ 0 ≤ p.total ∧ lastPage p.total limit = .ok p.lastPage := by
    obtain ⟨hnumber, htotal, hlast⟩ := page_ok h
    exact ⟨hnumber, by omega, htotal ▸ hlast⟩
  unfold paginate at h
  split_ifs at h
  · obtain ⟨⟨data, counted⟩, -, h⟩ := bind_eq_ok_iff.1 h
    dsimp only at h
    split_ifs at h
    · obtain ⟨total, -, h⟩ := bind_eq_ok_iff.1 h
      exact htaken h
    · exact htaken h
  · obtain ⟨total, -, h⟩ := bind_eq_ok_iff.1 h
    split_ifs at h
    · exact htaken h
    · obtain ⟨data, -, h⟩ := bind_eq_ok_iff.1 h
      exact htaken h

theorem lastPage_nonneg (ht : 0 ≤ total) (hb : total ≤ 2 ^ 53) (hp : 1 ≤ limit)
    (h : lastPage total limit = .ok n) : 0 ≤ n := by
  rcases ht.eq_or_lt with rfl | hpos
  · rw [lastPage_zero hp] at h
    cases h
    exact le_rfl
  · rcases lt_or_ge limit (total * 2 ^ 1075) with hsmall | hlarge
    · rw [lastPage_ceil hpos hb hp hsmall] at h
      cases h
      have hquotient : (0 : ℚ) ≤ (total : ℚ) / limit :=
        div_nonneg (by exact_mod_cast ht) (by exact_mod_cast zero_le_one.trans hp)
      exact Int.ceil_nonneg hquotient
    · rw [lastPage_vanishes hpos hlarge] at h
      cases h
      exact le_rfl

/-- A page of a listing with some last page; an empty listing has its first page. -/
def InListing (last n : Int) : Prop := 1 ≤ n ∧ n ≤ max 1 last

instance (last n : Int) : Decidable (InListing last n) := inferInstanceAs (Decidable (_ ∧ _))

theorem inListing_first {last : Int} : InListing last 1 := ⟨le_rfl, le_max_left _ _⟩

theorem inListing_last {last : Int} (h : 1 ≤ last) : InListing last last := ⟨h, le_max_right _ _⟩

end Paging

open Paging

def Links.LeadInto (links : Links) (last : Int) : Prop :=
  ∀ link ∈ [links.first, links.last] ++ links.prev.toList ++ links.next.toList,
    ∃ n, link.Names n ∧ InListing last n

theorem Links.not_leadInto {links : Links} {last n : Int}
    (h : .number n ∈ [links.first, links.last] ++ links.prev.toList ++ links.next.toList)
    (hn : ¬ InListing last n) : ¬ links.LeadInto last := by
  intro hlead
  obtain ⟨m, hnames, hin⟩ := hlead _ h
  cases hnames
  exact hn hin

namespace Links.AreOf

variable {α : Type} {links : Links} {p : Page α} {link : PageLink}

theorem prev_inListing (h : links.AreOf p) (hlink : links.prev = some link)
    (hnear : p.currentPage ≤ max 1 p.lastPage + 1) :
    InListing p.lastPage (p.currentPage - 1) := by
  have hmore : 1 < p.currentPage := h.prev.1 (hlink ▸ rfl)
  exact ⟨by omega, by omega⟩

theorem next_inListing (h : links.AreOf p) (hcurrent : 1 ≤ p.currentPage)
    (hlink : links.next = some link) : InListing p.lastPage (p.currentPage + 1) := by
  have hless : p.currentPage < p.lastPage := h.next.1 (hlink ▸ rfl)
  exact ⟨by omega, by omega⟩

/-- If there is a last page, and the page is not more than one behind it, all links lead into the
listing. -/
theorem leadInto (h : links.AreOf p) (hcurrent : 1 ≤ p.currentPage) (hlast : 1 ≤ p.lastPage)
    (hnear : p.currentPage ≤ p.lastPage + 1) : links.LeadInto p.lastPage := by
  intro link hlink
  simp only [List.mem_append, List.mem_cons, List.not_mem_nil, or_false,
    Option.mem_toList] at hlink
  obtain ((rfl | rfl) | hprev) | hnext := hlink
  · exact ⟨1, h.first, inListing_first⟩
  · exact ⟨p.lastPage, h.last, inListing_last hlast⟩
  · exact ⟨_, h.prev_names link hprev, h.prev_inListing hprev (by omega)⟩
  · exact ⟨_, h.next_names link hnext, h.next_inListing hcurrent hnext⟩

end Links.AreOf

namespace Query

variable {db : Sql.Database} {q : Query} {along : Bool} {limit number : Int} {p : Page Item}

/-- The links of a page that is taken. First and next page are in the listing; the last page is,
unless it is zero as that of an empty listing; the page before is, unless the page that was asked
for is more than one behind the end. -/
theorem links_name_pages (hlimit : 1 ≤ limit) (hnumber : 1 ≤ number)
    (hp : q.paginate db along limit number = .ok p) (hrows : p.total ≤ 2 ^ 53) {url : Option Url}
    {e : RichEnvelope Item} (he : RichEnvelope.ofPage url p = .ok e) :
    (e.links.first.Names 1 ∧ InListing p.lastPage 1) ∧
    (e.links.last.Names p.lastPage ∧ 0 ≤ p.lastPage ∧ (p.total = 0 → p.lastPage = 0) ∧
      (p.lastPage ≠ 0 → InListing p.lastPage p.lastPage)) ∧
    ((e.links.prev.isSome ↔ 1 < number) ∧ ∀ link, e.links.prev = some link →
      link.Names (number - 1) ∧ 1 ≤ number - 1 ∧
        (number ≤ max 1 p.lastPage + 1 → InListing p.lastPage (number - 1))) ∧
    ((e.links.next.isSome ↔ number < p.lastPage) ∧ ∀ link, e.links.next = some link →
      link.Names (number + 1) ∧ InListing p.lastPage (number + 1)) ∧
    (p.lastPage ≠ 0 → number ≤ p.lastPage + 1 → e.links.LeadInto p.lastPage) := by
  obtain ⟨rfl, htotal, hlast⟩ := paginate_ok hp
  have hlinks := links_areOf he
  have hnonneg : 0 ≤ p.lastPage := lastPage_nonneg htotal hrows hlimit hlast
  refine ⟨⟨hlinks.first, inListing_first⟩, ⟨hlinks.last, hnonneg, fun hzero => ?_, fun hne => ?_⟩,
    ⟨hlinks.prev, fun link hlink => ⟨hlinks.prev_names link hlink, ?_,
      hlinks.prev_inListing hlink⟩⟩,
    ⟨hlinks.next, fun link hlink => ⟨hlinks.next_names link hlink,
      hlinks.next_inListing hnumber hlink⟩⟩, fun hne hnear => ?_⟩
  · rw [hzero, lastPage_zero hlimit] at hlast
    exact (Except.ok.inj hlast).symm
  · exact inListing_last (by omega)
  · have hmore : 1 < p.currentPage := hlinks.prev.1 (hlink ▸ rfl)
    omega
  · exact hlinks.leadInto hnumber (by omega) hnear

theorem falling_paginate (hnumber : 1 ≤ number) :
    falling.paginate twoSteps along 1 number = .ok (pageOf stepItems 1 number) :=
  paginate_of_serves (source_serves (fun _ => List.forall_mem_nil _) (falling_all along))
    (by decide) le_rfl (by decide) hnumber

theorem pageOf_stepItems_lastPage : (pageOf stepItems 1 number).lastPage = 2 := by
  rw [pageOf_lastPage]
  norm_num [pageCount, stepItems]

theorem links_name_pages_falling : ∃ e,
    ((1 : ℤ) ≤ 1 ∧ (1 : ℤ) ≤ 2 ∧
      falling.paginate twoSteps true 1 2 = .ok (pageOf stepItems 1 2) ∧
      (pageOf stepItems 1 2).total ≤ 2 ^ 53 ∧
      RichEnvelope.ofPage none (pageOf stepItems 1 2) = .ok e) ∧
    e.links.LeadInto 2 := by
  have hp : falling.paginate twoSteps true 1 2 = .ok (pageOf stepItems 1 2) :=
    falling_paginate (by decide)
  have hrows : (pageOf stepItems 1 2).total ≤ 2 ^ 53 := by decide
  obtain ⟨e, he⟩ : ∃ e, RichEnvelope.ofPage none (pageOf stepItems 1 2) = .ok e :=
    ⟨_, RichEnvelope.ofPage_none _⟩
  obtain ⟨-, -, -, -, hlead⟩ := links_name_pages le_rfl (by decide) hp hrows he
  rw [pageOf_stepItems_lastPage] at hlead
  exact ⟨e, ⟨le_rfl, by decide, hp, hrows, he⟩, hlead (by decide) (by decide)⟩

/-- Of an empty listing the last page is page zero, and the page before the ninth of two is the
eighth. -/
theorem links_beyond_listing :
    (∃ p e, falling.paginate noSteps false 10 1 = .ok p ∧ p.total = 0 ∧
      RichEnvelope.ofPage none p = .ok e ∧ e.links.last = .number 0 ∧
      ¬ e.links.LeadInto p.lastPage) ∧
    ∃ p e, falling.paginate twoSteps false 1 9 = .ok p ∧ p.total = 2 ∧ p.lastPage = 2 ∧
      RichEnvelope.ofPage none p = .ok e ∧ e.links.prev = some (.number 8) ∧
      ¬ e.links.LeadInto p.lastPage := by
  constructor
  · have hcount : (falling.source noSteps).count = .ok 0 :=
      Sql.Statement.count_of_evaluated rfl (noSteps_evaluated false)
    have hp : falling.paginate noSteps false 10 1 = .ok ⟨[], 1, 10, 0, 0⟩ := by
      change (falling.source noSteps).count >>= _ = _
      rw [hcount, ok_bind]
      change lastPage 0 10 >>= _ = _
      rw [lastPage_zero (by decide)]
      rfl
    refine ⟨_, _, hp, rfl, RichEnvelope.ofPage_none _, rfl, ?_⟩
    have hmem : PageLink.number 0 ∈ [PageLink.number 1, .number 0] := by decide
    exact Links.not_leadInto (List.mem_append_left _ (List.mem_append_left _ hmem)) (by decide)
  · have hlast : (pageOf stepItems 1 9).lastPage = 2 := pageOf_stepItems_lastPage
    refine ⟨_, _, falling_paginate (by decide), rfl, hlast, RichEnvelope.ofPage_none _, rfl, ?_⟩
    rw [hlast]
    have hmem : PageLink.number 8 ∈ [PageLink.number 8] := by decide
    exact Links.not_leadInto (List.mem_append_left _ (List.mem_append_right _ hmem)) (by decide)

end Query
end Listing
