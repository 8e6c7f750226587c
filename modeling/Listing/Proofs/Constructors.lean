import Listing.Filter.Strategy
import Listing.Proofs.Identifiers
import Listing.Proofs.Number.DecimalSpellings

set_option autoImplicit false

namespace Listing.Coercion

def HasOwnReading (k : Kind) : Prop := k = .bool ∨ k = .int ∨ k = .datetime

def IsByte (c : Char) : Prop := c.toNat < 0x100

/-- What the constructor of a kind makes of a text. Spans of time, bytes and null are made of no
text, and a map is made of the empty one only. -/
inductive Constructs : Kind → String → Value → Prop
  | text {s : String} : Constructs .text s (.text s)
  | float {s : String} {x : Binary64} : Numeral.Spells s.toList x → Constructs .float s (.float x)
  | decimal {s : String} {d : Decimal} : Decimal.Spells (Decimal.spelling s.toList) d →
      d.IsRepresentable → Constructs .decimal s (.decimal d)
  | uuid {s : String} {n : ℕ} : Identifies s.toList n → Constructs .uuid s (.uuid n)
  | enum (m : Member) : Constructs (.enum m.enumeration) m.label (.member m)
  | date {s : String} {high low month day : Char} : s.toList = [high, low, month, day] →
      (∀ c ∈ s.toList, IsByte c) → 1 ≤ month.toNat → month.toNat ≤ 12 →
        Constructs .date s (.date ⟨256 * high.toNat + low.toNat, month.toNat, day.toNat⟩)
  | time {s : String} {hour minute second high middle low : Char} :
      s.toList = [hour, minute, second, high, middle, low] → (∀ c ∈ s.toList, IsByte c) →
        hour.toNat % 128 < 24 →
          Constructs .time s (.time ⟨hour.toNat % 128, minute.toNat, second.toNat,
            65536 * high.toNat + 256 * middle.toNat + low.toNat⟩)
  | list {s : String} :
      Constructs .list s (.list (s.toList.map fun c => .text (String.singleton c)))
  | map : Constructs .map "" (.map [])

variable {s : String} {v : Value}

theorem constructs_float_iff : Constructs .float s v ↔
    ∃ x, Numeral.readBinary64? s.toList = some x ∧ Value.float x = v := by
  constructor
  · intro h
    cases h with
    | float h => exact ⟨_, Numeral.readBinary64?_eq_some_iff.2 h, rfl⟩
  · rintro ⟨x, h, rfl⟩
    exact .float (Numeral.readBinary64?_eq_some_iff.1 h)

theorem constructs_uuid_iff : Constructs .uuid s v ↔
    ∃ n, readUuid? s.toList = some n ∧ Value.uuid n = v := by
  constructor
  · intro h
    cases h with
    | uuid h => exact ⟨_, readUuid?_eq_some_iff.2 h, rfl⟩
  · rintro ⟨n, h, rfl⟩
    exact .uuid (readUuid?_eq_some_iff.1 h)

theorem ofLabel?_eq_some_iff {e : Enumeration} {m : Member} :
    e.ofLabel? s = some m ↔ m.enumeration = e ∧ m.label = s := by
  constructor
  · intro h
    exact ⟨Enumeration.mem_all.1 (List.mem_of_find?_eq_some h), by simpa using List.find?_some h⟩
  · rintro ⟨rfl, rfl⟩
    have hmem := Enumeration.mem_all.2 (rfl : m.enumeration = m.enumeration)
    cases hfound : m.enumeration.ofLabel? m.label with
    | none => simpa using List.find?_eq_none.1 hfound m hmem
    | some m' =>
      have hsame := Enumeration.mem_all.1 (List.mem_of_find?_eq_some hfound)
      have hlabel : m'.label = m.label := by simpa using List.find?_some hfound
      obtain ⟨e, name, label, hm⟩ := m
      obtain ⟨e', name', label', hm'⟩ := m'
      obtain rfl : e' = e := hsame
      have hentry := List.inj_on_of_nodup_map e'.labels_nodup hm' hm hlabel
      obtain ⟨rfl, rfl⟩ := Prod.mk.inj hentry
      rfl

theorem constructs_enum_iff {e : Enumeration} : Constructs (.enum e) s v ↔
    ∃ m, e.ofLabel? s = some m ∧ Value.member m = v := by
  constructor
  · intro h
    cases h with
    | enum m => exact ⟨m, ofLabel?_eq_some_iff.2 ⟨rfl, rfl⟩, rfl⟩
  · rintro ⟨m, h, rfl⟩
    obtain ⟨rfl, rfl⟩ := ofLabel?_eq_some_iff.1 h
    exact .enum m

theorem bytesOf?_eq_some_iff {cs : List Char} {bytes : List ℕ} :
    bytesOf? cs = some bytes ↔ (∀ c ∈ cs, IsByte c) ∧ cs.map Char.toNat = bytes := by
  unfold bytesOf?
  split_ifs with hbytes
  · rw [Option.some.injEq]
    refine (and_iff_right fun c hc => ?_).symm
    have hbyte := List.all_eq_true.1 hbytes c hc
    exact of_decide_eq_true (p := c.toNat < 0x100) hbyte
  · refine iff_of_false nofun ?_
    rintro ⟨h, -⟩
    refine hbytes (List.all_eq_true.2 fun c hc => ?_)
    exact decide_eq_true (p := c.toNat < 0x100) (h c hc)

theorem constructs_date_iff : Constructs .date s v ↔
    ∃ d, Day.ofPacked? s.toList = some d ∧ Value.date d = v := by
  constructor
  · intro h
    cases h with
    | date hs hbytes hlow hhigh =>
      refine ⟨_, ?_, rfl⟩
      unfold Day.ofPacked?
      rw [bytesOf?_eq_some_iff.2 ⟨hbytes, rfl⟩, hs]
      exact if_pos ⟨hlow, hhigh⟩
  · rintro ⟨d, h, rfl⟩
    unfold Day.ofPacked? at h
    split at h
    · rename_i hpacked
      obtain ⟨hbytes, hparts⟩ := bytesOf?_eq_some_iff.1 hpacked
      simp only [List.map_eq_cons_iff, List.map_eq_nil_iff] at hparts
      obtain ⟨high, _, hs, rfl, low, _, rfl, rfl, month, _, rfl, rfl, day, _, rfl, rfl, rfl⟩ :=
        hparts
      split_ifs at h with hmonth
      cases h
      exact .date hs hbytes hmonth.1 hmonth.2
    · cases h

theorem constructs_time_iff : Constructs .time s v ↔
    ∃ t, Clock.ofPacked? s.toList = some t ∧ Value.time t = v := by
  constructor
  · intro h
    cases h with
    | time hs hbytes hhour =>
      refine ⟨_, ?_, rfl⟩
      unfold Clock.ofPacked?
      rw [bytesOf?_eq_some_iff.2 ⟨hbytes, rfl⟩, hs]
      exact if_pos hhour
  · rintro ⟨t, h, rfl⟩
    unfold Clock.ofPacked? at h
    split at h
    · rename_i hpacked
      obtain ⟨hbytes, hparts⟩ := bytesOf?_eq_some_iff.1 hpacked
      simp only [List.map_eq_cons_iff, List.map_eq_nil_iff] at hparts
      obtain ⟨hour, _, hs, rfl, minute, _, rfl, rfl, second, _, rfl, rfl, high, _, rfl, rfl,
        middle, _, rfl, rfl, low, _, rfl, rfl, rfl⟩ := hparts
      split_ifs at h with hhour
      cases h
      exact .time hs hbytes hhour
    · cases h

/-- A constructor decides what becomes of a text, and the text is kept where it makes nothing. -/
def Decides (k : Kind) (s : String) : Prop :=
  ∃ w, ofText k s = .ok w ∧
    ∀ v, v = w ↔ Constructs k s v ∨ (v = .text s ∧ ∀ u, ¬ Constructs k s u)

theorem decides_of_reader {α : Type} {f : α → Value} {k : Kind} {x : Option α}
    (htext : ofText k s = .ok ((x.map f).getD (.text s)))
    (hmade : ∀ {v}, Constructs k s v ↔ ∃ a, x = some a ∧ f a = v) : Decides k s := by
  refine ⟨_, htext, fun v => ?_⟩
  simp only [hmade]
  cases x with
  | none => simp
  | some a => simp [eq_comm]

theorem decides_of_total {k : Kind} {w : Value} (htext : ofText k s = .ok w)
    (hmade : ∀ {v}, Constructs k s v ↔ v = w) : Decides k s := by
  refine ⟨w, htext, fun v => ?_⟩
  simp [hmade]

theorem decides_of_none {k : Kind} (htext : ofText k s = .ok (.text s))
    (hmade : ∀ {v}, ¬ Constructs k s v) : Decides k s := by
  refine ⟨_, htext, fun v => ?_⟩
  simp [hmade]

theorem decides_map (s : String) : Decides .map s := by
  by_cases hs : s = ""
  · subst hs
    refine decides_of_total (w := .map []) rfl ⟨fun h => ?_, ?_⟩
    · cases h
      rfl
    · rintro rfl
      exact .map
  · have hempty : s.isEmpty = false := by
      rw [Bool.eq_false_iff, ne_eq, String.isEmpty_iff]
      exact hs
    refine decides_of_none ?_ fun h => ?_
    · unfold ofText
      rw [hempty]
      rfl
    · cases h
      exact hs rfl

theorem decides_of_constructor {k : Kind} (hown : ¬ HasOwnReading k) (hdecimal : k ≠ .decimal)
    (s : String) : Decides k s := by
  cases k with
  | bool => exact absurd (.inl rfl) hown
  | int => exact absurd (.inr (.inl rfl)) hown
  | datetime => exact absurd (.inr (.inr rfl)) hown
  | decimal => exact absurd rfl hdecimal
  | float => exact decides_of_reader rfl constructs_float_iff
  | uuid => exact decides_of_reader rfl constructs_uuid_iff
  | enum e => exact decides_of_reader rfl constructs_enum_iff
  | date => exact decides_of_reader rfl constructs_date_iff
  | time => exact decides_of_reader rfl constructs_time_iff
  | text =>
    refine decides_of_total rfl ⟨fun h => ?_, ?_⟩
    · cases h
      rfl
    · rintro rfl
      exact .text
  | list =>
    refine decides_of_total rfl ⟨fun h => ?_, ?_⟩
    · cases h
      rfl
    · rintro rfl
      exact .list
  | map => exact decides_map s
  | null => exact decides_of_none rfl nofun
  | duration => exact decides_of_none rfl nofun
  | bytes => exact decides_of_none rfl nofun

inductive Misspells (s : String) : Fault → Prop
  | malformed : (∀ d, ¬ Decimal.Spells (Decimal.spelling s.toList) d) → Misspells s .malformedDecimal
  | outOfRange {d : Decimal} : Decimal.Spells (Decimal.spelling s.toList) d → ¬ d.IsRepresentable →
      Misspells s .decimalOutOfRange

theorem toDecimal_eq_ok_iff : toDecimal s = .ok v ↔ Constructs .decimal s v := by
  unfold toDecimal
  constructor
  · intro h
    cases hread : Decimal.read s.toList with
    | ok d =>
      rw [hread] at h
      cases h
      obtain ⟨hspells, hrange⟩ := Decimal.read_eq_ok_iff.1 hread
      exact .decimal hspells hrange
    | error e =>
      rw [hread] at h
      cases e <;> cases h
  · intro h
    cases h with
    | decimal hspells hrange => rw [Decimal.read_eq_ok_iff.2 ⟨hspells, hrange⟩]

theorem toDecimal_eq_error_iff {e : Fault} : toDecimal s = .error e ↔ Misspells s e := by
  unfold toDecimal
  constructor
  · intro h
    cases hread : Decimal.read s.toList with
    | ok d =>
      rw [hread] at h
      cases h
    | error why =>
      rw [hread] at h
      cases why with
      | malformed =>
        cases h
        exact .malformed (Decimal.read_eq_malformed_iff.1 hread)
      | outOfRange =>
        cases h
        obtain ⟨d, hspells, hrange⟩ := Decimal.read_eq_outOfRange_iff.1 hread
        exact .outOfRange hspells hrange
  · intro h
    cases h with
    | malformed hspells => rw [Decimal.read_eq_malformed_iff.2 hspells]
    | outOfRange hspells hrange =>
      rw [Decimal.read_eq_outOfRange_iff.2 ⟨_, hspells, hrange⟩]

end Listing.Coercion

namespace Listing.Strategy

open Coercion Sql

/-- What becomes of a text for a column whose kind leaves it to a constructor: what the constructor
makes of it, or the text itself if that is nothing. For decimals the second is a fault, and there
is no other. -/
theorem operand_constructed {c : Column} {asked : Option Kind} {k : Kind}
    (hk : kindFor c.type asked = some k) (hown : ¬ HasOwnReading k) (s : String) :
    (∀ v, operand c asked (.text s) = .ok v ↔
      Constructs k s v ∨ (k ≠ .decimal ∧ v = .text s ∧ ∀ w, ¬ Constructs k s w)) ∧
    (∀ e, operand c asked (.text s) = .error e ↔ k = .decimal ∧ Misspells s e) := by
  have hoperand : operand c asked (.text s) = ofText k s := by
    unfold operand
    rw [hk]
    rfl
  rw [hoperand]
  by_cases hdecimal : k = .decimal
  · subst hdecimal
    refine ⟨fun v => ?_, fun e => ?_⟩
    · rw [or_iff_left fun h => h.1 rfl]
      exact toDecimal_eq_ok_iff
    · rw [and_iff_right rfl]
      exact toDecimal_eq_error_iff
  · obtain ⟨w, hw, hdecides⟩ := decides_of_constructor hown hdecimal s
    rw [hw]
    refine ⟨fun v => ?_, fun e => iff_of_false nofun fun h => hdecimal h.1⟩
    rw [Except.ok.injEq, eq_comm, hdecides, and_iff_right hdecimal]

theorem operand_constructed_price :
    kindFor (Column.bare "price" .numeric).type none = some .decimal ∧ ¬ HasOwnReading .decimal ∧
      operand (.bare "price" .numeric) none (.text "infinite") = .error .malformedDecimal ∧
      operand (.bare "price" .numeric) none (.text " 1.50 ") =
        .ok (.decimal (.finite false 150 (-2))) := by
  have hown : ¬ HasOwnReading .decimal := by
    unfold HasOwnReading
    decide
  have hword : Decimal.read "infinite".toList = .error .malformed := by decide
  have hdigits : Decimal.Spells (Decimal.spelling " 1.50 ".toList) (.finite false 150 (-2)) := by
    have hspelling :
        Decimal.spelling " 1.50 ".toList = [] ++ (['1'] ++ '.' :: ['5', '0'] ++ []) := by
      decide
    have hwhole : Numeral.Run Text.digitValue? ['1'] [1] := .last (by decide)
    have hfraction : Numeral.Run Text.digitValue? ['5', '0'] [5, 0] :=
      .digit (by decide) (.last (by decide))
    rw [hspelling]
    exact .signed .none (.number (.fixed (.pointed (.run hwhole) (.run hfraction) nofun) .none))
  have hrange : Decimal.inRange 150 (-2) = true := by decide
  refine ⟨rfl, hown, ?_, ?_⟩
  · exact ((operand_constructed rfl hown "infinite").2 _).2
      ⟨rfl, .malformed (Decimal.read_eq_malformed_iff.1 hword)⟩
  · exact ((operand_constructed rfl hown " 1.50 ").1 _).2 (.inl (.decimal hdigits hrange))

end Listing.Strategy
