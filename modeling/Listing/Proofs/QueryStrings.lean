import Mathlib.Tactic.NormNum
import Mathlib.Tactic.SplitIfs
import Listing.Params.UrlEncoded

set_option autoImplicit false

namespace Listing

theorem Text.mem_intercalate {mark : Char} {pieces : List (List Char)} :
    ∀ c ∈ [mark].intercalate pieces, c = mark ∨ ∃ piece ∈ pieces, c ∈ piece := by
  induction pieces with
  | nil => simp
  | cons piece pieces ih =>
    intro c hc
    cases pieces with
    | nil => exact .inr ⟨piece, by simp, by simpa using hc⟩
    | cons next pieces =>
      rw [List.intercalate_cons_cons, List.mem_append, List.mem_append, List.mem_singleton] at hc
      rcases hc with (hc | hc) | hc
      · exact .inr ⟨piece, by simp, hc⟩
      · exact .inl hc
      · rcases ih c hc with hmark | ⟨later, hlater, hc⟩
        · exact .inl hmark
        · exact .inr ⟨later, List.mem_cons_of_mem _ hlater, hc⟩

namespace Utf8

def bytesOf (n : Nat) : List Nat :=
  if n ≤ 0x7F then [n]
  else if n ≤ 0x7FF then [n / 64 % 32 + 192, n % 64 + 128]
  else if n ≤ 0xFFFF then [n / 4096 % 16 + 224, n / 64 % 64 + 128, n % 64 + 128]
  else [n / 262144 % 8 + 240, n / 4096 % 64 + 128, n / 64 % 64 + 128, n % 64 + 128]

theorem encodeChar_eq (c : Char) :
    (String.utf8EncodeChar c).map UInt8.toNat = bytesOf c.toNat := by
  unfold String.utf8EncodeChar bytesOf
  dsimp only
  rw [show c.val.toNat = c.toNat from rfl]
  split_ifs <;> simp [UInt8.toNat_ofNat'] <;> omega

theorem encode_cons (c : Char) (cs : List Char) :
    encode (c :: cs) = bytesOf c.toNat ++ encode cs := by
  rw [encode, List.flatMap_cons, List.map_append, encodeChar_eq]
  rfl

theorem lead_one {b : Nat} (h : b < 0x80) : lead b = .complete (Char.ofNat b) := if_pos h

theorem lead_two {b : Nat} (h : 0xC2 ≤ b ∧ b ≤ 0xDF) :
    lead b = .started ⟨1, b % 0x20, 0x80, 0xBF⟩ := by
  unfold lead
  rw [if_neg (by omega), if_pos h]

theorem lead_three {b : Nat} (h : 0xE0 ≤ b ∧ b ≤ 0xEF) : lead b = .started
    ⟨2, b % 0x10, if b = 0xE0 then 0xA0 else 0x80, if b = 0xED then 0x9F else 0xBF⟩ := by
  unfold lead
  rw [if_neg (by omega), if_neg (by omega), if_pos h]

theorem lead_four {b : Nat} (h : 0xF0 ≤ b ∧ b ≤ 0xF4) : lead b = .started
    ⟨3, b % 8, if b = 0xF0 then 0x90 else 0x80, if b = 0xF4 then 0x8F else 0xBF⟩ := by
  unfold lead
  rw [if_neg (by omega), if_neg (by omega), if_neg (by omega), if_pos h]

theorem decodeFrom_lead {b : Nat} {p : Partial} (h : lead b = .started p) (bs : List Nat) :
    decodeFrom none (b :: bs) = decodeFrom (some p) bs := by
  rw [decodeFrom, h]

theorem decodeFrom_next {missing bits low high b : Nat} (h : low ≤ b ∧ b ≤ high) (bs : List Nat) :
    decodeFrom (some ⟨missing + 2, bits, low, high⟩) (b :: bs) =
      decodeFrom (some ⟨missing + 1, bits * 64 + b % 64, 0x80, 0xBF⟩) bs := by
  rw [decodeFrom, if_pos h, if_neg (by simp)]
  rfl

theorem decodeFrom_last {bits low high b : Nat} (h : low ≤ b ∧ b ≤ high) (bs : List Nat) :
    decodeFrom (some ⟨1, bits, low, high⟩) (b :: bs) =
      some (Char.ofNat (bits * 64 + b % 64)) :: decodeFrom none bs := by
  rw [decodeFrom, if_pos h]
  rfl

theorem decodeFrom_bytesOf (c : Char) (rest : List Nat) :
    decodeFrom none (bytesOf c.toNat ++ rest) = some c :: decodeFrom none rest := by
  have hvalid : c.toNat < 0xD800 ∨ 0xDFFF < c.toNat ∧ c.toNat < 0x110000 := c.valid
  have hchar (n : Nat) (h : n = c.toNat) : Char.ofNat n = c := by rw [h, Char.ofNat_toNat]
  unfold bytesOf
  split_ifs with h1 h2 h3
  · rw [List.singleton_append, decodeFrom, lead_one (by omega), hchar _ rfl]
  · rw [List.cons_append, decodeFrom_lead (lead_two (by omega)), List.singleton_append,
      decodeFrom_last (by omega), hchar _ (by omega)]
  · rw [List.cons_append, decodeFrom_lead (lead_three (by omega)), List.cons_append,
      decodeFrom_next (by split_ifs <;> omega), List.singleton_append,
      decodeFrom_last (by omega), hchar _ (by omega)]
  · rw [List.cons_append, decodeFrom_lead (lead_four (by omega)), List.cons_append,
      decodeFrom_next (by split_ifs <;> omega), List.cons_append,
      decodeFrom_next (by omega), List.singleton_append,
      decodeFrom_last (by omega), hchar _ (by omega)]

theorem decode_encode (cs : List Char) : decode (encode cs) = cs := by
  have hchars : decodeFrom none (encode cs) = cs.map some := by
    induction cs with
    | nil => rfl
    | cons c cs ih => rw [encode_cons, decodeFrom_bytesOf, ih, List.map_cons]
  simp [decode, hchars, Function.comp_def]

theorem encode_lt {cs : List Char} : ∀ b ∈ encode cs, b < 256 := by
  intro b hb
  obtain ⟨byte, -, rfl⟩ := List.mem_map.1 hb
  exact byte.toNat_lt

theorem decodeFrom_ascii {cs : List Char} (h : ∀ c ∈ cs, c.toNat < 0x80) :
    decodeFrom none (cs.map Char.toNat) = cs.map some := by
  induction cs with
  | nil => rfl
  | cons c cs ih =>
    rw [List.map_cons, decodeFrom, lead_one (h c List.mem_cons_self), Char.ofNat_toNat]
    rw [ih fun d hd => h d (List.mem_cons_of_mem c hd), List.map_cons]

theorem decode_ascii {cs : List Char} (h : ∀ c ∈ cs, c.toNat < 0x80) :
    decode (cs.map Char.toNat) = cs := by
  simp [decode, decodeFrom_ascii h, Function.comp_def]

end Utf8

namespace UrlEncoded

open Text

def unplus (c : Char) : Char := if c = '+' then ' ' else c

theorem hexValue?_escape : ∀ b < 256, ((paddedHex 2 b).map Char.toUpper).map hexValue? =
    [some (b / 16), some (b % 16)] := by
  decide +kernel

theorem ofNat_plain : ∀ b < 256, isPlain b = true →
    (Char.ofNat b).toNat = b ∧ b < 0x80 ∧ Char.ofNat b ≠ '+' ∧ Char.ofNat b ≠ '%' := by
  decide +kernel

theorem escapeByte_coded {b : Nat} (hb : b < 256) (hplain : isPlain b = false) (hblank : b ≠ 0x20) :
    ∃ x y, escapeByte b = ['%', x, y] ∧ hexValue? x = some (b / 16) ∧
      hexValue? y = some (b % 16) := by
  have hhex := hexValue?_escape b hb
  have hescape : escapeByte b = '%' :: (paddedHex 2 b).map Char.toUpper := by
    simp [escapeByte, hplain, hblank]
  rw [hescape]
  generalize (paddedHex 2 b).map Char.toUpper = ds at hhex
  cases ds with
  | nil => simp at hhex
  | cons x ds =>
    cases ds with
    | nil => simp at hhex
    | cons y ds => simp_all

theorem unplus_hex {c : Char} {d : Nat} (h : hexValue? c = some d) : unplus c = c := by
  unfold unplus
  split_ifs with hc
  · subst hc
    cases h
  · rfl

theorem unescapeFrom_char {c : Char} (hc : c ≠ '%') (hascii : c.toNat < 0x80) (bytes : List Nat)
    (cs : List Char) : unescapeFrom bytes (c :: cs) = unescapeFrom (c.toNat :: bytes) cs := by
  rw [unescapeFrom.eq_3 bytes c cs fun a b cs' h => absurd h hc, if_pos hascii]

theorem unescapeFrom_escapeByte {b : Nat} (hb : b < 256) (bytes : List Nat) (cs : List Char) :
    unescapeFrom bytes ((escapeByte b).map unplus ++ cs) = unescapeFrom (b :: bytes) cs := by
  by_cases hplain : isPlain b = true
  · obtain ⟨hnat, hascii, hplus, hpercent⟩ := ofNat_plain b hb hplain
    have hescape : (escapeByte b).map unplus = [Char.ofNat b] := by
      simp [escapeByte, hplain, unplus, hplus]
    rw [hescape, List.singleton_append, unescapeFrom_char hpercent (by omega), hnat]
  · by_cases hblank : b = 0x20
    · subst hblank
      exact unescapeFrom_char (c := ' ') (by decide) (by decide) bytes cs
    · obtain ⟨x, y, hescape, hx, hy⟩ :=
        escapeByte_coded hb (Bool.eq_false_iff.2 hplain) hblank
      have hmap : (escapeByte b).map unplus = ['%', x, y] := by
        rw [hescape, List.map_cons, List.map_cons, List.map_cons, unplus_hex hx, unplus_hex hy]
        rfl
      rw [hmap]
      simp only [List.cons_append, List.nil_append]
      rw [unescapeFrom.eq_2, hx, hy]
      dsimp only
      rw [show 16 * (b / 16) + b % 16 = b by omega]

theorem unescapeFrom_escape {bs : List Nat} (h : ∀ b ∈ bs, b < 256) (bytes : List Nat) :
    unescapeFrom bytes ((bs.flatMap escapeByte).map unplus) =
      Utf8.decode (bytes.reverse ++ bs) := by
  induction bs generalizing bytes with
  | nil => simp [unescapeFrom]
  | cons b bs ih =>
    rw [List.flatMap_cons, List.map_append,
      unescapeFrom_escapeByte (h b List.mem_cons_self),
      ih fun c hc => h c (List.mem_cons_of_mem b hc)]
    simp

theorem unescape_escape (s : String) : unescape (escape s) = s := by
  change String.ofList (unescapeFrom [] (((Utf8.encode s.toList).flatMap escapeByte).map unplus)) = s
  rw [unescapeFrom_escape Utf8.encode_lt, List.reverse_nil, List.nil_append, Utf8.decode_encode,
    String.ofList_toList]

def isEscaped (c : Char) : Bool := c.isAlphanum || "_.-~+%".toList.contains c

theorem escapeByte_isEscaped : ∀ b < 256, (escapeByte b).all isEscaped = true := by
  decide +kernel

theorem escape_isEscaped {s : String} : ∀ c ∈ escape s, isEscaped c = true := by
  intro c hc
  obtain ⟨b, hb, hc⟩ := List.mem_flatMap.1 hc
  exact List.all_eq_true.1 (escapeByte_isEscaped b (Utf8.encode_lt b hb)) c hc

def written (f : String × String) : List Char := escape f.1 ++ '=' :: escape f.2

theorem field_written (f : String × String) : field (written f) = f := by
  have hkey : ∀ c ∈ escape f.1, (c != '=') = true := by
    intro c hc
    rw [bne_iff_ne]
    rintro rfl
    exact absurd (escape_isEscaped _ hc) (by decide)
  unfold field written
  rw [List.takeWhile_append_of_pos hkey, List.dropWhile_append_of_pos hkey]
  simp [unescape_escape]

theorem fields_render (fs : List (String × String)) : fields (render fs) = fs := by
  have hpieces : ∀ piece ∈ fs.map written, '&' ∉ piece := by
    intro piece hpiece hmark
    obtain ⟨f, -, rfl⟩ := List.mem_map.1 hpiece
    rcases List.mem_append.1 hmark with hkey | hvalue
    · exact absurd (escape_isEscaped _ hkey) (by decide)
    · rcases List.mem_cons.1 hvalue with hequals | hvalue
      · exact absurd hequals (by decide)
      · exact absurd (escape_isEscaped _ hvalue) (by decide)
  have hfull : (fs.map written).filter (!·.isEmpty) = fs.map written := by
    rw [List.filter_eq_self]
    intro piece hpiece
    obtain ⟨f, -, rfl⟩ := List.mem_map.1 hpiece
    simp [written]
  change ((['&'].intercalate (fs.map written)).splitOn '&' |>.filter (!·.isEmpty)).map field = fs
  by_cases hnone : fs = []
  · subst hnone
    rfl
  · rw [List.splitOn_intercalate '&' hpieces (by simp [hnone]), hfull, List.map_map]
    simp [Function.comp_def, field_written]

theorem render_chars {fs : List (String × String)} :
    ∀ c ∈ render fs, isEscaped c = true ∨ c = '=' ∨ c = '&' := by
  intro c hc
  rcases Text.mem_intercalate c hc with hmark | ⟨piece, hpiece, hc⟩
  · exact .inr (.inr hmark)
  · obtain ⟨f, -, rfl⟩ := List.mem_map.1 hpiece
    rcases List.mem_append.1 hc with hkey | hvalue
    · exact .inl (escape_isEscaped c hkey)
    · rcases List.mem_cons.1 hvalue with hequals | hvalue
      · exact .inr (.inl hequals)
      · exact .inl (escape_isEscaped c hvalue)

end UrlEncoded

end Listing
