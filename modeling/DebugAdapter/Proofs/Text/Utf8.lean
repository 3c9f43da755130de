import DebugAdapter.Text.Utf8
/-!
# Reading UTF-8 back

Characters that are encoded are decoded again (`decode?_encode`), and bytes that are decoded are
the encoding of what they give (`encode_of_decode?`). An ASCII character is one byte below 128, and
all bytes of any other are at least that.
-/

namespace DebugAdapter.Utf8

theorem utf8EncodeChar_of_lt {c : Char} (h : c.toNat < 128) :
    String.utf8EncodeChar c = [UInt8.ofNat c.toNat] := by
  have hle : c.val.toNat ≤ 0x7f := by
    change c.toNat ≤ 0x7f
    omega
  simp only [String.utf8EncodeChar, hle, if_true]
  rfl

theorem encode_of_lt {cs : List Char} (h : ∀ c ∈ cs, c.toNat < 128) :
    encode cs = cs.map fun c => UInt8.ofNat c.toNat := by
  induction cs with
  | nil => rfl
  | cons c cs ih =>
    rw [encode_cons, utf8EncodeChar_of_lt (h c List.mem_cons_self),
      ih fun d hd => h d (List.mem_cons_of_mem c hd)]
    rfl

theorem le_of_mem_utf8EncodeChar {c : Char} (h : 128 ≤ c.toNat) {b : UInt8}
    (hb : b ∈ String.utf8EncodeChar c) : 128 ≤ b.toNat := by
  have hlt : ¬c.val.toNat ≤ 0x7f := by
    change ¬c.toNat ≤ 0x7f
    omega
  simp only [String.utf8EncodeChar, hlt, if_false] at hb
  split at hb
  · simp only [List.mem_cons, List.not_mem_nil, or_false] at hb
    rcases hb with rfl | rfl <;> simp only [UInt8.toNat_ofNat'] <;> omega
  · split at hb
    · simp only [List.mem_cons, List.not_mem_nil, or_false] at hb
      rcases hb with rfl | rfl | rfl <;> simp only [UInt8.toNat_ofNat'] <;> omega
    · simp only [List.mem_cons, List.not_mem_nil, or_false] at hb
      rcases hb with rfl | rfl | rfl | rfl <;> simp only [UInt8.toNat_ofNat'] <;> omega

theorem utf8EncodeChar_ne_nil (c : Char) : String.utf8EncodeChar c ≠ [] := by
  have hlength := String.length_utf8EncodeChar c
  have hsize := c.utf8Size_pos
  intro hnil
  simp [hnil] at hlength
  omega

/-- The bytes of a character carry its code point. -/
theorem assemble_utf8EncodeChar (c : Char) (bs : Bytes) {a : UInt8} {r : Bytes}
    (h : String.utf8EncodeChar c ++ bs = a :: r) : assemble (a :: r) (leadLength a) = c.toNat := by
  have hvalid : c.val.toNat < 0x110000 := by
    have := c.valid
    rcases this with h | h <;> omega
  simp only [String.utf8EncodeChar] at h
  change _ = c.val.toNat
  generalize c.val.toNat = v at h hvalid ⊢
  have hlead (n k : Nat) (hn : n < 256) : leadLength (UInt8.ofNat n) = k ↔
      (if n < 0x80 then 1 else if n < 0xE0 then 2 else if n < 0xF0 then 3 else 4) = k := by
    simp only [leadLength, UInt8.lt_iff_toNat_lt, UInt8.toNat_ofNat', UInt8.reduceToNat]
    rw [Nat.mod_eq_of_lt (by omega)]
  repeat' split at h
  all_goals
    simp only [List.cons_append, List.nil_append, List.cons.injEq] at h
    obtain ⟨rfl, rfl⟩ := h
  · rw [(hlead v 1 (by omega)).2 (by grind)]
    simp only [assemble, UInt8.toNat_ofNat']
    omega
  · rw [(hlead _ 2 (by omega)).2 (by grind)]
    simp only [assemble, payload, UInt8.toNat_ofNat']
    omega
  · rw [(hlead _ 3 (by omega)).2 (by grind)]
    simp only [assemble, payload, UInt8.toNat_ofNat']
    omega
  · rw [(hlead _ 4 (by omega)).2 (by grind)]
    simp only [assemble, payload, UInt8.toNat_ofNat']
    omega

theorem decodeFirst?_utf8EncodeChar (c : Char) (bs : Bytes) :
    decodeFirst? (String.utf8EncodeChar c ++ bs) = some c := by
  cases h : String.utf8EncodeChar c ++ bs with
  | nil => exact absurd (List.append_eq_nil_iff.1 h).1 (utf8EncodeChar_ne_nil c)
  | cons a r =>
    simp only [decodeFirst?, assemble_utf8EncodeChar c bs h, Char.ofNat_toNat]
    simp [← h]

/-- Characters in front are decoded one after the other. -/
theorem decode?_append (cs : List Char) (bs : Bytes) :
    decode? (encode cs ++ bs) = (decode? bs).map (cs ++ ·) := by
  induction cs with
  | nil => simp
  | cons c cs ih =>
    have hfirst := decodeFirst?_utf8EncodeChar c (encode cs ++ bs)
    have hdrop : (String.utf8EncodeChar c ++ (encode cs ++ bs)).drop c.utf8Size =
        encode cs ++ bs := by
      rw [← String.length_utf8EncodeChar c, List.drop_left]
    rw [encode_cons, List.append_assoc]
    generalize String.utf8EncodeChar c ++ (encode cs ++ bs) = bs' at hfirst hdrop
    cases bs' with
    | nil => simp [decodeFirst?] at hfirst
    | cons a r =>
      rw [decode?]
      split
      next d hd =>
        obtain rfl := Option.some.inj (hd.symm.trans hfirst)
        rw [hdrop, ih, Option.map_map]
        rfl
      next hnone => cases hnone.symm.trans hfirst

theorem decode?_encode (cs : List Char) : decode? (encode cs) = some cs := by
  have happend := decode?_append cs []
  rwa [List.append_nil, decode?, Option.map_some, List.append_nil] at happend

theorem eq_append_of_decodeFirst? {bs : Bytes} {c : Char} (h : decodeFirst? bs = some c) :
    bs = String.utf8EncodeChar c ++ bs.drop c.utf8Size := by
  cases bs with
  | nil => cases h
  | cons a r =>
    simp only [decodeFirst?] at h
    split at h
    next hprefix =>
      obtain rfl := Option.some.inj h
      rw [← String.length_utf8EncodeChar]
      exact (List.prefix_iff_eq_append.1 (List.isPrefixOf_iff_prefix.1 hprefix)).symm
    · cases h

/-- Bytes that are decoded are the encoding of the characters. -/
theorem encode_of_decode? {bs : Bytes} {cs : List Char} (h : decode? bs = some cs) :
    encode cs = bs := by
  induction bs using decode?.induct generalizing cs with
  | case1 =>
    rw [decode?] at h
    obtain rfl := Option.some.inj h
    rfl
  | case2 a r c hfirst ih =>
    rw [decode?] at h
    split at h
    next d hd =>
      obtain rfl := Option.some.inj (hd.symm.trans hfirst)
      obtain ⟨ds, hds, rfl⟩ := Option.map_eq_some_iff.1 h
      rw [encode_cons, ih hds, ← eq_append_of_decodeFirst? hd]
    next hnone => cases hnone.symm.trans hfirst
  | case3 a r hnone =>
    rw [decode?] at h
    split at h
    next d hd => cases hnone.symm.trans hd
    · cases h

/-- Characters are decoded again, also where ill-formed bytes would be read as U+FFFD. -/
theorem decodeLossy_of_decode? {bs : Bytes} {cs : List Char} (h : decode? bs = some cs) :
    decodeLossy bs = cs := by
  induction bs using decode?.induct generalizing cs with
  | case1 =>
    rw [decode?] at h
    obtain rfl := Option.some.inj h
    rw [decodeLossy]
  | case2 a r c hfirst ih =>
    rw [decode?] at h
    rw [decodeLossy]
    split at h
    next d hd =>
      obtain rfl := Option.some.inj (hd.symm.trans hfirst)
      obtain ⟨ds, hds, rfl⟩ := Option.map_eq_some_iff.1 h
      rw [ih hds]
    next hnone => cases hnone.symm.trans hfirst
  | case3 a r hnone =>
    rw [decode?] at h
    split at h
    next d hd => cases hnone.symm.trans hd
    · cases h

theorem toStringLossy_encode (cs : List Char) : toStringLossy (encode cs) = String.ofList cs := by
  rw [toStringLossy, decodeLossy_of_decode? (decode?_encode cs)]

theorem toString?_ofString (s : String) : toString? (ofString s) = some s := by
  simp [toString?, ofString, decode?_encode]

end DebugAdapter.Utf8
