import DebugAdapter.Proofs.Text.Cut
import DebugAdapter.Proofs.Text.Utf8
import DebugAdapter.Source.Key
import Mathlib.Logic.Function.Iterate
/-!
# Passes over a source path

A pass over a path is made of steps that leave the text alone or make it lighter (`Shrinks`). The
weight of a text is counted on its bytes : percent signs and opening parentheses weigh four, other
characters one (`weight_eq_bytesWeight`). A decoded escape turns six into at most four, and an
extension that is appended again weighs less than the parenthesis that is dropped for it.

So passes come to an end within `weight` of them (`exists_canonical_iterate`), and a text that a
pass leaves alone is one that each of its steps leaves alone : `pass_eq_self_iff`, these are the
canonical texts (`IsCanonical`).
-/

namespace DebugAdapter.SourceKey

open Text

/-! ## Weights -/

@[simp] theorem weight_nil : weight [] = 0 := rfl

theorem weight_cons (c : Char) (cs : List Char) :
    weight (c :: cs) = (if c = '%' ∨ c = '(' then 4 else 1) + weight cs := by
  by_cases h1 : c = '%' <;> by_cases h2 : c = '(' <;>
    simp_all [weight] <;> omega

theorem weight_append (cs ds : List Char) : weight (cs ++ ds) = weight cs + weight ds := by
  simp only [weight, List.count_append, List.length_append]
  omega

theorem length_le_weight (cs : List Char) : cs.length ≤ weight cs :=
  Nat.le_add_left _ _

theorem weight_pos {cs : List Char} (h : cs ≠ []) : 0 < weight cs :=
  Nat.lt_of_lt_of_le (List.length_pos_iff.2 h) (length_le_weight cs)

/-- The weight of a byte. Of the bytes of a character only the first one counts. -/
def byteWeight (b : UInt8) : Nat :=
  if b = 0x25 ∨ b = 0x28 then 4 else if 0x80 ≤ b.toNat ∧ b.toNat < 0xC0 then 0 else 1

/-- The weight of bytes. -/
def bytesWeight : Bytes → Nat
  | [] => 0
  | b :: bs => byteWeight b + bytesWeight bs

@[simp] theorem bytesWeight_cons (b : UInt8) (bs : Bytes) :
    bytesWeight (b :: bs) = byteWeight b + bytesWeight bs := rfl

theorem bytesWeight_append (bs bs' : Bytes) :
    bytesWeight (bs ++ bs') = bytesWeight bs + bytesWeight bs' := by
  induction bs with
  | nil => exact (Nat.zero_add _).symm
  | cons b bs ih => rw [List.cons_append, bytesWeight_cons, bytesWeight_cons, ih, Nat.add_assoc]

theorem byteWeight_ofNat {n : Nat} (h : 0x80 ≤ n) (h' : n < 0x100) :
    byteWeight (UInt8.ofNat n) = if n < 0xC0 then 0 else 1 := by
  have hn : (UInt8.ofNat n).toNat = n := by
    rw [UInt8.toNat_ofNat']
    omega
  have hne {b : UInt8} (hb : b.toNat < 0x80) : UInt8.ofNat n ≠ b := by
    rintro rfl
    omega
  simp only [byteWeight, hne (b := 0x25) (by decide), hne (b := 0x28) (by decide), hn, h, true_and,
    or_self, if_false]

theorem bytesWeight_utf8EncodeChar (c : Char) :
    bytesWeight (String.utf8EncodeChar c) = if c = '%' ∨ c = '(' then 4 else 1 := by
  have heq (d : Char) : c = d ↔ c.toNat = d.toNat :=
    ⟨congrArg _, fun h => Char.ext (UInt32.toNat_inj.1 h)⟩
  simp only [heq]
  by_cases hc : c.toNat < 128
  · have hascii : ∀ n < 128, byteWeight (UInt8.ofNat n) = if n = 37 ∨ n = 40 then 4 else 1 := by
      decide
    rw [Utf8.utf8EncodeChar_of_lt hc, bytesWeight_cons, hascii _ hc]
    rfl
  · have hvalid : c.val.toNat < 0x110000 := by
      have := c.valid
      rcases this with h | h <;> omega
    have hplain : ¬(c.toNat = '%'.toNat ∨ c.toNat = '('.toNat) := by
      simp only [Char.reduceToNat]
      omega
    rw [if_neg hplain]
    have hlow : ¬c.val.toNat ≤ 0x7f := fun h => hc (Nat.lt_succ_of_le h)
    simp only [String.utf8EncodeChar, hlow, if_false]
    generalize c.val.toNat = v at hvalid hlow ⊢
    repeat' split
    all_goals
      simp only [bytesWeight]
      repeat rw [byteWeight_ofNat (by omega) (by omega)]
      grind

theorem weight_eq_bytesWeight (cs : List Char) : weight cs = bytesWeight (Utf8.encode cs) := by
  induction cs with
  | nil => rfl
  | cons c cs ih =>
    rw [weight_cons, Utf8.encode_cons, bytesWeight_append, bytesWeight_utf8EncodeChar, ih]

/-! ## Steps -/

/-- Whether `f` leaves every text alone or makes it lighter. -/
def Shrinks (f : List Char → List Char) : Prop :=
  ∀ cs, f cs ≠ cs → weight (f cs) < weight cs

namespace Shrinks

variable {f g : List Char → List Char}

theorem weight_le (h : Shrinks f) (cs : List Char) : weight (f cs) ≤ weight cs := by
  by_cases heq : f cs = cs
  · exact Nat.le_of_eq (congrArg weight heq)
  · exact Nat.le_of_lt (h cs heq)

theorem comp (hg : Shrinks g) (hf : Shrinks f) : Shrinks fun cs => g (f cs) := by
  intro cs hne
  by_cases heq : f cs = cs
  · simp only [heq] at hne ⊢
    exact hg cs hne
  · exact Nat.lt_of_le_of_lt (hg.weight_le _) (hf cs heq)

/-- What two steps together leave alone, each of them leaves alone. -/
theorem comp_eq_self_iff (hg : Shrinks g) (hf : Shrinks f) {cs : List Char} :
    g (f cs) = cs ↔ f cs = cs ∧ g cs = cs := by
  constructor
  · intro h
    by_cases heq : f cs = cs
    · exact ⟨heq, by rwa [heq] at h⟩
    · have hlt := Nat.lt_of_le_of_lt (hg.weight_le (f cs)) (hf cs heq)
      rw [h] at hlt
      exact absurd hlt (Nat.lt_irrefl _)
  · rintro ⟨hfirst, hsecond⟩
    rw [hfirst, hsecond]

/-- Cutting something off makes a text lighter. -/
theorem of_cut (h : ∀ cs, ∃ front back, cs = front ++ (f cs ++ back)) : Shrinks f := by
  intro cs hne
  obtain ⟨front, back, hcs⟩ := h cs
  have hweight : weight cs = weight front + (weight (f cs) + weight back) := by
    rw [← weight_append, ← weight_append, ← hcs]
  by_cases hfront : front = []
  · by_cases hback : back = []
    · exact absurd (by simpa [hfront, hback] using hcs.symm) hne
    · have := weight_pos hback
      omega
  · have := weight_pos hfront
    omega

end Shrinks

theorem shrinks_dropScheme : Shrinks dropScheme := by
  refine .of_cut fun cs => ?_
  unfold dropScheme
  cases h : afterPrefix? scheme cs with
  | none => exact ⟨[], [], by simp⟩
  | some ds => exact ⟨scheme, [], by simpa using eq_append_of_afterPrefix? h⟩

theorem shrinks_dropWhile (p : Char → Bool) : Shrinks (List.dropWhile p) :=
  .of_cut fun cs => ⟨cs.takeWhile p, [], by simp⟩

theorem shrinks_dropEndWhile (p : Char → Bool) : Shrinks (dropEndWhile p) :=
  .of_cut fun cs => ⟨[], cs.rtakeWhile p, List.rdropWhile_append_rtakeWhile.symm⟩

theorem shrinks_trimChars : Shrinks trimChars :=
  (shrinks_dropEndWhile isBlank).comp (shrinks_dropWhile isBlank)

theorem weight_extension : weight extension = 3 := by decide

/-- An extension that is appended again is lighter than the parenthesis in front of which it
stands. -/
theorem shrinks_dropMapping : Shrinks dropMapping := by
  intro cs hne
  unfold dropMapping at hne ⊢
  cases h : cutAt? '(' cs with
  | none => simp [h] at hne
  | some p =>
    obtain ⟨before, after⟩ := p
    have hcs := (cutAt?_eq_some_iff.1 h).2
    have hweight : weight cs = weight before + (4 + weight after) := by
      rw [hcs, weight_append, weight_cons, if_pos (.inr rfl)]
    simp only
    split
    · rw [weight_append, weight_extension]
      omega
    · omega

theorem byteWeight_of_hexValue? {b : UInt8} {x : Nat} (h : Ascii.hexValue? b = some x) :
    byteWeight b = 1 := by
  have hall : ∀ n < 256, (Ascii.hexValue? (UInt8.ofNat n)).isSome →
      byteWeight (UInt8.ofNat n) = 1 := by decide +kernel
  have hb := hall b.toNat b.toNat_lt
  rw [UInt8.ofNat_toNat, h] at hb
  exact hb rfl

theorem byteWeight_le (b : UInt8) : byteWeight b ≤ 4 := by
  unfold byteWeight
  repeat' split
  all_goals omega

/-- Every escape that is decoded makes the bytes lighter. -/
theorem bytesWeight_percentBytes (bs : Bytes) :
    percentBytes bs = bs ∨ bytesWeight (percentBytes bs) < bytesWeight bs := by
  induction bs using percentBytes.induct with
  | case1 a b bs x y hy hx ih =>
    refine .inr ?_
    have hle := byteWeight_le (UInt8.ofNat (x * 16 + y))
    have hbs : bytesWeight (percentBytes bs) ≤ bytesWeight bs :=
      ih.elim (fun heq => Nat.le_of_eq (congrArg _ heq)) Nat.le_of_lt
    have hpercent : byteWeight 0x25 = 4 := rfl
    simp only [percentBytes, hx, hy, bytesWeight_cons, byteWeight_of_hexValue? hx,
      byteWeight_of_hexValue? hy, hpercent]
    omega
  | case2 a b bs hnone ih =>
    have hkept : percentBytes (0x25 :: a :: b :: bs) = 0x25 :: percentBytes (a :: b :: bs) := by
      rw [percentBytes]
      split
      next x y hx hy => exact absurd hy (hnone x y hx)
      · rfl
    rw [hkept]
    exact ih.imp (congrArg _) fun hlt => by simpa using hlt
  | case3 b bs hother ih =>
    rw [percentBytes]
    · exact ih.imp (congrArg _) fun hlt => by simpa using hlt
    · exact hother
  | case4 => exact .inl rfl

theorem shrinks_percentDecode : Shrinks percentDecode := by
  intro cs hne
  unfold percentDecode at hne ⊢
  cases h : Utf8.decode? (percentBytes (Utf8.encode cs)) with
  | none => simp [h] at hne
  | some ds =>
    have hencode := Utf8.encode_of_decode? h
    simp only [h, Option.getD_some] at hne ⊢
    rcases bytesWeight_percentBytes (Utf8.encode cs) with heq | hlt
    · rw [heq, Utf8.decode?_encode] at h
      exact absurd (Option.some.inj h).symm hne
    · rw [weight_eq_bytesWeight, weight_eq_bytesWeight, hencode]
      exact hlt

/-! ## Canonical texts -/

/-- What a pass does to a text without scheme and escapes. -/
def tidy (cs : List Char) : List Char :=
  trimChars (dropMapping (cs.dropWhile (· = '/')))

theorem pass_eq_tidy (cs : List Char) : pass cs = tidy (percentDecode (dropScheme cs)) := rfl

/-- Whether a text is the key of a script, as clients may write it. -/
structure IsCanonical (cs : List Char) : Prop where
  noScheme : ¬scheme <+: cs
  decoded : percentDecode cs = cs
  noSlash : cs.head? ≠ some '/'
  noMapping : '(' ∉ cs
  noBlankFirst : ∀ c ∈ cs.head?, isBlank c = false
  noBlankLast : ∀ c ∈ cs.getLast?, isBlank c = false

theorem length_scheme : scheme.length = 10 := by decide

theorem dropScheme_eq_self_iff {cs : List Char} : dropScheme cs = cs ↔ ¬scheme <+: cs := by
  unfold dropScheme
  refine ⟨fun h => ?_, fun h => ?_⟩
  · rintro ⟨ds, rfl⟩
    rw [afterPrefix?_append, Option.getD_some] at h
    have hlength := congrArg List.length h
    rw [List.length_append, length_scheme] at hlength
    omega
  · cases hafter : afterPrefix? scheme cs with
    | none => rfl
    | some ds => exact absurd ⟨ds, (eq_append_of_afterPrefix? hafter).symm⟩ h

theorem paren_not_mem_extension : '(' ∉ extension := by decide

theorem paren_not_mem_dropMapping (cs : List Char) : '(' ∉ dropMapping cs := by
  unfold dropMapping
  cases h : cutAt? '(' cs with
  | none => exact cutAt?_eq_none_iff.1 h
  | some p =>
    have hbefore := (cutAt?_eq_some_iff.1 h).1
    simp only
    split
    · simp [hbefore, paren_not_mem_extension]
    · exact hbefore

theorem dropMapping_of_not_mem {cs : List Char} (h : '(' ∉ cs) : dropMapping cs = cs := by
  rw [dropMapping, cutAt?_eq_none_iff.2 h]

theorem dropMapping_eq_self_iff {cs : List Char} : dropMapping cs = cs ↔ '(' ∉ cs :=
  ⟨fun h => h ▸ paren_not_mem_dropMapping cs, dropMapping_of_not_mem⟩

theorem shrinks_tidy : Shrinks tidy :=
  shrinks_trimChars.comp (shrinks_dropMapping.comp (shrinks_dropWhile _))

theorem shrinks_pass : Shrinks pass :=
  shrinks_tidy.comp (shrinks_percentDecode.comp shrinks_dropScheme)

/-- A pass leaves just the canonical texts alone. -/
theorem pass_eq_self_iff {cs : List Char} : pass cs = cs ↔ IsCanonical cs := by
  have hpass : pass cs = cs ↔ (dropScheme cs = cs ∧ percentDecode cs = cs) ∧ tidy cs = cs := by
    rw [← shrinks_percentDecode.comp_eq_self_iff shrinks_dropScheme]
    exact shrinks_tidy.comp_eq_self_iff (shrinks_percentDecode.comp shrinks_dropScheme)
  have htidy : tidy cs = cs ↔ (cs.dropWhile (· = '/') = cs ∧ dropMapping cs = cs) ∧
      cs.dropWhile isBlank = cs ∧ dropEndWhile isBlank cs = cs := by
    rw [← shrinks_dropMapping.comp_eq_self_iff (shrinks_dropWhile _),
      ← (shrinks_dropEndWhile isBlank).comp_eq_self_iff (shrinks_dropWhile isBlank)]
    exact shrinks_trimChars.comp_eq_self_iff (shrinks_dropMapping.comp (shrinks_dropWhile _))
  rw [hpass, htidy, dropScheme_eq_self_iff, dropMapping_eq_self_iff, dropWhile_eq_self_iff_head?,
    dropWhile_eq_self_iff_head?, dropEndWhile_eq_self_iff]
  constructor
  · rintro ⟨⟨hscheme, hdecoded⟩, ⟨hslash, hmapping⟩, hfirst, hlast⟩
    refine ⟨hscheme, hdecoded, fun h => ?_, hmapping, hfirst, hlast⟩
    cases hslash '/' h
  · intro h
    refine ⟨⟨h.noScheme, h.decoded⟩, ⟨fun c hc => ?_, h.noMapping⟩, h.noBlankFirst, h.noBlankLast⟩
    refine decide_eq_false ?_
    rintro rfl
    exact h.noSlash hc

/-! ## Passes -/

/-- What is left of a text when no pass changes it any more. -/
def settled (cs : List Char) : List Char :=
  passes (weight cs) cs

theorem normalize_eq (path : String) : normalize path = String.ofList (settled path.toList) := rfl

theorem passes_eq_iterate (fuel : Nat) (cs : List Char) : passes fuel cs = pass^[fuel] cs := by
  induction fuel generalizing cs with
  | zero => rfl
  | succ fuel ih =>
    rw [passes, Function.iterate_succ_apply]
    split
    next heq => rw [heq, Function.iterate_fixed heq]
    · exact ih (pass cs)

/-- Passes come to an end : each of the first ones changes the text, and then it is canonical. -/
theorem exists_canonical_iterate (cs : List Char) : ∃ n ≤ weight cs, IsCanonical (pass^[n] cs) ∧
    ∀ m < n, pass (pass^[m] cs) ≠ pass^[m] cs := by
  induction hw : weight cs using Nat.strongRecOn generalizing cs with
  | ind w ih =>
    by_cases heq : pass cs = cs
    · exact ⟨0, Nat.zero_le w, pass_eq_self_iff.1 heq, by simp⟩
    · have hlt := hw ▸ shrinks_pass cs heq
      obtain ⟨n, hn, hcanonical, hmoves⟩ := ih _ hlt (pass cs) rfl
      refine ⟨n + 1, by omega, hcanonical, fun m hm => ?_⟩
      cases m with
      | zero => exact heq
      | succ m => exact hmoves m (by omega)

theorem iterate_of_canonical {cs : List Char} {n fuel : Nat} (h : IsCanonical (pass^[n] cs))
    (hn : n ≤ fuel) : passes fuel cs = pass^[n] cs := by
  obtain ⟨k, rfl⟩ := Nat.exists_eq_add_of_le' hn
  rw [passes_eq_iterate, Function.iterate_add_apply, Function.iterate_fixed (pass_eq_self_iff.2 h)]

theorem settled_canonical (cs : List Char) : IsCanonical (settled cs) := by
  obtain ⟨n, hn, hcanonical, -⟩ := exists_canonical_iterate cs
  rw [settled, iterate_of_canonical hcanonical hn]
  exact hcanonical

theorem settled_of_canonical {cs : List Char} (h : IsCanonical cs) : settled cs = cs :=
  iterate_of_canonical (n := 0) h (Nat.zero_le _)

/-- A pass does not change what is left in the end. -/
theorem settled_pass (cs : List Char) : settled (pass cs) = settled cs := by
  obtain ⟨n, hn, hcanonical, -⟩ := exists_canonical_iterate (pass cs)
  have hcanonical' : IsCanonical (pass^[n + 1] cs) := hcanonical
  have hboth (fuel : Nat) (hfuel : n + 1 ≤ fuel) : passes fuel cs = settled (pass cs) := by
    rw [iterate_of_canonical hcanonical' hfuel, settled, iterate_of_canonical hcanonical hn]
    rfl
  by_cases heq : pass cs = cs
  · rw [heq]
  · have hlt := shrinks_pass cs heq
    exact (hboth (weight cs) (by omega)).symm

end DebugAdapter.SourceKey
