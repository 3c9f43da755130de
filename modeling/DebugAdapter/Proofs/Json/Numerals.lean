import Mathlib.Data.List.DropRight
import DebugAdapter.Json.Parser
import DebugAdapter.Json.Printer
import DebugAdapter.Proofs.Text.Utf8
/-!
# Numbers read back

A whole number is read back from its digits, whatever follows them that does not continue a number
(`scanUnsigned_toDigits`). Where a number is read off some bytes, it is read off more bytes too
(`scanUnsigned_append`); so a double whose text reads back does so in front of other text.
-/

namespace DebugAdapter.Json

open Ascii

/-- Whether the bytes after a number do not continue it. -/
def EndsNumber (rest : Bytes) : Prop :=
  digitNext rest = false ∧ scaledNext rest = false

instance (rest : Bytes) : Decidable (EndsNumber rest) :=
  inferInstanceAs (Decidable (_ ∧ _))

/-! ## Digits -/

theorem toNat_of_isDigit {c : Char} (h : c.isDigit = true) : 48 ≤ c.toNat ∧ c.toNat ≤ 57 := by
  simp only [Char.isDigit, Bool.and_eq_true, decide_eq_true_eq, UInt32.le_iff_toNat_le] at h
  exact h

theorem encode_digits {cs : List Char} (h : ∀ c ∈ cs, c.isDigit = true) :
    Utf8.encode cs = cs.map fun c => UInt8.ofNat c.toNat := by
  refine Utf8.encode_of_lt fun c hc => ?_
  have := toNat_of_isDigit (h c hc)
  omega

theorem isDigit_ofNat {c : Char} (h : c.isDigit = true) : isDigit (UInt8.ofNat c.toNat) = true := by
  have := toNat_of_isDigit h
  simp only [isDigit, Bool.and_eq_true, decide_eq_true_eq, UInt8.le_iff_toNat_le,
    UInt8.toNat_ofNat', UInt8.reduceToNat]
  omega

theorem digitValue_ofNat {c : Char} (h : c.isDigit = true) :
    digitValue (UInt8.ofNat c.toNat) = c.toNat - '0'.toNat := by
  have := toNat_of_isDigit h
  simp only [digitValue, UInt8.toNat_ofNat', Char.reduceToNat]
  omega

theorem le_ofDigitChars (cs : List Char) (n : Nat) : n ≤ Nat.ofDigitChars 10 cs n := by
  induction cs generalizing n with
  | nil => simp
  | cons c cs ih =>
    rw [Nat.ofDigitChars_cons]
    exact Nat.le_trans (by omega) (ih _)

/-- All digits of a number that fits 64 bits are taken. -/
theorem takeDigits_append {cs : List Char} (hcs : ∀ c ∈ cs, c.isDigit = true) {rest : Bytes}
    (hrest : digitNext rest = false) (n taken : Nat)
    (hfits : Nat.ofDigitChars 10 cs n < 0x10000000000000000) :
    takeDigits n taken (Utf8.encode cs ++ rest) =
      (Nat.ofDigitChars 10 cs n, taken + cs.length, rest) := by
  rw [encode_digits hcs]
  induction cs generalizing n taken with
  | nil =>
    cases rest with
    | nil => simp [takeDigits]
    | cons b bs =>
      have hb : isDigit b = false := hrest
      simp [takeDigits, hb]
  | cons c cs ih =>
    have hc := hcs c List.mem_cons_self
    rw [Nat.ofDigitChars_cons] at hfits ⊢
    have hvalue : n * 10 + digitValue (UInt8.ofNat c.toNat) = 10 * n + (c.toNat - '0'.toNat) := by
      rw [digitValue_ofNat hc, Nat.mul_comm]
    have hle := le_ofDigitChars cs (10 * n + (c.toNat - '0'.toNat))
    simp only [List.map_cons, List.cons_append, takeDigits]
    rw [if_pos ⟨isDigit_ofNat hc, by omega⟩, hvalue,
      ih (fun d hd => hcs d (List.mem_cons_of_mem c hd)) _ _ hfits]
    simp [Nat.add_assoc, Nat.add_comm 1]

/-- No digit follows a zero in front. -/
theorem tail_eq_nil_of_toDigits {n : Nat} {cs : List Char} (h : Nat.toDigits 10 n = '0' :: cs) :
    cs = [] := by
  induction n using Nat.strongRecOn generalizing cs with
  | ind n ih =>
    rcases Nat.lt_or_ge n 10 with hn | hn
    · rw [Nat.toDigits_of_lt_base hn] at h
      exact (List.cons.inj h).2.symm
    · rw [Nat.toDigits_of_base_le (by omega) hn] at h
      cases hfront : Nat.toDigits 10 (n / 10) with
      | nil => exact absurd hfront Nat.toDigits_ne_nil
      | cons c front =>
        rw [hfront, List.cons_append] at h
        obtain ⟨rfl, rfl⟩ := List.cons.inj h
        -- The number without its last digit would be zero.
        have hnil := ih (n / 10) (by omega) hfront
        have hzero : n / 10 = 0 := by
          rw [← Nat.ofDigitChars_ten_toDigits (n := n / 10), hfront, hnil]
          rfl
        omega

theorem dropDigits_of_ends {rest : Bytes} (h : digitNext rest = false) (dropped : Nat) :
    dropDigits dropped rest = (dropped, rest) := by
  cases rest with
  | nil => rfl
  | cons b bs =>
    have hb : isDigit b = false := h
    simp [dropDigits, hb]

/-- A whole number is read back from its digits. -/
theorem scanUnsigned_toDigits (negative : Bool) (n : Nat) {m : Number}
    (hfits : n < 0x10000000000000000) (hsign : negative = true → n ≠ 0 ∧ n ≤ 0x8000000000000000)
    (hm : Number.ofInt? (if negative then -(n : Int) else n) = some m) {rest : Bytes}
    (hrest : EndsNumber rest) :
    scanUnsigned negative (Utf8.encode (Nat.toDigits 10 n) ++ rest) = .ok (m, rest) := by
  have hdigits : ∀ c ∈ Nat.toDigits 10 n, c.isDigit = true := fun c hc =>
    Nat.isDigit_of_mem_toDigits (by decide) (by decide) hc
  have hvalue := Nat.ofDigitChars_ten_toDigits (n := n)
  cases htext : Nat.toDigits 10 n with
  | nil => exact absurd htext Nat.toDigits_ne_nil
  | cons c cs =>
    rw [htext] at hdigits hvalue
    have hc := hdigits c List.mem_cons_self
    have hcs : ∀ d ∈ cs, d.isDigit = true := fun d hd => hdigits d (List.mem_cons_of_mem c hd)
    rw [Nat.ofDigitChars_cons, Nat.mul_zero, Nat.zero_add, ← digitValue_ofNat hc] at hvalue
    have htake := takeDigits_append hcs hrest.1 (digitValue (UInt8.ofNat c.toNat)) 0
      (hvalue.symm ▸ hfits)
    have hlead : ¬(UInt8.ofNat c.toNat = zero ∧ digitNext (Utf8.encode cs ++ rest) = true) := by
      rintro ⟨hzero, hnext⟩
      have hc0 : c = '0' := by
        have hrange := toNat_of_isDigit hc
        have hnat : c.toNat % 2 ^ 8 = 48 := (UInt8.toNat_ofNat').symm.trans (congrArg _ hzero)
        have hcode : c.toNat = '0'.toNat := by
          change c.toNat = 48
          omega
        exact Char.toNat_inj.1 hcode
      subst hc0
      rw [tail_eq_nil_of_toDigits htext, Utf8.encode_nil, List.nil_append, hrest.1] at hnext
      cases hnext
    have hword : ¬(negative = true ∧ (n = 0 ∨ 0x8000000000000000 < n)) := by
      rintro ⟨hnegative, hn⟩
      have := hsign hnegative
      omega
    have hfirst := encode_digits hdigits
    rw [List.map_cons, ← encode_digits hcs] at hfirst
    rw [hfirst]
    simp only [List.cons_append, scanUnsigned]
    rw [if_pos (isDigit_ofNat hc), if_neg hlead, htake]
    simp only [hvalue, dropDigits_of_ends hrest.1, hrest.2]
    rw [if_neg (by simp), if_neg hword]
    cases negative with
    | false => simp only [Bool.false_eq_true, if_false] at hm ⊢; rw [hm]
    | true => simp only [if_true] at hm ⊢; rw [hm]

/-! ## More text behind a number -/

/-- Whether a number that is read off some bytes, the rest left behind, is also read when other
bytes follow that do not continue it. -/
def IsLocal {α : Type} (read : Bytes → Except Stop (α × Bytes)) : Prop :=
  ∀ ⦃bs r : Bytes⦄ ⦃a : α⦄, read bs = .ok (a, r) →
    r <:+ bs ∧ ∀ more, EndsNumber more → read (bs ++ more) = .ok (a, r ++ more)

theorem digitNext_append {r more : Bytes} (h : EndsNumber more) :
    digitNext (r ++ more) = digitNext r := by
  cases r with
  | nil => exact h.1
  | cons b r => rfl

theorem scaledNext_append {r more : Bytes} (h : EndsNumber more) :
    scaledNext (r ++ more) = scaledNext r := by
  cases r with
  | nil => exact h.2
  | cons b r => rfl

theorem takeDigits_local {bs r : Bytes} {n taken n' taken' : Nat}
    (h : takeDigits n taken bs = (n', taken', r)) : r <:+ bs ∧
      ∀ more, EndsNumber more → takeDigits n taken (bs ++ more) = (n', taken', r ++ more) := by
  induction bs generalizing n taken with
  | nil =>
    simp only [takeDigits, Prod.mk.injEq] at h
    obtain ⟨rfl, rfl, rfl⟩ := h
    refine ⟨List.suffix_rfl, fun more hmore => ?_⟩
    cases more with
    | nil => rfl
    | cons b more =>
      have hb : isDigit b = false := hmore.1
      simp [takeDigits, hb]
  | cons b bs ih =>
    simp only [takeDigits, List.cons_append] at h ⊢
    split at h
    next hb =>
      obtain ⟨hsuffix, hmore⟩ := ih h
      refine ⟨hsuffix.trans (List.suffix_cons b bs), fun more hends => ?_⟩
      rw [if_pos hb]
      exact hmore more hends
    next hb =>
      simp only [Prod.mk.injEq] at h
      obtain ⟨rfl, rfl, rfl⟩ := h
      refine ⟨List.suffix_rfl, fun more _ => ?_⟩
      rw [if_neg hb]
      rfl

theorem dropDigits_local {bs r : Bytes} {n n' : Nat} (h : dropDigits n bs = (n', r)) :
    r <:+ bs ∧ ∀ more, EndsNumber more → dropDigits n (bs ++ more) = (n', r ++ more) := by
  induction bs generalizing n with
  | nil =>
    simp only [dropDigits, Prod.mk.injEq] at h
    obtain ⟨rfl, rfl⟩ := h
    exact ⟨List.suffix_rfl, fun more hmore => dropDigits_of_ends hmore.1 n⟩
  | cons b bs ih =>
    simp only [dropDigits, List.cons_append] at h ⊢
    split at h
    next hb =>
      obtain ⟨hsuffix, hmore⟩ := ih h
      refine ⟨hsuffix.trans (List.suffix_cons b bs), fun more hends => ?_⟩
      rw [if_pos hb]
      exact hmore more hends
    next hb =>
      simp only [Prod.mk.injEq] at h
      obtain ⟨rfl, rfl⟩ := h
      refine ⟨List.suffix_rfl, fun more _ => ?_⟩
      rw [if_neg hb]
      rfl

theorem takeExponent_local {bs r : Bytes} {e : Nat} {e' : Option Nat}
    (h : takeExponent e bs = (e', r)) : r <:+ bs ∧
      ∀ more, EndsNumber more → takeExponent e (bs ++ more) = (e', r ++ more) := by
  induction bs generalizing e with
  | nil =>
    simp only [takeExponent, Prod.mk.injEq] at h
    obtain ⟨rfl, rfl⟩ := h
    refine ⟨List.suffix_rfl, fun more hmore => ?_⟩
    cases more with
    | nil => rfl
    | cons b more =>
      have hb : isDigit b = false := hmore.1
      simp [takeExponent, hb]
  | cons b bs ih =>
    simp only [takeExponent, List.cons_append] at h ⊢
    split at h
    next hb =>
      split at h
      next hsmall =>
        obtain ⟨hsuffix, hmore⟩ := ih h
        refine ⟨hsuffix.trans (List.suffix_cons b bs), fun more hends => ?_⟩
        rw [if_pos hb, if_pos hsmall]
        exact hmore more hends
      next hlarge =>
        simp only [Prod.mk.injEq] at h
        obtain ⟨rfl, rfl⟩ := h
        refine ⟨List.suffix_cons b bs, fun more _ => ?_⟩
        rw [if_pos hb, if_neg hlarge]
    next hb =>
      simp only [Prod.mk.injEq] at h
      obtain ⟨rfl, rfl⟩ := h
      refine ⟨List.suffix_rfl, fun more _ => ?_⟩
      rw [if_neg hb]
      rfl

theorem endScaled_local (negative : Bool) (significand : Nat) (exponent : Int) :
    IsLocal (endScaled negative significand exponent) := by
  intro bs r m h
  unfold endScaled at h ⊢
  split at h
  next hm =>
    obtain ⟨rfl, rfl⟩ := Prod.mk.inj (Except.ok.inj h)
    exact ⟨List.suffix_rfl, fun _ _ => rfl⟩
  · cases h

/-- Reads the digits of a power of ten, after its sign. -/
def scanPower (negative : Bool) (significand : Nat) (start : Int) (down : Bool) :
    Bytes → Except Stop (Number × Bytes)
  | [] => stop .endInValue []
  | d :: r =>
    if isDigit d then
      match takeExponent (digitValue d) r with
      | (some e, rest) =>
        let exponent := if down then start - e else start + e
        endScaled negative significand (max (-0x80000000) (min 0x7FFFFFFF exponent)) rest
      | (none, rest) =>
        if significand ≠ 0 ∧ ¬down then stop .numberOutOfRange rest
        else endScaled negative 0 0 (dropDigits 0 rest).2
    else stop .invalidNumber r

theorem scanPower_local (negative : Bool) (significand : Nat) (start : Int) (down : Bool) :
    IsLocal (scanPower negative significand start down) := by
  intro bs r m h
  cases bs with
  | nil => cases h
  | cons d bs =>
    simp only [scanPower, List.cons_append] at h ⊢
    split at h
    next hd =>
      rcases htake : takeExponent (digitValue d) bs with ⟨e, rest⟩
      obtain ⟨hrest, hexponent⟩ := takeExponent_local htake
      rw [htake] at h
      cases e with
      | some e =>
        obtain ⟨hsuffix, hend⟩ := endScaled_local _ _ _ h
        refine ⟨(hsuffix.trans hrest).trans (List.suffix_cons d bs), fun more hmore => ?_⟩
        rw [if_pos hd, hexponent more hmore]
        exact hend more hmore
      | none =>
        dsimp only at h
        split at h
        · cases h
        next hsmall =>
          obtain ⟨hdropped, hdigits⟩ := dropDigits_local (r := (dropDigits 0 rest).2) rfl
          obtain ⟨hsuffix, hend⟩ := endScaled_local _ _ _ h
          refine ⟨((hsuffix.trans hdropped).trans hrest).trans (List.suffix_cons d bs),
            fun more hmore => ?_⟩
          rw [if_pos hd, hexponent more hmore]
          dsimp only
          rw [if_neg hsmall, hdigits more hmore]
          exact hend more hmore
    · cases h

theorem scanExponent_local (negative : Bool) (significand : Nat) (start : Int) :
    IsLocal (scanExponent negative significand start) := by
  intro bs r m h
  have hpower := scanPower_local negative significand start
  cases bs with
  | nil => cases h
  | cons b bs =>
    by_cases hplus : b = plus
    · subst hplus
      obtain ⟨hsuffix, hmore⟩ := hpower false (show scanPower _ _ _ false bs = _ from h)
      exact ⟨hsuffix.trans (List.suffix_cons _ bs), hmore⟩
    · by_cases hminus : b = minus
      · subst hminus
        obtain ⟨hsuffix, hmore⟩ := hpower true (show scanPower _ _ _ true bs = _ from h)
        exact ⟨hsuffix.trans (List.suffix_cons _ bs), hmore⟩
      · have hsign (cs : Bytes) : scanExponent negative significand start (b :: cs) =
            scanPower negative significand start false (b :: cs) := by
          unfold scanExponent
          split
          next heq =>
            split at heq
            next hb => exact absurd (List.cons.inj hb).1 hplus
            next hb => exact absurd (List.cons.inj hb).1 hminus
            · cases heq
              rfl
        rw [hsign] at h
        obtain ⟨hsuffix, hmore⟩ := hpower false h
        exact ⟨hsuffix, fun more hends => (hsign (bs ++ more)).trans (hmore more hends)⟩

theorem scanScaled_local (negative : Bool) (significand : Nat) (exponent : Int) :
    IsLocal (scanScaled negative significand exponent) := by
  intro bs r m h
  have hend := endScaled_local negative significand exponent
  cases bs with
  | nil =>
    obtain ⟨hsuffix, hmore⟩ := hend (show endScaled _ _ _ [] = _ from h)
    refine ⟨hsuffix, fun more hends => ?_⟩
    have hnone : scanScaled negative significand exponent more =
        endScaled negative significand exponent more := by
      cases more with
      | nil => rfl
      | cons b more =>
        have hb : ¬(b = 0x65 ∨ b = 0x45) := by
          have := hends.2
          simp only [scaledNext, decide_eq_false_iff_not] at this
          exact fun he => this (.inr he)
        simp only [scanScaled, if_neg hb]
    exact hnone.trans (hmore more hends)
  | cons b bs =>
    simp only [scanScaled, List.cons_append] at h ⊢
    split at h
    next hb =>
      obtain ⟨hsuffix, hmore⟩ := scanExponent_local _ _ _ h
      refine ⟨hsuffix.trans (List.suffix_cons b bs), fun more hends => ?_⟩
      rw [if_pos hb]
      exact hmore more hends
    next hb =>
      obtain ⟨hsuffix, hmore⟩ := hend h
      refine ⟨hsuffix, fun more hends => ?_⟩
      rw [if_neg hb]
      exact hmore more hends

theorem scanFraction_local (negative : Bool) (significand : Nat) (exponent : Int) :
    IsLocal (scanFraction negative significand exponent) := by
  intro bs r m h
  rcases htake : takeDigits significand 0 bs with ⟨n, taken, rest⟩
  obtain ⟨hrest, hdigits⟩ := takeDigits_local htake
  simp only [scanFraction, htake] at h ⊢
  split at h
  next hnext =>
    obtain ⟨hdropped, hdrop⟩ := dropDigits_local (r := (dropDigits 0 rest).2) rfl
    obtain ⟨hsuffix, hmore⟩ := scanScaled_local _ _ _ h
    refine ⟨(hsuffix.trans hdropped).trans hrest, fun more hends => ?_⟩
    rw [hdigits more hends]
    dsimp only
    rw [digitNext_append hends, if_pos hnext, hdrop more hends]
    exact hmore more hends
  next hnext =>
    split at h
    · split at h <;> cases h
    next htaken =>
      obtain ⟨hsuffix, hmore⟩ := scanScaled_local _ _ _ h
      refine ⟨hsuffix.trans hrest, fun more hends => ?_⟩
      rw [hdigits more hends]
      dsimp only
      rw [digitNext_append hends, if_neg hnext, if_neg htaken]
      exact hmore more hends

theorem scanAfterWhole_local (negative : Bool) (significand dropped : Nat) :
    IsLocal (scanAfterWhole negative significand dropped) := by
  intro bs r m h
  cases bs with
  | nil =>
    obtain ⟨hsuffix, hmore⟩ := scanScaled_local _ _ _ (show scanScaled _ _ _ [] = _ from h)
    refine ⟨hsuffix, fun more hends => ?_⟩
    have hnone : scanAfterWhole negative significand dropped more =
        scanScaled negative significand dropped more := by
      cases more with
      | nil => rfl
      | cons b more =>
        have hb : b ≠ point := by
          have := hends.2
          simp only [scaledNext, decide_eq_false_iff_not] at this
          exact fun he => this (.inl he)
        simp only [scanAfterWhole, if_neg hb]
    exact hnone.trans (hmore more hends)
  | cons b bs =>
    simp only [scanAfterWhole, List.cons_append] at h ⊢
    split at h
    next hb =>
      obtain ⟨hsuffix, hmore⟩ := scanFraction_local _ _ _ h
      refine ⟨hsuffix.trans (List.suffix_cons b bs), fun more hends => ?_⟩
      rw [if_pos hb]
      exact hmore more hends
    next hb =>
      obtain ⟨hsuffix, hmore⟩ := scanScaled_local _ _ _ h
      refine ⟨hsuffix, fun more hends => ?_⟩
      rw [if_neg hb]
      exact hmore more hends

/-- What is read after the digits before the point: the rest of a scaled number, or nothing. -/
def scanAfterDigits (negative : Bool) (n dropped : Nat) (after : Bytes) :
    Except Stop (Number × Bytes) :=
  if dropped ≠ 0 ∨ scaledNext after then scanAfterWhole negative n dropped after
  else
    match
      if negative ∧ (n = 0 ∨ 0x8000000000000000 < n) then none
      else Number.ofInt? (if negative then -(n : Int) else n) with
    | some m => .ok (m, after)
    | none => endScaled negative n 0 after

theorem scanUnsigned_cons {negative : Bool} {d : UInt8} {bs rest after : Bytes}
    {n taken dropped : Nat} (htake : takeDigits (digitValue d) 0 bs = (n, taken, rest))
    (hdrop : dropDigits 0 rest = (dropped, after)) :
    scanUnsigned negative (d :: bs) =
      if isDigit d then
        if d = zero ∧ digitNext bs then stop .invalidNumber (bs.drop 1)
        else scanAfterDigits negative n dropped after
      else stop .invalidNumber bs := by
  simp only [scanUnsigned, htake, hdrop]
  rfl

theorem scanAfterDigits_local (negative : Bool) (n dropped : Nat) :
    IsLocal (scanAfterDigits negative n dropped) := by
  intro bs r m h
  unfold scanAfterDigits at h ⊢
  split at h
  next hscaled =>
    obtain ⟨hsuffix, hmore⟩ := scanAfterWhole_local _ _ _ h
    refine ⟨hsuffix, fun more hends => ?_⟩
    rw [scaledNext_append hends, if_pos hscaled]
    exact hmore more hends
  next hscaled =>
    split at h
    next m' hword =>
      obtain ⟨rfl, rfl⟩ := Prod.mk.inj (Except.ok.inj h)
      refine ⟨List.suffix_refl bs, fun more hends => ?_⟩
      rw [scaledNext_append hends, if_neg hscaled]
    next hword =>
      obtain ⟨hsuffix, hmore⟩ := endScaled_local _ _ _ h
      refine ⟨hsuffix, fun more hends => ?_⟩
      rw [scaledNext_append hends, if_neg hscaled]
      exact hmore more hends

theorem scanUnsigned_local (negative : Bool) : IsLocal (scanUnsigned negative) := by
  intro bs r m h
  cases bs with
  | nil => cases h
  | cons d bs =>
    rcases htake : takeDigits (digitValue d) 0 bs with ⟨n, taken, rest⟩
    rcases hdrop : dropDigits 0 rest with ⟨dropped, after⟩
    obtain ⟨hrest, hdigits⟩ := takeDigits_local htake
    obtain ⟨hafter, hdropped⟩ := dropDigits_local hdrop
    have hbelow := (hafter.trans hrest).trans (List.suffix_cons d bs)
    rw [scanUnsigned_cons htake hdrop] at h
    split at h
    next hd =>
      split at h
      · cases h
      next hlead =>
        obtain ⟨hsuffix, hmore⟩ := scanAfterDigits_local _ _ _ h
        refine ⟨hsuffix.trans hbelow, fun more hends => ?_⟩
        rw [List.cons_append, scanUnsigned_cons (hdigits more hends) (hdropped more hends),
          if_pos hd, digitNext_append hends, if_neg hlead]
        exact hmore more hends
    · cases h

/-! ## Numbers -/

/-- Whether a number is the one that its text denotes. -/
def Number.ReadsBack : Number → Prop
  | .int _ _ => True
  | .double x h => parse (Utf8.encode (renderFloat x)) = .ok (number (.double x h))

/-- Whether a character may stand in a number. -/
def isNumeral (c : Char) : Bool :=
  c.isDigit || c == '.' || c == '-' || c == '+' || c == 'e'

theorem isNumeral_of_isDigit {c : Char} (h : c.isDigit = true) : isNumeral c = true := by
  simp [isNumeral, h]

theorem isNumeral_of_mem_toDigits {c : Char} {n : Nat} (h : c ∈ Nat.toDigits 10 n) :
    isNumeral c = true :=
  isNumeral_of_isDigit (Nat.isDigit_of_mem_toDigits (by decide) (by decide) h)

theorem isNumeral_of_mem_positional {d : Decimal} {c : Char} (h : c ∈ d.positional pointZero) :
    isNumeral c = true := by
  simp only [Decimal.positional] at h
  split at h
  · rcases List.mem_append.1 h with h | h
    · rcases List.mem_append.1 (List.mem_of_mem_take h) with h | h
      · exact isNumeral_of_mem_toDigits h
      · obtain rfl := (List.mem_replicate.1 h).2
        rfl
    · split at h
      · simp only [pointZero, List.mem_cons, List.not_mem_nil, or_false] at h
        rcases h with rfl | rfl <;> rfl
      · rcases List.mem_cons.1 h with rfl | h
        · rfl
        · rcases List.mem_append.1 (List.mem_of_mem_drop h) with h | h
          · exact isNumeral_of_mem_toDigits h
          · obtain rfl := (List.mem_replicate.1 h).2
            rfl
  · simp only [List.mem_append, List.mem_cons, List.not_mem_nil, or_false, List.mem_replicate] at h
    rcases h with ((rfl | rfl) | ⟨-, rfl⟩) | h
    · rfl
    · rfl
    · rfl
    · exact isNumeral_of_mem_toDigits h

theorem isNumeral_of_mem_scientific {d : Decimal} {c : Char} (h : c ∈ d.scientific) :
    isNumeral c = true := by
  simp only [Decimal.scientific, List.mem_append, List.mem_cons] at h
  rcases h with (h | h) | rfl | h | h
  · exact isNumeral_of_mem_toDigits (List.mem_of_mem_take h)
  · split at h
    · simp at h
    · rcases List.mem_cons.1 h with rfl | h
      · rfl
      · exact isNumeral_of_mem_toDigits (List.mem_of_mem_drop h)
  · rfl
  · split at h <;> subst h <;> rfl
  · exact isNumeral_of_mem_toDigits h

theorem isNumeral_of_mem_renderFloat {x : Float} {c : Char} (h : c ∈ renderFloat x) :
    isNumeral c = true := by
  have hmagnitude {y : Float} (h : c ∈ renderMagnitude y) : isNumeral c = true := by
    unfold renderMagnitude at h
    split at h
    · simp only [pointZero, List.mem_cons, List.not_mem_nil, or_false] at h
      rcases h with rfl | rfl | rfl <;> rfl
    · dsimp only at h
      split at h
      · exact isNumeral_of_mem_positional h
      · exact isNumeral_of_mem_scientific h
  unfold renderFloat at h
  split at h
  · rcases List.mem_cons.1 h with rfl | h
    · rfl
    · exact hmagnitude h
  · exact hmagnitude h

theorem toNat_of_isNumeral {c : Char} (h : isNumeral c = true) : 43 ≤ c.toNat ∧ c.toNat < 128 := by
  simp only [isNumeral, Bool.or_eq_true, beq_iff_eq] at h
  rcases h with (((h | rfl) | rfl) | rfl) | rfl
  · have := toNat_of_isDigit h
    omega
  all_goals decide

theorem toNat_of_isBlankByte {b : UInt8} (h : isBlankByte b = true) : b.toNat ≤ 32 := by
  simp only [isBlankByte, Bool.or_eq_true, beq_iff_eq] at h
  rcases h with ((rfl | rfl) | rfl) | rfl <;> decide

/-- There are no blanks in the text of a double. -/
theorem not_blank_of_mem_renderFloat {x : Float} {b : UInt8}
    (h : b ∈ Utf8.encode (renderFloat x)) : isBlankByte b = false := by
  have hrange {c : Char} (hc : c ∈ renderFloat x) :=
    toNat_of_isNumeral (isNumeral_of_mem_renderFloat hc)
  rw [Utf8.encode_of_lt fun c hc => (hrange hc).2] at h
  obtain ⟨c, hc, rfl⟩ := List.mem_map.1 h
  obtain ⟨hlow, hhigh⟩ := hrange hc
  have hbyte : (UInt8.ofNat c.toNat).toNat = c.toNat := by
    rw [UInt8.toNat_ofNat']
    omega
  refine Bool.eq_false_iff.2 fun hblank => ?_
  have := toNat_of_isBlankByte hblank
  omega

theorem skipBlank_cons {b : UInt8} (h : isBlankByte b = false) (bs : Bytes) :
    skipBlank (b :: bs) = b :: bs := by
  simp [skipBlank, h]

theorem skipBlank_skipBlank (bs : Bytes) : skipBlank (skipBlank bs) = skipBlank bs := by
  simp [skipBlank, List.dropWhile_idempotent]

theorem isBlankByte_of_le {b : UInt8} (h : 33 ≤ b.toNat) : isBlankByte b = false := by
  refine Bool.eq_false_iff.2 fun hblank => ?_
  have := toNat_of_isBlankByte hblank
  omega

theorem toNat_of_isDigitByte {b : UInt8} (h : isDigit b = true) :
    48 ≤ b.toNat ∧ b.toNat ≤ 57 := by
  simpa [isDigit, UInt8.le_iff_toNat_le] using h

theorem scanValue_minus (fuel depth : Nat) (bs : Bytes) :
    scanValue (fuel + 1) depth (minus :: bs) =
      (scanUnsigned true bs).map fun p => (number p.1, p.2) := by
  rw [scanValue, skipBlank_cons (by decide)]
  rfl

theorem scanValue_of_isDigit {b : UInt8} (h : isDigit b = true) (fuel depth : Nat) (bs : Bytes) :
    scanValue (fuel + 1) depth (b :: bs) =
      (scanUnsigned false (b :: bs)).map fun p => (number p.1, p.2) := by
  have hrange := toNat_of_isDigitByte h
  have hne {n : UInt8} (hn : 57 < n.toNat ∨ n.toNat < 48) : b ≠ n := by
    rintro rfl
    omega
  rw [scanValue, skipBlank_cons (isBlankByte_of_le (by omega))]
  dsimp only
  rw [if_neg (hne (.inl (by decide))), if_neg (hne (.inl (by decide))),
    if_neg (hne (.inl (by decide))), if_neg (hne (.inr (by decide))), if_pos h]

theorem exists_of_map {α : Type} {x : Except Stop (α × Bytes)} {f : α → Json} {v : Json}
    {r : Bytes} (h : x.map (fun p => (f p.1, p.2)) = .ok (v, r)) :
    ∃ a, x = .ok (a, r) ∧ f a = v := by
  cases x with
  | error e => cases h
  | ok p =>
    obtain ⟨a, r'⟩ := p
    obtain ⟨rfl, rfl⟩ := Prod.mk.inj (Except.ok.inj h)
    exact ⟨a, rfl, rfl⟩

/-- Only a sign or a digit begins a number. -/
theorem scanUnsigned_of_scanValue {fuel depth : Nat} {b : UInt8} {bs r : Bytes} {m : Number}
    (hblank : isBlankByte b = false) (h : scanValue fuel depth (b :: bs) = .ok (number m, r)) :
    (b = minus ∧ scanUnsigned true bs = .ok (m, r)) ∨
      (isDigit b = true ∧ scanUnsigned false (b :: bs) = .ok (m, r)) := by
  have hnumber {x : Except Stop (Number × Bytes)}
      (hx : x.map (fun p => (number p.1, p.2)) = .ok (number m, r)) : x = .ok (m, r) := by
    obtain ⟨m', rfl, heq⟩ := exists_of_map hx
    rw [Json.number.inj heq]
  cases fuel with
  | zero => cases h
  | succ fuel =>
    rw [scanValue, skipBlank_cons hblank] at h
    dsimp only at h
    split at h
    · obtain ⟨_, -, ha⟩ := exists_of_map (f := fun _ => null) h
      cases ha
    split at h
    · obtain ⟨_, -, ha⟩ := exists_of_map (f := fun _ => bool true) h
      cases ha
    split at h
    · obtain ⟨_, -, ha⟩ := exists_of_map (f := fun _ => bool false) h
      cases ha
    split at h
    next hb => exact .inl ⟨hb, hnumber h⟩
    split at h
    next hb => exact .inr ⟨hb, hnumber h⟩
    split at h
    · obtain ⟨_, -, ha⟩ := exists_of_map h
      cases ha
    split at h
    · split at h
      · cases h
      · obtain ⟨_, -, ha⟩ := exists_of_map h
        cases ha
    split at h
    · split at h
      · cases h
      · obtain ⟨_, -, ha⟩ := exists_of_map (f := mk) h
        cases ha
    · cases h

/-- A text that is parsed is scanned with only blanks behind. -/
theorem scan_of_parse {text : Bytes} {v : Json} (h : parse text = .ok v) :
    ∃ r, scanValue (2 * text.length + 2) depthLimit text = .ok (v, r) ∧ skipBlank r = [] := by
  unfold parse scan at h
  cases hscan : scanValue (2 * text.length + 2) depthLimit text with
  | error e =>
    rw [hscan] at h
    cases h
  | ok p =>
    obtain ⟨v', r⟩ := p
    rw [hscan] at h
    change (scanEnd (v', r)).mapError _ = _ at h
    unfold scanEnd at h
    split at h
    next hr =>
      obtain rfl := Except.ok.inj h
      exact ⟨r, rfl, hr⟩
    · cases h

theorem eq_nil_of_skipBlank {bs : Bytes} (hblank : ∀ b ∈ bs, isBlankByte b = false)
    (h : skipBlank bs = []) : bs = [] := by
  cases bs with
  | nil => rfl
  | cons b bs =>
    rw [skipBlank_cons (hblank b List.mem_cons_self)] at h
    cases h

theorem map_scanUnsigned {negative : Bool} {bs r : Bytes} {m : Number}
    (h : scanUnsigned negative bs = .ok (m, r)) :
    (scanUnsigned negative bs).map (fun p => (number p.1, p.2)) = .ok (number m, r) := by
  rw [h]
  rfl

/-- A number whose text reads back does so in front of what does not continue it. -/
theorem scanValue_number {n : Number} (h : n.ReadsBack) {rest : Bytes} (hrest : EndsNumber rest)
    (fuel depth : Nat) :
    scanValue (fuel + 1) depth (Utf8.encode n.render ++ rest) = .ok (number n, rest) := by
  cases n with
  | int n hfits =>
    obtain ⟨hlow, hhigh⟩ := hfits
    have hofInt {k : Int} (hk : k = n) : Number.ofInt? k = some (.int n ⟨hlow, hhigh⟩) := by
      subst hk
      exact dif_pos _
    by_cases hn : n < 0
    · have hscan := scanUnsigned_toDigits true n.natAbs (by omega) (by omega)
        (hofInt (by rw [if_pos rfl]; omega)) hrest
      have hminus : String.utf8EncodeChar '-' = [minus] := by decide
      simp only [Number.render, renderInt, hn, if_true, Utf8.encode_cons, hminus,
        List.cons_append, List.nil_append]
      rw [scanValue_minus, map_scanUnsigned hscan]
    · have hscan := scanUnsigned_toDigits false n.natAbs (by omega) (by simp)
        (hofInt (by simpa using Int.natAbs_of_nonneg (by omega))) hrest
      simp only [Number.render, renderInt, hn, if_false]
      have hdigits : ∀ c ∈ Nat.toDigits 10 n.natAbs, c.isDigit = true := fun c hc =>
        Nat.isDigit_of_mem_toDigits (by decide) (by decide) hc
      have hne : Nat.toDigits 10 n.natAbs ≠ [] := Nat.toDigits_ne_nil
      rw [encode_digits hdigits] at hscan ⊢
      generalize Nat.toDigits 10 n.natAbs = cs at hscan hdigits hne
      cases cs with
      | nil => exact absurd rfl hne
      | cons c cs =>
        rw [List.map_cons, List.cons_append] at hscan ⊢
        rw [scanValue_of_isDigit (isDigit_ofNat (hdigits c List.mem_cons_self)),
          map_scanUnsigned hscan]
  | double x hfinite =>
    obtain ⟨r, hscan, hr⟩ := scan_of_parse h
    have hblank (b : UInt8) (hb : b ∈ Utf8.encode (renderFloat x)) : isBlankByte b = false :=
      not_blank_of_mem_renderFloat hb
    simp only [Number.render]
    generalize Utf8.encode (renderFloat x) = text at hscan hblank
    cases text with
    | nil => cases hscan
    | cons b bs =>
      have hnil {bs' : Bytes} (hsuffix : r <:+ bs') (hbs' : ∀ b ∈ bs', isBlankByte b = false) :
          r = [] :=
        eq_nil_of_skipBlank (fun b hb => hbs' b (hsuffix.subset hb)) hr
      rcases scanUnsigned_of_scanValue (hblank b List.mem_cons_self) hscan with
        ⟨rfl, hunsigned⟩ | ⟨hb, hunsigned⟩
      · obtain ⟨hsuffix, hmore⟩ := scanUnsigned_local true hunsigned
        obtain rfl := hnil hsuffix fun b hb => hblank b (List.mem_cons_of_mem _ hb)
        rw [List.cons_append, scanValue_minus, map_scanUnsigned (hmore rest hrest)]
        rfl
      · obtain ⟨hsuffix, hmore⟩ := scanUnsigned_local false hunsigned
        obtain rfl := hnil hsuffix hblank
        rw [List.cons_append, scanValue_of_isDigit hb, ← List.cons_append,
          map_scanUnsigned (hmore rest hrest)]
        rfl

end DebugAdapter.Json
