import DebugAdapter.Proofs.Script.Pieces
import DebugAdapter.Variables.Display
import DebugAdapter.Variables.Path
/-!
# Shown values typed back

A value is shown by a short text, and what a user types for a value is read as JSON, or else as a
string. The two agree on what is no string (`parseUserValue_render`), but a string is shown between
quotes as it is, with nothing escaped. So a scalar that is typed back as it is shown stays the same
just if it has no quote, no backslash and no control in it (`parseUserValue_formatValue_iff`): any
other string is no JSON as it is shown, or JSON for a shorter string (`scanStringBytes_taken`).
-/

namespace DebugAdapter

open Ascii

namespace Json

/-! ## Escapes are longer than what they stand for -/

/-- The steps of a reader that succeeds. -/
theorem exists_of_bind {α β : Type} {x : Except Stop α} {f : α → Except Stop β} {b : β}
    (h : x >>= f = .ok b) : ∃ a, x = .ok a ∧ f a = .ok b := by
  cases x with
  | error e => cases h
  | ok a => exact ⟨a, rfl, h⟩

theorem exists_of_scanFourHex {bs : Bytes} {p : Nat × Bytes} (h : scanFourHex bs = .ok p) :
    ∃ digits, bs = digits ++ p.2 ∧ digits.length = 4 := by
  unfold scanFourHex at h
  split at h
  next a b c d bs =>
    split at h
    · cases h
      exact ⟨[a, b, c, d], rfl, rfl⟩
    · cases h
  · cases h

theorem eq_cons_of_takeForPair {b : UInt8} {bs : Bytes} {p : Unit × Bytes}
    (h : takeForPair b bs = .ok p) : bs = b :: p.2 := by
  unfold takeForPair at h
  split at h
  · cases h
  · split at h
    next hb =>
      cases h
      rw [hb]
    · cases h

theorem length_codePointBytes_le (n : Nat) : (codePointBytes n).length ≤ 4 := by
  rw [codePointBytes, String.length_utf8EncodeChar]
  exact Char.utf8Size_le_four _

theorem exists_of_scanNumericEscape {bs : Bytes} {p : Bytes × Bytes}
    (h : scanNumericEscape bs = .ok p) :
    ∃ taken, bs = taken ++ p.2 ∧ p.1.length ≤ taken.length := by
  obtain ⟨⟨n, r⟩, hfour, hrest⟩ := exists_of_bind h
  obtain ⟨digits, hdigits, hfour⟩ := exists_of_scanFourHex hfour
  have hsize (k : Nat) (more : Bytes) : (codePointBytes k).length ≤ (digits ++ more).length := by
    rw [List.length_append]
    have := length_codePointBytes_le k
    omega
  dsimp only at hdigits hrest
  split at hrest
  · cases hrest
  · split at hrest
    · -- A pair of surrogates takes two numbers and stands for one character.
      obtain ⟨⟨⟨⟩, r'⟩, hfirst, hrest⟩ := exists_of_bind hrest
      obtain ⟨⟨⟨⟩, r''⟩, hsecond, hrest⟩ := exists_of_bind hrest
      obtain ⟨⟨m, r'''⟩, hfour', hrest⟩ := exists_of_bind hrest
      obtain ⟨digits', hdigits', -⟩ := exists_of_scanFourHex hfour'
      have hbackslash := eq_cons_of_takeForPair hfirst
      have hletter := eq_cons_of_takeForPair hsecond
      dsimp only at hdigits' hbackslash hletter hrest
      split at hrest
      · rw [← Except.ok.inj hrest]
        refine ⟨digits ++ backslash :: 0x75 :: digits', ?_, ?_⟩
        · rw [hdigits, hbackslash, hletter, hdigits']
          simp
        · dsimp only
          exact hsize _ _
      · cases hrest
    · cases hrest
      exact ⟨digits, hdigits, by simpa using hsize n []⟩

/-- Behind its backslash, an escape takes as many bytes as it stands for, or more. -/
theorem exists_of_scanEscape {bs : Bytes} {p : Bytes × Bytes} (h : scanEscape bs = .ok p) :
    ∃ taken, bs = taken ++ p.2 ∧ p.1.length ≤ taken.length := by
  cases bs with
  | nil => cases h
  | cons b bs =>
    have of_letter {c : UInt8} (h : (.ok ([c], bs) : Except Stop (Bytes × Bytes)) = .ok p) :
        ∃ taken, b :: bs = taken ++ p.2 ∧ p.1.length ≤ taken.length := by
      cases h
      exact ⟨[b], rfl, Nat.le_refl _⟩
    rw [scanEscape] at h
    split at h
    · exact of_letter h
    split at h
    · exact of_letter h
    split at h
    · exact of_letter h
    split at h
    · exact of_letter h
    split at h
    · exact of_letter h
    split at h
    · exact of_letter h
    split at h
    · obtain ⟨taken, rfl, hlength⟩ := exists_of_scanNumericEscape h
      exact ⟨b :: taken, rfl, Nat.le_succ_of_le hlength⟩
    · cases h

/-! ## Strings that are read as they stand -/

/-- Whether a byte stands for itself in a string. -/
def IsPlainByte (b : UInt8) : Prop :=
  b ≠ quote ∧ b ≠ backslash ∧ ¬b < 0x20

/-- What is read of a string is what stands before its closing quote, or shorter. -/
theorem scanStringBytes_taken {fuel : Nat} {held bs : Bytes} {p : Bytes × Bytes}
    (h : scanStringBytes fuel held bs = .ok p) :
    ∃ taken, bs = taken ++ quote :: p.2 ∧
      (p.1 = held.reverse ++ taken ∧ (∀ b ∈ taken, IsPlainByte b) ∨
        p.1.length < held.length + taken.length) := by
  induction fuel generalizing held bs with
  | zero => cases h
  | succ fuel ih =>
    cases bs with
    | nil => cases h
    | cons b bs =>
      rw [scanStringBytes] at h
      split at h
      next hquote =>
        cases h
        exact ⟨[], by rw [hquote]; rfl, .inl ⟨(List.append_nil _).symm, by simp⟩⟩
      split at h
      next hbackslash =>
        obtain ⟨⟨escaped, r⟩, hescape, hrest⟩ := exists_of_bind h
        obtain ⟨front, hbs, hfront⟩ := exists_of_scanEscape hescape
        obtain ⟨taken, hr, hread⟩ := ih hrest
        dsimp only at hbs hfront
        refine ⟨b :: (front ++ taken), by simp [hbs, hr], .inr ?_⟩
        rcases hread with ⟨hp, -⟩ | hshorter
        · rw [hp]
          simp
          omega
        · simp only [List.length_append, List.length_reverse, List.length_cons] at hshorter ⊢
          omega
      split at h
      · cases h
      next hquote hbackslash hcontrol =>
        obtain ⟨taken, rfl, hread⟩ := ih h
        refine ⟨b :: taken, rfl, ?_⟩
        rcases hread with ⟨hp, hplain⟩ | hshorter
        · have hbyte := List.forall_mem_cons.2 ⟨⟨hquote, hbackslash, hcontrol⟩, hplain⟩
          exact .inl ⟨by simp [hp], hbyte⟩
        · simp only [List.length_cons] at hshorter ⊢
          exact .inr (by omega)

/-- A string that is read as the bytes between its quotes has only plain ones. -/
theorem isPlainByte_of_scanString {s : String} {rest : Bytes}
    (h : scanString (Utf8.ofString s ++ [quote]) = .ok (s, rest)) :
    ∀ b ∈ Utf8.ofString s, IsPlainByte b := by
  obtain ⟨⟨content, r⟩, hscan, h⟩ := exists_of_bind h
  obtain ⟨taken, htaken, hread⟩ := scanStringBytes_taken hscan
  have hcontent : content = Utf8.ofString s := by
    dsimp only at h
    cases hs : Utf8.toString? content with
    | none =>
      rw [hs] at h
      cases h
    | some s' =>
      rw [hs] at h
      obtain ⟨rfl, -⟩ := Prod.mk.inj (Except.ok.inj h)
      obtain ⟨cs, hcs, rfl⟩ := Option.map_eq_some_iff.1 hs
      rw [Utf8.ofString, String.toList_ofList, Utf8.encode_of_decode? hcs]
  have hlength := congrArg List.length htaken
  simp only [List.length_append, List.length_cons, List.length_nil] at hlength
  subst hcontent
  rcases hread with ⟨heq, hplain⟩ | hshorter
  · rw [show Utf8.ofString s = taken from heq]
    exact hplain
  · simp only [List.length_nil] at hshorter
    omega

end Json

/-! ## Values -/

/-- Whether a character is shown as JSON writes it. -/
def IsPlainChar (c : Char) : Prop :=
  c ≠ '"' ∧ c ≠ '\\' ∧ 0x20 ≤ c.toNat

theorem isPlainChar_of_isPlainByte {c : Char}
    (h : ∀ b ∈ String.utf8EncodeChar c, Json.IsPlainByte b) : IsPlainChar c := by
  refine ⟨?_, ?_, Nat.le_of_not_lt fun hlt => ?_⟩
  · rintro rfl
    exact (h quote (by decide)).1 rfl
  · rintro rfl
    exact (h backslash (by decide)).2.1 rfl
  · rw [Utf8.utf8EncodeChar_of_lt (by omega)] at h
    refine (h _ List.mem_cons_self).2.2 ?_
    rw [UInt8.lt_iff_toNat_lt, UInt8.toNat_ofNat']
    change c.toNat % 256 < 32
    omega

theorem escape_of_isPlainChar {c : Char} (h : IsPlainChar c) : Json.escape c = [c] := by
  obtain ⟨hquote, hbackslash, hcontrol⟩ := h
  have hne {d : Char} (hd : d.toNat < 0x20) : c ≠ d := by
    rintro rfl
    omega
  rw [Json.escape, if_neg hquote, if_neg hbackslash, if_neg (hne (by decide)),
    if_neg (hne (by decide)), if_neg (hne (by decide)), if_neg (hne (by decide)),
    if_neg (hne (by decide)), if_neg (by omega)]

/-- Whether a value is no list and no object. -/
def Json.IsScalar : Json → Prop
  | .array _ | .object _ => False
  | _ => True

/-- A value typed as its compact text is read as that value. -/
theorem parseUserValue_render {v : Json} (h : v.Restorable 127) : parseUserValue v.render = v := by
  have htrim : Text.trim v.render = v.render := by
    rw [Text.trim, Json.render, String.toList_ofList, (Script.whole_renderChars v).trimChars_eq]
  have hbody : Utf8.ofString v.render = v.body := by
    rw [Utf8.ofString, Json.render, String.toList_ofList, Json.body]
  rw [parseUserValue, htrim, Json.ofText?, hbody, Json.parse_body h]
  rfl

theorem toList_formatValue_string (s : String) :
    (formatValue (.string s)).toList = '"' :: (s.toList ++ ['"']) := by
  rw [formatValue, String.toList_append, String.toList_append]
  rfl

theorem formatValue_string_of_isPlainChar {s : String} (h : ∀ c ∈ s.toList, IsPlainChar c) :
    formatValue (.string s) = (Json.string s).render := by
  have hescape : s.toList.flatMap Json.escape = s.toList := by
    rw [List.flatMap_congr fun c hc => escape_of_isPlainChar (h c hc), List.flatMap_singleton']
  rw [← String.toList_inj, toList_formatValue_string, Json.render, String.toList_ofList,
    Json.renderChars, Json.renderString, hescape]

/-- A string that is read back from between two quotes has only plain characters. -/
theorem isPlainChar_of_parseUserValue {s : String}
    (h : parseUserValue (formatValue (.string s)) = .string s) : ∀ c ∈ s.toList, IsPlainChar c := by
  have hquote : Text.isBlank '"' = false := by decide
  have htrim : Text.trim (formatValue (.string s)) = formatValue (.string s) := by
    rw [Text.trim, Text.trimChars_eq_self, String.ofList_toList]
    · simp [toList_formatValue_string, hquote]
    · rw [toList_formatValue_string, ← List.cons_append, List.getLast?_concat]
      simp [hquote]
  rw [parseUserValue, htrim, Json.ofText?] at h
  cases hparse : Json.parse (Utf8.ofString (formatValue (.string s))) with
  | error e =>
    -- What is no JSON is taken with its quotes, which are two characters more.
    rw [hparse] at h
    have hlength := congrArg (fun t => t.toList.length) (Json.string.inj h)
    simp only [toList_formatValue_string, List.length_cons, List.length_append,
      List.length_nil] at hlength
    omega
  | ok v =>
    rw [hparse] at h
    obtain rfl : v = .string s := h
    obtain ⟨r, hscan, -⟩ := Json.scan_of_parse hparse
    have hbytes : Utf8.ofString (formatValue (.string s)) =
        quote :: (Utf8.ofString s ++ [quote]) := by
      have hencode : String.utf8EncodeChar '"' = [quote] := by decide
      simp [Utf8.ofString, toList_formatValue_string, hencode]
    rw [hbytes, Json.scanValue_quote] at hscan
    obtain ⟨s', hstring, heq⟩ := Json.exists_of_map hscan
    obtain rfl := Json.string.inj heq
    intro c hc
    exact isPlainChar_of_isPlainByte fun b hb => Json.isPlainByte_of_scanString hstring b
      (List.mem_flatMap.2 ⟨c, hc, hb⟩)

/-- A scalar that is typed back as it is shown is read as itself exactly if it is no string or a
string without quotes, backslashes and controls. Of numbers it is assumed that their JSON text
reads back. -/
theorem parseUserValue_formatValue_iff {v : Json} (hscalar : v.IsScalar)
    (hnumber : ∀ n, v = .number n → n.ReadsBack) :
    parseUserValue (formatValue v) = v ↔ ∀ s, v = .string s → ∀ c ∈ s.toList, IsPlainChar c := by
  cases v with
  | null =>
    refine iff_of_true ?_ fun s hs => Json.noConfusion hs
    have htext : formatValue .null = Json.null.render := by
      rw [formatValue, Json.render, Json.renderChars]
      rfl
    rw [htext, parseUserValue_render .null]
  | bool b =>
    refine iff_of_true ?_ fun s hs => Json.noConfusion hs
    have htext : formatValue (.bool b) = (Json.bool b).render := by
      rw [formatValue, Json.render, Json.renderChars]
      cases b <;> rfl
    rw [htext, parseUserValue_render (.bool b)]
  | number n =>
    refine iff_of_true ?_ fun s hs => Json.noConfusion hs
    have htext : formatValue (.number n) = (Json.number n).render := by
      rw [formatValue, Json.render, Json.renderChars]
    rw [htext, parseUserValue_render (.number (hnumber n rfl))]
  | string s =>
    refine ⟨fun h s' hs' => ?_, fun h => ?_⟩
    · obtain rfl := Json.string.inj hs'
      exact isPlainChar_of_parseUserValue h
    · rw [formatValue_string_of_isPlainChar (h s rfl), parseUserValue_render (.string s)]
  | array items => exact hscalar.elim
  | object entries => exact hscalar.elim

/-- A text without quotes, backslashes and controls. -/
def twoWords : String :=
  "naïve 字"

theorem parseUserValue_formatValue_iff_twoWords :
    parseUserValue (formatValue (.string twoWords)) = .string twoWords := by
  refine (parseUserValue_formatValue_iff (v := .string twoWords) trivial
    fun _ h => Json.noConfusion h).2 fun s hs => ?_
  obtain rfl := Json.string.inj hs
  simp [twoWords, IsPlainChar]

/-- A path with a backslash in it is read as a text with a line feed when it is typed back as it is
shown. -/
theorem parseUserValue_formatValue_path :
    (parseUserValue (formatValue (.string "C:\\new"))).text? = some "C:\new" ∧
      parseUserValue (formatValue (.string "C:\\new")) ≠ .string "C:\\new" := by
  have hread : (parseUserValue (formatValue (.string "C:\\new"))).text? = some "C:\new" := by
    decide +kernel
  refine ⟨hread, fun hsame => ?_⟩
  rw [hsame] at hread
  exact absurd (Option.some.inj hread) (by decide)

end DebugAdapter
