import DebugAdapter.Proofs.Json.RoundTrip
import DebugAdapter.Proofs.Text.Cut
import DebugAdapter.Script.Parser
/-!
# Pieces of an expression

An expression is cut at its plus signs by a `Cursor` that moves over its characters, and
`Cursor.cross?` moves it over a text that no plus sign cuts. A text is `Whole` if it is not cut
wherever it stands outside of strings, and leaves the cursor in as many brackets as before. Compact
texts of values are whole (`whole_renderChars`), and so is what has no blanks, quotes, brackets and
no plus sign in front (`whole_of_plain`). A chain of whole texts is cut into just these texts
(`trim_pieces`).
-/

namespace DebugAdapter.Script

/-! ## Crossing a text -/

/-- The place behind `cs`, unless a plus sign cuts on the way. -/
def Cursor.cross? : Cursor → List Char → Option Cursor
  | k, [] => some k
  | k, c :: cs => if k.cuts c then none else (k.next c).cross? cs

/-- A place outside of strings. -/
def Cursor.outside (depth : Int) (afterBlank : Bool) : Cursor :=
  ⟨false, false, depth, afterBlank⟩

/-- A place in a string, not behind a backslash. -/
def Cursor.inside (depth : Int) (afterBlank : Bool) : Cursor :=
  ⟨true, false, depth, afterBlank⟩

theorem cross?_append (k : Cursor) (cs ds : List Char) :
    k.cross? (cs ++ ds) = (k.cross? cs).bind fun k' => k'.cross? ds := by
  induction cs generalizing k with
  | nil => rfl
  | cons c cs ih =>
    simp only [List.cons_append, Cursor.cross?]
    split
    · rfl
    · exact ih _

theorem piecesFrom_ne_nil (k : Cursor) (cs : List Char) : piecesFrom k cs ≠ [] := by
  cases cs with
  | nil => simp [piecesFrom]
  | cons c cs =>
    rw [piecesFrom]
    split
    · simp
    · split <;> simp

/-- What no plus sign cuts comes in front of the first piece. -/
theorem piecesFrom_append {k k' : Cursor} {cs : List Char} (h : k.cross? cs = some k')
    (rest : List Char) :
    piecesFrom k (cs ++ rest) = (piecesFrom k' rest).modifyHead (cs ++ ·) := by
  induction cs generalizing k with
  | nil =>
    obtain rfl := Option.some.inj h
    rw [List.nil_append]
    cases piecesFrom k rest <;> rfl
  | cons c cs ih =>
    simp only [Cursor.cross?] at h
    split at h
    · cases h
    next hcuts =>
      rw [List.cons_append, piecesFrom, if_neg hcuts, ih h]
      cases hpieces : piecesFrom k' rest with
      | nil => exact absurd hpieces (piecesFrom_ne_nil k' rest)
      | cons piece pieces => rfl

/-! ## Whole texts -/

/-- Whether a text stands on one line, without blanks at its ends, and is not cut outside of
strings, whatever comes before it, and leaves the place in as many brackets as before. -/
structure Whole (cs : List Char) : Prop where
  crosses (depth : Int) (afterBlank : Bool) :
    (Cursor.outside depth afterBlank).cross? cs = some (.outside depth false)
  begins : ∀ c ∈ cs.head?, Text.isBlank c = false
  oneLine : '\n' ∉ cs

/-- Whether a text stands on one line and is crossed without a cut behind what is not blank. -/
structure Steady (cs : List Char) : Prop where
  crosses (depth : Int) : (Cursor.outside depth false).cross? cs = some (.outside depth false)
  oneLine : '\n' ∉ cs

/-- Whether a character outside of strings is no blank, no quote and no bracket. -/
def isPlain (c : Char) : Bool :=
  !Text.isBlank c && c != '"' && c != '[' && c != ']' && c != '\x7b' && c != '\x7d'

variable {c : Char} {cs ds : List Char}

theorem Whole.steady (h : Whole cs) : Steady cs where
  crosses depth := h.crosses depth false
  oneLine := h.oneLine

theorem Steady.nil : Steady [] := ⟨fun _ => rfl, List.not_mem_nil⟩

theorem Steady.append (h : Steady cs) (h' : Steady ds) : Steady (cs ++ ds) where
  crosses depth := by
    rw [cross?_append, h.crosses depth]
    exact h'.crosses depth
  oneLine := by simp [h.oneLine, h'.oneLine]

theorem next_of_isPlain (h : isPlain c = true) (depth : Int) (afterBlank : Bool) :
    (Cursor.outside depth afterBlank).next c = .outside depth false := by
  simp only [isPlain, Bool.and_eq_true, Bool.not_eq_true', bne_iff_ne] at h
  obtain ⟨⟨⟨⟨⟨hblank, hquote⟩, hopen⟩, hclose⟩, hopenBrace⟩, hcloseBrace⟩ := h
  simp [Cursor.next, Cursor.outside, hblank, hquote, hopen, hclose, hopenBrace, hcloseBrace]

/-- Plain characters are crossed, behind a blank all but a plus sign. -/
theorem cross?_of_isPlain (h : isPlain c = true) {depth : Int} {afterBlank : Bool}
    (hplus : c ≠ '+' ∨ afterBlank = false) :
    (Cursor.outside depth afterBlank).cross? (c :: cs) =
      (Cursor.outside depth false).cross? cs := by
  have hcuts : (Cursor.outside depth afterBlank).cuts c = false := by
    rcases hplus with hplus | rfl
    · simp [Cursor.cuts, hplus]
    · simp [Cursor.cuts, Cursor.outside]
  rw [Cursor.cross?, if_neg (by simp [hcuts]), next_of_isPlain h]

theorem isBlank_of_isPlain (h : isPlain c = true) : Text.isBlank c = false := by
  simp only [isPlain, Bool.and_eq_true, Bool.not_eq_true'] at h
  exact h.1.1.1.1.1

theorem newline_not_mem_of_plain (h : ∀ c ∈ cs, isPlain c = true) : '\n' ∉ cs :=
  fun hmem => absurd (h _ hmem) (by decide)

theorem steady_of_plain (h : ∀ c ∈ cs, isPlain c = true) : Steady cs := by
  refine ⟨fun depth => ?_, newline_not_mem_of_plain h⟩
  induction cs with
  | nil => rfl
  | cons c cs ih =>
    rw [cross?_of_isPlain (h c List.mem_cons_self) (.inr rfl)]
    exact ih fun d hd => h d (List.mem_cons_of_mem c hd)

theorem whole_of_plain (h : ∀ d ∈ c :: cs, isPlain d = true) (hplus : c ≠ '+') :
    Whole (c :: cs) := by
  refine ⟨fun depth afterBlank => ?_, ?_, newline_not_mem_of_plain h⟩
  · rw [cross?_of_isPlain (h c List.mem_cons_self) (.inl hplus)]
    exact (steady_of_plain fun d hd => h d (List.mem_cons_of_mem c hd)).crosses depth
  · simpa using isBlank_of_isPlain (h c List.mem_cons_self)

/-- What stands in brackets is whole, as the brackets are open for it. -/
theorem whole_brackets (h : Steady cs) : Whole ('[' :: (cs ++ [']'])) := by
  refine ⟨fun depth afterBlank => ?_, by simp; decide, by simp [h.oneLine]⟩
  have hopen : (Cursor.outside depth afterBlank).cross? ('[' :: (cs ++ [']'])) =
      (Cursor.outside (depth + 1) false).cross? (cs ++ [']']) := rfl
  have hclose : (Cursor.outside (depth + 1) false).cross? [']'] =
      some (.outside (depth + 1 - 1) false) := rfl
  rw [hopen, cross?_append, h.crosses (depth + 1), Option.bind_some, hclose, Int.add_sub_cancel]

theorem whole_braces (h : Steady cs) : Whole ('\x7b' :: (cs ++ ['\x7d'])) := by
  refine ⟨fun depth afterBlank => ?_, by simp; decide, by simp [h.oneLine]⟩
  have hopen : (Cursor.outside depth afterBlank).cross? ('\x7b' :: (cs ++ ['\x7d'])) =
      (Cursor.outside (depth + 1) false).cross? (cs ++ ['\x7d']) := rfl
  have hclose : (Cursor.outside (depth + 1) false).cross? ['\x7d'] =
      some (.outside (depth + 1 - 1) false) := rfl
  rw [hopen, cross?_append, h.crosses (depth + 1), Option.bind_some, hclose, Int.add_sub_cancel]

/-- The last character of a whole text is not blank. -/
theorem Whole.getLast?_eq (h : Whole cs) : ∃ c, cs.getLast? = some c ∧ Text.isBlank c = false := by
  rcases List.eq_nil_or_concat cs with rfl | ⟨front, c, rfl⟩
  · exact absurd (h.crosses 0 true) (by decide)
  · refine ⟨c, by simp, ?_⟩
    have hcross := h.crosses 0 false
    rw [List.concat_eq_append, cross?_append] at hcross
    obtain ⟨k, -, hlast⟩ := Option.bind_eq_some_iff.1 hcross
    simp only [Cursor.cross?] at hlast
    split at hlast
    · cases hlast
    · have hafter := congrArg Cursor.afterBlank (Option.some.inj hlast)
      simp only [Cursor.next, Cursor.outside] at hafter
      repeat' split at hafter
      all_goals exact hafter

theorem Whole.trimChars_eq (h : Whole cs) : Text.trimChars cs = cs := by
  obtain ⟨c, hlast, hblank⟩ := h.getLast?_eq
  exact Text.trimChars_eq_self h.begins (by simpa [hlast] using hblank)

/-! ## Strings -/

theorem hexDigit_ne (n : Nat) :
    Json.hexDigit n ≠ '"' ∧ Json.hexDigit n ≠ '\\' ∧ Json.hexDigit n ≠ '\n' := by
  have hall : ∀ k < 16, Nat.digitChar k ≠ '"' ∧ Nat.digitChar k ≠ '\\' ∧
      Nat.digitChar k ≠ '\n' := by decide
  exact hall (n % 16) (Nat.mod_lt n (by decide))

theorem cross?_inside (hquote : c ≠ '"') (hbackslash : c ≠ '\\') (depth : Int)
    (afterBlank : Bool) : (Cursor.inside depth afterBlank).cross? (c :: cs) =
      (Cursor.inside depth (Text.isBlank c)).cross? cs := by
  simp [Cursor.cross?, Cursor.cuts, Cursor.next, Cursor.inside, hquote, hbackslash]

/-- What is behind a backslash does not end a string. -/
theorem cross?_backslash (c : Char) (cs : List Char) (depth : Int) (afterBlank : Bool) :
    (Cursor.inside depth afterBlank).cross? ('\\' :: c :: cs) =
      (Cursor.inside depth (Text.isBlank c)).cross? cs := by
  simp [Cursor.cross?, Cursor.cuts, Cursor.next, Cursor.inside]

/-- What a string writes for a character is crossed within the string. -/
theorem exists_cross?_escape (c : Char) (depth : Int) (afterBlank : Bool) :
    ∃ b, (Cursor.inside depth afterBlank).cross? (Json.escape c) = some (.inside depth b) := by
  have hletter (d : Char) :
      ∃ b, (Cursor.inside depth afterBlank).cross? ['\\', d] = some (.inside depth b) :=
    ⟨_, cross?_backslash d [] depth afterBlank⟩
  have hnumber (h l : Nat) : ∃ b, (Cursor.inside depth afterBlank).cross?
      ['\\', 'u', '0', '0', Json.hexDigit h, Json.hexDigit l] = some (.inside depth b) := by
    obtain ⟨hquote, hbackslash, -⟩ := hexDigit_ne h
    obtain ⟨lquote, lbackslash, -⟩ := hexDigit_ne l
    rw [cross?_backslash, cross?_inside (by decide) (by decide),
      cross?_inside (by decide) (by decide), cross?_inside hquote hbackslash,
      cross?_inside lquote lbackslash]
    exact ⟨_, rfl⟩
  unfold Json.escape
  split
  · exact hletter _
  split
  · exact hletter _
  next hquote hbackslash =>
    repeat' split
    all_goals first
      | exact hletter _
      | exact hnumber _ _
      | exact ⟨_, cross?_inside hquote hbackslash depth afterBlank⟩

theorem exists_cross?_escapes (cs : List Char) (depth : Int) (afterBlank : Bool) :
    ∃ b, (Cursor.inside depth afterBlank).cross? (cs.flatMap Json.escape) =
      some (.inside depth b) := by
  induction cs generalizing afterBlank with
  | nil => exact ⟨_, rfl⟩
  | cons c cs ih =>
    obtain ⟨b, hc⟩ := exists_cross?_escape c depth afterBlank
    rw [List.flatMap_cons, cross?_append, hc]
    exact ih b

theorem newline_not_mem_escape (c : Char) : '\n' ∉ Json.escape c := by
  have hh := (hexDigit_ne (c.toNat / 16)).2.2.symm
  have hl := (hexDigit_ne c.toNat).2.2.symm
  unfold Json.escape
  repeat' split
  all_goals simp_all [eq_comm]

theorem whole_renderString (s : String) : Whole (Json.renderString s) where
  crosses depth afterBlank := by
    have hopen : (Cursor.outside depth afterBlank).cross? (Json.renderString s) =
        (Cursor.inside depth false).cross? (s.toList.flatMap Json.escape ++ ['"']) := rfl
    obtain ⟨b, hescapes⟩ := exists_cross?_escapes s.toList depth false
    rw [hopen, cross?_append, hescapes]
    rfl
  begins := by simp [Json.renderString]; decide
  oneLine := by simp [Json.renderString, newline_not_mem_escape]

/-! ## Values -/

theorem isBlank_of_ascii (h : 33 ≤ c.toNat) (h' : c.toNat < 127) : Text.isBlank c = false := by
  simp only [Text.isBlank, Bool.or_eq_false_iff, Bool.and_eq_false_iff, decide_eq_false_iff_not,
    beq_eq_false_iff_ne]
  omega

theorem isPlain_of_isNumeral (h : Json.isNumeral c = true) : isPlain c = true := by
  simp only [Json.isNumeral, Bool.or_eq_true, beq_iff_eq] at h
  rcases h with (((h | rfl) | rfl) | rfl) | rfl
  · have hrange := Json.toNat_of_isDigit h
    have hne {d : Char} (hd : d.toNat < 48 ∨ 57 < d.toNat) : c ≠ d := by
      rintro rfl
      omega
    have hblank : Text.isBlank c = false := isBlank_of_ascii (by omega) (by omega)
    simp [isPlain, hblank, hne]
  all_goals decide

/-- Whether a text begins with a minus sign or a digit. -/
def BeginsNumber (cs : List Char) : Prop :=
  ∃ c ds, cs = c :: ds ∧ (c = '-' ∨ c.isDigit = true)

theorem BeginsNumber.append (h : BeginsNumber cs) (ds : List Char) : BeginsNumber (cs ++ ds) := by
  obtain ⟨c, rest, rfl, hc⟩ := h
  exact ⟨c, rest ++ ds, rfl, hc⟩

theorem BeginsNumber.take (h : BeginsNumber cs) (n : Nat) : BeginsNumber (cs.take (n + 1)) := by
  obtain ⟨c, rest, rfl, hc⟩ := h
  exact ⟨c, rest.take n, rfl, hc⟩

theorem beginsNumber_toDigits (n : Nat) : BeginsNumber (Nat.toDigits 10 n) := by
  cases hn : Nat.toDigits 10 n with
  | nil => exact absurd hn Nat.toDigits_ne_nil
  | cons c cs =>
    have hc : c ∈ Nat.toDigits 10 n := hn ▸ List.mem_cons_self
    exact ⟨c, cs, rfl, .inr (Nat.isDigit_of_mem_toDigits (by decide) (by decide) hc)⟩

theorem beginsNumber_positional (whole : List Char) (d : Decimal) :
    BeginsNumber (d.positional whole) := by
  simp only [Decimal.positional]
  split
  · exact (((beginsNumber_toDigits d.digits).append _).take _).append _
  · exact ⟨_, _, rfl, .inr rfl⟩

theorem beginsNumber_scientific (d : Decimal) : BeginsNumber d.scientific :=
  (((beginsNumber_toDigits d.digits).take 0).append _).append _

theorem beginsNumber_renderMagnitude (x : Float) : BeginsNumber (Json.renderMagnitude x) := by
  unfold Json.renderMagnitude
  split
  · exact ⟨_, _, rfl, .inr rfl⟩
  · dsimp only
    split
    · exact beginsNumber_positional _ _
    · exact beginsNumber_scientific _

/-- A number begins with a minus sign or a digit. -/
theorem beginsNumber_render (n : Json.Number) : BeginsNumber n.render := by
  cases n with
  | int n _ =>
    simp only [Json.Number.render, Json.renderInt]
    split
    · exact ⟨_, _, rfl, .inl rfl⟩
    · exact beginsNumber_toDigits _
  | double x _ =>
    simp only [Json.Number.render, Json.renderFloat]
    split
    · exact ⟨_, _, rfl, .inl rfl⟩
    · exact beginsNumber_renderMagnitude x

theorem isNumeral_of_mem_render {n : Json.Number} (h : c ∈ n.render) :
    Json.isNumeral c = true := by
  cases n with
  | int n _ =>
    simp only [Json.Number.render, Json.renderInt] at h
    split at h
    · rcases List.mem_cons.1 h with rfl | h
      · rfl
      · exact Json.isNumeral_of_mem_toDigits h
    · exact Json.isNumeral_of_mem_toDigits h
  | double x _ => exact Json.isNumeral_of_mem_renderFloat h

theorem whole_render_number (n : Json.Number) : Whole n.render := by
  obtain ⟨c, cs, hrender, hc⟩ := beginsNumber_render n
  have hplain : ∀ d ∈ n.render, isPlain d = true :=
    fun d hd => isPlain_of_isNumeral (isNumeral_of_mem_render hd)
  rw [hrender] at hplain ⊢
  refine whole_of_plain hplain ?_
  rcases hc with rfl | hc
  · decide
  · rintro rfl
    cases hc

mutual

/-- The compact text of a value is whole. -/
theorem whole_renderChars : (v : Json) → Whole v.renderChars
  | .null => whole_of_plain (List.all_eq_true.1 (by decide)) (by decide)
  | .bool true => whole_of_plain (List.all_eq_true.1 (by decide)) (by decide)
  | .bool false => whole_of_plain (List.all_eq_true.1 (by decide)) (by decide)
  | .number n => whole_render_number n
  | .string s => whole_renderString s
  | .array items => whole_brackets (steady_renderItems items)
  | .object entries => whole_braces (steady_renderMembers entries)

theorem steady_renderItems : (items : List Json) → Steady (Json.renderItems items)
  | [] => .nil
  | v :: items => (whole_renderChars v).steady.append (steady_renderMoreItems items)

theorem steady_renderMoreItems : (items : List Json) → Steady (Json.renderMoreItems items)
  | [] => .nil
  | v :: items =>
    have hcomma : Steady [','] := steady_of_plain (List.all_eq_true.1 (by decide))
    hcomma.append ((whole_renderChars v).steady.append (steady_renderMoreItems items))

theorem steady_renderMembers :
    (members : List (String × Json)) → Steady (Json.renderMembers members)
  | [] => .nil
  | (key, value) :: members =>
    have hcolon : Steady [':'] := steady_of_plain (List.all_eq_true.1 (by decide))
    (whole_renderString key).steady.append
      (hcolon.append ((whole_renderChars value).steady.append (steady_renderMoreMembers members)))

theorem steady_renderMoreMembers :
    (members : List (String × Json)) → Steady (Json.renderMoreMembers members)
  | [] => .nil
  | (key, value) :: members =>
    have hcomma : Steady [','] := steady_of_plain (List.all_eq_true.1 (by decide))
    have hcolon : Steady [':'] := steady_of_plain (List.all_eq_true.1 (by decide))
    hcomma.append ((whole_renderString key).steady.append
      (hcolon.append ((whole_renderChars value).steady.append (steady_renderMoreMembers members))))

end

/-! ## Chains -/

/-- The texts of a chain behind its first one, each with its plus sign. -/
def chained (ws : List (List Char)) : List Char :=
  ws.flatMap ([' ', '+', ' '] ++ ·)

theorem intercalate_cons (w : List Char) (ws : List (List Char)) :
    [' ', '+', ' '].intercalate (w :: ws) = w ++ chained ws := by
  induction ws generalizing w with
  | nil => simp [chained]
  | cons v ws ih => simp [List.intercalate_cons_cons, ih v, chained]

/-- A chain of whole texts is cut into these texts, blanks at their ends apart. -/
theorem trim_piecesFrom {w : List Char} (hw : Whole w) {ws : List (List Char)}
    (hws : ∀ v ∈ ws, Whole v) {front : List Char} (hfront : front = [] ∨ front = [' '])
    (afterBlank : Bool) :
    (piecesFrom (.outside 0 afterBlank) (front ++ (w ++ chained ws))).map Text.trimChars =
      w :: ws := by
  have hcross : (Cursor.outside 0 afterBlank).cross? (front ++ w) = some (.outside 0 false) := by
    rcases hfront with rfl | rfl <;> exact hw.crosses 0 _
  have hblank : ∀ c ∈ front, Text.isBlank c = true := by
    rcases hfront with rfl | rfl <;> exact List.all_eq_true.1 (by decide)
  induction ws generalizing w front afterBlank with
  | nil =>
    have htrim : Text.trimChars (front ++ w) = w := by
      rw [Text.trimChars_blank_append hblank, hw.trimChars_eq]
    rw [← List.append_assoc, piecesFrom_append hcross]
    simp [chained, piecesFrom, htrim]
  | cons v ws ih =>
    have hcross' : (Cursor.outside 0 afterBlank).cross? (front ++ w ++ [' ']) =
        some (.outside 0 true) := by
      rw [cross?_append, hcross]
      rfl
    have htext : front ++ (w ++ chained (v :: ws)) =
        front ++ w ++ [' '] ++ '+' :: ([' '] ++ (v ++ chained ws)) := by
      simp [chained]
    have hcut : piecesFrom (.outside 0 true) ('+' :: ([' '] ++ (v ++ chained ws))) =
        [] :: piecesFrom (.outside 0 false) ([' '] ++ (v ++ chained ws)) := rfl
    have htrim : Text.trimChars (front ++ w ++ [' ']) = w := by
      rw [Text.trimChars_append_blank (List.all_eq_true.1 (by decide)),
        Text.trimChars_blank_append hblank, hw.trimChars_eq]
    have hv := hws v List.mem_cons_self
    have hrest := ih hv (fun u hu => hws u (List.mem_cons_of_mem v hu)) (.inr rfl) false
      (hv.crosses 0 _) (List.all_eq_true.1 (by decide))
    rw [htext, piecesFrom_append hcross', hcut, List.modifyHead_cons, List.append_nil,
      List.map_cons, htrim, hrest]

/-- An expression that is put together from whole texts is cut into these texts. -/
theorem trim_splitPlus {w : List Char} {ws : List (List Char)} (h : ∀ v ∈ w :: ws, Whole v) :
    (splitPlus ([' ', '+', ' '].intercalate (w :: ws))).map Text.trimChars = w :: ws := by
  rw [intercalate_cons]
  exact trim_piecesFrom (h w List.mem_cons_self) (fun v hv => h v (List.mem_cons_of_mem w hv))
    (.inl rfl) false

end DebugAdapter.Script
