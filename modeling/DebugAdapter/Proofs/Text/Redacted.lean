import Mathlib.Data.List.TakeDrop
import Mathlib.Data.List.TakeWhile
import DebugAdapter.Text.Quoted
import DebugAdapter.Text.Redacted
/-!
# What redaction hides

Redaction works on what a message quotes and leaves the plain words around it alone
(`redact_around`). A quoted text is hidden altogether if there is no double quote in it, and only
then (`redact_quote_eq_iff`) : else the quote in it is taken for the end.
-/

namespace DebugAdapter.Text

/-- Whether there is neither a double quote nor a backtick in a text. -/
def IsPlain (s : String) : Prop :=
  '"' ∉ s.toList ∧ '\x60' ∉ s.toList

instance (s : String) : Decidable (IsPlain s) :=
  inferInstanceAs (Decidable (_ ∧ _))

/-! ## Quotes -/

@[simp] theorem redactQuoted_none_nil : redactQuoted none [] = ([], true) := rfl

@[simp] theorem redactQuoted_some_nil (held : List Char) :
    redactQuoted (some held) [] = (held.reverse, false) := rfl

@[simp] theorem redactQuoted_none_cons (c : Char) (cs : List Char) :
    redactQuoted none (c :: cs) =
      (c :: (redactQuoted (if c = '"' then some [] else none) cs).1,
        (redactQuoted (if c = '"' then some [] else none) cs).2) := rfl

@[simp] theorem redactQuoted_some_cons (held : List Char) (c : Char) (cs : List Char) :
    redactQuoted (some held) (c :: cs) =
      if c = '"' then (redactedMark ++ c :: (redactQuoted none cs).1, (redactQuoted none cs).2)
      else redactQuoted (some (c :: held)) cs := rfl

theorem redactQuoted_append_left {pre : List Char} (h : '"' ∉ pre) (cs : List Char) :
    redactQuoted none (pre ++ cs) =
      (pre ++ (redactQuoted none cs).1, (redactQuoted none cs).2) := by
  induction pre with
  | nil => rfl
  | cons c pre ih =>
    obtain ⟨hc, hpre⟩ := not_or.1 (mt List.mem_cons.2 h)
    simp [Ne.symm hc, ih hpre]

theorem redactQuoted_of_not_mem {cs : List Char} (h : '"' ∉ cs) :
    redactQuoted none cs = (cs, true) := by
  simpa using redactQuoted_append_left h []

theorem redactQuoted_open {held cs : List Char} (h : '"' ∉ cs) :
    redactQuoted (some held) cs = (held.reverse ++ cs, false) := by
  induction cs generalizing held with
  | nil => simp
  | cons c cs ih =>
    obtain ⟨hc, hcs⟩ := not_or.1 (mt List.mem_cons.2 h)
    simp [Ne.symm hc, ih hcs]

/-- What is held is hidden when its quote comes. -/
theorem redactQuoted_closed {held cs : List Char} (h : '"' ∉ cs) (rest : List Char) :
    redactQuoted (some held) (cs ++ '"' :: rest) =
      (redactedMark ++ '"' :: (redactQuoted none rest).1, (redactQuoted none rest).2) := by
  induction cs generalizing held with
  | nil => simp
  | cons c cs ih =>
    obtain ⟨hc, hcs⟩ := not_or.1 (mt List.mem_cons.2 h)
    simp [Ne.symm hc, ih hcs]

theorem redactQuoted_append_right {suf : List Char} (h : '"' ∉ suf) (cs : List Char)
    (held : Option (List Char)) :
    redactQuoted held (cs ++ suf) =
      ((redactQuoted held cs).1 ++ suf, (redactQuoted held cs).2) := by
  induction cs generalizing held with
  | nil =>
    cases held with
    | none => simp [redactQuoted_of_not_mem h]
    | some held => simp [redactQuoted_open h]
  | cons c cs ih =>
    cases held with
    | none => simp [ih]
    | some held => by_cases hc : c = '"' <;> simp [hc, ih]

/-! ## Backticks -/

theorem span_of_not_mem {cs : List Char} (h : '\x60' ∉ cs) :
    cs.span (· ≠ '\x60') = (cs, []) := by
  have hall : ∀ c ∈ cs, decide (c ≠ '\x60') = true := by
    rintro c hc
    exact decide_eq_true fun heq => h (heq ▸ hc)
  rw [List.span_eq_takeWhile_dropWhile, List.takeWhile_eq_self_iff.2 hall,
    List.dropWhile_eq_nil_iff.2 hall]

theorem span_append_cons {cs : List Char} (h : '\x60' ∉ cs) (rest : List Char) :
    (cs ++ '\x60' :: rest).span (· ≠ '\x60') = (cs, '\x60' :: rest) := by
  have hall : ∀ c ∈ cs, decide (c ≠ '\x60') = true := by
    rintro c hc
    exact decide_eq_true fun heq => h (heq ▸ hc)
  rw [List.span_eq_takeWhile_dropWhile, List.takeWhile_append_of_pos hall,
    List.dropWhile_append_of_pos hall]
  simp

theorem redactTicked_of_not_mem {cs : List Char} (h : '\x60' ∉ cs) : redactTicked cs = cs := by
  simp only [redactTicked, span_of_not_mem h]

theorem redactTicked_of_one {before rest : List Char} (hbefore : '\x60' ∉ before)
    (hrest : '\x60' ∉ rest) :
    redactTicked (before ++ '\x60' :: rest) = before ++ '\x60' :: rest := by
  simp only [redactTicked, span_append_cons hbefore, span_of_not_mem hrest]

theorem redactTicked_of_two {before held : List Char} (hbefore : '\x60' ∉ before)
    (hheld : '\x60' ∉ held) (rest : List Char) :
    redactTicked (before ++ '\x60' :: (held ++ '\x60' :: rest)) =
      before ++ '\x60' :: (redactedMark ++ '\x60' :: rest) := by
  simp only [redactTicked, span_append_cons hbefore, span_append_cons hheld]

/-- The first two backticks are all that counts. -/
theorem redactTicked_around {pre suf : List Char} (hpre : '\x60' ∉ pre) (hsuf : '\x60' ∉ suf)
    (cs : List Char) : redactTicked (pre ++ cs ++ suf) = pre ++ redactTicked cs ++ suf := by
  by_cases hcs : '\x60' ∈ cs
  · obtain ⟨before, rest, rfl, hbefore⟩ := List.eq_append_cons_of_mem hcs
    have hleft : '\x60' ∉ pre ++ before := by simp [hpre, hbefore]
    by_cases hrest : '\x60' ∈ rest
    · obtain ⟨held, rest, rfl, hheld⟩ := List.eq_append_cons_of_mem hrest
      rw [redactTicked_of_two hbefore hheld]
      simpa using redactTicked_of_two hleft hheld (rest ++ suf)
    · rw [redactTicked_of_one hbefore hrest]
      have hright : '\x60' ∉ rest ++ suf := by simp [hrest, hsuf]
      simpa using redactTicked_of_one hleft hright
  · rw [redactTicked_of_not_mem hcs]
    exact redactTicked_of_not_mem (by simp [hpre, hcs, hsuf])

theorem redactTicked_ne_nil {cs : List Char} (h : cs ≠ []) : redactTicked cs ≠ [] := by
  unfold redactTicked
  split
  · exact h
  · split
    · exact h
    · simp

/-! ## Messages -/

/-- The plain words around what is redacted stay. -/
theorem redact_around {p q : String} (hp : IsPlain p) (hq : IsPlain q) (m : String) :
    redact (p ++ m ++ q) = p ++ redact m ++ q := by
  apply String.toList_injective
  simp only [redact, String.toList_append, redactQuoted_append_right hq.1,
    redactQuoted_append_left hp.1, String.toList_ofList]
  split
  · exact redactTicked_around hp.2 hq.2 _
  · rfl

theorem not_mem_hexDigits (n : Nat) : '"' ∉ hexDigits n := by
  have hdigit : ∀ k < 16, '"' ≠ Nat.digitChar k := by decide
  induction n using Nat.strongRecOn with
  | ind n ih =>
    rcases Nat.lt_or_ge n 16 with hn | hn
    · simp [hexDigits, Nat.toDigits_of_lt_base hn, hdigit n hn]
    · have hrest : '"' ∉ Nat.toDigits 16 (n / 16) := ih (n / 16) (by omega)
      have hlast := hdigit (n % 16) (Nat.mod_lt _ (by omega))
      simp [hexDigits, Nat.toDigits_of_base_le (by omega : 1 < 16) hn, hrest, hlast]

theorem quote_mem_quoteChar (c : Char) : '"' ∈ quoteChar c ↔ c = '"' := by
  by_cases hc : c = '"'
  · simp [quoteChar, hc]
  · have hdigits := not_mem_hexDigits c.toNat
    unfold quoteChar
    rw [if_neg hc]
    repeat' split
    all_goals simp [hc, hdigits, Ne.symm hc]

theorem quote_mem_flatMap (cs : List Char) : '"' ∈ cs.flatMap quoteChar ↔ '"' ∈ cs := by
  simp [quote_mem_quoteChar]

theorem toList_redact (s : String) : (redact s).toList =
    if (redactQuoted none s.toList).2 then redactTicked (redactQuoted none s.toList).1
    else (redactQuoted none s.toList).1 := by
  simp [redact]

/-- A quoted text is hidden up to the first double quote in it. -/
theorem redactQuoted_quote {body : List Char} (h : '"' ∉ body) (rest : List Char) :
    redactQuoted none ('"' :: (body ++ '"' :: rest)) =
      ('"' :: (redactedMark ++ ['"']) ++ (redactQuoted none rest).1,
        (redactQuoted none rest).2) := by
  simp [redactQuoted_closed h]

theorem redactQuoted_ne_nil (c : Char) (cs : List Char) : (redactQuoted none (c :: cs)).1 ≠ [] := by
  simp

/-- A quoted text is hidden altogether if and only if there is no double quote in it. -/
theorem redact_quote_eq_iff (s : String) :
    redact (quote s) = "\"<redacted>\"" ↔ '"' ∉ s.toList := by
  have hquoted : (quote s).toList = '"' :: (s.toList.flatMap quoteChar ++ ['"']) := by
    simp [quote]
  have hmark : "\"<redacted>\"".toList = '"' :: (redactedMark ++ ['"']) := by decide
  have hplain : '\x60' ∉ '"' :: (redactedMark ++ ['"']) := by decide
  rw [← String.toList_inj, toList_redact, hquoted, hmark]
  by_cases hs : '"' ∈ s.toList
  · obtain ⟨before, rest, heq, hbefore⟩ := List.eq_append_cons_of_mem hs
    have hbody : '"' ∉ before.flatMap quoteChar ++ ['\\'] := by
      simp [quote_mem_quoteChar, hbefore]
    have hsplit : s.toList.flatMap quoteChar ++ ['"'] =
        before.flatMap quoteChar ++ ['\\'] ++ '"' :: (rest.flatMap quoteChar ++ ['"']) := by
      simp [heq, quoteChar]
    -- What follows the quote in the text is shown, and it is not empty.
    obtain ⟨c, cs, hcs⟩ := List.exists_cons_of_ne_nil
      (List.concat_ne_nil '"' (rest.flatMap quoteChar))
    have hshown := redactQuoted_ne_nil c cs
    rw [hsplit, redactQuoted_quote hbody, hcs]
    refine iff_of_false (fun h => ?_) (not_not_intro hs)
    split at h
    · have hticked := redactTicked_around hplain (List.not_mem_nil) (redactQuoted none (c :: cs)).1
      rw [List.append_nil, List.append_nil] at hticked
      rw [hticked, List.append_right_eq_self] at h
      exact redactTicked_ne_nil hshown h
    · exact hshown (List.append_right_eq_self.1 h)
  · have hbody : '"' ∉ s.toList.flatMap quoteChar := by rwa [quote_mem_flatMap]
    rw [redactQuoted_quote hbody]
    simp only [redactQuoted_none_nil, if_true, List.append_nil, redactTicked_of_not_mem hplain, hs,
      not_false_eq_true]

end DebugAdapter.Text
