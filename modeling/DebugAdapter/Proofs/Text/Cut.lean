import DebugAdapter.Text.Blank
import DebugAdapter.Text.Split
import Mathlib.Data.List.DropRight
/-!
# What a cut leaves of a text

A text loses its longest beginning or end in a class of characters (`dropEndWhile`, `trimChars`),
it is cut at a character (`cutAt?`), or it loses a fixed beginning (`afterPrefix?`). Of texts that
are put together, only the part where the cut takes place matters.
-/

namespace DebugAdapter.Text

variable {p : Char → Bool} {c : Char} {cs front : List Char}

/-! ## Ends -/

theorem dropWhile_eq_self_iff_head? : cs.dropWhile p = cs ↔ ∀ c ∈ cs.head?, p c = false := by
  cases cs <;> simp [List.dropWhile_eq_self_iff]

theorem dropEndWhile_eq_self_iff :
    dropEndWhile p cs = cs ↔ ∀ c ∈ cs.getLast?, p c = false := by
  rw [← List.head?_reverse, ← dropWhile_eq_self_iff_head?, dropEndWhile, List.reverse_eq_iff]

theorem dropEndWhile_prefix_self (p : Char → Bool) (cs : List Char) : dropEndWhile p cs <+: cs :=
  List.rdropWhile_prefix p cs

theorem dropEndWhile_append (p : Char → Bool) (cs ds : List Char) :
    dropEndWhile p (cs ++ ds) =
      if dropEndWhile p ds = [] then dropEndWhile p cs else cs ++ dropEndWhile p ds := by
  simp only [dropEndWhile, List.reverse_append, List.dropWhile_append, List.isEmpty_iff,
    List.reverse_eq_nil_iff]
  split
  · rfl
  · rw [List.reverse_append, List.reverse_reverse]

theorem dropEndWhile_append_of_pos (h : ∀ c ∈ cs, p c = true) (front : List Char) :
    dropEndWhile p (front ++ cs) = dropEndWhile p front := by
  have hnil : dropEndWhile p cs = [] := List.rdropWhile_eq_nil_iff.2 h
  rw [dropEndWhile_append, if_pos hnil]

theorem dropEndWhile_cons_ne_nil (h : p c = false) (cs : List Char) :
    dropEndWhile p (c :: cs) ≠ [] := by
  intro hnil
  have := List.rdropWhile_eq_nil_iff.1 hnil c List.mem_cons_self
  simp [h] at this

/-- The end may be cut off before trimming. -/
theorem trimChars_dropEndWhile (cs : List Char) :
    trimChars (dropEndWhile isBlank cs) = trimChars cs := by
  have hblank : ∀ c ∈ cs.rtakeWhile isBlank, isBlank c = true :=
    fun c hc => List.mem_rtakeWhile_imp hc
  have htail : (cs.rtakeWhile isBlank).dropWhile isBlank = [] :=
    List.dropWhile_eq_nil_iff.2 hblank
  have hcs : dropEndWhile isBlank cs ++ cs.rtakeWhile isBlank = cs :=
    List.rdropWhile_append_rtakeWhile
  conv => rhs; rw [← hcs]
  rw [trimChars, trimChars, List.dropWhile_append, htail]
  split
  next hempty => rw [List.isEmpty_iff.1 hempty]
  · rw [dropEndWhile_append_of_pos hblank]

theorem trimChars_eq_self (hhead : ∀ c ∈ cs.head?, isBlank c = false)
    (hlast : ∀ c ∈ cs.getLast?, isBlank c = false) : trimChars cs = cs := by
  rw [trimChars, dropWhile_eq_self_iff_head?.2 hhead, dropEndWhile_eq_self_iff.2 hlast]

theorem trimChars_blank_append (h : ∀ c ∈ front, isBlank c = true) (cs : List Char) :
    trimChars (front ++ cs) = trimChars cs := by
  rw [trimChars, trimChars, List.dropWhile_append_of_pos h]

theorem trimChars_append_blank {back : List Char} (h : ∀ c ∈ back, isBlank c = true)
    (cs : List Char) : trimChars (cs ++ back) = trimChars cs := by
  rw [← trimChars_dropEndWhile, dropEndWhile_append_of_pos h, trimChars_dropEndWhile]

/-- Nothing is left of a text that is blank throughout. -/
theorem trimChars_eq_nil_iff (cs : List Char) :
    trimChars cs = [] ↔ ∀ c ∈ cs, isBlank c = true := by
  refine (List.rdropWhile_eq_nil_iff (l := cs.dropWhile isBlank)).trans ⟨fun h c hc => ?_,
    fun h c hc => h c ((List.dropWhile_sublist _).mem hc)⟩
  rw [← List.takeWhile_append_dropWhile (p := isBlank) (l := cs)] at hc
  exact (List.mem_append.1 hc).elim List.mem_takeWhile_imp (h c)

/-! ## Cuts -/

theorem eq_append_of_afterPrefix? {ds : List Char} (h : afterPrefix? front cs = some ds) :
    cs = front ++ ds := by
  induction front generalizing cs with
  | nil => exact Option.some.inj h
  | cons f front ih =>
    cases cs with
    | nil => cases h
    | cons c cs =>
      simp only [afterPrefix?] at h
      split at h
      next heq => rw [ih h, heq, List.cons_append]
      · cases h

@[simp] theorem afterPrefix?_append (front cs : List Char) :
    afterPrefix? front (front ++ cs) = some cs := by
  induction front with
  | nil => rfl
  | cons f front ih => simp [afterPrefix?, ih]

theorem cutAt?_append (h : c ∉ front) (cs : List Char) :
    cutAt? c (front ++ cs) = (cutAt? c cs).map fun p => (front ++ p.1, p.2) := by
  induction front with
  | nil => simp
  | cons f front ih =>
    obtain ⟨hf, hfront⟩ := not_or.1 (mt List.mem_cons.2 h)
    rw [List.cons_append, cutAt?, if_neg (Ne.symm hf), ih hfront, Option.map_map]
    rfl

theorem cutAt?_append_cons (h : c ∉ front) (cs : List Char) :
    cutAt? c (front ++ c :: cs) = some (front, cs) := by
  simp [cutAt?_append h, cutAt?]

theorem cutAt?_eq_some_iff {before after : List Char} :
    cutAt? c cs = some (before, after) ↔ c ∉ before ∧ cs = before ++ c :: after := by
  refine ⟨fun h => ?_, fun h => h.2 ▸ cutAt?_append_cons h.1 after⟩
  induction cs generalizing before with
  | nil => cases h
  | cons d cs ih =>
    simp only [cutAt?] at h
    split at h
    next heq =>
      obtain ⟨rfl, rfl⟩ := Prod.mk.inj (Option.some.inj h)
      exact ⟨List.not_mem_nil, by rw [heq, List.nil_append]⟩
    next hne =>
      obtain ⟨p, hp, heq⟩ := Option.map_eq_some_iff.1 h
      obtain ⟨rfl, rfl⟩ := Prod.mk.inj heq
      obtain ⟨hbefore, hcs⟩ := ih hp
      exact ⟨by simpa [Ne.symm hne] using hbefore, by rw [hcs, List.cons_append]⟩

theorem cutAt?_eq_none_iff : cutAt? c cs = none ↔ c ∉ cs := by
  induction cs with
  | nil => simp [cutAt?]
  | cons d cs ih =>
    by_cases h : d = c
    · simp [cutAt?, h]
    · simp [cutAt?, h, ih, Ne.symm h]

theorem isSuffixOf_append {part : List Char} (h : c ∉ front) (cs : List Char) :
    (c :: part).isSuffixOf (front ++ cs) = (c :: part).isSuffixOf cs := by
  induction front with
  | nil => rfl
  | cons f front ih =>
    obtain ⟨hf, hfront⟩ := not_or.1 (mt List.mem_cons.2 h)
    have hne : c :: part ≠ f :: (front ++ cs) := fun heq => hf (List.cons.inj heq).1
    rw [← ih hfront, Bool.eq_iff_iff, List.isSuffixOf_iff_suffix, List.isSuffixOf_iff_suffix,
      List.cons_append, List.suffix_cons_iff, or_iff_right hne]

theorem occursIn_append {part : List Char} (h : c ∉ front) (cs : List Char) :
    occursIn (c :: part) (front ++ cs) = occursIn (c :: part) cs := by
  induction front with
  | nil => rfl
  | cons f front ih =>
    obtain ⟨hf, hfront⟩ := not_or.1 (mt List.mem_cons.2 h)
    simp [occursIn, List.isPrefixOf, hf, ih hfront]

end DebugAdapter.Text
