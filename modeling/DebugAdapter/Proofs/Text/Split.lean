import DebugAdapter.Text.Split
import Mathlib.Data.List.Basic
/-!
# The pieces of a text

`splitChars` cuts a text into the pieces between the occurrences of a separator; put together with
separators the pieces give the text (`intercalate_splitChars`), and pieces without separators are
cut apart again (`splitChars_intercalate`). What stands before and behind a separator is cut on its
own (`splitChars_append_cons`), and what holds none goes on with the last piece
(`splitChars_append`).
-/

namespace DebugAdapter.Text

variable {sep c : Char} {cs ds last : List Char} {front : List (List Char)}

/-! ## Putting pieces together -/

theorem mem_intercalate {sep : List Char} {ls : List (List Char)} (h : c ∈ sep.intercalate ls) :
    c ∈ sep ∨ ∃ l ∈ ls, c ∈ l := by
  induction ls with
  | nil => simp at h
  | cons l ls ih =>
    cases ls with
    | nil => exact .inr ⟨l, List.mem_cons_self, by simpa using h⟩
    | cons m ls =>
      rw [List.intercalate_cons_cons, List.mem_append, List.mem_append] at h
      rcases h with (h | h) | h
      · exact .inr ⟨l, List.mem_cons_self, h⟩
      · exact .inl h
      · exact (ih h).imp_right fun ⟨n, hn, hc⟩ => ⟨n, List.mem_cons_of_mem l hn, hc⟩

/-- A piece comes with a separator when more pieces follow. -/
theorem intercalate_cons_of_ne_nil {ls : List (List Char)} (h : ls ≠ []) (l : List Char) :
    [sep].intercalate (l :: ls) = l ++ sep :: [sep].intercalate ls := by
  cases ls with
  | nil => exact absurd rfl h
  | cons m ls => simp [List.intercalate_cons_cons]

/-- What follows the pieces follows the last one. -/
theorem intercalate_concat_append (front : List (List Char)) (last ds : List Char) :
    [sep].intercalate (front ++ [last]) ++ ds = [sep].intercalate (front ++ [last ++ ds]) := by
  induction front with
  | nil => simp
  | cons l front ih =>
    rw [List.cons_append, List.cons_append, intercalate_cons_of_ne_nil (by simp),
      intercalate_cons_of_ne_nil (by simp), List.append_assoc, List.cons_append, ih]

/-- The last piece comes behind a separator when there are others. -/
theorem intercalate_concat_of_ne_nil (h : front ≠ []) (last : List Char) :
    [sep].intercalate (front ++ [last]) = [sep].intercalate front ++ sep :: last := by
  induction front with
  | nil => exact absurd rfl h
  | cons l front ih =>
    rw [List.cons_append, intercalate_cons_of_ne_nil (by simp)]
    cases front with
    | nil => simp
    | cons m front =>
      rw [ih (by simp), intercalate_cons_of_ne_nil (by simp) l, List.append_assoc,
        List.cons_append]

/-- Fewer pieces before the last one give a part of the text. -/
theorem intercalate_filter_sublist (p : List Char → Bool) (front : List (List Char))
    (last : List Char) : ([sep].intercalate (front.filter p ++ [last])).Sublist
      ([sep].intercalate (front ++ [last])) := by
  induction front with
  | nil => exact .refl _
  | cons l front ih =>
    rw [List.cons_append, intercalate_cons_of_ne_nil (by simp), List.filter_cons]
    split
    · rw [List.cons_append, intercalate_cons_of_ne_nil (by simp)]
      exact (List.Sublist.refl l).append (ih.cons_cons sep)
    · exact (ih.cons sep).trans (List.sublist_append_right l _)

/-! ## Cutting texts into pieces -/

/-- There is at least one piece. -/
theorem exists_splitChars (sep : Char) (cs : List Char) :
    ∃ l ls, splitChars sep cs = l :: ls := by
  cases cs with
  | nil => exact ⟨_, _, rfl⟩
  | cons c cs =>
    rw [splitChars]
    split
    · exact ⟨_, _, rfl⟩
    · split <;> exact ⟨_, _, rfl⟩

theorem splitChars_append_cons (sep : Char) (cs ds : List Char) :
    splitChars sep (cs ++ sep :: ds) = splitChars sep cs ++ splitChars sep ds := by
  induction cs with
  | nil => simp [splitChars]
  | cons c cs ih =>
    rw [List.cons_append, splitChars, splitChars, ih]
    split
    · rfl
    · obtain ⟨l, ls, hcs⟩ := exists_splitChars sep cs
      rw [hcs]
      rfl

theorem splitChars_of_not_mem (h : sep ∉ cs) : splitChars sep cs = [cs] := by
  induction cs with
  | nil => rfl
  | cons c cs ih =>
    obtain ⟨hc, hcs⟩ := not_or.1 (mt List.mem_cons.2 h)
    rw [splitChars, if_neg (Ne.symm hc), ih hcs]

/-- Texts without separators, put together with separators, are cut into these texts. -/
theorem splitChars_intercalate {l : List Char} {ls : List (List Char)}
    (h : ∀ m ∈ l :: ls, sep ∉ m) : splitChars sep ([sep].intercalate (l :: ls)) = l :: ls := by
  induction ls generalizing l with
  | nil => simpa using splitChars_of_not_mem (h l List.mem_cons_self)
  | cons m ls ih =>
    rw [intercalate_cons_of_ne_nil (by simp), splitChars_append_cons,
      splitChars_of_not_mem (h l List.mem_cons_self),
      ih fun n hn => h n (List.mem_cons_of_mem l hn), List.singleton_append]

/-- No piece holds a separator. -/
theorem not_mem_of_mem_splitChars {l : List Char} (h : l ∈ splitChars sep cs) : sep ∉ l := by
  induction cs generalizing l with
  | nil =>
    obtain rfl := List.mem_singleton.1 h
    exact List.not_mem_nil
  | cons c cs ih =>
    rw [splitChars] at h
    split at h
    · rcases List.mem_cons.1 h with rfl | h
      · exact List.not_mem_nil
      · exact ih h
    next hc =>
      obtain ⟨m, ms, hcs⟩ := exists_splitChars sep cs
      rw [hcs] at h ih
      rcases List.mem_cons.1 h with rfl | h
      · simpa [Ne.symm hc] using ih List.mem_cons_self
      · exact ih (List.mem_cons_of_mem m h)

/-- The pieces make up the text. -/
theorem intercalate_splitChars (sep : Char) (cs : List Char) :
    [sep].intercalate (splitChars sep cs) = cs := by
  induction cs with
  | nil => rfl
  | cons c cs ih =>
    obtain ⟨l, ls, hcs⟩ := exists_splitChars sep cs
    rw [splitChars]
    split
    next hc => rw [intercalate_cons_of_ne_nil (by simp [hcs]), ih, hc, List.nil_append]
    next hc =>
      rw [hcs] at ih ⊢
      rw [← ih]
      cases ls with
      | nil => simp
      | cons m ls => simp [List.intercalate_cons_cons]

/-- What holds no separator goes on with the last piece. -/
theorem splitChars_append (hcs : splitChars sep cs = front ++ [last]) (h : sep ∉ ds) :
    splitChars sep (cs ++ ds) = front ++ [last ++ ds] := by
  have hpieces : ∀ l ∈ front ++ [last ++ ds], sep ∉ l := by
    have hfree : ∀ l ∈ front ++ [last], sep ∉ l := fun l hl =>
      not_mem_of_mem_splitChars (hcs ▸ hl)
    intro l hl
    rcases List.mem_append.1 hl with hl | hl
    · exact hfree l (List.mem_append_left _ hl)
    · obtain rfl := List.mem_singleton.1 hl
      simp [hfree last (by simp), h]
  obtain ⟨l, ls, hls⟩ : ∃ l ls, front ++ [last ++ ds] = l :: ls := by
    cases front <;> exact ⟨_, _, rfl⟩
  have htext : cs ++ ds = [sep].intercalate (front ++ [last ++ ds]) := by
    rw [← intercalate_concat_append, ← hcs, intercalate_splitChars]
  rw [htext, hls]
  exact splitChars_intercalate (hls ▸ hpieces)

/-! ## Strings -/

theorem splitOn_ofList (sep : Char) (cs : List Char) :
    splitOn sep (String.ofList cs) = (splitChars sep cs).map String.ofList := by
  rw [splitOn, String.toList_ofList]

theorem splitChars_of_splitOn {names : List String} (h : splitOn sep (String.ofList cs) = names) :
    splitChars sep cs = names.map String.toList := by
  rw [← h, splitOn_ofList]
  simp

theorem not_mem_of_splitOn {s : String} {names : List String} (h : splitOn sep s = names)
    {n : String} (hn : n ∈ names) : sep ∉ n.toList := by
  obtain ⟨l, hl, rfl⟩ := List.mem_map.1 (h ▸ hn)
  rw [String.toList_ofList]
  exact not_mem_of_mem_splitChars hl

/-- Names without separators are the pieces of what they are put together to. -/
theorem splitOn_intercalate {names : List String} (hne : names ≠ [])
    (h : ∀ n ∈ names, sep ∉ n.toList) :
    splitOn sep (String.ofList ([sep].intercalate (names.map String.toList))) = names := by
  obtain ⟨first, rest, rfl⟩ := List.exists_cons_of_ne_nil hne
  rw [splitOn_ofList, List.map_cons, splitChars_intercalate]
  · simp
  · intro l hl
    obtain ⟨n, hn, rfl⟩ := List.mem_map.1 (List.map_cons ▸ hl)
    exact h n hn

end DebugAdapter.Text
