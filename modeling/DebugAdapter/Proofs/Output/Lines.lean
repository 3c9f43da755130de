import Mathlib.Data.List.Basic
import DebugAdapter.Output.LineBuffer
import DebugAdapter.Proofs.Text.Utf8
/-!
# Lines of a text

`cut` divides characters into the lines that they complete, each with its line feed, and what comes
after the last of them; `pieces` also gives the latter, if there is something. What was cut before
does not change when more is appended (`cut_append`), so it does not matter in how many parts
characters come. A line buffer that is given the bytes of texts only does this with them
(`write_encode`, `drain_encode`): no buffer ever ends within a character.
-/

namespace DebugAdapter.LineBuffer

/-! ## Cutting characters into lines -/

/-- The lines that the characters complete, each with its line feed, and the characters after the
last one. -/
def cut : List Char → List (List Char) × List Char
  | [] => ([], [])
  | c :: cs =>
    if c = '\n' then ([c] :: (cut cs).1, (cut cs).2)
    else match cut cs with
      | ([], rest) => ([], c :: rest)
      | (l :: ls, rest) => ((c :: l) :: ls, rest)

/-- The lines of the characters, of which the last may lack its line feed. -/
def pieces (cs : List Char) : List (List Char) :=
  (cut cs).1 ++ if (cut cs).2 = [] then [] else [(cut cs).2]

/-- Characters without a line feed complete no line. -/
theorem cut_of_not_mem {cs : List Char} (h : '\n' ∉ cs) : cut cs = ([], cs) := by
  induction cs with
  | nil => rfl
  | cons c cs ih =>
    have hc : c ≠ '\n' := (List.ne_of_not_mem_cons h).symm
    simp [cut, hc, ih (List.not_mem_of_not_mem_cons h)]

/-- The first line is cut off. -/
theorem cut_append_lineFeed {p : List Char} (h : '\n' ∉ p) (cs : List Char) :
    cut (p ++ '\n' :: cs) = ((p ++ ['\n']) :: (cut cs).1, (cut cs).2) := by
  induction p with
  | nil => simp [cut]
  | cons c p ih =>
    have hc : c ≠ '\n' := (List.ne_of_not_mem_cons h).symm
    simp [cut, hc, ih (List.not_mem_of_not_mem_cons h)]

/-- Characters are a line and more characters, or there is no line feed among them. -/
theorem induction_on_lines {motive : List Char → Prop}
    (rest : ∀ p : List Char, '\n' ∉ p → motive p)
    (line : ∀ p cs : List Char, '\n' ∉ p → motive cs → motive (p ++ '\n' :: cs))
    (cs : List Char) : motive cs := by
  suffices h : ∀ p : List Char, '\n' ∉ p → motive (p ++ cs) from h [] (by simp)
  induction cs with
  | nil => simpa using rest
  | cons c cs ih =>
    intro p hp
    by_cases hc : c = '\n'
    · subst hc
      exact line p cs hp (ih [] (by simp))
    · simpa using ih (p ++ [c]) (by simp [hp, Ne.symm hc])

/-- What follows a complete line is cut by itself. -/
theorem cut_append (cs ds : List Char) :
    cut (cs ++ ds) =
      ((cut cs).1 ++ (cut ((cut cs).2 ++ ds)).1, (cut ((cut cs).2 ++ ds)).2) := by
  induction cs using induction_on_lines with
  | rest p hp => simp [cut_of_not_mem hp]
  | line p cs hp ih => simp [cut_append_lineFeed hp, ih]

/-- The lines and what comes after them are the characters. -/
theorem flatten_cut (cs : List Char) : (cut cs).1.flatten ++ (cut cs).2 = cs := by
  induction cs using induction_on_lines with
  | rest p hp => simp [cut_of_not_mem hp]
  | line p cs hp ih => simp [cut_append_lineFeed hp, ih]

/-- After the last line feed there is none. -/
theorem not_mem_cut_snd (cs : List Char) : '\n' ∉ (cut cs).2 := by
  induction cs using induction_on_lines with
  | rest p hp => simpa [cut_of_not_mem hp] using hp
  | line p cs hp ih => simpa [cut_append_lineFeed hp] using ih

/-- A line ends with its only line feed. -/
theorem of_mem_cut_fst {cs l : List Char} (h : l ∈ (cut cs).1) :
    l ≠ [] ∧ '\n' ∉ l.dropLast := by
  induction cs using induction_on_lines with
  | rest p hp => simp [cut_of_not_mem hp] at h
  | line p cs hp ih =>
    rw [cut_append_lineFeed hp] at h
    rcases List.mem_cons.mp h with rfl | h
    · simpa using hp
    · exact ih h

/-- Lines that are complete are pieces whatever follows. -/
theorem pieces_append (cs ds : List Char) :
    pieces (cs ++ ds) = (cut cs).1 ++ pieces ((cut cs).2 ++ ds) := by
  simp [pieces, cut_append cs ds]

/-- The pieces are the characters. -/
theorem flatten_pieces (cs : List Char) : (pieces cs).flatten = cs := by
  have h := flatten_cut cs
  unfold pieces
  split
  next hnil => simpa [hnil] using h
  · simpa using h

/-- A piece is something, and has a line feed at most at its end. -/
theorem of_mem_pieces {cs p : List Char} (h : p ∈ pieces cs) : p ≠ [] ∧ '\n' ∉ p.dropLast := by
  rcases List.mem_append.mp h with h | h
  · exact of_mem_cut_fst h
  · split at h
    · simp at h
    next hne =>
      obtain rfl := List.mem_singleton.mp h
      exact ⟨hne, fun hm => not_mem_cut_snd cs (List.dropLast_subset _ hm)⟩

/-! ## The bytes of texts -/

/-- Only the line feed has its byte. -/
theorem lineFeed_not_mem_utf8EncodeChar {c : Char} (h : c ≠ '\n') :
    Ascii.lineFeed ∉ String.utf8EncodeChar c := by
  intro hm
  by_cases hlt : c.toNat < 128
  · rw [Utf8.utf8EncodeChar_of_lt hlt, List.mem_singleton] at hm
    have hnat : 10 = c.toNat % 256 := congrArg UInt8.toNat hm
    have hten : c.toNat = '\n'.toNat := by
      change c.toNat = 10
      omega
    exact h (Char.toNat_inj.mp hten)
  · have hle := Utf8.le_of_mem_utf8EncodeChar (Nat.le_of_not_lt hlt) hm
    simp [Ascii.lineFeed] at hle

/-- Bytes without a line feed are held. -/
theorem completed_append {bs : Bytes} (h : Ascii.lineFeed ∉ bs) (held bs' : Bytes) :
    completed held (bs ++ bs') = completed (bs.reverse ++ held) bs' := by
  induction bs generalizing held with
  | nil => rfl
  | cons b bs ih =>
    have hb : b ≠ Ascii.lineFeed := (List.ne_of_not_mem_cons h).symm
    simp [completed, hb, ih (List.not_mem_of_not_mem_cons h)]

/-- The lines of bytes are those of the characters that they encode. -/
theorem completed_encode {p : List Char} (h : '\n' ∉ p) (cs : List Char) :
    completed (Utf8.encode p).reverse (Utf8.encode cs) =
      ((cut (p ++ cs)).1.map Utf8.encode, Utf8.encode (cut (p ++ cs)).2) := by
  induction cs generalizing p with
  | nil => simp [completed, cut_of_not_mem h]
  | cons c cs ih =>
    by_cases hc : c = '\n'
    · subst hc
      have hnil : completed [] (Utf8.encode cs) = _ := ih (p := []) (by simp)
      have hbytes : String.utf8EncodeChar '\n' = [Ascii.lineFeed] := rfl
      rw [cut_append_lineFeed h]
      simp [completed, hbytes, hnil]
    · have hp : '\n' ∉ p ++ [c] := by simp [h, Ne.symm hc]
      have hih := ih hp
      rw [Utf8.encode_cons, completed_append (lineFeed_not_mem_utf8EncodeChar hc)]
      simpa using hih

/-- Writing a text gives the lines that it completes. -/
theorem write_encode {p : List Char} (h : '\n' ∉ p) (cs : List Char) :
    write (Utf8.encode p) (Utf8.encode cs) =
      ((cut (p ++ cs)).1.map String.ofList, Utf8.encode (cut (p ++ cs)).2) := by
  simp [write, completed_encode h, Utf8.toStringLossy_encode]

/-- Draining gives the text that is held. -/
theorem drain_encode {p : List Char} (h : '\n' ∉ p) :
    drain (Utf8.encode p) = (pieces p).map String.ofList := by
  cases p with
  | nil => rfl
  | cons c cs =>
    rw [drain, if_neg (by simp), Utf8.toStringLossy_encode]
    simp [pieces, cut_of_not_mem h]

end DebugAdapter.LineBuffer
