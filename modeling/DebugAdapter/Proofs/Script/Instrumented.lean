import DebugAdapter.Script.Run
/-!
# Instrumented scripts

The marker in front of a script is a line of its own that is no statement. So an instrumented script
has the statements and the errors of the script, each one line further down
(`parse_instrument_eq`); as long as the lines can be counted, these are the lines that the client's
are stored on (`parse_instrument`).
-/

namespace DebugAdapter.Script

/-- A statement as it stands in the instrumented script. -/
def Statement.instrumented (s : Statement) : Statement :=
  { s with line := toInstrumentedLine s.line }

/-- A statement one line further down. -/
def Statement.lowered (s : Statement) : Statement :=
  { s with line := s.line + 1 }

/-- An error one line further down. -/
def ScriptError.lowered : ScriptError → ScriptError
  | compile line message => compile (line + 1) message
  | e => e

/-! ## Lines -/

theorem linesFrom_append_cons {acc cs rest : List Char} (h : '\n' ∉ cs) :
    Text.linesFrom acc (cs ++ '\n' :: rest) =
      Text.dropReturn (acc.reverse ++ cs) :: Text.linesFrom [] rest := by
  induction cs generalizing acc with
  | nil => simp [Text.linesFrom]
  | cons c cs ih =>
    simp only [List.mem_cons, not_or] at h
    rw [List.cons_append, Text.linesFrom, if_neg (Ne.symm h.1), ih h.2]
    simp

/-- The lines of an instrumented script. -/
theorem linesFrom_instrument (text : String) : Text.linesFrom [] (instrument text).toList =
    "//@magic-debug".toList :: Text.linesFrom [] text.toList := by
  have hmarker : marker.toList = "//@magic-debug".toList ++ ['\n'] := by decide
  rw [instrument, String.toList_append, hmarker, List.append_assoc, List.singleton_append,
    linesFrom_append_cons (by decide)]
  rfl

/-! ## Statements -/

theorem toInstrumentedLine_of_lt {line : UInt32} (h : line.toNat < 0xFFFFFFFF) :
    toInstrumentedLine line = line + 1 := by
  have hle : line ≤ 0xFFFFFFFF - markerLines := by
    rw [UInt32.le_iff_toNat_le]
    exact Nat.le_of_lt_succ h
  rw [toInstrumentedLine, if_pos hle]
  rfl

/-- No other line of the client's is stored where a line of a script is. -/
theorem toInstrumentedLine_inj {line line' : UInt32} (h : line.toNat < 0xFFFFFFFE) :
    toInstrumentedLine line' = toInstrumentedLine line ↔ line' = line := by
  refine ⟨fun heq => ?_, congrArg _⟩
  rw [toInstrumentedLine_of_lt (Nat.lt_succ_of_lt h)] at heq
  by_cases hlt : line'.toNat < 0xFFFFFFFF
  · rw [toInstrumentedLine_of_lt hlt] at heq
    exact (UInt32.add_left_inj 1).1 heq
  · have hlast : line' = 0xFFFFFFFF := by
      have hbound := line'.toNat_lt
      apply UInt32.toNat.inj
      show line'.toNat = 0xFFFFFFFF
      omega
    have hline := congrArg UInt32.toNat heq
    rw [hlast, UInt32.toNat_add] at hline
    have hsum : (line.toNat + 1) % 2 ^ 32 = line.toNat + 1 := Nat.mod_eq_of_lt (by omega)
    have hline : (0xFFFFFFFF : Nat) = (line.toNat + 1) % 2 ^ 32 := hline
    omega

theorem toNat_add_one {line : UInt32} (h : line.toNat < 0xFFFFFFFF) :
    (line + 1).toNat = line.toNat + 1 := by
  rw [UInt32.toNat_add]
  exact Nat.mod_eq_of_lt (Nat.succ_lt_succ h)

theorem toClientLine_toInstrumentedLine {line : UInt32} (h : line.toNat < 0xFFFFFFFF) :
    toClientLine (toInstrumentedLine line) = line := by
  have hle : markerLines ≤ line + 1 := by
    rw [UInt32.le_iff_toNat_le, toNat_add_one h]
    exact Nat.le_add_left 1 _
  rw [toInstrumentedLine_of_lt h, toClientLine, if_pos hle]
  exact UInt32.add_sub_cancel line 1

/-- What is read off a script, were it to begin one line further down. -/
theorem parseLines_succ (line : UInt32) (ls : List (List Char)) :
    parseLines (line + 1) ls =
      ((parseLines line ls).map (List.map Statement.lowered)).mapError ScriptError.lowered := by
  induction ls generalizing line with
  | nil => rfl
  | cons cs ls ih =>
    rw [parseLines, parseLines]
    simp only
    split
    · rw [ih]
    · split
      · rfl
      · rw [ih]
        cases parseLines (line + 1) ls <;> rfl

/-- What is read off an instrumented script. -/
theorem parse_instrument_eq (text : String) : Program.parse (instrument text) =
    ((Program.parse text).map (List.map Statement.lowered)).mapError ScriptError.lowered := by
  rw [Program.parse, linesFrom_instrument, parseLines]
  simp only
  rw [if_pos (by decide), parseLines_succ]
  rfl

/-- The lines of statements are lines of the script. -/
theorem line_lt_of_parseLines {line : UInt32} {ls : List (List Char)} {p : Program}
    (h : parseLines line ls = .ok p) (hls : line.toNat + ls.length ≤ 0xFFFFFFFF) :
    ∀ s ∈ p, s.line.toNat < line.toNat + ls.length := by
  induction ls generalizing line p with
  | nil =>
    cases h
    simp
  | cons cs ls ih =>
    rw [List.length_cons] at hls ⊢
    have hnext : (line + 1).toNat = line.toNat + 1 := toNat_add_one (by omega)
    have ih {p : Program} (h : parseLines (line + 1) ls = .ok p) :
        ∀ s ∈ p, s.line.toNat < line.toNat + (ls.length + 1) := fun s hs => by
      have hlt := ih h (by omega) s hs
      omega
    rw [parseLines] at h
    simp only at h
    split at h
    · exact ih h
    · split at h
      · cases h
      · cases hrest : parseLines (line + 1) ls with
        | error e => simp [hrest, bind, Except.bind] at h
        | ok rest =>
          simp only [hrest, bind, Except.bind, pure, Except.pure] at h
          obtain rfl := Except.ok.inj h
          intro s hs
          rcases List.mem_cons.1 hs with rfl | hs
          · show line.toNat < _
            omega
          · exact ih hrest s hs

/-- An instrumented script has the statements of the script, one line further down. -/
theorem parse_instrument {text : String} {p : Program} (h : Program.parse text = .ok p)
    (hlines : (Text.lines text).length < 0xFFFFFFFE) :
    Program.parse (instrument text) = .ok (p.map Statement.instrumented) ∧
      ∀ s ∈ p, s.line.toNat < 0xFFFFFFFE := by
  have hlength : (Text.linesFrom [] text.toList).length < 0xFFFFFFFE := by
    simpa [Text.lines] using hlines
  have hlt := line_lt_of_parseLines h (by
    show 1 + _ ≤ _
    omega)
  have hbound : ∀ s ∈ p, s.line.toNat < 0xFFFFFFFE := fun s hs => by
    have hs : s.line.toNat < 1 + _ := hlt s hs
    omega
  refine ⟨?_, hbound⟩
  rw [parse_instrument_eq, h]
  refine congrArg _ (List.map_congr_left fun s hs => ?_)
  rw [Statement.instrumented, toInstrumentedLine_of_lt (Nat.lt_succ_of_lt (hbound s hs))]
  rfl

end DebugAdapter.Script
