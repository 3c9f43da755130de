import DebugAdapter.Breakpoints.Registry
import DebugAdapter.Proofs.Script.Instrumented
/-!
# Marks

What a line of a script carries after breakpoints were requested is a `Mark` : a line has one
breakpoint, that of the last request for it. The registry holds the marks under the lines of the
instrumented script (`Registry.mark_entries`).
-/

namespace DebugAdapter

/-- A breakpoint on a line : the template to write, if it is a log point. -/
abbrev Mark := Option String

theorem LineMap.mem_lines {α : Type} (m : LineMap α) (line : UInt32) :
    line ∈ m.lines ↔ (m.get? line).isSome = true := by
  induction m with
  | nil => simp [lines, get?]
  | cons p m ih =>
    obtain ⟨l, v⟩ := p
    simp only [lines, List.map_cons, List.mem_cons, get?] at ih ⊢
    by_cases hl : l = line
    · simp [hl]
    · simp [hl, Ne.symm hl, ih]

namespace Registry

open Script (toInstrumentedLine toInstrumentedLine_inj)

/-- What a line of a script carries. -/
def mark? (requested : List SourceBreakpoint) (line : UInt32) : Option Mark :=
  (requested.reverse.find? fun b => b.line == line).map template?

theorem get?_foldl_insert (id : Nat) (requested : List SourceBreakpoint) (m : SourceBreakpoints)
    (line : UInt32) :
    (((numbered id requested).foldl
      (fun m (id, b) => m.insert (toInstrumentedLine b.line) ⟨id, template? b⟩) m).get?
        line).map LineBreakpoint.logMessage =
      ((requested.reverse.find? fun b => toInstrumentedLine b.line == line).map template?).or
        ((m.get? line).map LineBreakpoint.logMessage) := by
  induction requested generalizing id m with
  | nil => simp [numbered]
  | cons b requested ih =>
    rw [numbered, List.foldl_cons, ih, List.reverse_cons, List.find?_append, LineMap.get?_insert]
    cases hlater : requested.reverse.find? fun b => toInstrumentedLine b.line == line with
    | some b' => simp
    | none => by_cases hline : toInstrumentedLine b.line = line <;> simp [hline]

/-- The registry holds the marks under the lines of the instrumented script. -/
theorem mark_entries (id : Nat) (requested : List SourceBreakpoint) {line : UInt32}
    (h : line.toNat < 0xFFFFFFFE) :
    ((entries (numbered id requested)).get? (toInstrumentedLine line)).map
      LineBreakpoint.logMessage = mark? requested line := by
  rw [entries, get?_foldl_insert, mark?]
  have hline (b : SourceBreakpoint) :
      (toInstrumentedLine b.line == toInstrumentedLine line) = (b.line == line) := by
    rw [Bool.eq_iff_iff, beq_iff_eq, beq_iff_eq, toInstrumentedLine_inj h]
  simp [hline, LineMap.get?_nil]

end Registry

end DebugAdapter
