import DebugAdapter.Proofs.Breakpoints.Lookup
import DebugAdapter.Proofs.Breakpoints.Marks
/-!
# Which lines are stored

The lines of a request are stored one further down, in ascending order and each once
(`Registry.ascending_entries`). Lines are words of 32 bits, and the last of them is stored as
itself : so it shares its line with the one before it, and the client, who is told lines one further
up, is told that one for both (`Registry.clientLines_exact`).
-/

namespace DebugAdapter

/-! ## Ascending lines -/

namespace LineMap

variable {α : Type}

/-- Whether the lines of a map come in ascending order. -/
def Ascending (m : LineMap α) : Prop :=
  m.lines.Pairwise (· < ·)

theorem mem_lines_insert (m : LineMap α) (line line' : UInt32) (value : α) :
    line' ∈ (m.insert line value).lines ↔ line = line' ∨ line' ∈ m.lines := by
  rw [mem_lines, mem_lines, get?_insert]
  split <;> simp_all

theorem Ascending.insert {m : LineMap α} (h : m.Ascending) (line : UInt32) (value : α) :
    (m.insert line value).Ascending := by
  induction m with
  | nil => simp [Ascending, LineMap.insert, lines]
  | cons p m ih =>
    obtain ⟨l, v⟩ := p
    obtain ⟨hfirst, hrest⟩ := List.pairwise_cons.1 h
    simp only [LineMap.insert]
    split
    next hlt =>
      refine List.pairwise_cons.2 ⟨fun k hk => ?_, h⟩
      rcases List.mem_cons.1 hk with rfl | hk
      · exact hlt
      · exact UInt32.lt_trans hlt (hfirst k hk)
    · split
      next heq =>
        subst heq
        exact h
      next hnot hne =>
        have hlt : l < line := UInt32.lt_of_le_of_ne (UInt32.not_lt.1 hnot) (Ne.symm hne)
        refine List.pairwise_cons.2 ⟨fun k hk => ?_, ih hrest⟩
        rcases (mem_lines_insert m line k value).1 hk with rfl | hk
        · exact hlt
        · exact hfirst k hk

end LineMap

namespace Script

/-! ## Lines of the client and of the instrumented script -/

/-- The last line that has a line of the instrumented script to itself, apart from the line behind
it. -/
def lastLine : UInt32 := 0xFFFFFFFE

theorem toNat_toInstrumentedLine (line : UInt32) :
    (toInstrumentedLine line).toNat = min (line.toNat + 1) 0xFFFFFFFF := by
  by_cases hlt : line.toNat < 0xFFFFFFFF
  · rw [toInstrumentedLine_of_lt hlt, toNat_add_one hlt]
    omega
  · have hnot : ¬line ≤ 0xFFFFFFFF - markerLines := fun hle => by
      have hle : line.toNat ≤ 0xFFFFFFFE := UInt32.le_iff_toNat_le.1 hle
      omega
    rw [toInstrumentedLine, if_neg hnot]
    show 0xFFFFFFFF = _
    omega

theorem toNat_toClientLine (line : UInt32) : (toClientLine line).toNat = line.toNat - 1 := by
  unfold toClientLine
  split
  next hle =>
    rw [UInt32.toNat_sub_of_le _ _ hle]
    rfl
  next hnot =>
    have hlt : line.toNat < 1 := UInt32.lt_iff_toNat_lt.1 (UInt32.not_le.1 hnot)
    show 0 = _
    omega

theorem toNat_min_lastLine (line : UInt32) :
    (min line lastLine).toNat = min line.toNat 0xFFFFFFFE := by
  have hmin : min line lastLine = if line ≤ lastLine then line else lastLine := rfl
  rw [hmin]
  split
  next hle =>
    have hle : line.toNat ≤ 0xFFFFFFFE := UInt32.le_iff_toNat_le.1 hle
    omega
  next hnot =>
    have hlt : 0xFFFFFFFE < line.toNat := UInt32.lt_iff_toNat_lt.1 (UInt32.not_le.1 hnot)
    show 0xFFFFFFFE = _
    omega

/-- The line that a client is told for a line that it asked for. -/
theorem toClientLine_toInstrumentedLine_eq_min (line : UInt32) :
    toClientLine (toInstrumentedLine line) = min line lastLine := by
  apply UInt32.toNat.inj
  rw [toNat_toClientLine, toNat_toInstrumentedLine, toNat_min_lastLine]
  omega

theorem min_lastLine_eq_self_iff (line : UInt32) :
    min line lastLine = line ↔ line ≠ 0xFFFFFFFF := by
  have hlast : (0xFFFFFFFF : UInt32).toNat = 0xFFFFFFFF := rfl
  have hbound := line.toNat_lt
  rw [Ne, ← UInt32.toNat_inj, ← UInt32.toNat_inj, toNat_min_lastLine, hlast]
  omega

/-- Only the last two lines are stored as one. -/
theorem toInstrumentedLine_eq_iff (line line' : UInt32) :
    toInstrumentedLine line = toInstrumentedLine line' ↔
      line = line' ∨ lastLine ≤ line ∧ lastLine ≤ line' := by
  have hlast : lastLine.toNat = 0xFFFFFFFE := rfl
  have hbound := line.toNat_lt
  have hbound' := line'.toNat_lt
  rw [← UInt32.toNat_inj, ← UInt32.toNat_inj, UInt32.le_iff_toNat_le, UInt32.le_iff_toNat_le,
    toNat_toInstrumentedLine, toNat_toInstrumentedLine, hlast]
  omega

/-- Two lines that are stored for clients are told in their order. -/
theorem toClientLine_lt {line line' : UInt32} (h : toInstrumentedLine line < line') :
    toClientLine (toInstrumentedLine line) < toClientLine line' := by
  rw [UInt32.lt_iff_toNat_lt] at h ⊢
  rw [toNat_toInstrumentedLine] at h
  rw [toNat_toClientLine, toNat_toClientLine, toNat_toInstrumentedLine]
  omega

end Script

/-! ## Stored lines -/

namespace Registry

open Script (toInstrumentedLine toClientLine lastLine)
open SourceKey (normalize withoutKind)

theorem ascending_entries (given : List (Nat × SourceBreakpoint)) : (entries given).Ascending := by
  have hfold (m : SourceBreakpoints) (hm : m.Ascending) : LineMap.Ascending
      (given.foldl (fun m p => m.insert (toInstrumentedLine p.2.line) ⟨p.1, template? p.2⟩)
        m) := by
    induction given generalizing m with
    | nil => exact hm
    | cons p given ih => exact ih _ (hm.insert _ _)
  exact hfold [] List.Pairwise.nil

theorem mem_lines_entries (id : Nat) (requested : List SourceBreakpoint) (line : UInt32) :
    line ∈ (entries (numbered id requested)).lines ↔
      ∃ b ∈ requested, toInstrumentedLine b.line = line := by
  have hget := get?_foldl_insert id requested [] line
  rw [← entries, LineMap.get?_nil, Option.map_none, Option.or_none] at hget
  rw [LineMap.mem_lines, ← Option.isSome_map (f := LineBreakpoint.logMessage), hget,
    Option.isSome_map, List.find?_isSome]
  simp

variable (r : Registry) (source : Source) (requested : List SourceBreakpoint)

theorem mem_lines_replace (line : UInt32) : line ∈ (r.replace source requested).1.lines ↔
    ∃ b ∈ requested, toInstrumentedLine b.line = line :=
  mem_lines_entries r.nextId requested line

/-- The lines that a client is told for the stored ones. -/
theorem mem_clientLines (line : UInt32) :
    line ∈ (r.replace source requested).1.lines.map toClientLine ↔
      ∃ b ∈ requested, min b.line lastLine = line := by
  simp only [List.mem_map, mem_lines_replace]
  constructor
  · rintro ⟨_, ⟨b, hb, rfl⟩, rfl⟩
    exact ⟨b, hb, (Script.toClientLine_toInstrumentedLine_eq_min b.line).symm⟩
  · rintro ⟨b, hb, rfl⟩
    exact ⟨_, ⟨b, hb, rfl⟩, Script.toClientLine_toInstrumentedLine_eq_min b.line⟩

theorem pairwise_clientLines :
    ((r.replace source requested).1.lines.map toClientLine).Pairwise (· < ·) := by
  rw [List.pairwise_map]
  refine (ascending_entries (numbered r.nextId requested)).imp_of_mem fun hmem _ hlt => ?_
  obtain ⟨b, -, rfl⟩ := (mem_lines_entries r.nextId requested _).1 hmem
  exact Script.toClientLine_lt hlt

/-- A client is told the lines that it asked for, unless it asked for the last one of all. -/
theorem clientLines_eq_iff :
    (∀ line, line ∈ (r.replace source requested).1.lines.map toClientLine ↔
        ∃ b ∈ requested, b.line = line) ↔ ∀ b ∈ requested, b.line ≠ 0xFFFFFFFF := by
  simp only [mem_clientLines]
  constructor
  · intro htold b hb hlast
    obtain ⟨b', -, hb'⟩ := (htold 0xFFFFFFFF).2 ⟨b, hb, hlast⟩
    have hnat := congrArg UInt32.toNat hb'
    rw [Script.toNat_min_lastLine] at hnat
    have hnat : min b'.line.toNat 0xFFFFFFFE = 0xFFFFFFFF := hnat
    omega
  · intro hlast line
    have hmin (b : SourceBreakpoint) (hb : b ∈ requested) : min b.line lastLine = b.line :=
      (Script.min_lastLine_eq_self_iff b.line).2 (hlast b hb)
    constructor
    · rintro ⟨b, hb, rfl⟩
      exact ⟨b, hb, (hmin b hb).symm⟩
    · rintro ⟨b, hb, rfl⟩
      exact ⟨b, hb, hmin b hb⟩

/-- The lines that are stored for a request, told as lines of the client, are in ascending order
the lines that it asked for, with the last line that can be counted taken for the one before it. So
they are just the lines that it asked for when that last line is not among them, and two lines that
it asked for are stored as one just when they are the same or the last two. -/
theorem clientLines_exact :
    let key := normalize (source.path.getD "")
    let (replaced, r') := r.replace source requested
    let told := replaced.lines.map toClientLine
    (r'.lines key = replaced.lines ∧ r'.lines (withoutKind key) = replaced.lines) ∧
      told.Pairwise (· < ·) ∧
      (∀ line, line ∈ told ↔ ∃ b ∈ requested, min b.line lastLine = line) ∧
      ((∀ line, line ∈ told ↔ ∃ b ∈ requested, b.line = line) ↔
        ∀ b ∈ requested, b.line ≠ 0xFFFFFFFF) ∧
      ∀ line line' : UInt32, toInstrumentedLine line = toInstrumentedLine line' ↔
        line = line' ∨ lastLine ≤ line ∧ lastLine ≤ line' := by
  intro key
  refine ⟨⟨?_, ?_⟩, r.pairwise_clientLines source requested, r.mem_clientLines source requested,
    r.clientLines_eq_iff source requested, Script.toInstrumentedLine_eq_iff⟩
  · exact (r.lines_replace source requested key).trans (if_pos (.inl rfl))
  · exact (r.lines_replace source requested _).trans (if_pos (.inr (.inl rfl)))

/-- The last line of all is stored as itself, so the client is told the line before it, and one line
for both of them. -/
theorem clientLines_last :
    (({} : Registry).replace {} [{ line := 0xFFFFFFFF }]).1.lines.map toClientLine =
        [0xFFFFFFFE] ∧
      (({} : Registry).replace {} [{ line := 0xFFFFFFFE }, { line := 0xFFFFFFFF }]).1.lines =
        [0xFFFFFFFF] := by
  decide

end Registry

end DebugAdapter
