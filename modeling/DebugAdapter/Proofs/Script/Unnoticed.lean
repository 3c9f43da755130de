import DebugAdapter.Proofs.Script.Instrumented
/-!
# Scripts that do not notice their debugger

A debugger that lets a script go on wherever it suspends it, and changes no variable, leaves the
script as it would run alone: it ends in the same way and writes the same texts (`run_result`).
Under any debugger an instrumented script does what the script does, one line further down
(`run_lowered`). Main statement: `debugged_result`, for a text and its instrumented text.
-/

namespace DebugAdapter.Script

variable {σ τ : Type}

/-! ## Suspended and let go on -/

/-- Whether a debugger lets a script go on wherever it suspends it, and changes no variable. -/
def Hooks.LetsGoOn (hooks : Hooks σ) : Prop :=
  ∀ debugger frame, (hooks.suspend debugger frame).1 = .proceed []

/-- Whether a debugger never suspends a script. -/
def Hooks.NeverSuspends (hooks : Hooks σ) : Prop :=
  ∀ debugger line, hooks.shouldSuspend debugger line = false

/-- Whether a script goes on unchanged from every boundary. -/
def Hooks.Unnoticed (hooks : Hooks σ) : Prop :=
  ∀ debugger s vars, (hooks.atBoundary debugger s vars).1 = .proceed []

theorem Hooks.LetsGoOn.unnoticed {hooks : Hooks σ} (h : hooks.LetsGoOn) : hooks.Unnoticed := by
  intro debugger s vars
  unfold atBoundary
  split
  · exact h debugger _
  · rfl

theorem Hooks.NeverSuspends.unnoticed {hooks : Hooks σ} (h : hooks.NeverSuspends) :
    hooks.Unnoticed := by
  intro debugger s vars
  rw [atBoundary, h debugger s.line]
  rfl

/-- What a run shows of its script: how it ended, and the texts written. -/
def Trace.result (t : Trace σ) : Outcome × List (Channel × String) :=
  (t.outcome, t.writes)

theorem Trace.result_wrote {t : Trace σ} {t' : Trace τ} (h : t.result = t'.result)
    (channel : Channel) (text : String) :
    (t.wrote channel text).result = (t'.wrote channel text).result := by
  obtain ⟨houtcome, hwrites⟩ := Prod.mk.inj h
  exact Prod.ext houtcome (congrArg ((channel, text) :: ·) hwrites)

/-- From a boundary where nothing is noticed a script goes on with its variables. -/
theorem Hooks.Unnoticed.run_cons {hooks : Hooks σ} (h : hooks.Unnoticed) (debugger : σ)
    (s : Statement) (rest : Program) (vars : Json.Fields) : ∃ debugger' : σ,
    Program.run hooks debugger vars (s :: rest) =
      match s.action.perform vars with
      | .proceed vars => Program.run hooks debugger' vars rest
      | .write channel text => (Program.run hooks debugger' vars rest).wrote channel text
      | .over outcome => ⟨outcome, [], debugger'⟩ := by
  have hboundary : hooks.atBoundary debugger s vars =
      (.proceed [], (hooks.atBoundary debugger s vars).2) := Prod.ext (h debugger s vars) rfl
  refine ⟨(hooks.atBoundary debugger s vars).2, ?_⟩
  rw [Program.run, hboundary]
  rfl

/-- It makes no difference to a script which of two debuggers it does not notice. -/
theorem run_result {hooks : Hooks σ} {hooks' : Hooks τ} (h : hooks.Unnoticed)
    (h' : hooks'.Unnoticed) (p : Program) (debugger : σ) (debugger' : τ) (vars : Json.Fields) :
    (p.run hooks debugger vars).result = (p.run hooks' debugger' vars).result := by
  induction p generalizing debugger debugger' vars with
  | nil => rfl
  | cons s rest ih =>
    obtain ⟨next, hrun⟩ := h.run_cons debugger s rest vars
    obtain ⟨next', hrun'⟩ := h'.run_cons debugger' s rest vars
    rw [hrun, hrun']
    match s.action.perform vars with
    | .proceed vars => exact ih next next' vars
    | .write channel text => exact Trace.result_wrote (ih next next' vars) channel text
    | .over outcome => rfl

/-! ## One line further down -/

/-- A span one line further down. -/
def Span.lowered (s : Span) : Span :=
  { s with startLine := s.startLine + 1, endLine := s.endLine + 1 }

/-- A debugger that sees each statement one line further down than it is. -/
def Hooks.lowered (hooks : Hooks σ) : Hooks σ where
  shouldSuspend debugger line := hooks.shouldSuspend debugger (line + 1)
  suspend debugger frame := hooks.suspend debugger { frame with span := frame.span.lowered }

/-- Only the lines change for a script that begins one line further down. -/
theorem run_lowered (hooks : Hooks σ) (p : Program) (debugger : σ) (vars : Json.Fields) :
    Program.run hooks debugger vars (p.map Statement.lowered) =
      p.run hooks.lowered debugger vars := by
  induction p generalizing debugger vars with
  | nil => rfl
  | cons s rest ih =>
    have hboundary : hooks.atBoundary debugger s.lowered vars =
        hooks.lowered.atBoundary debugger s vars := rfl
    have haction : s.lowered.action = s.action := rfl
    simp only [List.map_cons, Program.run, hboundary, haction, ih]

theorem toClientLine_add_one {line : UInt32} (h : line.toNat < 0xFFFFFFFF) :
    toClientLine (line + 1) = line := by
  rw [← toInstrumentedLine_of_lt h, toClientLine_toInstrumentedLine h]

/-! ## Debugged scripts -/

/-- A script does not notice a debugger that lets it go on wherever it is suspended. Nor does it
notice that it is instrumented: it is read, or refused, as the script is, with all lines one
greater. They are the client's lines again, as long as they can be counted; and it runs as the
script does, whatever the debugger does, and with the same result if that lets it go on. -/
theorem debugged_result {hooks : Hooks σ} {idle : Hooks τ} (hhooks : hooks.LetsGoOn)
    (hidle : idle.NeverSuspends) (text : String) :
    (∀ (p : Program) debugger debugger' vars,
      (p.run hooks debugger vars).result = (p.run idle debugger' vars).result) ∧
    Program.parse (instrument text) =
      ((Program.parse text).map (List.map Statement.lowered)).mapError ScriptError.lowered ∧
    (∀ line : UInt32, line.toNat < 0xFFFFFFFF →
      (line + 1).toNat = line.toNat + 1 ∧ toClientLine (line + 1) = line) ∧
    (∀ (ρ : Type) (any : Hooks ρ) (p : Program) debugger vars,
      Program.run any debugger vars (p.map Statement.lowered) = p.run any.lowered debugger vars) ∧
    ∀ (p : Program) debugger debugger' vars,
      (Program.run hooks debugger vars (p.map Statement.lowered)).result =
        (p.run idle debugger' vars).result := by
  have hlowered : hooks.lowered.LetsGoOn := fun debugger frame => hhooks debugger _
  refine ⟨run_result hhooks.unnoticed hidle.unnoticed, parse_instrument_eq text,
    fun line hline => ⟨toNat_add_one hline, toClientLine_add_one hline⟩,
    fun _ any p debugger vars => run_lowered any p debugger vars,
    fun p debugger debugger' vars => ?_⟩
  rw [run_lowered]
  exact run_result hlowered.unnoticed hidle.unnoticed p debugger debugger' vars

/-- A debugger that suspends a script before each statement, counts how often, and lets it go
on. -/
def counting : Hooks Nat where
  shouldSuspend _ _ := true
  suspend n _ := (.proceed [], n + 1)

/-- A script that writes to both channels and ends with a value. -/
def twoWrites : Program :=
  [⟨1, 9, .print .stdout true ⟨.literal (.string "a"), [.path "n" []]⟩⟩,
    ⟨2, 10, .print .stderr true ⟨.path "n" ["m"], []⟩⟩,
    ⟨4, 8, .finish ⟨.path "n" [], []⟩⟩]

theorem debugged_result_counting : counting.LetsGoOn ∧ Hooks.none.NeverSuspends ∧
    (twoWrites.run counting 0 [("n", .bool true)]).debugger = 3 ∧
    (Program.run counting 0 [("n", .bool true)] (twoWrites.map Statement.lowered)).writes =
      [(.stdout, "atrue\n"), (.stderr, "null\n")] := by
  have hcounting : counting.LetsGoOn := fun _ _ => rfl
  have hnone : Hooks.none.NeverSuspends := fun _ _ => rfl
  obtain ⟨-, -, -, -, hsame⟩ := debugged_result hcounting hnone "print \"a\" + n"
  have hwrites := congrArg Prod.snd (hsame twoWrites 0 () [("n", .bool true)])
  exact ⟨hcounting, hnone, by decide +kernel, hwrites.trans (by decide +kernel)⟩

end DebugAdapter.Script
