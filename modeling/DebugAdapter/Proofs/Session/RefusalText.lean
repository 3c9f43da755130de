import DebugAdapter.Proofs.Json.Apart
import DebugAdapter.Session.Handler
/-!
# What a refusal tells of the arguments

A request whose arguments cannot be decoded is refused with a message from which the texts that the
client sent are redacted. `refusal_message_eq_iff` says how much of them is left, for two requests
whose arguments differ in one text : nothing, unless there is a double quote in the text
(`quoted_text_shows`).
-/

namespace DebugAdapter.Session

open Json (Apart DecodeError)
open Protocol (AssignmentArguments BreakpointArguments Command EvaluationArguments LaunchArguments
  Request ThreadArguments VariablesArguments decodeArguments)
open Text (IsPlain quote redact)

/-! ## Decoders of arguments -/

theorem discreet_source : Source.shape.Discreet where
  plain := by decide
  fields := by
    simp [Source.shape, Json.Field.discreet_of Json.Decoder.discreet_text.optional]

theorem discreet_sourceBreakpoint : SourceBreakpoint.shape.Discreet where
  plain := by decide
  fields := by
    simp [SourceBreakpoint.shape, Json.Field.discreet_of Json.Decoder.discreet_unsigned,
      Json.Field.discreet_of Json.Decoder.discreet_unsigned.optional,
      Json.Field.discreet_of Json.Decoder.discreet_text.optional]

theorem discreet_breakpointArguments : BreakpointArguments.shape.Discreet where
  plain := by decide
  fields := by
    have hbreakpoints := (Json.RecordShape.discreet_decode discreet_sourceBreakpoint).list.optional
    simp [BreakpointArguments.shape,
      Json.Field.discreet_of (Json.RecordShape.discreet_decode discreet_source),
      Json.Field.discreet_of hbreakpoints,
      Json.Field.discreet_of Json.Decoder.discreet_unsigned.list.optional]

theorem discreet_threadArguments : ThreadArguments.shape.Discreet where
  plain := by decide
  fields := by
    simp [ThreadArguments.shape, Json.Field.discreet_of Json.Decoder.discreet_signed.optional]

theorem discreet_variablesArguments : VariablesArguments.shape.Discreet where
  plain := by decide
  fields := by
    simp [VariablesArguments.shape, Json.Field.discreet_of Json.Decoder.discreet_signed]

theorem discreet_assignmentArguments : AssignmentArguments.shape.Discreet where
  plain := by decide
  fields := by
    simp [AssignmentArguments.shape, Json.Field.discreet_of Json.Decoder.discreet_signed,
      Json.Field.discreet_of Json.Decoder.discreet_text]

theorem discreet_evaluationArguments : EvaluationArguments.shape.Discreet where
  plain := by decide
  fields := by
    simp [EvaluationArguments.shape, Json.Field.discreet_of Json.Decoder.discreet_text,
      Json.Field.discreet_of Json.Decoder.discreet_signed.optional,
      Json.Field.discreet_of Json.Decoder.discreet_text.optional]

theorem discreet_launchArguments : Json.Decoder.Discreet LaunchArguments.decode := by
  intro s t v w h
  cases h with
  | here => exact .text (by decide)
  | item => exact .same _
  | member => exact .ok _ _

/-! ## Refusals -/

/-- The error with which arguments are refused that a decoder does not take. -/
def refusalBy? {α : Type} (d : Json.Decoder α) (name : String) (arguments : Json) :
    Option DebugError :=
  match decodeArguments name d arguments with
  | .ok _ => none
  | .error e => some e

/-- The error with which a command refuses its arguments, if it has some and cannot decode them. -/
def refusal? (name : String) (arguments : Json) : Command → Option DebugError
  | .launch => refusalBy? LaunchArguments.decode name arguments
  | .setBreakpoints => refusalBy? BreakpointArguments.shape.decode name arguments
  | .resume _ => refusalBy? ThreadArguments.shape.decode name arguments
  | .listVariables => refusalBy? VariablesArguments.shape.decode name arguments
  | .setVariable => refusalBy? AssignmentArguments.shape.decode name arguments
  | .evaluate => refusalBy? EvaluationArguments.shape.decode name arguments
  | _ => none

/-- The refusal of a text where something else was wanted. -/
def refusedText (name wanted s : String) : DebugError :=
  .badArguments name (.wrongType (.string s) wanted)

variable {s t : String} {v w : Json}

/-- Arguments that are apart are refused for the same reason, or each for its text. -/
theorem refusalBy?_apart {α : Type} {d : Json.Decoder α} (hd : d.Discreet) (h : Apart s t v w)
    {name : String} {e : DebugError} (he : refusalBy? d name v = some e) :
    ∃ e', refusalBy? d name w = some e' ∧ (e' = e ∨ ∃ wanted, IsPlain wanted ∧
      e = refusedText name wanted s ∧ e' = refusedText name wanted t) := by
  have halike := hd h
  simp only [refusalBy?, decodeArguments, h.isNull_left, h.isNull_right, Bool.false_eq_true,
    if_false] at he ⊢
  generalize d v = x at he halike
  generalize d w = y at halike
  cases halike with
  | ok => cases he
  | same e₀ => exact ⟨_, rfl, .inl (Option.some.inj he)⟩
  | text hplain => exact ⟨_, rfl, .inr ⟨_, hplain, (Option.some.inj he).symm, rfl⟩⟩

theorem refusal?_apart (h : Apart s t v w) {c : Command} {name : String} {e : DebugError}
    (he : refusal? name v c = some e) :
    ∃ e', refusal? name w c = some e' ∧ (e' = e ∨ ∃ wanted, IsPlain wanted ∧
      e = refusedText name wanted s ∧ e' = refusedText name wanted t) := by
  cases c with
  | launch => exact refusalBy?_apart discreet_launchArguments h he
  | setBreakpoints =>
    exact refusalBy?_apart (Json.RecordShape.discreet_decode discreet_breakpointArguments) h he
  | resume =>
    exact refusalBy?_apart (Json.RecordShape.discreet_decode discreet_threadArguments) h he
  | listVariables =>
    exact refusalBy?_apart (Json.RecordShape.discreet_decode discreet_variablesArguments) h he
  | setVariable =>
    exact refusalBy?_apart (Json.RecordShape.discreet_decode discreet_assignmentArguments) h he
  | evaluate =>
    exact refusalBy?_apart (Json.RecordShape.discreet_decode discreet_evaluationArguments) h he
  | _ => cases he

/-- A command that cannot decode its arguments refuses the request and does nothing else. -/
theorem handle_of_refusal? {σ : State} {request : Request} {c : Command} {e : DebugError}
    (h : refusal? request.command request.arguments c = some e) :
    σ.handle request c = (σ, refuse request e) := by
  cases c <;> simp only [refusal?, refusalBy?] at h <;> (try split at h) <;> cases h <;>
    simp only [State.handle, withArguments, *]

/-! ## Messages -/

theorem isPlain_append {p q : String} (hp : IsPlain p) (hq : IsPlain q) : IsPlain (p ++ q) := by
  simp [IsPlain, hp.1, hp.2, hq.1, hq.2]

/-- The message of a refused text is plain but for the text. -/
theorem message_refusedText {wanted : String} (hplain : IsPlain wanted) (name s : String) :
    (refusedText name wanted s).message = "invalid " ++ name ++ " arguments: " ++
      ("invalid type: string " ++ redact (quote s) ++ (", expected " ++ wanted)) := by
  have hleft : IsPlain "invalid type: string " := by decide
  have hright : IsPlain (", expected " ++ wanted) := isPlain_append (by decide) hplain
  have hwords : "invalid type: string " = "invalid type: " ++ "string " := by decide +kernel
  have hmessage : (DecodeError.wrongType (.string s) wanted).message =
      "invalid type: string " ++ quote s ++ (", expected " ++ wanted) := calc
    _ = "invalid type: " ++ ("string " ++ quote s) ++ ", expected " ++ wanted := rfl
    _ = _ := by simp only [hwords, String.append_assoc]
  calc
    _ = "invalid " ++ name ++ " arguments: " ++
        redact (DecodeError.wrongType (.string s) wanted).message := rfl
    _ = _ := by rw [hmessage, Text.redact_around hleft hright]

theorem message_refusedText_inj {wanted : String} (hplain : IsPlain wanted) (name s t : String) :
    (refusedText name wanted t).message = (refusedText name wanted s).message ↔
      redact (quote s) = redact (quote t) := by
  rw [message_refusedText hplain, message_refusedText hplain]
  simp only [← String.toList_inj, String.toList_append, List.append_cancel_left_eq,
    List.append_cancel_right_eq]
  exact eq_comm

/-- Arguments that differ in one text are refused or taken both. The two refusals read the same if
and only if their reason is the same, or the texts are the same once they are quoted and redacted;
and that leaves nothing of a text in which there is no double quote, but something of all others. -/
theorem refusal_message_eq_iff (c : Command) (name : String) :
    (∀ {s t : String} {v w : Json}, Apart s t v w → ∀ e, refusal? name v c = some e →
      ∃ e', refusal? name w c = some e' ∧ (e'.message = e.message ↔
        e' = e ∨ redact (quote s) = redact (quote t))) ∧
    (∀ u, redact (quote u) = "\"<redacted>\"" ↔ '"' ∉ u.toList) ∧
    ∀ (σ : State) (request : Request) (e : DebugError),
      refusal? request.command request.arguments c = some e →
      σ.handle request c = (σ, refuse request e) := by
  refine ⟨fun h e he => ?_, Text.redact_quote_eq_iff, fun _ _ _ => handle_of_refusal?⟩
  obtain ⟨e', he', hcases⟩ := refusal?_apart h he
  refine ⟨e', he', ?_⟩
  rcases hcases with rfl | ⟨wanted, hplain, rfl, rfl⟩
  · exact iff_of_true rfl (.inl rfl)
  · rw [message_refusedText_inj hplain]
    refine ⟨.inr, fun h => ?_⟩
    rcases h with heq | heq
    · simp only [refusedText, DebugError.badArguments.injEq, DecodeError.wrongType.injEq,
        Json.Found.string.injEq, and_true, true_and] at heq
      rw [heq]
    · exact heq

/-- Arguments for setting breakpoints with a text for a line. -/
def textForLine (s : String) : Json :=
  .object [("source", .object [("path", .string "a.ms")]),
    ("breakpoints", .array [.object [("line", Json.ofInt 1)], .object [("line", .string s)]])]

theorem apart_textForLine (s t : String) : Apart s t (textForLine s) (textForLine t) :=
  .member [_] [] "breakpoints" (.item [_] [] (.member [] [] "line" .here))

/-- A backslash and a backtick in a text do not show. -/
theorem refusal_message_eq_iff_textForLine : ∃ e e',
    refusal? "setBreakpoints" (textForLine "hunter2") .setBreakpoints = some e ∧
      refusal? "setBreakpoints" (textForLine "a\\\x60") .setBreakpoints = some e' ∧
      e'.message = e.message := by
  have htells := refusal_message_eq_iff .setBreakpoints "setBreakpoints"
  have hhidden (s : String) (h : '"' ∉ s.toList) := (htells.2.1 s).2 h
  obtain ⟨e', he', hmessage⟩ := htells.1 (apart_textForLine "hunter2" "a\\\x60")
    (refusedText "setBreakpoints" "u32" "hunter2") rfl
  refine ⟨_, e', rfl, he', hmessage.2 (.inr ?_)⟩
  rw [hhidden "hunter2" (by decide), hhidden "a\\\x60" (by decide)]

/-- Arguments for listing variables with a text for the reference. -/
def textForReference (s : String) : Json :=
  .object [("variablesReference", .string s)]

/-- What follows a double quote in a text shows. -/
theorem quoted_text_shows :
    Apart "a\"hunter2" "a\"public" (textForReference "a\"hunter2") (textForReference "a\"public") ∧
      ((refusal? "variables" (textForReference "a\"hunter2") .listVariables).map
          DebugError.message =
        some ("invalid variables arguments: invalid type: string \"<redacted>\"hunter2\", " ++
          "expected i64")) ∧
      (refusal? "variables" (textForReference "a\"public") .listVariables).map DebugError.message =
        some ("invalid variables arguments: invalid type: string \"<redacted>\"public\", " ++
          "expected i64") :=
  ⟨.member [] [] "variablesReference" .here, by decide +kernel, by decide +kernel⟩

end DebugAdapter.Session
