import DebugAdapter.Proofs.Script.ReadBack
import DebugAdapter.Proofs.Script.Unnoticed
import DebugAdapter.Proofs.Variables.Overrides
/-!
# What an expression means

A log message looks up dotted paths, a client has expressions evaluated, and a script computes them.
A path of names leads to the same value in a log message and in a script, which goes on with `null`
where a log message finds nothing (`foldl_memberOrNull`); so evaluating the path gives what it names
(`evaluate_path`). Evaluating any expression is running the script of one line that returns it: both
read it in the same way (`parse_return`). Main statement: `evaluate_agrees`.
-/

namespace DebugAdapter.Script

variable {cs : List Char} {root name : String} {members names : List String}

/-! ## Paths -/

/-- No name is an index. -/
theorem parseIndex?_of_isName (h : isName name.toList = true) : Text.parseIndex? name = none := by
  obtain ⟨c, ds, hname, hc, -⟩ := exists_of_isName h
  have hdigit : c.isDigit = false := by
    by_contra hdigit
    exact absurd hc (by simp [startsName_of_beginsNumber (.inr (Bool.not_eq_false _ ▸ hdigit))])
  have hplus : c ≠ '+' := by
    rintro rfl
    cases hc
  have hnumeral : Text.parseNumeral name = .error .invalidDigit := by
    rw [Text.parseNumeral, hname]
    split
    next heq => cases heq
    next heq => exact absurd (List.cons.inj heq).1 hplus
    next heq => exact absurd (List.cons.inj heq).1 hplus
    · simp [Text.numeralFrom, hdigit]
  rw [Text.parseIndex?, hnumeral]
  rfl

/-- A name leads to the member of an object, and nowhere else. -/
theorem part?_of_isName (h : isName name.toList = true) (v : Json) :
    v.part? name = v.member? name := by
  cases v with
  | array items => simp [Json.part?, Json.member?, parseIndex?_of_isName h]
  | object entries => rfl
  | null | bool b | number n | string s => rfl

theorem getD_descend?_null (names : List String) :
    ((Json.null).descend? names).getD .null = .null := by
  cases names <;> rfl

/-- Names lead a script to what is there, and to `null` where nothing is there. -/
theorem foldl_memberOrNull (h : ∀ name ∈ names, isName name.toList = true) (v : Json) :
    names.foldl memberOrNull v = (v.descend? names).getD .null := by
  induction names generalizing v with
  | nil => rfl
  | cons name names ih =>
    have hname := part?_of_isName (h name List.mem_cons_self) v
    rw [List.foldl_cons, ih fun n hn => h n (List.mem_cons_of_mem name hn), Json.descend?, hname,
      memberOrNull]
    cases v.member? name with
    | none => exact getD_descend?_null names
    | some w => rfl

/-- A path is looked up name by name. -/
theorem lookupPath_path (h : ∀ name ∈ root :: members, isName name.toList = true)
    (vars : Variables) : lookupPath vars (".".intercalate (root :: members)) =
      (vars.find? root).bind fun v => v.descend? members := by
  have hsplit : Text.splitOn '.' (".".intercalate (root :: members)) = root :: members := by
    have hpath : ".".intercalate (root :: members) =
        String.ofList (['.'].intercalate ((root :: members).map String.toList)) := by
      rw [← toList_render_path, String.ofList_toList]
      rfl
    rw [hpath, Text.splitOn_intercalate (by simp) fun name hname =>
      (not_mem_of_isName (h name hname)).1]
  rw [lookupPath, hsplit]

/-- A path is evaluated as the term that it is. -/
theorem evaluate_path (h : (Term.path root members).IsWritable) (scope : Json.Fields) :
    evaluate (Term.path root members).render scope = (Term.path root members).eval scope := by
  have hexpr : Expr.IsWritable ⟨.path root members, []⟩ := by
    intro t ht
    obtain rfl := List.mem_singleton.1 ht
    exact h
  have hrender : (Expr.mk (.path root members) []).render = (Term.path root members).render := by
    simp [Expr.render]
  have hparse := parseExpr_render hexpr
  rw [hrender] at hparse
  rw [evaluate, h.whole.trimChars_eq, hparse]
  simp only [Expr.eval]
  cases (Term.path root members).eval scope <;> rfl

/-! ## Scripts of one line -/

theorem trimChars_return (h : ∃ c ∈ cs, Text.isBlank c = false) :
    Text.trimChars ("return ".toList ++ cs) =
      "return".toList ++ ' ' :: Text.dropEndWhile Text.isBlank cs := by
  obtain ⟨c, hc, hblank⟩ := h
  have hne : Text.dropEndWhile Text.isBlank cs ≠ [] := by
    intro hnil
    have hall : ∀ c ∈ cs, Text.isBlank c = true := List.rdropWhile_eq_nil_iff.1 hnil
    simp [hall c hc] at hblank
  have hfront : ("return ".toList ++ cs).dropWhile Text.isBlank = "return ".toList ++ cs := rfl
  rw [Text.trimChars, hfront, Text.dropEndWhile_append, if_neg hne]
  rfl

/-- What follows the word `return` is read as an expression. -/
theorem parseAction_return (cs : List Char) : parseAction ("return".toList ++ ' ' :: cs) =
    (parseExpr (Text.trimChars cs)).map .finish := by
  have hword : afterWord? "return" ("return".toList ++ ' ' :: cs) = some (Text.trimChars cs) := by
    have htrim : Text.trimChars ([' '] ++ cs) = Text.trimChars cs :=
      Text.trimChars_blank_append (List.all_eq_true.1 (by decide)) cs
    have hspace : Text.isBlank ' ' = true := by decide
    rw [afterWord?, Text.afterPrefix?_append]
    simp only [hspace, if_true]
    exact congrArg some htrim
  have hmore : "return".toList ++ ' ' :: cs ≠ "return".toList := by simp
  rw [parseAction]
  simp (disch := decide) only [afterWord?_eq_none, if_neg hmore, hword]

/-- The script of one line that returns an expression is the statement that does so, or fails to be
read where the expression does. -/
theorem parse_return {text : String} (hblank : ∃ c ∈ text.toList, Text.isBlank c = false)
    (hline : '\n' ∉ text.toList) : ∃ width, Program.parse ("return " ++ text) =
      match parseExpr (Text.trimChars text.toList) with
      | .error misfit => .error (.compile 1 misfit.text)
      | .ok e => .ok [⟨1, width, .finish e⟩] := by
  have htext : ("return " ++ text).toList = "return ".toList ++ text.toList := String.toList_append
  have hlines : Text.linesFrom [] ("return ".toList ++ text.toList) =
      ["return ".toList ++ text.toList] := by
    have hfree : '\n' ∉ "return ".toList ++ text.toList := by simp [hline]
    rw [linesFrom_of_not_mem hfree]
    rfl
  have hspoken (rest : List Char) : isSilent ("return".toList ++ rest) = false := rfl
  refine ⟨UInt32.ofNat
    (Text.dropEndWhile Text.isBlank ("return ".toList ++ text.toList)).length, ?_⟩
  rw [Program.parse, htext, hlines, parseLines, trimChars_return hblank]
  simp only [hspoken, parseAction_return, Text.trimChars_dropEndWhile]
  cases parseExpr (Text.trimChars text.toList) <;> rfl

theorem run_return {σ : Type} {hooks : Hooks σ} (hhooks : hooks.NeverSuspends) (debugger : σ)
    (scope : Json.Fields) (width : UInt32) (e : Expr) :
    (Program.run hooks debugger scope [⟨1, width, .finish e⟩]).outcome = e.eval scope := by
  obtain ⟨debugger', hrun⟩ := hhooks.unnoticed.run_cons debugger ⟨1, width, .finish e⟩ [] scope
  rw [hrun]
  rfl

/-- A dotted path of names that is no word of a literal means the same in a log message and as an
expression: where the message finds a value it is evaluated to that value, and else it is `null`, or
an error if its first name is not bound. And to evaluate an expression on one line is to read and
run the script that returns it, unless a debugger suspends it. -/
theorem evaluate_agrees (hnames : ∀ name ∈ root :: members, isName name.toList = true)
    (hword : members = [] → root ∉ literalWords) (vars : Variables) {text : String}
    (hblank : ∃ c ∈ text.toList, Text.isBlank c = false) (hline : '\n' ∉ text.toList)
    (scope : Json.Fields) {σ : Type} {hooks : Hooks σ} (hhooks : hooks.NeverSuspends)
    (debugger : σ) :
    (evaluate (".".intercalate (root :: members)) (Table.ofList vars) =
      match lookupPath vars (".".intercalate (root :: members)) with
      | some v => .ok v
      | none =>
        if vars.find? root = none then .error (.runtime ("undefined variable `" ++ root ++ "`"))
        else .ok .null) ∧
    evaluate text scope =
      (Program.parse ("return " ++ text)).bind fun p => (p.run hooks debugger scope).outcome := by
  constructor
  · have hpath := evaluate_path ⟨hnames, hword⟩ (Table.ofList vars)
    have hmembers : ∀ name ∈ members, isName name.toList = true :=
      fun name hname => hnames name (List.mem_cons_of_mem root hname)
    rw [lookupPath_path hnames]
    refine hpath.trans ?_
    rw [Term.eval, Table.get?_ofList]
    cases hroot : vars.find? root with
    | none => rfl
    | some v =>
      simp only [foldl_memberOrNull hmembers, Option.bind_some]
      cases v.descend? members <;> rfl
  · obtain ⟨width, hparse⟩ := parse_return hblank hline
    rw [hparse, evaluate]
    cases parseExpr (Text.trimChars text.toList) with
    | error misfit => rfl
    | ok e => exact (run_return hhooks debugger scope width e).symm

/-- A name that is bound twice, the second time to an object with a list in it. -/
def shadowedList : Variables :=
  [("a", .object [("b", .object [("c", .bool true)])]),
    ("a", .object [("b", .array [.bool true]), ("c", .null)])]

/-- The text of what an expression is evaluated to, if it is. -/
def resultText (outcome : Outcome) : Option String :=
  outcome.toOption.map Json.render

theorem evaluate_agrees_shadowedList :
    (∀ name ∈ ["a", "b", "c"], isName name.toList = true) ∧
    (["b", "c"] = [] → "a" ∉ literalWords) ∧
    (∃ c ∈ "\t a.c + \"+\" ".toList, Text.isBlank c = false) ∧
    '\n' ∉ "\t a.c + \"+\" ".toList ∧ Hooks.none.NeverSuspends ∧
    resultText (evaluate "a.b.c" (Table.ofList shadowedList)) = some "null" ∧
    resultText (evaluate "\t a.c + \"+\" " (Table.ofList shadowedList)) = some "\"null+\"" := by
  have hnames : ∀ name ∈ ["a", "b", "c"], isName name.toList = true := by decide
  have hword : ["b", "c"] = [] → "a" ∉ literalWords := by decide
  have hblank : ∃ c ∈ "\t a.c + \"+\" ".toList, Text.isBlank c = false :=
    ⟨'a', by decide, by decide⟩
  have hline : '\n' ∉ "\t a.c + \"+\" ".toList := by decide
  have hnone : Hooks.none.NeverSuspends := fun _ _ => rfl
  obtain ⟨hpath, hrun⟩ := evaluate_agrees hnames hword shadowedList hblank hline
    (Table.ofList shadowedList) hnone ()
  exact ⟨hnames, hword, hblank, hline, hnone,
    (congrArg resultText hpath).trans (by decide +kernel),
    (congrArg resultText hrun).trans (by decide +kernel)⟩

end DebugAdapter.Script
