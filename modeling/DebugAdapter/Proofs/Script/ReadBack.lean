import DebugAdapter.Proofs.Script.Instrumented
import DebugAdapter.Proofs.Script.Pieces
import DebugAdapter.Proofs.Text.Split
/-!
# Statements read back

What statements are written as, one a line, is read back as these statements (`parse_writeActions`).
The statements are those that a script can hold (`Action.IsWritable`): names are names, no path is a
word that is a literal, and the compact text of each literal is read back.

A term is read back off any piece that is its text but for blanks (`parseTerm_of_trim`), a chain off
its pieces (`parseExpr_render`) and a statement behind its word (`parseAction_render`).
-/

namespace DebugAdapter.Script

variable {c : Char} {cs ds : List Char}

/-! ## What a script can hold -/

/-- Whether a script can hold a term. -/
def Term.IsWritable : Term → Prop
  | literal value => value.Restorable 127
  | path root members =>
    (∀ name ∈ root :: members, isName name.toList = true) ∧ (members = [] → root ∉ literalWords)

/-- Whether a script can hold all terms of a chain. -/
def Expr.IsWritable (e : Expr) : Prop :=
  ∀ t ∈ e.first :: e.more, t.IsWritable

/-- Whether a script can hold a statement. What it writes to the error channel ends its line. -/
def Action.IsWritable : Action → Prop
  | assign name value => isName name.toList = true ∧ value.IsWritable
  | print channel newline value => (channel = .stderr → newline = true) ∧ value.IsWritable
  | finish value | fail value => value.IsWritable

/-- The text of a script that has one statement a line. -/
def writeActions (actions : List Action) : String :=
  "\n".intercalate (actions.map Action.render)

/-! ## Names -/

theorem toNat_of_isAlpha (h : c.isAlpha = true) :
    65 ≤ c.toNat ∧ c.toNat ≤ 90 ∨ 97 ≤ c.toNat ∧ c.toNat ≤ 122 := by
  have hcases : (decide (c.val ≥ 'A'.val ∧ c.val ≤ 'Z'.val) ||
      decide (c.val ≥ 'a'.val) && decide (c.val ≤ 'z'.val)) = true := h
  simp only [Bool.or_eq_true, Bool.and_eq_true, decide_eq_true_eq] at hcases
  exact hcases

theorem isPlain_of_continuesName (h : continuesName c = true) :
    isPlain c = true ∧ c ≠ '.' ∧ c ≠ '=' ∧ c ≠ '+' := by
  have hrange : 48 ≤ c.toNat ∧ c.toNat ≤ 57 ∨ 65 ≤ c.toNat ∧ c.toNat ≤ 90 ∨ c.toNat = 95 ∨
      97 ≤ c.toNat ∧ c.toNat ≤ 122 := by
    simp only [continuesName, Char.isAlphanum, Bool.or_eq_true, beq_iff_eq] at h
    rcases h with (hletter | hdigit) | rfl
    · rcases toNat_of_isAlpha hletter with hupper | hlower
      · exact .inr (.inl hupper)
      · exact .inr (.inr (.inr hlower))
    · exact .inl (Json.toNat_of_isDigit hdigit)
    · decide
  have hne {d : Char} (hd : d.toNat < 48 ∨ 57 < d.toNat ∧ d.toNat < 65 ∨
      90 < d.toNat ∧ d.toNat < 95 ∨ 122 < d.toNat) : c ≠ d := by
    rintro rfl
    omega
  have hblank : Text.isBlank c = false := isBlank_of_ascii (by omega) (by omega)
  refine ⟨?_, hne (by decide), hne (by decide), hne (by decide)⟩
  simp [isPlain, hblank, hne]

theorem exists_of_isName (h : isName cs = true) :
    ∃ c ds, cs = c :: ds ∧ startsName c = true ∧ ∀ d ∈ cs, continuesName d = true := by
  cases cs with
  | nil => cases h
  | cons c cs =>
    simp only [isName, Bool.and_eq_true, List.all_eq_true] at h
    have hc : continuesName c = true := by
      have := h.1
      simp only [startsName, continuesName, Char.isAlphanum, Bool.or_eq_true] at this ⊢
      tauto
    refine ⟨c, cs, rfl, h.1, ?_⟩
    simpa [hc] using h.2

theorem not_mem_of_isName (h : isName cs = true) : '.' ∉ cs ∧ '=' ∉ cs := by
  obtain ⟨_, _, -, -, hcs⟩ := exists_of_isName h
  exact ⟨fun hmem => (isPlain_of_continuesName (hcs _ hmem)).2.1 rfl,
    fun hmem => (isPlain_of_continuesName (hcs _ hmem)).2.2.1 rfl⟩

/-! ## Terms -/

/-- The characters of a path. -/
theorem toList_render_path (root : String) (members : List String) :
    (Term.path root members).render.toList =
      ['.'].intercalate ((root :: members).map String.toList) :=
  String.toList_intercalate

theorem whole_path {root : String} {members : List String}
    (h : ∀ name ∈ root :: members, isName name.toList = true) :
    Whole (Term.path root members).render.toList := by
  have hplain : ∀ c ∈ (Term.path root members).render.toList, isPlain c = true := by
    intro c hc
    rw [toList_render_path] at hc
    rcases Text.mem_intercalate hc with hc | ⟨l, hl, hc⟩
    · obtain rfl := List.mem_singleton.1 hc
      decide
    · obtain ⟨name, hname, rfl⟩ := List.mem_map.1 hl
      obtain ⟨_, _, -, -, hall⟩ := exists_of_isName (h name hname)
      exact (isPlain_of_continuesName (hall c hc)).1
  obtain ⟨c, ds, hroot, -, hall⟩ := exists_of_isName (h root List.mem_cons_self)
  have hc : c ≠ '+' := (isPlain_of_continuesName (hall c (by simp [hroot]))).2.2.2
  obtain ⟨rest, hrest⟩ : ∃ rest, (Term.path root members).render.toList = c :: rest := by
    rw [toList_render_path, List.map_cons, hroot]
    cases members with
    | nil => exact ⟨ds, by simp⟩
    | cons m members => exact ⟨_, by rw [List.map_cons, List.intercalate_cons_cons]; rfl⟩
  rw [hrest] at hplain ⊢
  exact whole_of_plain hplain hc

theorem Term.IsWritable.whole {t : Term} (h : t.IsWritable) : Whole t.render.toList := by
  cases t with
  | literal value =>
    have htext : (literal value).render.toList = value.renderChars := String.toList_ofList
    exact htext ▸ whole_renderChars value
  | path root members => exact whole_path h.1

/-- A path is read off its text, unless it is the word of a literal. -/
theorem pathOf?_path {root : String} {members : List String}
    (h : (Term.path root members).IsWritable) :
    pathOf? (Term.path root members).render.toList = some (.path root members) := by
  obtain ⟨hnames, hword⟩ := h
  have hsegments : Text.splitChars '.' (Term.path root members).render.toList =
      (root :: members).map String.toList := by
    rw [toList_render_path, List.map_cons]
    refine Text.splitChars_intercalate fun l hl => ?_
    obtain ⟨name, hname, rfl⟩ := List.mem_map.1 (List.map_cons ▸ hl)
    exact (not_mem_of_isName (hnames name hname)).1
  have hall : ((root :: members).map String.toList).all isName = true := by
    simpa [List.all_eq_true] using hnames
  have hfree : (Term.path root members).render ∉ literalWords := by
    cases members with
    | nil => simpa [Term.render] using hword rfl
    | cons m members =>
      intro hmem
      have hpoint : '.' ∈ (Term.path root (m :: members)).render.toList := by
        rw [toList_render_path, List.map_cons, List.map_cons, List.intercalate_cons_cons]
        simp
      have hwords : ∀ w ∈ literalWords, '.' ∉ w.toList := by decide
      exact hwords _ hmem hpoint
  have hcontains : literalWords.contains (Term.path root members).render = false := by
    simpa using hfree
  have hback : ((root :: members).map String.toList).map String.ofList = root :: members := by
    simp
  simp only [pathOf?, hsegments, hall, String.ofList_toList, hcontains, hback, Bool.not_false,
    Bool.and_self, if_true]

theorem pathOf?_of_head (h : startsName c = false) : pathOf? (c :: cs) = none := by
  have hall : (Text.splitChars '.' (c :: cs)).all isName = false := by
    rw [Text.splitChars]
    split
    · simp [isName]
    · split <;> simp [isName, h]
  simp [pathOf?, hall]

theorem startsName_of_beginsNumber (h : c = '-' ∨ c.isDigit = true) : startsName c = false := by
  rcases h with rfl | h
  · decide
  · have hrange := Json.toNat_of_isDigit h
    refine Bool.eq_false_iff.2 fun hstarts => ?_
    simp only [startsName, Bool.or_eq_true, beq_iff_eq] at hstarts
    rcases hstarts with hletter | rfl
    · have hletters := toNat_of_isAlpha hletter
      omega
    · revert hrange
      decide

/-- No literal is read as a path. -/
theorem pathOf?_renderChars (v : Json) : pathOf? v.renderChars = none := by
  cases v with
  | null => decide
  | bool b => cases b <;> decide
  | number n =>
    obtain ⟨c, cs, hrender, hc⟩ := beginsNumber_render n
    have htext : (Json.number n).renderChars = c :: cs := hrender
    rw [htext]
    exact pathOf?_of_head (startsName_of_beginsNumber hc)
  | string s => exact pathOf?_of_head (by decide)
  | array items => exact pathOf?_of_head (by decide)
  | object entries => exact pathOf?_of_head (by decide)

/-- A term is read off a piece that is its text but for blanks. -/
theorem parseTerm_of_trim {t : Term} (h : t.IsWritable)
    (htrim : Text.trimChars cs = t.render.toList) :
    parseTerm cs = .ok t := by
  have hne : t.render.toList.isEmpty = false := by
    obtain ⟨c, hc, -⟩ := h.whole.getLast?_eq
    cases htext : t.render.toList with
    | nil => simp [htext] at hc
    | cons c cs => rfl
  cases t with
  | literal value =>
    have htext : (Term.literal value).render.toList = value.renderChars := String.toList_ofList
    rw [htext] at htrim hne
    have hparse : Json.parse (Utf8.encode value.renderChars) = .ok value := Json.parse_body h
    simp only [parseTerm, htrim, hne, pathOf?_renderChars, hparse, if_false, Bool.false_eq_true]
  | path root members =>
    simp only [parseTerm, htrim, hne, pathOf?_path h, if_false, Bool.false_eq_true]

/-! ## Chains -/

theorem mapM_parseTerm {ts : List Term} (h : ∀ t ∈ ts, t.IsWritable) {pieces : List (List Char)}
    (hpieces : pieces.map Text.trimChars = ts.map fun t => t.render.toList) :
    pieces.mapM parseTerm = .ok ts := by
  induction ts generalizing pieces with
  | nil =>
    obtain rfl := List.map_eq_nil_iff.1 hpieces
    rfl
  | cons t ts ih =>
    cases pieces with
    | nil => cases hpieces
    | cons piece pieces =>
      obtain ⟨htrim, hrest⟩ := List.cons.inj hpieces
      rw [List.mapM_cons, parseTerm_of_trim (h t List.mem_cons_self) htrim,
        ih (fun u hu => h u (List.mem_cons_of_mem t hu)) hrest]
      rfl

/-- The characters of a chain. -/
theorem toList_render_expr (e : Expr) : e.render.toList =
    [' ', '+', ' '].intercalate ((e.first :: e.more).map fun t => t.render.toList) := by
  rw [Expr.render, String.toList_intercalate]
  simp [Function.comp_def]

theorem parseExpr_render {e : Expr} (h : e.IsWritable) : parseExpr e.render.toList = .ok e := by
  have hpieces : (splitPlus e.render.toList).map Text.trimChars =
      (e.first :: e.more).map fun t => t.render.toList := by
    rw [toList_render_expr, List.map_cons]
    refine trim_splitPlus fun w hw => ?_
    have hw : w ∈ (e.first :: e.more).map fun t => t.render.toList := hw
    obtain ⟨t, ht, rfl⟩ := List.mem_map.1 hw
    exact (h t ht).whole
  rw [parseExpr, mapM_parseTerm h hpieces]
  rfl

/-! ## Lines -/

/-- Whether a text stands on one line, without blanks at its ends. -/
structure Snug (cs : List Char) : Prop where
  begins : ∃ c, cs.head? = some c ∧ Text.isBlank c = false
  ends : ∃ c, cs.getLast? = some c ∧ Text.isBlank c = false
  oneLine : '\n' ∉ cs

theorem Whole.snug (h : Whole cs) : Snug cs where
  begins := by
    obtain ⟨c, hc, -⟩ := h.getLast?_eq
    cases cs with
    | nil => cases hc
    | cons d cs => exact ⟨d, rfl, h.begins d rfl⟩
  ends := h.getLast?_eq
  oneLine := h.oneLine

namespace Snug

theorem trimChars_eq (h : Snug cs) : Text.trimChars cs = cs := by
  obtain ⟨c, hc, hblank⟩ := h.begins
  obtain ⟨d, hd, hblank'⟩ := h.ends
  exact Text.trimChars_eq_self (by simpa [hc] using hblank) (by simpa [hd] using hblank')

theorem dropEndWhile_eq (h : Snug cs) : Text.dropEndWhile Text.isBlank cs = cs := by
  obtain ⟨d, hd, hblank⟩ := h.ends
  exact Text.dropEndWhile_eq_self_iff.2 (by simpa [hd] using hblank)

theorem dropReturn_eq (h : Snug cs) : Text.dropReturn cs = cs := by
  obtain ⟨d, hd, hblank⟩ := h.ends
  refine if_neg fun hreturn => ?_
  rw [hd] at hreturn
  obtain rfl := Option.some.inj hreturn
  exact absurd hblank (by decide)

theorem append (h : Snug cs) {between : List Char} (hbetween : '\n' ∉ between) (h' : Snug ds) :
    Snug (cs ++ between ++ ds) where
  begins := by
    obtain ⟨c, hc, hblank⟩ := h.begins
    exact ⟨c, by simp [hc], hblank⟩
  ends := by
    obtain ⟨c, hc, hblank⟩ := h'.ends
    exact ⟨c, by simp [List.getLast?_append, hc], hblank⟩
  oneLine := by simp [h.oneLine, hbetween, h'.oneLine]

theorem intercalate {sep l : List Char} {ls : List (List Char)} (hsep : '\n' ∉ sep)
    (h : ∀ m ∈ l :: ls, Snug m) : Snug (sep.intercalate (l :: ls)) := by
  induction ls generalizing l with
  | nil => simpa using h l List.mem_cons_self
  | cons m ls ih =>
    rw [List.intercalate_cons_cons]
    exact (h l List.mem_cons_self).append hsep (ih fun n hn => h n (List.mem_cons_of_mem l hn))

end Snug

theorem snug_render_expr {e : Expr} (h : e.IsWritable) : Snug e.render.toList := by
  rw [toList_render_expr, List.map_cons]
  refine Snug.intercalate (by decide) fun w hw => ?_
  have hw : w ∈ (e.first :: e.more).map fun t => t.render.toList := hw
  obtain ⟨t, ht, rfl⟩ := List.mem_map.1 hw
  exact (h t ht).whole.snug

/-! ## Statements -/

theorem snug_of_isName (h : isName cs = true) : Snug cs := by
  obtain ⟨c, ds, rfl, -, hall⟩ := exists_of_isName h
  have hplain : ∀ d ∈ c :: ds, isPlain d = true :=
    fun d hd => (isPlain_of_continuesName (hall d hd)).1
  exact (whole_of_plain hplain (isPlain_of_continuesName (hall c List.mem_cons_self)).2.2.2).snug

/-- The text behind a word is what follows it. -/
theorem afterWord?_append (word : String) (h : Snug cs) :
    afterWord? word (word.toList ++ ' ' :: cs) = some cs := by
  have htrim : Text.trimChars (' ' :: cs) = cs := by
    have hblank : Text.trimChars ([' '] ++ cs) = Text.trimChars cs :=
      Text.trimChars_blank_append (List.all_eq_true.1 (by decide)) cs
    exact hblank.trans h.trimChars_eq
  have hspace : Text.isBlank ' ' = true := by decide
  rw [afterWord?, Text.afterPrefix?_append]
  simp only [hspace, if_true, htrim]

theorem afterPrefix?_eq_none {front : List Char} (h : ¬front <+: cs) (h' : ¬cs <+: front)
    (ds : List Char) : Text.afterPrefix? front (cs ++ ds) = none := by
  induction front generalizing cs with
  | nil => exact absurd (List.nil_prefix) h
  | cons f front ih =>
    cases cs with
    | nil => exact absurd (List.nil_prefix) h'
    | cons c cs =>
      rw [List.cons_append, Text.afterPrefix?]
      split
      next heq =>
        subst heq
        exact ih (by simpa using h) (by simpa using h')
      · rfl

/-- A statement with another word is none with this word. -/
theorem afterWord?_eq_none {word other : String} (h : ¬word.toList <+: other.toList)
    (h' : ¬other.toList <+: word.toList) (cs : List Char) :
    afterWord? word (other.toList ++ cs) = none := by
  rw [afterWord?, afterPrefix?_eq_none h h']

theorem parseAssignment_append {name : List Char} {e : Expr} (hname : isName name = true)
    (h : e.IsWritable) : parseAssignment (name ++ [' '] ++ '=' :: ' ' :: e.render.toList) =
      .ok (.assign (String.ofList name) e) := by
  have hcut : Text.cutAt? '=' (name ++ [' '] ++ '=' :: ' ' :: e.render.toList) =
      some (name ++ [' '], ' ' :: e.render.toList) :=
    Text.cutAt?_append_cons (by simp [(not_mem_of_isName hname).2]) _
  have hbefore : Text.trimChars (name ++ [' ']) = name := by
    rw [Text.trimChars_append_blank (List.all_eq_true.1 (by decide)),
      (snug_of_isName hname).trimChars_eq]
  have hafter : Text.trimChars (' ' :: e.render.toList) = e.render.toList := by
    have hblank : Text.trimChars ([' '] ++ e.render.toList) = Text.trimChars e.render.toList :=
      Text.trimChars_blank_append (List.all_eq_true.1 (by decide)) e.render.toList
    exact hblank.trans (snug_render_expr h).trimChars_eq
  simp only [parseAssignment, hcut, hbefore, hname, hafter, parseExpr_render h, if_true]
  rfl

/-- A text with a word of a statement in front is read with that word, and with no other one. -/
theorem afterWord?_word {word other : String} (h : Snug cs)
    (hwords : word = other ∨ ¬word.toList <+: other.toList ∧ ¬other.toList <+: word.toList) :
    afterWord? word (other.toList ++ ' ' :: cs) = if word = other then some cs else none := by
  by_cases heq : word = other
  · rw [if_pos heq, heq, afterWord?_append other h]
  · obtain ⟨hword, hother⟩ := hwords.resolve_left heq
    rw [if_neg heq, afterWord?_eq_none hword hother]

/-- The text of a statement that has a word in front. -/
theorem toList_word_append (word : String) (e : Expr) :
    (word ++ " " ++ e.render).toList = word.toList ++ ' ' :: e.render.toList := by
  simp

/-- A statement is read off its text. -/
theorem parseAction_render {a : Action} (h : a.IsWritable) :
    parseAction a.render.toList = .ok a := by
  cases a with
  | assign name e =>
    obtain ⟨hname, he⟩ := h
    have htext : (Action.assign name e).render.toList =
        "var".toList ++ ' ' :: (name.toList ++ [' '] ++ '=' :: ' ' :: e.render.toList) := by
      simp [Action.render]
    have hsnug : Snug (name.toList ++ [' '] ++ '=' :: ' ' :: e.render.toList) := by
      have happend : Snug (name.toList ++ [' ', '=', ' '] ++ e.render.toList) :=
        (snug_of_isName hname).append (by decide) (snug_render_expr he)
      simpa using happend
    rw [htext, parseAction, afterWord?_append "var" hsnug]
    simpa using parseAssignment_append hname he
  | print channel newline e =>
    obtain ⟨hnewline, he⟩ := h
    have hword := snug_render_expr he
    rw [Action.render, toList_word_append, parseAction]
    match channel, newline with
    | .stdout, true | .stderr, true | .stdout, false =>
      simp (disch := decide) only [printWord, afterWord?_word hword, parseExpr_render he,
        String.reduceEq, reduceIte]
      rfl
    | .stderr, false => cases hnewline rfl
  | finish e =>
    have hword := snug_render_expr h
    have htext : (Action.finish e).render.toList =
        "return".toList ++ ' ' :: e.render.toList := toList_word_append "return" e
    have hmore : "return".toList ++ ' ' :: e.render.toList ≠ "return".toList := by simp
    rw [htext, parseAction]
    simp (disch := decide) only [afterWord?_word hword, if_neg hmore, parseExpr_render h,
      String.reduceEq, reduceIte]
    rfl
  | fail e =>
    have hword := snug_render_expr h
    have htext : (Action.fail e).render.toList =
        "throw".toList ++ ' ' :: e.render.toList := toList_word_append "throw" e
    have hother : "throw".toList ++ ' ' :: e.render.toList ≠ "return".toList := by simp
    rw [htext, parseAction]
    simp (disch := decide) only [afterWord?_word hword, if_neg hother, parseExpr_render h,
      String.reduceEq, reduceIte]
    rfl

/-! ## Whole scripts -/

/-- A statement begins with a word. -/
theorem exists_render_action {a : Action} (h : a.IsWritable) : ∃ word rest,
    isName word = true ∧ Snug rest ∧ a.render.toList = word ++ [' '] ++ rest := by
  have hexpr (word : String) (hword : isName word.toList = true) {e : Expr} (he : e.IsWritable) :
      ∃ w rest, isName w = true ∧ Snug rest ∧
        (word ++ " " ++ e.render).toList = w ++ [' '] ++ rest :=
    ⟨word.toList, e.render.toList, hword, snug_render_expr he, by simp⟩
  cases a with
  | assign name e =>
    refine ⟨"var".toList, name.toList ++ [' ', '=', ' '] ++ e.render.toList, by decide, ?_, ?_⟩
    · exact (snug_of_isName h.1).append (by decide) (snug_render_expr h.2)
    · simp [Action.render]
  | print channel newline e =>
    refine hexpr (printWord channel newline) ?_ h.2
    cases channel <;> cases newline <;> decide
  | finish e => exact hexpr "return" (by decide) h
  | fail e => exact hexpr "throw" (by decide) h

theorem snug_render_action {a : Action} (h : a.IsWritable) : Snug a.render.toList := by
  obtain ⟨word, rest, hword, hrest, htext⟩ := exists_render_action h
  rw [htext]
  exact (snug_of_isName hword).append (by decide) hrest

theorem isSilent_render {a : Action} (h : a.IsWritable) : isSilent a.render.toList = false := by
  obtain ⟨word, rest, hword, -, htext⟩ := exists_render_action h
  obtain ⟨c, ds, rfl, hc, -⟩ := exists_of_isName hword
  have hslash : c ≠ '/' := by
    rintro rfl
    cases hc
  rw [htext]
  simp [isSilent, List.isPrefixOf, Ne.symm hslash]

/-- Lines of statements are read as these statements, each on its line. -/
theorem parseLines_render {actions : List Action} (h : ∀ a ∈ actions, a.IsWritable) (n : Nat) :
    parseLines (UInt32.ofNat (n + 1)) (actions.map fun a => a.render.toList) =
      .ok (actions.mapIdx fun k a =>
        ⟨UInt32.ofNat (n + k + 1), UInt32.ofNat a.render.length, a⟩) := by
  induction actions generalizing n with
  | nil => rfl
  | cons a actions ih =>
    have ha := h a List.mem_cons_self
    have hsnug := snug_render_action ha
    have hrest := ih (fun b hb => h b (List.mem_cons_of_mem a hb)) (n + 1)
    have hline : UInt32.ofNat (n + 1) + 1 = UInt32.ofNat (n + 1 + 1) := (UInt32.ofNat_add _ 1).symm
    rw [List.map_cons, parseLines, hsnug.trimChars_eq]
    simp only
    rw [if_neg (by simp [isSilent_render ha]), parseAction_render ha, hline, hrest,
      hsnug.dropEndWhile_eq, String.length_toList]
    have hshift (k : Nat) : n + 1 + k + 1 = n + (k + 1) + 1 := by omega
    simp only [List.mapIdx_cons, hshift]
    rfl

theorem linesFrom_of_not_mem (h : '\n' ∉ cs) (line : List Char) :
    Text.linesFrom line cs =
      if (line.reverse ++ cs).isEmpty then [] else [line.reverse ++ cs] := by
  induction cs generalizing line with
  | nil => cases line <;> simp [Text.linesFrom]
  | cons c cs ih =>
    obtain ⟨hc, hcs⟩ := not_or.1 (mt List.mem_cons.2 h)
    rw [Text.linesFrom, if_neg (Ne.symm hc), ih hcs]
    simp

/-- The lines of texts that are put together with line feeds, one more of which may follow. -/
theorem linesFrom_intercalate {l : List Char} {ls : List (List Char)} (h : ∀ m ∈ l :: ls, Snug m)
    {back : List Char} (hback : back = [] ∨ back = ['\n']) :
    Text.linesFrom [] (['\n'].intercalate (l :: ls) ++ back) = l :: ls := by
  have hl := h l List.mem_cons_self
  induction ls generalizing l with
  | nil =>
    rw [List.intercalate_singleton]
    rcases hback with rfl | rfl
    · obtain ⟨c, hc, -⟩ := hl.begins
      rw [List.append_nil, linesFrom_of_not_mem hl.oneLine]
      cases l with
      | nil => cases hc
      | cons d ds => rfl
    · rw [linesFrom_append_cons hl.oneLine, List.reverse_nil, List.nil_append, hl.dropReturn_eq]
      rfl
  | cons m ls ih =>
    have hm : ∀ n ∈ m :: ls, Snug n := fun n hn => h n (List.mem_cons_of_mem l hn)
    rw [List.intercalate_cons_cons, List.append_assoc, List.append_assoc, List.singleton_append,
      linesFrom_append_cons hl.oneLine, List.reverse_nil, List.nil_append, hl.dropReturn_eq,
      ih hm (hm m List.mem_cons_self)]

/-- Statements that are written one a line, with or without a line feed at the end, are read back,
each on its line. -/
theorem parse_writeActions {actions : List Action} (h : ∀ a ∈ actions, a.IsWritable) :
    ∀ back ∈ ["", "\n"], Program.parse (writeActions actions ++ back) =
      .ok (actions.mapIdx fun k a => ⟨UInt32.ofNat (k + 1), UInt32.ofNat a.render.length, a⟩) := by
  intro back hback
  have hback : back.toList = [] ∨ back.toList = ['\n'] := by
    simp only [List.mem_cons, List.not_mem_nil, or_false] at hback
    rcases hback with rfl | rfl
    · exact .inl rfl
    · exact .inr rfl
  have htext : (writeActions actions ++ back).toList =
      ['\n'].intercalate (actions.map fun a => a.render.toList) ++ back.toList := by
    rw [writeActions, String.toList_append, String.toList_intercalate, List.map_map]
    rfl
  have hlines := parseLines_render h 0
  simp only [Nat.zero_add] at hlines
  rw [Program.parse, htext]
  cases actions with
  | nil => rcases hback with hback | hback <;> rw [hback] <;> rfl
  | cons a actions =>
    rw [List.map_cons, linesFrom_intercalate (fun l hl => ?_) hback]
    · exact hlines
    · have hl : l ∈ (a :: actions).map fun a => a.render.toList := hl
      obtain ⟨b, hb, rfl⟩ := List.mem_map.1 hl
      exact snug_render_action (h b hb)

/-- Statements whose texts hold plus signs, quotes, brackets, slashes and words of statements. -/
def trickyActions : List Action :=
  [.assign "var" ⟨.literal (.string "// a + \"b\" = ["), [.path "print" ["true"]]⟩,
    .finish ⟨.literal (.array [.string " + ", .null]), []⟩]

theorem parse_writeActions_tricky : (∀ a ∈ trickyActions, a.IsWritable) ∧
    writeActions trickyActions =
      "var var = \"// a + \\\"b\\\" = [\" + print.true\nreturn [\" + \",null]" ∧
    Program.parse (writeActions trickyActions ++ "\n") = .ok (trickyActions.mapIdx fun k a =>
      ⟨UInt32.ofNat (k + 1), UInt32.ofNat a.render.length, a⟩) := by
  have hpath : (Term.path "print" ["true"]).IsWritable := ⟨by decide, by simp⟩
  have harray : Json.Restorable 127 (.array [.string " + ", .null]) := by
    refine .array fun v hv => ?_
    simp only [List.mem_cons, List.not_mem_nil, or_false] at hv
    rcases hv with rfl | rfl
    · exact .string _
    · exact .null
  have hwritable : ∀ a ∈ trickyActions, a.IsWritable := by
    intro a ha
    simp only [trickyActions, List.mem_cons, List.not_mem_nil, or_false] at ha
    rcases ha with rfl | rfl
    · refine ⟨by decide, fun t ht => ?_⟩
      simp only [List.mem_cons, List.not_mem_nil, or_false] at ht
      rcases ht with rfl | rfl
      · exact .string _
      · exact hpath
    · intro t ht
      obtain rfl := List.mem_singleton.1 ht
      exact harray
  exact ⟨hwritable, by decide +kernel, parse_writeActions hwritable "\n" (by decide)⟩

end DebugAdapter.Script
