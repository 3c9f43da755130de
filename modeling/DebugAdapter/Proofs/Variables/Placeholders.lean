import DebugAdapter.Variables.Template
/-!
# The parts of a log message

A template is made of texts that stand for themselves and of names in braces (`Part`). `write`
spells parts as a template, and `shown` is the message that they make. `scan?` takes a template
apart turn by turn; it cuts the template at byte offsets, and fails where an offset lies within a
character.

A turn finds the text up to the first brace and one of four things there, as the relations `Turn`
and `PartAt` list them (`turn_of_turn?`). It always finds something (`exists_turn?`), and the
message of a template is what one turn shows, followed by the message of the rest
(`Turn.expand_eq`). Main statement: `interpolate_written`, for the template that parts are written
as and for any template.
-/

namespace DebugAdapter.Template

/-! ## Parts -/

/-- A part of a template. -/
inductive Part where
  /-- A text that stands for itself. -/
  | text (cs : List Char)
  /-- What stands between an opening and a closing brace. -/
  | name (cs : List Char)
  deriving DecidableEq, Repr

/-- Whether the character is a brace. -/
def isBrace (c : Char) : Bool :=
  c == '\x7b' || c == '\x7d'

/-- How a template spells a part: each brace of a text twice, and a name in braces. -/
def Part.written : Part → List Char
  | text cs => cs.flatMap fun c => if isBrace c then [c, c] else [c]
  | name cs => '\x7b' :: (cs ++ ['\x7d'])

/-- What a message shows for a part: a text as it is, and for a name the value that is found under
the name without the blanks around it, or else the name as written. -/
def Part.shown (lookup : String → Option Json) : Part → List Char
  | text cs => cs
  | name cs =>
    match lookup (Text.trim (String.ofList cs)) with
    | some (.string s) => s.toList
    | some v => v.renderChars
    | none => '\x7b' :: (cs ++ ['\x7d'])

/-- Whether a part is a text, or a name without braces. -/
def Part.IsWritable : Part → Prop
  | text _ => True
  | name cs => ∀ c ∈ cs, isBrace c = false

instance : DecidablePred Part.IsWritable
  | .text _ => .isTrue trivial
  | .name cs => List.decidableBAll (fun c => isBrace c = false) cs

/-- The template that parts are written as. -/
def write (parts : List Part) : String :=
  String.ofList (parts.flatMap Part.written)

/-- The message that parts make. -/
def shown (lookup : String → Option Json) (parts : List Part) : String :=
  String.ofList (parts.flatMap (Part.shown lookup))

/-! ## Byte offsets -/

/-- How many bytes the characters take. -/
def byteSize : List Char → Nat
  | [] => 0
  | c :: cs => c.utf8Size + byteSize cs

/-- The byte offset of the first character of a class. -/
def offset? (p : Char → Bool) : List Char → Option Nat
  | [] => none
  | c :: cs => if p c then some 0 else (offset? p cs).map (c.utf8Size + ·)

/-- What stands before and behind a byte offset. There is no cut within a character, and none behind
the end. -/
def cut? : (offset : Nat) → List Char → Option (List Char × List Char)
  | 0, cs => some ([], cs)
  | _ + 1, [] => none
  | n + 1, c :: cs =>
    if c.utf8Size ≤ n + 1 then
      (cut? (n + 1 - c.utf8Size) cs).map fun p => (c :: p.1, p.2)
    else none

/-- What stands between two byte offsets. -/
def between? (first last : Nat) (cs : List Char) : Option (List Char) := do
  let (front, _) ← cut? last cs
  let (_, middle) ← cut? first front
  return middle

/-! ## The scanner -/

/-- Whether a text begins with a doubled brace. -/
def beginsDoubled (cs : List Char) : Bool :=
  ['\x7b', '\x7b'].isPrefixOf cs || ['\x7d', '\x7d'].isPrefixOf cs

/-- The part that begins with the brace in front, and what is left behind it unless it goes on to
the end. -/
def partAt? (tail : List Char) : Option (Part × Option (List Char)) :=
  if beginsDoubled tail then do
    let (brace, _) ← cut? 1 tail
    let (_, rest) ← cut? 2 tail
    return (.text brace, some rest)
  else if tail.head? = some '\x7d' then do
    let (_, rest) ← cut? 1 tail
    return (.text ['\x7d'], some rest)
  else
    match offset? (· == '\x7d') tail with
    | none => some (.text tail, none)
    | some last => do
      let name ← between? 1 last tail
      let (_, rest) ← cut? (last + 1) tail
      return (.name name, some rest)

/-- One turn of the scanner: the parts it finds, and what is left unless it is at the end. -/
def turn? (template : List Char) : Option (List Part × Option (List Char)) :=
  match offset? isBrace template with
  | none => some ([.text template], none)
  | some start => do
    let (before, tail) ← cut? start template
    let (part, rest) ← partAt? tail
    return ([.text before, part], rest)

/-- The parts that begin with a brace, and what they leave. -/
inductive PartAt : List Char → Part → Option (List Char) → Prop where
  /-- The brace is doubled. -/
  | doubled {rest : List Char} {c : Char} (brace : isBrace c = true) :
    PartAt (c :: c :: rest) (.text [c]) (some rest)
  /-- The brace closes nothing. -/
  | closing {rest : List Char} (single : rest.head? ≠ some '\x7d') :
    PartAt ('\x7d' :: rest) (.text ['\x7d']) (some rest)
  /-- The brace is never closed. -/
  | unclosed {rest : List Char} (single : rest.head? ≠ some '\x7b') (unclosed : '\x7d' ∉ rest) :
    PartAt ('\x7b' :: rest) (.text ('\x7b' :: rest)) none
  /-- The brace opens a name. -/
  | named {name rest : List Char} (single : name.head? ≠ some '\x7b') (closed : '\x7d' ∉ name) :
    PartAt ('\x7b' :: (name ++ '\x7d' :: rest)) (.name name) (some rest)

/-- What a turn finds, and what it leaves. -/
inductive Turn : List Char → List Part → Option (List Char) → Prop where
  /-- There is no brace. -/
  | last {cs : List Char} (free : ∀ c ∈ cs, isBrace c = false) : Turn cs [.text cs] none
  /-- There is a text up to the first brace. -/
  | more {before tail : List Char} {part : Part} {rest : Option (List Char)}
    (free : ∀ c ∈ before, isBrace c = false) (next : PartAt tail part rest) :
    Turn (before ++ tail) [.text before, part] rest

variable {p : Char → Bool} {c : Char} {cs before rest template : List Char} {parts : List Part}

@[simp] theorem byteSize_nil : byteSize [] = 0 := rfl

@[simp] theorem byteSize_cons (c : Char) (cs : List Char) :
    byteSize (c :: cs) = c.utf8Size + byteSize cs := rfl

theorem byteSize_append (cs ds : List Char) : byteSize (cs ++ ds) = byteSize cs + byteSize ds := by
  induction cs with
  | nil => simp
  | cons c cs ih => simp [ih, Nat.add_assoc]

/-- There is a cut behind every character. -/
theorem cut?_byteSize (before rest : List Char) :
    cut? (byteSize before) (before ++ rest) = some (before, rest) := by
  induction before with
  | nil => cases rest <;> rfl
  | cons c before ih =>
    obtain ⟨n, hn⟩ : ∃ n, byteSize (c :: before) = n + 1 :=
      Nat.exists_eq_succ_of_ne_zero (by have := c.utf8Size_pos; simp; omega)
    have hsize : c.utf8Size + byteSize before = n + 1 := hn
    have hrest : n + 1 - c.utf8Size = byteSize before := by omega
    rw [hn, List.cons_append, cut?, if_pos (by omega), hrest, ih]
    rfl

theorem between?_byteSize (front middle rest : List Char) :
    between? (byteSize front) (byteSize (front ++ middle)) (front ++ middle ++ rest) =
      some middle := by
  rw [between?, cut?_byteSize]
  simp [cut?_byteSize]

theorem offset?_eq_none (h : offset? p cs = none) : ∀ c ∈ cs, p c = false := by
  induction cs with
  | nil => simp
  | cons c cs ih =>
    simp only [offset?] at h
    split at h
    · cases h
    next hc =>
      have hcs := ih (Option.map_eq_none_iff.1 h)
      simpa [hc] using hcs

/-- The offset of the first character of a class is the size of what stands before it. -/
theorem exists_of_offset? {n : Nat} (h : offset? p cs = some n) : ∃ before c rest,
    cs = before ++ c :: rest ∧ (∀ c ∈ before, p c = false) ∧ p c = true ∧ n = byteSize before := by
  induction cs generalizing n with
  | nil => cases h
  | cons c cs ih =>
    simp only [offset?] at h
    split at h
    next hc =>
      obtain rfl := Option.some.inj h
      exact ⟨[], c, cs, rfl, by simp, hc, rfl⟩
    next hc =>
      obtain ⟨m, hm, rfl⟩ := Option.map_eq_some_iff.1 h
      obtain ⟨before, d, rest, rfl, hfree, hd, rfl⟩ := ih hm
      exact ⟨c :: before, d, rest, rfl, by simpa [hc] using hfree, hd, rfl⟩

/-! ## Turns -/

theorem eq_of_isBrace (h : isBrace c = true) : c = '\x7b' ∨ c = '\x7d' := by
  simpa [isBrace] using h

theorem cut?_brace (h : isBrace c = true) (rest : List Char) :
    cut? 1 (c :: rest) = some ([c], rest) := by
  rcases eq_of_isBrace h with rfl | rfl
  · exact cut?_byteSize ['\x7b'] rest
  · exact cut?_byteSize ['\x7d'] rest

theorem partAt?_doubled (h : isBrace c = true) (rest : List Char) :
    partAt? (c :: c :: rest) = some (.text [c], some rest) := by
  have hdoubled : beginsDoubled (c :: c :: rest) = true := by
    rcases eq_of_isBrace h with rfl | rfl <;> simp [beginsDoubled]
  have hsecond : cut? 2 (c :: c :: rest) = some ([c, c], rest) := by
    rcases eq_of_isBrace h with rfl | rfl
    · exact cut?_byteSize ['\x7b', '\x7b'] rest
    · exact cut?_byteSize ['\x7d', '\x7d'] rest
  rw [partAt?, if_pos hdoubled, cut?_brace h, hsecond]
  rfl

theorem partAt?_closing (h : rest.head? ≠ some '\x7d') :
    partAt? ('\x7d' :: rest) = some (.text ['\x7d'], some rest) := by
  have hdoubled : ¬ beginsDoubled ('\x7d' :: rest) = true := by
    cases rest with
    | nil => decide
    | cons c rest => simpa [beginsDoubled] using Ne.symm h
  rw [partAt?, if_neg hdoubled, if_pos List.head?_cons, cut?_brace (by decide)]
  rfl

/-- What is read at an opening brace, unless it is doubled. -/
theorem partAt?_opening (h : rest.head? ≠ some '\x7b') :
    ∃ part left, partAt? ('\x7b' :: rest) = some (part, left) ∧
      PartAt ('\x7b' :: rest) part left := by
  have hdoubled : ¬ beginsDoubled ('\x7b' :: rest) = true := by
    cases rest with
    | nil => decide
    | cons c rest => simpa [beginsDoubled] using Ne.symm h
  have hopening : ('\x7b' :: rest).head? ≠ some '\x7d' := by simp
  rw [partAt?, if_neg hdoubled, if_neg hopening]
  cases hlast : offset? (· == '\x7d') ('\x7b' :: rest) with
  | none =>
    have hfree := offset?_eq_none hlast
    refine ⟨_, _, rfl, .unclosed h fun hmem => ?_⟩
    simpa using hfree _ (List.mem_cons_of_mem _ hmem)
  | some last =>
    obtain ⟨front, c, behind, hrest, hfree, hc, rfl⟩ := exists_of_offset? hlast
    obtain rfl : c = '\x7d' := by simpa using hc
    cases front with
    | nil => simp at hrest
    | cons d name =>
      obtain ⟨rfl, rfl⟩ := List.cons.inj hrest
      have hname : between? 1 (byteSize ('\x7b' :: name)) ('\x7b' :: (name ++ '\x7d' :: behind)) =
          some name := between?_byteSize ['\x7b'] name ('\x7d' :: behind)
      have hsize : byteSize ('\x7b' :: (name ++ ['\x7d'])) = byteSize ('\x7b' :: name) + 1 := by
        rw [← List.cons_append, byteSize_append]
        rfl
      have hleft : cut? (byteSize ('\x7b' :: name) + 1) ('\x7b' :: (name ++ '\x7d' :: behind)) =
          some ('\x7b' :: (name ++ ['\x7d']), behind) := by
        have hcut := cut?_byteSize ('\x7b' :: (name ++ ['\x7d'])) behind
        simpa only [hsize, List.cons_append, List.append_assoc, List.nil_append] using hcut
      refine ⟨.name name, some behind, ?_, .named ?_ fun hmem => ?_⟩
      · simp only [List.append_eq, hname, hleft]
        rfl
      · cases name with
        | nil => simp
        | cons e name => exact h
      · simpa using hfree _ (List.mem_cons_of_mem _ hmem)

/-- At a brace there is always a part. -/
theorem exists_partAt? (h : isBrace c = true) (rest : List Char) :
    ∃ part left, partAt? (c :: rest) = some (part, left) ∧ PartAt (c :: rest) part left := by
  by_cases hdoubled : rest.head? = some c
  · obtain ⟨rest, rfl⟩ := List.head?_eq_some_iff.1 hdoubled
    exact ⟨_, _, partAt?_doubled h rest, .doubled h⟩
  · rcases eq_of_isBrace h with rfl | rfl
    · exact partAt?_opening hdoubled
    · exact ⟨_, _, partAt?_closing hdoubled, .closing hdoubled⟩

/-- There is always a turn. -/
theorem exists_turn? (template : List Char) :
    ∃ parts left, turn? template = some (parts, left) ∧ Turn template parts left := by
  rw [turn?]
  cases hstart : offset? isBrace template with
  | none => exact ⟨_, _, rfl, .last (offset?_eq_none hstart)⟩
  | some start =>
    obtain ⟨before, c, rest, rfl, hfree, hc, rfl⟩ := exists_of_offset? hstart
    obtain ⟨part, left, hpart, hnext⟩ := exists_partAt? hc rest
    refine ⟨[.text before, part], left, ?_, .more hfree hnext⟩
    simp [cut?_byteSize, hpart]

theorem turn_of_turn? {left : Option (List Char)} (h : turn? template = some (parts, left)) :
    Turn template parts left := by
  obtain ⟨parts', left', hturn, hspec⟩ := exists_turn? template
  obtain ⟨rfl, rfl⟩ := Prod.mk.inj (Option.some.inj (hturn.symm.trans h))
  exact hspec

/-- What a turn leaves is shorter. -/
theorem Turn.length_lt (h : Turn template parts (some rest)) : rest.length < template.length := by
  cases h with
  | more free next => cases next <;> simp <;> omega

/-- Takes a template apart. -/
def scan? (template : List Char) : Option (List Part) :=
  match _h : turn? template with
  | none => none
  | some (parts, none) => some parts
  | some (parts, some rest) => (scan? rest).map (parts ++ ·)
termination_by template.length
decreasing_by exact (turn_of_turn? _h).length_lt

/-! ## Messages -/

section Expand

variable {lookup : String → Option Json}

@[simp] theorem expand_none_nil : expand lookup none [] = [] := rfl

@[simp] theorem expand_some_nil (held : List Char) :
    expand lookup (some held) [] = '\x7b' :: held.reverse := rfl

/-- What a message shows for a character outside of a name. -/
theorem expand_none_cons (c : Char) (cs : List Char) :
    expand lookup none (c :: cs) =
      if isBrace c ∧ cs.head? = some c then c :: expand lookup none cs.tail
      else if c = '\x7b' then expand lookup (some []) cs
      else c :: expand lookup none cs := by
  split
  next hdoubled =>
    obtain ⟨rest, rfl⟩ := List.head?_eq_some_iff.1 hdoubled.2
    rcases eq_of_isBrace hdoubled.1 with rfl | rfl <;> rw [expand] <;> rfl
  next hsingle =>
    split
    next hopening =>
      subst hopening
      rw [expand]
      rintro rest rfl
      exact hsingle ⟨rfl, rfl⟩
    next hopening =>
      rw [expand]
      all_goals grind [isBrace]

/-- What a message shows for a character of a name. -/
theorem expand_some_cons (held : List Char) (c : Char) (cs : List Char) :
    expand lookup (some held) (c :: cs) =
      if c = '\x7d' then (Part.name held.reverse).shown lookup ++ expand lookup none cs
      else expand lookup (some (c :: held)) cs := by
  split
  next hclosing =>
    subst hclosing
    rw [expand, Part.shown, Text.trim, String.toList_ofList]
    congr 1
    cases lookup (String.ofList (Text.trimChars held.reverse)) with
    | none => rfl
    | some v => cases v <;> simp [Json.display, Json.render]
  next hclosing =>
    rw [expand]
    exact hclosing

theorem expand_doubled (h : isBrace c = true) (cs : List Char) :
    expand lookup none (c :: c :: cs) = c :: expand lookup none cs := by
  rw [expand_none_cons, if_pos ⟨h, rfl⟩, List.tail_cons]

theorem expand_plain (h : isBrace c = false) (cs : List Char) :
    expand lookup none (c :: cs) = c :: expand lookup none cs := by
  have hopening : c ≠ '\x7b' := by
    rintro rfl
    cases h
  rw [expand_none_cons, if_neg (by simp [h]), if_neg hopening]

/-- What is written for a text shows the text. -/
theorem expand_written_text (cs rest : List Char) :
    expand lookup none ((Part.text cs).written ++ rest) = cs ++ expand lookup none rest := by
  induction cs with
  | nil => rfl
  | cons c cs ih =>
    rw [Part.written] at ih ⊢
    rw [List.flatMap_cons, List.append_assoc]
    split
    next hc => exact (expand_doubled hc _).trans (congrArg (c :: ·) ih)
    next hc => exact (expand_plain (Bool.eq_false_iff.2 hc) _).trans (congrArg (c :: ·) ih)

/-- A text without braces shows itself. -/
theorem expand_free (h : ∀ c ∈ cs, isBrace c = false) (rest : List Char) :
    expand lookup none (cs ++ rest) = cs ++ expand lookup none rest := by
  induction cs with
  | nil => rfl
  | cons c cs ih =>
    rw [List.cons_append, expand_plain (h c List.mem_cons_self),
      ih fun d hd => h d (List.mem_cons_of_mem c hd), List.cons_append]

theorem expand_opening (h : cs.head? ≠ some '\x7b') :
    expand lookup none ('\x7b' :: cs) = expand lookup (some []) cs := by
  rw [expand_none_cons, if_neg (by simp [h]), if_pos rfl]

/-- Behind an opening brace all is held until the first closing one. -/
theorem expand_held (h : '\x7d' ∉ cs) (held rest : List Char) :
    expand lookup (some held) (cs ++ '\x7d' :: rest) =
      (Part.name (held.reverse ++ cs)).shown lookup ++ expand lookup none rest := by
  induction cs generalizing held with
  | nil => rw [List.nil_append, expand_some_cons, if_pos rfl, List.append_nil]
  | cons c cs ih =>
    obtain ⟨hc, hcs⟩ := not_or.1 (mt List.mem_cons.2 h)
    rw [List.cons_append, expand_some_cons, if_neg (Ne.symm hc), ih hcs]
    simp

/-- What is held at the end is shown as written. -/
theorem expand_unclosed (h : '\x7d' ∉ cs) (held : List Char) :
    expand lookup (some held) cs = '\x7b' :: (held.reverse ++ cs) := by
  induction cs generalizing held with
  | nil => simp
  | cons c cs ih =>
    obtain ⟨hc, hcs⟩ := not_or.1 (mt List.mem_cons.2 h)
    rw [expand_some_cons, if_neg (Ne.symm hc), ih hcs]
    simp

/-- What is written for a name shows the name's value. -/
theorem expand_written_name (h : ∀ c ∈ cs, isBrace c = false) (rest : List Char) :
    expand lookup none ((Part.name cs).written ++ rest) =
      (Part.name cs).shown lookup ++ expand lookup none rest := by
  have hopening : '\x7b' ∉ cs := fun hmem => absurd (h _ hmem) (by decide)
  have hclosing : '\x7d' ∉ cs := fun hmem => absurd (h _ hmem) (by decide)
  have hhead : (cs ++ '\x7d' :: rest).head? ≠ some '\x7b' := by
    cases cs with
    | nil => simp
    | cons c cs =>
      rintro heq
      obtain rfl := Option.some.inj heq
      exact hopening List.mem_cons_self
  rw [Part.written, List.cons_append, List.append_assoc, List.singleton_append,
    expand_opening hhead, expand_held hclosing, List.reverse_nil, List.nil_append]

/-- Parts that are written one after the other show what they show one by one. -/
theorem expand_written (h : ∀ part ∈ parts, part.IsWritable) :
    expand lookup none (parts.flatMap Part.written) = parts.flatMap (Part.shown lookup) := by
  induction parts with
  | nil => rfl
  | cons part parts ih =>
    have hpart := h part List.mem_cons_self
    have hparts := ih fun part hmem => h part (List.mem_cons_of_mem _ hmem)
    rw [List.flatMap_cons, List.flatMap_cons, ← hparts]
    cases part with
    | text cs => exact expand_written_text cs _
    | name cs => exact expand_written_name hpart _

/-- At a brace a message shows the part that begins there, and then what is left. -/
theorem PartAt.expand_eq {part : Part} {left : Option (List Char)} (h : PartAt cs part left) :
    expand lookup none cs = part.shown lookup ++ left.elim [] (expand lookup none) := by
  cases h with
  | doubled hbrace => exact expand_doubled hbrace _
  | closing hsingle =>
    rw [expand_none_cons, if_neg (by simp [hsingle]), if_neg (by decide)]
    rfl
  | unclosed hsingle hunclosed =>
    rw [expand_opening hsingle, expand_unclosed hunclosed]
    simp [Part.shown]
  | @named name rest hsingle hclosed =>
    have hhead : (name ++ '\x7d' :: rest).head? ≠ some '\x7b' := by
      cases name with
      | nil => simp
      | cons c name => exact hsingle
    rw [expand_opening hhead, expand_held hclosed]
    rfl

/-- A message shows what a turn finds, and then what it leaves. -/
theorem Turn.expand_eq {left : Option (List Char)} (h : Turn template parts left) :
    expand lookup none template =
      parts.flatMap (Part.shown lookup) ++ left.elim [] (expand lookup none) := by
  cases h with
  | last hfree => simpa [Part.shown] using expand_free hfree []
  | more hfree hnext =>
    rw [expand_free hfree, hnext.expand_eq]
    simp [Part.shown]

/-- A template is always taken apart, into parts that do not depend on what is looked up. -/
theorem exists_scan? (template : List Char) : ∃ parts, scan? template = some parts ∧
    ∀ lookup, expand lookup none template = parts.flatMap (Part.shown lookup) := by
  fun_induction scan? template with
  | case1 template hnone =>
    obtain ⟨parts, left, hturn, -⟩ := exists_turn? template
    cases hnone.symm.trans hturn
  | case2 template parts hturn =>
    refine ⟨parts, rfl, fun lookup => ?_⟩
    rw [(turn_of_turn? hturn).expand_eq]
    exact List.append_nil _
  | case3 template parts rest hturn ih =>
    obtain ⟨more, hscan, hexpand⟩ := ih
    refine ⟨parts ++ more, by rw [hscan]; rfl, fun lookup => ?_⟩
    rw [(turn_of_turn? hturn).expand_eq, List.flatMap_append, ← hexpand lookup]
    rfl

end Expand

/-- The message of the template that parts are written as, each brace of a text twice and each name
in braces, is what the parts make. And any template at all is taken apart without a cut inside of a
character, into parts that make its message whatever is found for the names: no value is scanned. -/
theorem interpolate_written (h : ∀ part ∈ parts, part.IsWritable) (template : String) :
    (∀ lookup, interpolate (write parts) lookup = shown lookup parts) ∧
    ∃ found, scan? template.toList = some found ∧
      ∀ lookup, interpolate template lookup = shown lookup found := by
  obtain ⟨found, hscan, hexpand⟩ := exists_scan? template.toList
  refine ⟨fun lookup => ?_, found, hscan, fun lookup => congrArg String.ofList (hexpand lookup)⟩
  rw [interpolate, write, String.toList_ofList, expand_written h, shown]

/-- A text, and names whose values hold braces, one of them written with blanks around it and one
not found. -/
def bracedParts : List Part :=
  [.text ['\x7b'], .name [' ', 'x', ' '], .text ['é', '\x7d'], .name ['y'], .name ['z']]

/-- The value of `x` is a text that reads like a name in braces, and that of `y` an object. -/
def bracedValues (name : String) : Option Json :=
  if name = "x" then some (.string "\x7by\x7d")
  else if name = "y" then some (.object [("z", .null)])
  else none

theorem interpolate_written_braced : (∀ part ∈ bracedParts, part.IsWritable) ∧
    write bracedParts = "\x7b\x7b\x7b x \x7dé\x7d\x7d\x7by\x7d\x7bz\x7d" ∧
    interpolate (write bracedParts) bracedValues =
      "\x7b\x7by\x7dé\x7d\x7b\"z\":null\x7d\x7bz\x7d" := by
  have hwritable : ∀ part ∈ bracedParts, part.IsWritable := by decide
  obtain ⟨hshown, -⟩ := interpolate_written hwritable ""
  exact ⟨hwritable, by decide +kernel, (hshown bracedValues).trans (by decide +kernel)⟩

end DebugAdapter.Template
