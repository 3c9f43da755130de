import DebugAdapter.Protocol.Frame
/-!
# Reading is about the bytes

What is read off a feed depends on its bytes and not on where they are cut into pieces. `lineIn`,
`headersIn`, `frameIn` and `valueIn` read bytes in one piece; `read_joined` and `readValue_joined`
say that a feed is read like its bytes.
-/

namespace DebugAdapter.Protocol.Frame

/-- The bytes behind what was read, in one piece. -/
def joined {α : Type} (x : Except Halt (Option (α × List Bytes))) :
    Except Halt (Option (α × Bytes)) :=
  x.map (Option.map fun p => (p.1, p.2.flatten))

/-! ## Lines -/

/-- The line that the bytes begin with, where `taken` came before, and the bytes behind. -/
def lineIn (isOpen : Bool) (taken bs : Bytes) : Except Halt (Option (Bytes × Bytes)) :=
  if maxLine < taken.length + (cutLine bs).1.length then .error (.failed .lineTooLong)
  else
    match (cutLine bs).2 with
    | some rest => .ok (some (taken ++ (cutLine bs).1, rest))
    | none =>
      if isOpen then .error .starved
      else if (taken ++ bs).isEmpty then .ok none
      else .ok (some (taken ++ bs, []))

theorem cutLine_fst_of_none {bs : Bytes} (h : (cutLine bs).2 = none) : (cutLine bs).1 = bs := by
  induction bs with
  | nil => rfl
  | cons b bs ih =>
    unfold cutLine at h ⊢
    split at h
    · cases h
    next hb =>
      rw [if_neg hb]
      exact congrArg (b :: ·) (ih h)

theorem cutLine_append_of_some {bs rest : Bytes} (h : (cutLine bs).2 = some rest) (more : Bytes) :
    cutLine (bs ++ more) = ((cutLine bs).1, some (rest ++ more)) := by
  induction bs with
  | nil => cases h
  | cons b bs ih =>
    simp only [List.cons_append, cutLine] at h ⊢
    split at h
    next hb =>
      obtain rfl := Option.some.inj h
      simp [hb]
    next hb =>
      rw [if_neg hb, if_neg hb, ih h]

theorem cutLine_append_of_none {bs : Bytes} (h : (cutLine bs).2 = none) (more : Bytes) :
    cutLine (bs ++ more) = (bs ++ (cutLine more).1, (cutLine more).2) := by
  induction bs with
  | nil => rfl
  | cons b bs ih =>
    simp only [List.cons_append, cutLine] at h ⊢
    split at h
    · cases h
    next hb =>
      rw [if_neg hb, ih h]

theorem flatten_putBack (bs : Bytes) (pieces : List Bytes) :
    (putBack bs pieces).flatten = bs ++ pieces.flatten := by
  unfold putBack
  split
  next h => simp [List.isEmpty_iff.1 h]
  · rfl

theorem takeLine_joined {isOpen : Bool} {taken : Bytes} (h : taken.length ≤ maxLine)
    (pieces : List Bytes) :
    joined (takeLine isOpen taken pieces) = lineIn isOpen taken pieces.flatten := by
  induction pieces generalizing taken with
  | nil =>
    have hshort : ¬maxLine < taken.length + ([] : Bytes).length := by simpa using h
    simp only [takeLine, lineIn, List.flatten_nil, cutLine, List.append_nil, if_neg hshort]
    split
    · rfl
    · split <;> rfl
  | cons piece pieces ih =>
    simp only [takeLine, lineIn, List.flatten_cons]
    cases hrest : (cutLine piece).2 with
    | some rest =>
      rw [cutLine_append_of_some hrest]
      split
      · rfl
      · simp [joined, Except.map, flatten_putBack]
    | none =>
      rw [cutLine_fst_of_none hrest, cutLine_append_of_none hrest]
      dsimp only
      split
      next hlong => rw [if_pos (by rw [List.length_append]; omega)]; rfl
      next hshort =>
        rw [ih (by rw [List.length_append]; omega)]
        simp only [lineIn, List.length_append, Nat.add_assoc, List.append_assoc]

/-! ## Headers -/

/-- The length that the headers at the start of the bytes give, and the bytes behind. -/
def headersIn (isOpen : Bool) : (fuel : Nat) → (first : Bool) → (length : Option Nat) →
    Bytes → Except Halt (Option (Option Nat × Bytes))
  | 0, _, _, _ => .error .starved
  | fuel + 1, first, length, bs => do
    match ← lineIn isOpen [] bs with
    | none => if first then return none else .error (.failed .endInHeaders)
    | some (line, rest) =>
      match Utf8.decode? line with
      | none => .error (.failed .lineNotText)
      | some cs =>
        let cs := dropLineEnds cs
        if cs.isEmpty then return some (length, rest)
        else
          let length ← (lengthAfter length cs).mapError .failed
          headersIn isOpen fuel false length rest

theorem takeHeaders_joined (isOpen : Bool) (fuel : Nat) (first : Bool) (length : Option Nat)
    (pieces : List Bytes) : joined (takeHeaders isOpen fuel first length pieces) =
      headersIn isOpen fuel first length pieces.flatten := by
  induction fuel generalizing first length pieces with
  | zero => rfl
  | succ fuel ih =>
    have hline : joined (takeLine isOpen [] pieces) = lineIn isOpen [] pieces.flatten :=
      takeLine_joined (by simp) pieces
    simp only [takeHeaders, headersIn, ← hline]
    cases takeLine isOpen [] pieces with
    | error e => rfl
    | ok p =>
      cases p with
      | none => cases first <;> rfl
      | some p =>
        obtain ⟨line, rest⟩ := p
        change joined (match Utf8.decode? line with | none => _ | some cs => _) =
          (match Utf8.decode? line with | none => _ | some cs => _)
        cases Utf8.decode? line with
        | none => rfl
        | some cs =>
          dsimp only
          split
          · rfl
          · cases (lengthAfter length (dropLineEnds cs)).mapError Halt.failed with
            | error e => rfl
            | ok length => exact ih false length rest

/-! ## Frames -/

theorem takeBytes_joined (n : Nat) (pieces : List Bytes) :
    (takeBytes n pieces).map (fun p => (p.1, p.2.flatten)) =
      if n ≤ pieces.flatten.length then some (pieces.flatten.take n, pieces.flatten.drop n)
      else none := by
  induction pieces generalizing n with
  | nil => cases n <;> rfl
  | cons piece pieces ih =>
    cases n with
    | zero => rfl
    | succ n =>
      simp only [takeBytes, List.flatten_cons, List.length_append]
      split
      next hshort =>
        rw [if_pos (by omega), List.take_append_of_le_length (by omega),
          List.drop_append_of_le_length (by omega)]
        rfl
      next hlong =>
        have hrest := ih (n + 1 - piece.length)
        rw [Option.map_map]
        change (takeBytes _ pieces).map (fun p => (piece ++ p.1, p.2.flatten)) = _
        have hmap : (takeBytes (n + 1 - piece.length) pieces).map
            (fun p => (piece ++ p.1, p.2.flatten)) =
              ((takeBytes (n + 1 - piece.length) pieces).map fun p => (p.1, p.2.flatten)).map
                fun p => (piece ++ p.1, p.2) := by
          rw [Option.map_map]
          rfl
        rw [hmap, hrest, List.take_append, List.drop_append,
          List.take_of_length_le (by omega : piece.length ≤ n + 1),
          List.drop_of_length_le (by omega : piece.length ≤ n + 1)]
        split
        · rw [if_pos (by omega)]
          rfl
        · rw [if_neg (by omega)]
          rfl

/-- The body of the frame that the bytes begin with, and the bytes behind. -/
def frameIn (isOpen : Bool) (bs : Bytes) : Except Halt (Option (Bytes × Bytes)) := do
  match ← headersIn isOpen (bs.length + 1) true none bs with
  | none => return none
  | some (none, _) => .error (.failed .noLength)
  | some (some n, rest) =>
    if maxBody < n then .error (.failed (.tooLong n))
    else if n ≤ rest.length then return some (rest.take n, rest.drop n)
    else .error (if isOpen then .starved else .failed .endInBody)

/-- The value in the frame that the bytes begin with, and the bytes behind. -/
def valueIn (isOpen : Bool) (bs : Bytes) : Except Halt (Option (Json × Bytes)) := do
  match ← frameIn isOpen bs with
  | none => return none
  | some (body, rest) =>
    match Json.parse body with
    | .ok v => return some (v, rest)
    | .error e => .error (.failed (.malformed e))

/-- What was read off a feed, with the bytes behind and whether more may follow. -/
def unread {α : Type} (x : Except Halt (Option (α × Feed))) :
    Except Halt (Option (α × Bytes × Bool)) :=
  x.map (Option.map fun p => (p.1, p.2.bytes, p.2.isOpen))

theorem read_joined (f : Feed) : unread (read f) =
    (frameIn f.isOpen f.bytes).map (Option.map fun p => (p.1, p.2, f.isOpen)) := by
  have hheaders : headersIn f.isOpen (f.bytes.length + 1) true none f.bytes =
      joined (takeHeaders f.isOpen (f.bytes.length + 1) true none f.pieces) :=
    (takeHeaders_joined ..).symm
  simp only [read, frameIn, hheaders]
  cases takeHeaders f.isOpen (f.bytes.length + 1) true none f.pieces with
  | error e => rfl
  | ok p =>
    obtain _ | ⟨_ | n, pieces⟩ := p
    · rfl
    · rfl
    · have hbytes := takeBytes_joined n pieces
      simp only [bind, Except.bind, joined, Except.map, Option.map]
      by_cases hlong : maxBody < n
      · rw [if_pos hlong, if_pos hlong]
        rfl
      · rw [if_neg hlong, if_neg hlong]
        cases htake : takeBytes n pieces with
        | none =>
          rw [htake] at hbytes
          split at hbytes
          · cases hbytes
          next hshort =>
            rw [if_neg hshort]
            rfl
        | some p =>
          rw [htake] at hbytes
          split at hbytes
          next hfull =>
            obtain ⟨hbody, hrest⟩ := Prod.mk.inj (Option.some.inj hbytes)
            rw [if_pos hfull, ← hbody, ← hrest]
            rfl
          · cases hbytes

theorem readValue_joined (f : Feed) : unread (readValue f) =
    (valueIn f.isOpen f.bytes).map (Option.map fun p => (p.1, p.2, f.isOpen)) := by
  have hread := read_joined f
  simp only [readValue, valueIn]
  cases hf : read f with
  | error e =>
    rw [hf] at hread
    cases hframe : frameIn f.isOpen f.bytes with
    | error e' =>
      rw [hframe] at hread
      cases hread
      rfl
    | ok p =>
      rw [hframe] at hread
      cases hread
  | ok p =>
    rw [hf] at hread
    cases hframe : frameIn f.isOpen f.bytes with
    | error e =>
      rw [hframe] at hread
      cases hread
    | ok p' =>
      rw [hframe] at hread
      obtain _ | ⟨body, g⟩ := p <;> obtain _ | ⟨body', rest⟩ := p'
      · rfl
      · cases hread
      · cases hread
      · obtain ⟨rfl, hbytes, hopen⟩ : body = body' ∧ g.bytes = rest ∧ g.isOpen = f.isOpen := by
          simpa [unread, Except.map] using hread
        simp only [bind, Except.bind]
        cases Json.parse body with
        | error e => rfl
        | ok v => simp [unread, Except.map, hbytes, hopen, pure, Except.pure]

theorem exists_of_valueIn {f : Feed} {v : Json} {rest : Bytes}
    (h : valueIn f.isOpen f.bytes = .ok (some (v, rest))) :
    ∃ g, readValue f = .ok (some (v, g)) ∧ g.bytes = rest ∧ g.isOpen = f.isOpen := by
  have hjoined := readValue_joined f
  rw [h] at hjoined
  cases hf : readValue f with
  | error e =>
    rw [hf] at hjoined
    cases hjoined
  | ok p =>
    rw [hf] at hjoined
    obtain _ | ⟨w, g⟩ := p
    · cases hjoined
    · obtain ⟨rfl, hbytes, hopen⟩ : w = v ∧ g.bytes = rest ∧ g.isOpen = f.isOpen := by
        simpa [unread, Except.map] using hjoined
      exact ⟨g, rfl, hbytes, hopen⟩

theorem readValue_of_none {f : Feed} (h : valueIn f.isOpen f.bytes = .ok none) :
    readValue f = .ok none := by
  have hjoined := readValue_joined f
  rw [h] at hjoined
  cases hf : readValue f with
  | error e =>
    rw [hf] at hjoined
    cases hjoined
  | ok p =>
    rw [hf] at hjoined
    cases p with
    | none => rfl
    | some p => cases hjoined

theorem readValue_of_error {f : Feed} {e : Halt} (h : valueIn f.isOpen f.bytes = .error e) :
    readValue f = .error e := by
  have hjoined := readValue_joined f
  rw [h] at hjoined
  cases hf : readValue f with
  | error e' =>
    rw [hf] at hjoined
    exact congrArg Except.error (Except.error.inj hjoined)
  | ok p =>
    rw [hf] at hjoined
    cases hjoined

/-- What is read off the bytes of a feed is what is read off the feed. -/
theorem valueIn_bytes (f : Feed) : valueIn f.isOpen f.bytes =
    (readValue f).map (Option.map fun p => (p.1, p.2.bytes)) := by
  cases hvalue : valueIn f.isOpen f.bytes with
  | error e =>
    rw [readValue_of_error hvalue]
    rfl
  | ok p =>
    obtain _ | ⟨v, rest⟩ := p
    · rw [readValue_of_none hvalue]
      rfl
    · obtain ⟨g, hread, rfl, -⟩ := exists_of_valueIn hvalue
      rw [hread]
      rfl

/-- Reading does not end a feed. -/
theorem isOpen_of_readValue {f g : Feed} {v : Json} (h : readValue f = .ok (some (v, g))) :
    g.isOpen = f.isOpen := by
  have hvalue := valueIn_bytes f
  rw [h] at hvalue
  obtain ⟨g', hread, -, hopen⟩ := exists_of_valueIn hvalue
  cases h.symm.trans hread
  exact hopen

end DebugAdapter.Protocol.Frame
