import DebugAdapter.Proofs.Protocol.Joined
/-!
# Feeds that grow

What is read off a feed that is open still is the same when more bytes come, or the end
(`valueIn_append`): only a frame that is not whole waits for them. So the values that were read off
a growing feed, one after the other, are the first ones of all its values (`ReadsOff.grow`,
`ReadsOff.valuesIn_eq`).
-/

namespace DebugAdapter.Protocol.Frame

/-! ## More bytes -/

/-- What was read, with more bytes behind what is left. -/
def withMore {α : Type} (more : Bytes) (x : Except Halt (Option (α × Bytes))) :
    Except Halt (Option (α × Bytes)) :=
  x.map (Option.map fun p => (p.1, p.2 ++ more))

section

variable {isOpen : Bool} {more bs : Bytes}

theorem lineIn_append {taken : Bytes} (h : lineIn true taken bs ≠ .error .starved) :
    lineIn isOpen taken (bs ++ more) = withMore more (lineIn true taken bs) := by
  unfold lineIn at h ⊢
  cases hrest : (cutLine bs).2 with
  | some rest =>
    rw [cutLine_append_of_some hrest]
    split
    · rfl
    · rfl
  | none =>
    rw [cutLine_append_of_none hrest]
    rw [hrest, cutLine_fst_of_none hrest] at h
    rw [cutLine_fst_of_none hrest]
    by_cases hlong : maxLine < taken.length + bs.length
    · rw [if_pos hlong, if_pos (by rw [List.length_append]; omega)]
      rfl
    · rw [if_neg hlong] at h
      exact absurd rfl h

theorem headersIn_append {fuel fuel' : Nat} (hfuel : fuel ≤ fuel') {first : Bool}
    {length : Option Nat} (h : headersIn true fuel first length bs ≠ .error .starved) :
    headersIn isOpen fuel' first length (bs ++ more) =
      withMore more (headersIn true fuel first length bs) := by
  induction fuel generalizing fuel' first length bs with
  | zero => exact absurd rfl h
  | succ fuel ih =>
    obtain ⟨fuel', rfl⟩ : ∃ k, fuel' = k + 1 := ⟨fuel' - 1, by omega⟩
    have hline : lineIn true [] bs ≠ .error .starved := by
      intro hline
      rw [headersIn, hline] at h
      exact h rfl
    rw [headersIn] at h
    rw [headersIn, headersIn, lineIn_append hline]
    cases hin : lineIn true [] bs with
    | error e => rfl
    | ok p =>
      rw [hin] at h
      obtain _ | ⟨line, rest⟩ := p
      · cases first <;> rfl
      · cases hcs : Utf8.decode? line with
        | none => simp [bind, Except.bind, withMore, Except.map, hcs]
        | some cs =>
          simp only [bind, Except.bind, hcs] at h
          simp only [bind, Except.bind, withMore, Except.map, Option.map, hcs]
          by_cases hblank : (dropLineEnds cs).isEmpty = true
          · rw [if_pos hblank, if_pos hblank]
            rfl
          · rw [if_neg hblank] at h
            rw [if_neg hblank, if_neg hblank]
            cases hlength : (lengthAfter length (dropLineEnds cs)).mapError Halt.failed with
            | error e => rfl
            | ok length =>
              rw [hlength] at h
              exact ih (Nat.le_of_succ_le_succ hfuel) h

theorem frameIn_append (h : frameIn true bs ≠ .error .starved) :
    frameIn isOpen (bs ++ more) = withMore more (frameIn true bs) := by
  have hheaders : headersIn true (bs.length + 1) true none bs ≠ .error .starved := by
    intro hheaders
    rw [frameIn, hheaders] at h
    exact h rfl
  have hfuel : bs.length + 1 ≤ (bs ++ more).length + 1 := by
    rw [List.length_append]
    omega
  rw [frameIn] at h
  rw [frameIn, frameIn, headersIn_append hfuel hheaders]
  cases hin : headersIn true (bs.length + 1) true none bs with
  | error e => rfl
  | ok p =>
    rw [hin] at h
    obtain _ | ⟨_ | n, rest⟩ := p
    · rfl
    · rfl
    · change (if maxBody < n then _ else if n ≤ (rest ++ more).length then _ else _) =
        withMore more (if maxBody < n then _ else if n ≤ rest.length then _ else _)
      change (if maxBody < n then _ else if n ≤ rest.length then _ else _) ≠ _ at h
      by_cases hlong : maxBody < n
      · rw [if_pos hlong, if_pos hlong]
        rfl
      · rw [if_neg hlong] at h
        rw [if_neg hlong, if_neg hlong]
        by_cases hfull : n ≤ rest.length
        · rw [if_pos hfull, if_pos (by rw [List.length_append]; omega),
            List.take_append_of_le_length hfull, List.drop_append_of_le_length hfull]
          rfl
        · rw [if_neg hfull] at h
          exact absurd rfl h

/-- Only a frame that is not whole is read in another way when more bytes come, or the end. -/
theorem valueIn_append (h : valueIn true bs ≠ .error .starved) :
    valueIn isOpen (bs ++ more) = withMore more (valueIn true bs) := by
  have hframe : frameIn true bs ≠ .error .starved := by
    intro hframe
    rw [valueIn, hframe] at h
    exact h rfl
  rw [valueIn, valueIn, frameIn_append hframe]
  cases frameIn true bs with
  | error e => rfl
  | ok p =>
    obtain _ | ⟨body, rest⟩ := p
    · rfl
    · cases hparse : Json.parse body <;>
        simp [bind, Except.bind, withMore, Except.map, pure, Except.pure, hparse]

end

/-! ## Frames take bytes -/

section

variable {isOpen : Bool} {bs rest : Bytes}

theorem cutLine_length (h : (cutLine bs).2 = some rest) : rest.length < bs.length := by
  induction bs with
  | nil => cases h
  | cons b bs ih =>
    simp only [cutLine] at h
    split at h
    · obtain rfl := Option.some.inj h
      exact Nat.lt_succ_self _
    · exact Nat.lt_succ_of_lt (ih h)

theorem lineIn_length {line : Bytes} (h : lineIn isOpen [] bs = .ok (some (line, rest))) :
    rest.length < bs.length := by
  unfold lineIn at h
  split at h
  · cases h
  · split at h
    next rest' hrest =>
      cases h
      exact cutLine_length hrest
    · split at h
      · cases h
      · split at h
        · cases h
        next hne =>
          cases h
          rw [List.nil_append] at hne
          exact List.length_pos_iff.2 fun hnil => hne (by simp [hnil])

theorem headersIn_length {fuel : Nat} {first : Bool} {length length' : Option Nat}
    (h : headersIn isOpen fuel first length bs = .ok (some (length', rest))) :
    rest.length < bs.length := by
  induction fuel generalizing first length bs with
  | zero => cases h
  | succ fuel ih =>
    rw [headersIn] at h
    cases hline : lineIn isOpen [] bs with
    | error e =>
      rw [hline] at h
      cases h
    | ok p =>
      rw [hline] at h
      obtain _ | ⟨line, rest'⟩ := p
      · cases first <;> cases h
      · have hshorter := lineIn_length hline
        cases hcs : Utf8.decode? line with
        | none =>
          simp only [bind, Except.bind, hcs] at h
          cases h
        | some cs =>
          simp only [bind, Except.bind, hcs] at h
          split at h
          · cases h
            exact hshorter
          · cases hlength : (lengthAfter length (dropLineEnds cs)).mapError Halt.failed with
            | error e =>
              rw [hlength] at h
              cases h
            | ok length =>
              rw [hlength] at h
              exact Nat.lt_trans (ih h) hshorter

theorem frameIn_length {body : Bytes} (h : frameIn isOpen bs = .ok (some (body, rest))) :
    rest.length < bs.length := by
  rw [frameIn] at h
  cases hheaders : headersIn isOpen (bs.length + 1) true none bs with
  | error e =>
    rw [hheaders] at h
    cases h
  | ok p =>
    rw [hheaders] at h
    obtain _ | ⟨_ | n, rest'⟩ := p
    · cases h
    · cases h
    · have hshorter := headersIn_length hheaders
      change (if maxBody < n then _ else if n ≤ rest'.length then _ else _) = _ at h
      split at h
      · cases h
      · split at h
        · cases h
          rw [List.length_drop]
          omega
        · cases h

theorem valueIn_length {v : Json} (h : valueIn isOpen bs = .ok (some (v, rest))) :
    rest.length < bs.length := by
  rw [valueIn] at h
  cases hframe : frameIn isOpen bs with
  | error e =>
    rw [hframe] at h
    cases h
  | ok p =>
    rw [hframe] at h
    obtain _ | ⟨body, rest'⟩ := p
    · cases h
    · cases hparse : Json.parse body with
      | error e =>
        simp only [bind, Except.bind, hparse] at h
        cases h
      | ok v =>
        simp only [bind, Except.bind, hparse] at h
        cases h
        exact frameIn_length hframe

end

/-! ## All the values -/

/-- The values that are read off the bytes, one after the other, and how the reading ends. -/
def valuesIn (isOpen : Bool) (bs : Bytes) : List Json × Ending :=
  match _h : valueIn isOpen bs with
  | .ok none => ([], .clean)
  | .error halt => ([], .halted halt)
  | .ok (some (v, rest)) => (v :: (valuesIn isOpen rest).1, (valuesIn isOpen rest).2)
termination_by bs.length
decreasing_by all_goals exact valueIn_length _h

section

variable {isOpen : Bool} {bs rest : Bytes}

theorem valuesIn_of_value {v : Json} (h : valueIn isOpen bs = .ok (some (v, rest))) :
    valuesIn isOpen bs = (v :: (valuesIn isOpen rest).1, (valuesIn isOpen rest).2) := by
  rw [valuesIn]
  split
  next h' => cases h.symm.trans h'
  next h' => cases h.symm.trans h'
  next h' =>
    cases h.symm.trans h'
    rfl

theorem valuesIn_of_none (h : valueIn isOpen bs = .ok none) :
    valuesIn isOpen bs = ([], .clean) := by
  rw [valuesIn]
  split
  next => rfl
  next h' => cases h.symm.trans h'
  next h' => cases h.symm.trans h'

theorem valuesIn_of_error {halt : Halt} (h : valueIn isOpen bs = .error halt) :
    valuesIn isOpen bs = ([], .halted halt) := by
  rw [valuesIn]
  split
  next h' => cases h.symm.trans h'
  next h' =>
    cases h.symm.trans h'
    rfl
  next h' => cases h.symm.trans h'

end

theorem readAllWith_joined {fuel : Nat} {f : Feed} (h : f.bytes.length < fuel) :
    readAllWith readValue fuel f = valuesIn f.isOpen f.bytes := by
  induction fuel generalizing f with
  | zero => exact absurd h (Nat.not_lt_zero _)
  | succ fuel ih =>
    cases hvalue : valueIn f.isOpen f.bytes with
    | error halt => rw [readAllWith, readValue_of_error hvalue, valuesIn_of_error hvalue]
    | ok p =>
      obtain _ | ⟨v, rest⟩ := p
      · rw [readAllWith, readValue_of_none hvalue, valuesIn_of_none hvalue]
      · obtain ⟨g, hread, rfl, hopen⟩ := exists_of_valueIn hvalue
        have hshorter := valueIn_length hvalue
        rw [readAllWith, hread, valuesIn_of_value hvalue]
        dsimp only
        rw [ih (by omega), hopen]

/-- All the values of a feed are those of its bytes. -/
theorem readAll_joined (f : Feed) : readAll readValue f = valuesIn f.isOpen f.bytes :=
  readAllWith_joined (Nat.lt_succ_self _)

/-! ## Reading while the feed grows -/

/-- The values `vs` are read off the bytes, one after the other, and `rest` is left. -/
inductive ReadsOff (isOpen : Bool) (bs : Bytes) : (vs : List Json) → (rest : Bytes) → Prop
  | start : ReadsOff isOpen bs [] bs
  | next {vs : List Json} {v : Json} {rest rest' : Bytes} : ReadsOff isOpen bs vs rest →
      valueIn isOpen rest = .ok (some (v, rest')) → ReadsOff isOpen bs (vs ++ [v]) rest'

variable {bs rest : Bytes} {vs : List Json}

/-- What was read off the bytes is read off more bytes as well. -/
theorem ReadsOff.grow (h : ReadsOff true bs vs rest) (isOpen : Bool) (more : Bytes) :
    ReadsOff isOpen (bs ++ more) vs (rest ++ more) := by
  induction h with
  | start => exact .start
  | next _ hvalue ih =>
    refine ih.next ?_
    rw [valueIn_append (by rw [hvalue]; simp), hvalue]
    rfl

/-- What was read off the bytes are the first ones of all their values. -/
theorem ReadsOff.valuesIn_eq {isOpen : Bool} (h : ReadsOff isOpen bs vs rest) :
    valuesIn isOpen bs = (vs ++ (valuesIn isOpen rest).1, (valuesIn isOpen rest).2) := by
  induction h with
  | start => rfl
  | next _ hvalue ih =>
    rw [ih, valuesIn_of_value hvalue, List.append_assoc]
    rfl

end DebugAdapter.Protocol.Frame
