import DebugAdapter.Proofs.Protocol.Growing
import DebugAdapter.Proofs.Text.Utf8
import Mathlib.Data.List.Basic
/-!
# Frames in pieces

A feed that has ended gives the same bodies, and the same ending, however its bytes are cut into
pieces (`readAll_eq_of_bytes_eq`). In particular a header line is too long or not wherever it is
cut: `firstLine` are the bytes that count, `takeLine_tooLong_iff` says so of one line, and
`HeaderAt` says where the header lines of a whole feed begin.
-/

namespace DebugAdapter.Protocol.Frame

open Ascii

/-! ## Lines -/

/-- The bytes up to the first line feed, with it, and all of them when there is none. -/
def firstLine (bs : Bytes) : Bytes :=
  bs.take (bs.idxOf lineFeed + 1)

/-- The bytes behind the first line. -/
def behindLine (bs : Bytes) : Bytes :=
  bs.drop (bs.idxOf lineFeed + 1)

theorem cutLine_eq (bs : Bytes) :
    cutLine bs = (firstLine bs, if lineFeed ∈ bs then some (behindLine bs) else none) := by
  induction bs with
  | nil => rfl
  | cons b bs ih =>
    rw [cutLine]
    by_cases hb : b = lineFeed
    · rw [if_pos hb, firstLine, behindLine, List.idxOf_cons_eq bs hb]
      simp [hb]
    · rw [if_neg hb, ih]
      simp only [firstLine, behindLine, List.idxOf_cons_ne bs hb]
      simp [Ne.symm hb]

theorem firstLine_of_not_mem {bs : Bytes} (h : lineFeed ∉ bs) :
    firstLine bs = bs ∧ behindLine bs = [] := by
  rw [firstLine, behindLine, List.idxOf_of_notMem h]
  exact ⟨List.take_of_length_le (Nat.le_succ _), List.drop_of_length_le (Nat.le_succ _)⟩

theorem length_behindLine {bs : Bytes} (h : bs ≠ []) : (behindLine bs).length < bs.length := by
  have hpos := List.length_pos_iff.2 h
  rw [behindLine, List.length_drop]
  omega

/-- At the end of a feed, a line is what is left up to its line feed. -/
theorem lineIn_eq (bs : Bytes) : lineIn false [] bs =
    if maxLine < (firstLine bs).length then .error (.failed .lineTooLong)
    else if bs = [] then .ok none
    else .ok (some (firstLine bs, behindLine bs)) := by
  rw [lineIn, cutLine_eq, List.length_nil, Nat.zero_add]
  by_cases hlong : maxLine < (firstLine bs).length
  · rw [if_pos hlong, if_pos hlong]
  · rw [if_neg hlong, if_neg hlong]
    by_cases hmem : lineFeed ∈ bs
    · simp [hmem, List.ne_nil_of_mem hmem]
    · obtain ⟨hfirst, hbehind⟩ := firstLine_of_not_mem hmem
      simp [hmem, hfirst, hbehind]

theorem lineIn_tooLong_iff (isOpen : Bool) (bs : Bytes) :
    lineIn isOpen [] bs = .error (.failed .lineTooLong) ↔ maxLine < (firstLine bs).length := by
  rw [lineIn, cutLine_eq, List.length_nil, Nat.zero_add]
  by_cases hlong : maxLine < (firstLine bs).length
  · simp [hlong]
  · rw [if_neg hlong]
    refine iff_of_false (fun h => ?_) hlong
    dsimp only at h
    repeat' split at h
    all_goals cases h

theorem joined_eq_error_iff {α : Type} {x : Except Halt (Option (α × List Bytes))} {e : Halt} :
    joined x = .error e ↔ x = .error e := by
  cases x <;> simp [joined, Except.map]

/-- A line is too long if its bytes are too many, wherever they are cut. -/
theorem takeLine_tooLong_iff (isOpen : Bool) (pieces : List Bytes) :
    takeLine isOpen [] pieces = .error (.failed .lineTooLong) ↔
      maxLine < (firstLine pieces.flatten).length := by
  rw [← lineIn_tooLong_iff isOpen, ← takeLine_joined (Nat.zero_le _), joined_eq_error_iff]

/-! ## Headers line by line -/

theorem lengthAfter_ne_lineTooLong (length : Option Nat) (cs : List Char) :
    lengthAfter length cs ≠ .error .lineTooLong := by
  unfold lengthAfter
  split
  · nofun
  · dsimp only
    split
    · split <;> nofun
    · nofun

/-- What the reading of headers comes to by the line that the last bytes of a feed begin with;
`next` goes on behind that line. -/
inductive LineTurn (first : Bool) (length : Option Nat) (bs : Bytes)
    (next : Option Nat → Except Halt (Option (Option Nat × Bytes)))
    (result : Except Halt (Option (Option Nat × Bytes))) : Prop where
  | tooLong : maxLine < (firstLine bs).length → result = .error (.failed .lineTooLong) →
      LineTurn first length bs next result
  | missing : bs = [] → result = (if first then .ok none else .error (.failed .endInHeaders)) →
      LineTurn first length bs next result
  | notText : (firstLine bs).length ≤ maxLine → Utf8.decode? (firstLine bs) = none →
      result = .error (.failed .lineNotText) → LineTurn first length bs next result
  | blank {cs : List Char} : (firstLine bs).length ≤ maxLine → bs ≠ [] →
      Utf8.decode? (firstLine bs) = some cs → dropLineEnds cs = [] →
      result = .ok (some (length, behindLine bs)) → LineTurn first length bs next result
  | badLength {cs : List Char} {e : FrameError} : (firstLine bs).length ≤ maxLine →
      Utf8.decode? (firstLine bs) = some cs → dropLineEnds cs ≠ [] →
      lengthAfter length (dropLineEnds cs) = .error e → result = .error (.failed e) →
      LineTurn first length bs next result
  | header {cs : List Char} {length' : Option Nat} : (firstLine bs).length ≤ maxLine → bs ≠ [] →
      Utf8.decode? (firstLine bs) = some cs → dropLineEnds cs ≠ [] →
      lengthAfter length (dropLineEnds cs) = .ok length' → result = next length' →
      LineTurn first length bs next result

theorem headersIn_turn (fuel : Nat) (first : Bool) (length : Option Nat) (bs : Bytes) :
    LineTurn first length bs (fun length' => headersIn false fuel false length' (behindLine bs))
      (headersIn false (fuel + 1) first length bs) := by
  rw [headersIn, lineIn_eq]
  by_cases hlong : maxLine < (firstLine bs).length
  · rw [if_pos hlong]
    exact .tooLong hlong rfl
  · have hshort := Nat.le_of_not_lt hlong
    rw [if_neg hlong]
    by_cases hnil : bs = []
    · rw [if_pos hnil]
      exact .missing hnil (by cases first <;> rfl)
    · rw [if_neg hnil]
      cases hcs : Utf8.decode? (firstLine bs) with
      | none =>
        simp only [bind, Except.bind, hcs]
        exact .notText hshort hcs rfl
      | some cs =>
        simp only [bind, Except.bind, hcs]
        by_cases hblank : dropLineEnds cs = []
        · rw [if_pos (List.isEmpty_iff.2 hblank)]
          exact .blank hshort hnil hcs hblank rfl
        · rw [if_neg (mt List.isEmpty_iff.1 hblank)]
          cases hlength : lengthAfter length (dropLineEnds cs) with
          | error e => exact .badLength hshort hcs hblank hlength rfl
          | ok length' => exact .header hshort hnil hcs hblank hlength rfl

/-- Where a feed has ended, headers do not wait for more bytes: each line takes one. -/
theorem headersIn_ne_starved {fuel : Nat} {bs : Bytes} (h : bs.length < fuel) (first : Bool)
    (length : Option Nat) : headersIn false fuel first length bs ≠ .error .starved := by
  induction fuel generalizing first length bs with
  | zero => exact absurd h (Nat.not_lt_zero _)
  | succ fuel ih =>
    cases headersIn_turn fuel first length bs with
    | header _ hnil _ _ _ heq =>
      have hshorter := length_behindLine hnil
      exact heq ▸ ih (by omega) false _
    | missing _ heq =>
      rw [heq]
      cases first <;> nofun
    | tooLong _ heq | notText _ _ heq | blank _ _ _ _ heq | badLength _ _ _ _ heq =>
      rw [heq]
      nofun

/-! ## Where header lines begin -/

/-- The bytes `line` begin with a header line that is looked at when the last bytes `bs` of a feed
are read, where the headers before `bs` gave `length`. -/
inductive HeaderAt : (length : Option Nat) → (bs line : Bytes) → Prop where
  /-- The line that the bytes begin with. -/
  | here {length : Option Nat} {bs : Bytes} : HeaderAt length bs bs
  /-- A line behind another one of the same frame. -/
  | header {length length' : Option Nat} {bs line : Bytes} {cs : List Char} :
      (firstLine bs).length ≤ maxLine → Utf8.decode? (firstLine bs) = some cs →
      dropLineEnds cs ≠ [] → lengthAfter length (dropLineEnds cs) = .ok length' →
      HeaderAt length' (behindLine bs) line → HeaderAt length bs line
  /-- A line behind the empty line and the body of a frame. -/
  | body {n : Nat} {bs line : Bytes} {cs : List Char} :
      (firstLine bs).length ≤ maxLine → bs ≠ [] → Utf8.decode? (firstLine bs) = some cs →
      dropLineEnds cs = [] → n ≤ maxBody → n ≤ (behindLine bs).length →
      HeaderAt none ((behindLine bs).drop n) line → HeaderAt (some n) bs line

/-- Whether a header line is too long that is looked at when `bs` are read. -/
def MeetsLong (length : Option Nat) (bs : Bytes) : Prop :=
  ∃ line, HeaderAt length bs line ∧ maxLine < (firstLine line).length

/-- Whether the reading of headers meets a line that is too long, or leads to a body behind which
there is one. -/
def LeadsToLong (result : Except Halt (Option (Option Nat × Bytes))) : Prop :=
  result = .error (.failed .lineTooLong) ∨
    ∃ n rest, result = .ok (some (some n, rest)) ∧ n ≤ maxBody ∧ n ≤ rest.length ∧
      MeetsLong none (rest.drop n)

theorem meetsLong_iff_of_header {length length' : Option Nat} {bs : Bytes} {cs : List Char}
    (hshort : (firstLine bs).length ≤ maxLine) (hcs : Utf8.decode? (firstLine bs) = some cs)
    (hheader : dropLineEnds cs ≠ [])
    (hlength : lengthAfter length (dropLineEnds cs) = .ok length') :
    MeetsLong length bs ↔ MeetsLong length' (behindLine bs) := by
  refine ⟨fun ⟨line, hline, hlong⟩ => ?_, fun ⟨line, hline, hlong⟩ =>
    ⟨line, .header hshort hcs hheader hlength hline, hlong⟩⟩
  cases hline with
  | here => omega
  | header _ hcs' _ hlength' hline =>
    cases hcs.symm.trans hcs'
    cases hlength.symm.trans hlength'
    exact ⟨line, hline, hlong⟩
  | body _ _ hcs' hblank _ _ _ =>
    cases hcs.symm.trans hcs'
    exact absurd hblank hheader

theorem meetsLong_iff_of_blank {length : Option Nat} {bs : Bytes} {cs : List Char}
    (hshort : (firstLine bs).length ≤ maxLine) (hnil : bs ≠ [])
    (hcs : Utf8.decode? (firstLine bs) = some cs) (hblank : dropLineEnds cs = []) :
    MeetsLong length bs ↔ LeadsToLong (.ok (some (length, behindLine bs))) := by
  constructor
  · rintro ⟨line, hline, hlong⟩
    cases hline with
    | here => omega
    | header _ hcs' hheader _ _ =>
      cases hcs.symm.trans hcs'
      exact absurd hblank hheader
    | body _ _ _ _ hbody hwhole hline => exact .inr ⟨_, _, rfl, hbody, hwhole, line, hline, hlong⟩
  · rintro (h | ⟨n, rest, h, hbody, hwhole, line, hline, hlong⟩)
    · cases h
    · cases h
      exact ⟨line, .body hshort hnil hcs hblank hbody hwhole hline, hlong⟩

/-- A line that is no header line and not blank is the last one that is looked at. -/
theorem not_meetsLong {length : Option Nat} {bs : Bytes}
    (hshort : (firstLine bs).length ≤ maxLine)
    (hlast : ∀ cs, Utf8.decode? (firstLine bs) = some cs →
      bs = [] ∨ dropLineEnds cs ≠ [] ∧ ∃ e, lengthAfter length (dropLineEnds cs) = .error e) :
    ¬MeetsLong length bs := by
  rintro ⟨line, hline, hlong⟩
  cases hline with
  | here => omega
  | header _ hcs hheader hlength _ =>
    rcases hlast _ hcs with rfl | ⟨-, e, he⟩
    · have hempty : Utf8.decode? (firstLine []) = some [] := Utf8.decode?_encode []
      cases hempty.symm.trans hcs
      exact hheader rfl
    · cases he.symm.trans hlength
  | body _ hnil hcs hblank _ _ _ =>
    rcases hlast _ hcs with rfl | ⟨hheader, -⟩
    · exact hnil rfl
    · exact hheader hblank

theorem headersIn_leadsToLong_iff {fuel : Nat} {bs : Bytes} (h : bs.length < fuel) (first : Bool)
    (length : Option Nat) :
    LeadsToLong (headersIn false fuel first length bs) ↔ MeetsLong length bs := by
  induction fuel generalizing first length bs with
  | zero => exact absurd h (Nat.not_lt_zero _)
  | succ fuel ih =>
    have of_error {e : FrameError} (he : e ≠ .lineTooLong) : ¬LeadsToLong (.error (.failed e)) := by
      rintro (h | ⟨n, rest, h, -⟩)
      · cases h
        exact he rfl
      · cases h
    cases headersIn_turn fuel first length bs with
    | tooLong hlong heq => exact iff_of_true (.inl heq) ⟨bs, .here, hlong⟩
    | missing hnil heq =>
      subst hnil
      refine iff_of_false ?_ (not_meetsLong (by decide) fun _ _ => .inl rfl)
      rw [heq]
      cases first
      · exact of_error (by decide)
      · rintro (h | ⟨n, rest, h, -⟩) <;> cases h
    | notText hshort hcs heq =>
      refine iff_of_false (heq ▸ of_error (by decide)) (not_meetsLong hshort fun cs hcs' => ?_)
      cases hcs.symm.trans hcs'
    | blank hshort hnil hcs hblank heq =>
      rw [heq, meetsLong_iff_of_blank hshort hnil hcs hblank]
    | badLength hshort hcs hheader hlength heq =>
      refine iff_of_false ?_ (not_meetsLong hshort fun cs hcs' => ?_)
      · exact heq ▸ of_error fun he => lengthAfter_ne_lineTooLong _ _ (he ▸ hlength)
      · cases hcs.symm.trans hcs'
        exact .inr ⟨hheader, _, hlength⟩
    | header hshort hnil hcs hheader hlength heq =>
      have hshorter := length_behindLine hnil
      rw [heq, ih (by omega), meetsLong_iff_of_header hshort hcs hheader hlength]

/-! ## Frames -/

/-- What the reading of a frame comes to by its headers. -/
inductive FrameTurn (headers : Except Halt (Option (Option Nat × Bytes)))
    (result : Except Halt (Option (Bytes × Bytes))) : Prop where
  | halted {e : Halt} : headers = .error e → result = .error e → FrameTurn headers result
  | ended : headers = .ok none → result = .ok none → FrameTurn headers result
  | noLength {rest : Bytes} : headers = .ok (some (none, rest)) →
      result = .error (.failed .noLength) → FrameTurn headers result
  | tooLong {n : Nat} {rest : Bytes} : headers = .ok (some (some n, rest)) → maxBody < n →
      result = .error (.failed (.tooLong n)) → FrameTurn headers result
  | short {n : Nat} {rest : Bytes} : headers = .ok (some (some n, rest)) → rest.length < n →
      result = .error (.failed .endInBody) → FrameTurn headers result
  | whole {n : Nat} {rest : Bytes} : headers = .ok (some (some n, rest)) → n ≤ maxBody →
      n ≤ rest.length → result = .ok (some (rest.take n, rest.drop n)) → FrameTurn headers result

theorem frameIn_turn (bs : Bytes) :
    FrameTurn (headersIn false (bs.length + 1) true none bs) (frameIn false bs) := by
  rw [frameIn]
  cases headersIn false (bs.length + 1) true none bs with
  | error e => exact .halted rfl rfl
  | ok p =>
    obtain _ | ⟨_ | n, rest⟩ := p
    · exact .ended rfl rfl
    · exact .noLength rfl rfl
    · simp only [bind, Except.bind]
      by_cases hlong : maxBody < n
      · rw [if_pos hlong]
        exact .tooLong rfl hlong rfl
      · rw [if_neg hlong]
        by_cases hwhole : n ≤ rest.length
        · rw [if_pos hwhole]
          exact .whole rfl (by omega) hwhole rfl
        · rw [if_neg hwhole]
          exact .short rfl (by omega) rfl

theorem frameIn_ne_starved (bs : Bytes) : frameIn false bs ≠ .error .starved := by
  have hheaders := headersIn_ne_starved (Nat.lt_succ_self bs.length) true none
  cases frameIn_turn bs with
  | halted hin heq =>
    rw [heq]
    exact fun h => hheaders (hin.trans (congrArg Except.error (Except.error.inj h)))
  | ended _ heq | noLength _ heq | tooLong _ _ heq | short _ _ heq | whole _ _ _ heq =>
    rw [heq]
    nofun

/-- A line that is too long stops the reading of the frame it is in, and the frames before it are
read. -/
theorem meetsLong_iff (bs : Bytes) : MeetsLong none bs ↔
    frameIn false bs = .error (.failed .lineTooLong) ∨
      ∃ body rest, frameIn false bs = .ok (some (body, rest)) ∧ MeetsLong none rest := by
  rw [← headersIn_leadsToLong_iff (Nat.lt_succ_self bs.length) true none, LeadsToLong]
  cases frameIn_turn bs with
  | halted hin heq => simp [hin, heq]
  | ended hin heq | noLength hin heq => simp [hin, heq]
  | tooLong hin hlong heq =>
    simp [hin, heq]
    omega
  | short hin hshort heq =>
    simp [hin, heq]
    omega
  | whole hin hbody hwhole heq => simp [hin, heq, hbody, hwhole]

/-! ## Feeds -/

/-- A feed is read like its bytes. -/
theorem read_cases (f : Feed) :
    (frameIn f.isOpen f.bytes = .ok none ∧ read f = .ok none) ∨
      (∃ e, frameIn f.isOpen f.bytes = .error e ∧ read f = .error e) ∨
      ∃ body g, frameIn f.isOpen f.bytes = .ok (some (body, g.bytes)) ∧
        read f = .ok (some (body, g)) ∧ g.isOpen = f.isOpen := by
  have hread := read_joined f
  cases hf : read f with
  | error e =>
    rw [hf] at hread
    cases hframe : frameIn f.isOpen f.bytes with
    | error e' =>
      rw [hframe] at hread
      cases hread
      exact .inr (.inl ⟨e, rfl, rfl⟩)
    | ok p =>
      rw [hframe] at hread
      cases hread
  | ok p =>
    cases hframe : frameIn f.isOpen f.bytes with
    | error e =>
      rw [hf, hframe] at hread
      cases hread
    | ok q =>
      rw [hf, hframe] at hread
      obtain _ | ⟨body, g⟩ := p <;> obtain _ | ⟨body', rest⟩ := q
      · exact .inl ⟨rfl, rfl⟩
      · cases hread
      · cases hread
      · obtain ⟨rfl, rfl, hopen⟩ : body = body' ∧ g.bytes = rest ∧ g.isOpen = f.isOpen := by
          simpa [unread, Except.map] using hread
        exact .inr (.inr ⟨body, g, rfl, rfl, hopen⟩)

theorem read_of_none {f : Feed} (h : frameIn f.isOpen f.bytes = .ok none) : read f = .ok none := by
  rcases read_cases f with ⟨-, hread⟩ | ⟨e, hf, -⟩ | ⟨body, g, hf, -⟩
  · exact hread
  · cases h.symm.trans hf
  · cases h.symm.trans hf

theorem read_of_error {f : Feed} {e : Halt} (h : frameIn f.isOpen f.bytes = .error e) :
    read f = .error e := by
  rcases read_cases f with ⟨hf, -⟩ | ⟨e', hf, hread⟩ | ⟨body, g, hf, -⟩
  · cases h.symm.trans hf
  · cases h.symm.trans hf
    exact hread
  · cases h.symm.trans hf

theorem exists_of_frameIn {f : Feed} {body rest : Bytes}
    (h : frameIn f.isOpen f.bytes = .ok (some (body, rest))) :
    ∃ g, read f = .ok (some (body, g)) ∧ g.bytes = rest ∧ g.isOpen = f.isOpen := by
  rcases read_cases f with ⟨hf, -⟩ | ⟨e, hf, -⟩ | ⟨body', g, hf, hread, hopen⟩
  · cases h.symm.trans hf
  · cases h.symm.trans hf
  · obtain ⟨rfl, rfl⟩ := Prod.mk.inj (Option.some.inj (Except.ok.inj (h.symm.trans hf)))
    exact ⟨g, hread, rfl, hopen⟩

/-- Frame after frame is read alike off feeds with the same bytes. -/
theorem readAllWith_read_congr (fuel : Nat) {f g : Feed} (hopen : f.isOpen = g.isOpen)
    (hbytes : f.bytes = g.bytes) : readAllWith read fuel f = readAllWith read fuel g := by
  induction fuel generalizing f g with
  | zero => rfl
  | succ fuel ih =>
    rw [readAllWith, readAllWith]
    rcases read_cases f with ⟨hf, hread⟩ | ⟨e, hf, hread⟩ | ⟨body, f', hf, hread, hopen'⟩
    · rw [hopen, hbytes] at hf
      rw [hread, read_of_none hf]
    · rw [hopen, hbytes] at hf
      rw [hread, read_of_error hf]
    · rw [hopen, hbytes] at hf
      obtain ⟨g', hread', hbytes', hopen''⟩ := exists_of_frameIn hf
      rw [hread, hread']
      dsimp only
      rw [ih (hopen'.trans (hopen.trans hopen''.symm)) hbytes'.symm]

/-- The reading of a feed that has ended comes to its end, or a frame is refused. -/
theorem readAllWith_ending {fuel : Nat} {f : Feed} (hclosed : f.isOpen = false)
    (hfuel : f.bytes.length < fuel) :
    (readAllWith read fuel f).2 = .clean ∨
      ∃ e, (readAllWith read fuel f).2 = .halted (.failed e) := by
  induction fuel generalizing f with
  | zero => exact absurd hfuel (Nat.not_lt_zero _)
  | succ fuel ih =>
    rw [readAllWith]
    rcases read_cases f with ⟨-, hread⟩ | ⟨e, hf, hread⟩ | ⟨body, g, hf, hread, hopen⟩
    · rw [hread]
      exact .inl rfl
    · rw [hread]
      cases e with
      | starved => exact absurd (hclosed ▸ hf) (frameIn_ne_starved f.bytes)
      | failed e => exact .inr ⟨e, rfl⟩
    · have hshorter := frameIn_length hf
      rw [hread]
      exact ih (hopen.trans hclosed) (by omega)

theorem readAllWith_tooLong_iff {fuel : Nat} {f : Feed} (hclosed : f.isOpen = false)
    (hfuel : f.bytes.length < fuel) :
    (readAllWith read fuel f).2 = .halted (.failed .lineTooLong) ↔ MeetsLong none f.bytes := by
  induction fuel generalizing f with
  | zero => exact absurd hfuel (Nat.not_lt_zero _)
  | succ fuel ih =>
    have hframe := meetsLong_iff f.bytes
    rw [readAllWith]
    rcases read_cases f with ⟨hf, hread⟩ | ⟨e, hf, hread⟩ | ⟨body, g, hf, hread, hopen⟩ <;>
      rw [hclosed] at hf
    · simp [hframe, hread, hf]
    · simp [hframe, hread, hf]
    · have hshorter := frameIn_length hf
      have hrest := ih (hopen.trans hclosed) (by omega)
      simp [hframe, hread, hf, hrest]

/-- Two feeds have ended and delivered the same bytes, in any pieces. Then the same bodies are read
off them, and the reading ends alike: at the end of the bytes, or with the same error. A header
line of the bytes is refused as too long exactly if it has too many bytes up to its line feed, or
up to the end, wherever it is cut. -/
theorem readAll_eq_of_bytes_eq {f g : Feed} (hf : f.isOpen = false) (hg : g.isOpen = false)
    (h : f.bytes = g.bytes) :
    readAll read f = readAll read g ∧
      ((readAll read f).2 = .clean ∨ ∃ e, (readAll read f).2 = .halted (.failed e)) ∧
      ((readAll read f).2 = .halted (.failed .lineTooLong) ↔
        ∃ line, HeaderAt none f.bytes line ∧ maxLine < (firstLine line).length) ∧
      ∀ pieces : List Bytes, takeLine false [] pieces = .error (.failed .lineTooLong) ↔
        maxLine < (firstLine pieces.flatten).length := by
  refine ⟨?_, readAllWith_ending hf (Nat.lt_succ_self _),
    readAllWith_tooLong_iff hf (Nat.lt_succ_self _), takeLine_tooLong_iff false⟩
  rw [readAll, readAll, ← h]
  exact readAllWith_read_congr _ (hf.trans hg.symm) h

/-- A frame with a header that holds a letter of two bytes. -/
def accentedFrame : Bytes :=
  Utf8.ofString "X: é\r\nContent-Length: 2\r\n\r\n\x7b\x7d"

/-- A frame is read alike when each of its bytes comes alone, so that the letter and the line ends
are cut in two, and when all of them come at once. -/
theorem readAll_eq_of_accentedFrame :
    readAll read ⟨accentedFrame.map fun b => [b], false⟩ = readAll read (.ofBytes accentedFrame) ∧
      readAll read (.ofBytes accentedFrame) = ([Utf8.ofString "\x7b\x7d"], .clean) := by
  have hbytes : Feed.bytes ⟨accentedFrame.map fun b => [b], false⟩ =
      Feed.bytes (.ofBytes accentedFrame) := by
    rw [Feed.bytes, Feed.bytes, Feed.ofBytes, List.flatten_singleton, ← List.flatMap_def,
      List.flatMap_singleton']
  exact ⟨(readAll_eq_of_bytes_eq rfl rfl hbytes).1, by decide +kernel⟩

end DebugAdapter.Protocol.Frame
