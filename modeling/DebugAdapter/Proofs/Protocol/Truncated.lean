import DebugAdapter.Proofs.Json.RoundTrip
import DebugAdapter.Proofs.Protocol.Joined
import DebugAdapter.Proofs.Text.Cut
/-!
# Frames that are cut off

A frame that is written is read back in front of anything (`valueIn_encode`), and a frame of which
a part is missing is refused (`valueIn_of_cut`). So the frames of some values, cut off at any byte,
are read back as the values whose frames are whole, and the end is clean only between two frames
(`readAll_of_cut`).
-/

namespace DebugAdapter.Protocol.Frame

open Ascii

/-! ## Lines -/

theorem cutLine_of_lineFeed {line : Bytes} (h : lineFeed ∉ line) (rest : Bytes) :
    cutLine (line ++ lineFeed :: rest) = (line ++ [lineFeed], some rest) := by
  induction line with
  | nil => rfl
  | cons b line ih =>
    obtain ⟨hb, hline⟩ := not_or.1 (mt List.mem_cons.2 h)
    rw [List.cons_append, cutLine, if_neg (Ne.symm hb), ih hline]
    rfl

theorem cutLine_of_not_mem {bs : Bytes} (h : lineFeed ∉ bs) : cutLine bs = (bs, none) := by
  induction bs with
  | nil => rfl
  | cons b bs ih =>
    obtain ⟨hb, hbs⟩ := not_or.1 (mt List.mem_cons.2 h)
    rw [cutLine, if_neg (Ne.symm hb), ih hbs]

theorem lineIn_of_lineFeed (isOpen : Bool) (line : Bytes) (h : lineFeed ∉ line)
    (hlength : line.length < maxLine) (rest : Bytes) :
    lineIn isOpen [] (line ++ lineFeed :: rest) = .ok (some (line ++ [lineFeed], rest)) := by
  have hshort : ¬maxLine < ([] : Bytes).length + (line ++ [lineFeed]).length := by
    simp
    omega
  simp only [lineIn, cutLine_of_lineFeed h]
  rw [if_neg hshort, List.nil_append]

theorem lineIn_of_not_mem (bs : Bytes) (h : lineFeed ∉ bs) (hlength : bs.length ≤ maxLine) :
    lineIn false [] bs = .ok (if bs.isEmpty then none else some (bs, [])) := by
  have hshort : ¬maxLine < ([] : Bytes).length + bs.length := by
    simp
    omega
  simp only [lineIn, cutLine_of_not_mem h]
  rw [if_neg hshort, if_neg (by decide), List.nil_append]
  split <;> rfl

/-! ## Headers -/

section

variable {isOpen first : Bool} {length : Option Nat} {bs line rest : Bytes} {cs : List Char}

theorem headersIn_of_blank (hline : lineIn isOpen [] bs = .ok (some (line, rest)))
    (hcs : Utf8.decode? line = some cs) (hblank : dropLineEnds cs = []) (fuel : Nat) :
    headersIn isOpen (fuel + 1) first length bs = .ok (some (length, rest)) := by
  rw [headersIn, hline]
  simp only [bind, Except.bind, hcs, hblank]
  rfl

theorem headersIn_of_header (hline : lineIn isOpen [] bs = .ok (some (line, rest)))
    (hcs : Utf8.decode? line = some cs) (hne : dropLineEnds cs ≠ []) (fuel : Nat) :
    headersIn isOpen (fuel + 1) first length bs =
      (lengthAfter length (dropLineEnds cs)).mapError .failed >>= fun length =>
        headersIn isOpen fuel false length rest := by
  rw [headersIn, hline]
  simp only [bind, Except.bind, hcs]
  rw [if_neg (by simpa using hne)]

theorem headersIn_nil (fuel : Nat) :
    headersIn false (fuel + 1) first length [] =
      if first then .ok none else .error (.failed .endInHeaders) := by
  cases first <;> rfl

end

/-! ## The header of a frame -/

/-- The name of the header that gives the length, as it is written. -/
def lengthName : List Char :=
  "Content-Length".toList

/-- The header line of a body of `n` bytes, without the line end. -/
def lengthLine (n : Nat) : List Char :=
  lengthName ++ ':' :: ' ' :: Nat.toDigits 10 n

theorem toList_header (n : Nat) :
    ("Content-Length: " ++ toString n ++ "\r\n\r\n").toList =
      lengthLine n ++ ['\r', '\n', '\r', '\n'] := by
  have hname : "Content-Length: ".toList = lengthName ++ [':', ' '] := by decide
  have hend : "\r\n\r\n".toList = ['\r', '\n', '\r', '\n'] := by decide
  rw [String.toList_append, String.toList_append, hname, hend, Nat.toString_eq_repr,
    Nat.toList_repr, lengthLine]
  simp

/-- A frame is a header line, an empty line and the body. -/
theorem encode_eq (v : Json) : encode v =
    Utf8.encode (lengthLine v.body.length ++ ['\r']) ++
      lineFeed :: carriageReturn :: lineFeed :: v.body := by
  have hreturn : Utf8.encode ['\r'] = [carriageReturn] := by decide
  have hend : Utf8.encode ['\r', '\n', '\r', '\n'] =
      [carriageReturn, lineFeed, carriageReturn, lineFeed] := by decide
  have hheader : encode v = Utf8.encode
      ("Content-Length: " ++ toString v.body.length ++ "\r\n\r\n").toList ++ v.body := rfl
  rw [hheader, toList_header, Utf8.encode_append, Utf8.encode_append, hreturn, hend,
    List.append_assoc, List.append_assoc]
  rfl

theorem toNat_of_mem_lengthLine {n : Nat} {c : Char} (h : c ∈ lengthLine n) :
    32 ≤ c.toNat ∧ c.toNat < 128 := by
  have hname : lengthName.all (fun c => 32 ≤ c.toNat && c.toNat < 128) = true := by decide
  simp only [lengthLine, List.mem_append, List.mem_cons] at h
  rcases h with h | rfl | rfl | h
  · simpa using List.all_eq_true.1 hname c h
  · decide
  · decide
  · have := Json.toNat_of_isDigit (Nat.isDigit_of_mem_toDigits (by decide) (by decide) h)
    omega

theorem length_lengthLine {n : Nat} (h : n ≤ maxBody) : (lengthLine n).length ≤ 24 := by
  have hdigits : (Nat.toDigits 10 n).length ≤ 8 := by
    rw [Nat.length_toDigits_le_iff (by decide) (by decide)]
    exact Nat.lt_of_le_of_lt h (by decide)
  have hname : lengthName.length = 14 := by decide
  simp only [lengthLine, List.length_append, List.length_cons, hname]
  omega

/-- The line ends behind the header line are dropped. -/
theorem dropLineEnds_lengthLine (n : Nat) (tail : List Char)
    (h : ∀ c ∈ tail, c = '\r' ∨ c = '\n') : dropLineEnds (lengthLine n ++ tail) = lengthLine n := by
  rw [dropLineEnds, Text.dropEndWhile_append_of_pos fun c hc => decide_eq_true (h c hc)]
  refine Text.dropEndWhile_eq_self_iff.2 fun c hc => decide_eq_false ?_
  have hrange := toNat_of_mem_lengthLine (List.mem_of_getLast? hc)
  rintro (rfl | rfl)
  · exact absurd hrange.1 (by decide)
  · exact absurd hrange.1 (by decide)

theorem numeralFrom_digits {cs : List Char} (h : ∀ c ∈ cs, c.isDigit = true) (n : Nat)
    (hfits : Nat.ofDigitChars 10 cs n < 0x10000000000000000) :
    Text.numeralFrom n cs = .ok (Nat.ofDigitChars 10 cs n) := by
  induction cs generalizing n with
  | nil => simp [Text.numeralFrom]
  | cons c cs ih =>
    rw [Nat.ofDigitChars_cons] at hfits ⊢
    have hle := Json.le_ofDigitChars cs (10 * n + (c.toNat - '0'.toNat))
    have hvalue : n * 10 + (c.toNat - 48) = 10 * n + (c.toNat - '0'.toNat) := by
      rw [Nat.mul_comm]
      rfl
    rw [Text.numeralFrom, if_pos (h c List.mem_cons_self), if_pos (by omega), hvalue,
      ih (fun d hd => h d (List.mem_cons_of_mem c hd)) _ hfits]

theorem parseNumeral_toDigits {n : Nat} (h : n < 0x10000000000000000) :
    Text.parseNumeral (String.ofList (Nat.toDigits 10 n)) = .ok n := by
  have hdigits : ∀ c ∈ Nat.toDigits 10 n, c.isDigit = true := fun c hc =>
    Nat.isDigit_of_mem_toDigits (by decide) (by decide) hc
  have hvalue := Nat.ofDigitChars_ten_toDigits (n := n)
  have hnumeral := numeralFrom_digits hdigits 0 (by rwa [hvalue])
  rw [hvalue] at hnumeral
  unfold Text.parseNumeral
  rw [String.toList_ofList]
  split
  next hnil => exact absurd hnil Nat.toDigits_ne_nil
  next hplus => exact absurd (hdigits '+' (by simp [hplus])) (by decide)
  next hplus => exact absurd (hdigits '+' (by simp [hplus])) (by decide)
  · exact hnumeral

/-- The header line gives the length. -/
theorem lengthAfter_lengthLine {n : Nat} (h : n ≤ maxBody) (length : Option Nat) :
    lengthAfter length (lengthLine n) = .ok (some n) := by
  have hdigits : ∀ c ∈ Nat.toDigits 10 n, Text.isBlank c = false := by
    intro c hc
    have hrange := Json.toNat_of_isDigit
      (Nat.isDigit_of_mem_toDigits (by decide) (by decide) hc)
    simp only [Text.isBlank, Bool.or_eq_false_iff, Bool.and_eq_false_iff, decide_eq_false_iff_not,
      beq_eq_false_iff_ne]
    omega
  have htrim : Text.trimChars (' ' :: Nat.toDigits 10 n) = Nat.toDigits 10 n := by
    rw [Text.trimChars, List.dropWhile_cons_of_pos (by decide),
      Text.dropWhile_eq_self_iff_head?.2 fun c hc => hdigits c (List.mem_of_head? hc),
      Text.dropEndWhile_eq_self_iff.2 fun c hc => hdigits c (List.mem_of_getLast? hc)]
  have hlower : lengthName.map Char.toLower = lengthHeader := by decide
  have hfits : n < 0x10000000000000000 := Nat.lt_of_le_of_lt h (by decide)
  rw [lengthAfter, lengthLine, Text.cutAt?_append_cons (by decide)]
  dsimp only
  rw [if_pos hlower, htrim, parseNumeral_toDigits hfits]

/-! ## Frames -/

/-- The bytes of the header line of a body of `n` bytes, up to its line feed. -/
def headerBytes (n : Nat) : Bytes :=
  Utf8.encode (lengthLine n ++ ['\r'])

theorem headerBytes_eq (n : Nat) :
    headerBytes n = (lengthLine n ++ ['\r']).map fun c => UInt8.ofNat c.toNat := by
  refine Utf8.encode_of_lt fun c hc => ?_
  rcases List.mem_append.1 hc with hc | hc
  · exact (toNat_of_mem_lengthLine hc).2
  · obtain rfl := List.mem_singleton.1 hc
    decide

theorem length_headerBytes {n : Nat} (h : n ≤ maxBody) : (headerBytes n).length < maxLine := by
  have hlength := length_lengthLine h
  have hmax : 25 < maxLine := by decide
  simp only [headerBytes_eq, List.length_map, List.length_append, List.length_singleton]
  omega

theorem lineFeed_not_mem_headerBytes (n : Nat) : lineFeed ∉ headerBytes n := by
  rw [headerBytes_eq, List.mem_map]
  rintro ⟨c, hc, heq⟩
  have hnat := congrArg UInt8.toNat heq
  rw [UInt8.toNat_ofNat'] at hnat
  change c.toNat % 2 ^ 8 = 10 at hnat
  rcases List.mem_append.1 hc with hc | hc
  · have := toNat_of_mem_lengthLine hc
    omega
  · obtain rfl := List.mem_singleton.1 hc
    exact absurd hnat (by decide)

/-- The header line of a frame is read, whatever follows it. -/
theorem headersIn_headerBytes {n : Nat} (h : n ≤ maxBody) (isOpen : Bool) (rest : Bytes)
    (fuel : Nat) : headersIn isOpen (fuel + 1) true none (headerBytes n ++ lineFeed :: rest) =
      headersIn isOpen fuel false (some n) rest := by
  have hline := lineIn_of_lineFeed isOpen _ (lineFeed_not_mem_headerBytes n)
    (length_headerBytes h) rest
  have hbytes : headerBytes n ++ [lineFeed] = Utf8.encode (lengthLine n ++ ['\r', '\n']) := by
    have hend : Utf8.encode ['\n'] = [lineFeed] := by decide
    rw [headerBytes, ← hend, ← Utf8.encode_append, List.append_assoc]
    rfl
  have hdecode : Utf8.decode? (headerBytes n ++ [lineFeed]) =
      some (lengthLine n ++ ['\r', '\n']) := by
    rw [hbytes, Utf8.decode?_encode]
  have hdrop := dropLineEnds_lengthLine n ['\r', '\n'] (by simp)
  have hne : dropLineEnds (lengthLine n ++ ['\r', '\n']) ≠ [] := by
    rw [hdrop, lengthLine]
    simp
  rw [headersIn_of_header hline hdecode hne, hdrop, lengthAfter_lengthLine h]
  rfl

theorem headersIn_blankLine (isOpen : Bool) (length : Option Nat) (rest : Bytes) (fuel : Nat) :
    headersIn isOpen (fuel + 1) false length (carriageReturn :: lineFeed :: rest) =
      .ok (some (length, rest)) := by
  have hline := lineIn_of_lineFeed isOpen [carriageReturn] (by decide) (by decide) rest
  have hbytes : [carriageReturn] ++ [lineFeed] = Utf8.encode ['\r', '\n'] := by decide
  have hdecode : Utf8.decode? ([carriageReturn] ++ [lineFeed]) = some ['\r', '\n'] := by
    rw [hbytes, Utf8.decode?_encode]
  exact headersIn_of_blank hline hdecode (by decide) fuel

theorem headersIn_encode {v : Json} (h : v.body.length ≤ maxBody) (isOpen : Bool) (rest : Bytes)
    (fuel : Nat) : headersIn isOpen (fuel + 2) true none (encode v ++ rest) =
      .ok (some (some v.body.length, v.body ++ rest)) := by
  rw [encode_eq, ← headerBytes, List.append_assoc, List.cons_append, List.cons_append,
    List.cons_append, headersIn_headerBytes h, headersIn_blankLine]

/-- A frame is read back in front of anything. -/
theorem frameIn_encode {v : Json} (h : v.body.length ≤ maxBody) (isOpen : Bool) (rest : Bytes) :
    frameIn isOpen (encode v ++ rest) = .ok (some (v.body, rest)) := by
  obtain ⟨fuel, hfuel⟩ : ∃ fuel, (encode v ++ rest).length + 1 = fuel + 2 := by
    refine ⟨(encode v ++ rest).length - 1, ?_⟩
    simp only [encode_eq, List.length_append, List.length_cons]
    omega
  rw [frameIn, hfuel, headersIn_encode h]
  change (if maxBody < v.body.length then _ else if v.body.length ≤ (v.body ++ rest).length then _
    else _) = _
  rw [if_neg (by omega), if_pos (by rw [List.length_append]; omega), List.take_left,
    List.drop_left]
  rfl

theorem valueIn_encode {v : Json} (hv : v.Restorable 127) (h : v.body.length ≤ maxBody)
    (isOpen : Bool) (rest : Bytes) :
    valueIn isOpen (encode v ++ rest) = .ok (some (v, rest)) := by
  rw [valueIn, frameIn_encode h]
  simp only [bind, Except.bind, Json.parse_body hv]
  rfl

/-! ## Frames that are cut off -/

/-- A part of the header line is no whole header, however much of it there is. -/
theorem headersIn_of_part {n k : Nat} (h : n ≤ maxBody) (hk : 0 < k) (fuel : Nat) :
    ∃ e, headersIn false (fuel + 2) true none ((headerBytes n).take k) = .error (.failed e) := by
  obtain ⟨k, rfl⟩ : ∃ m, k = m + 1 := ⟨k - 1, by omega⟩
  obtain ⟨cs, hcs⟩ : ∃ cs, (lengthLine n ++ ['\r']).take (k + 1) = 'C' :: cs := ⟨_, rfl⟩
  have hbytes : (headerBytes n).take (k + 1) = Utf8.encode ('C' :: cs) := by
    rw [headerBytes_eq, ← List.map_take, hcs, Utf8.encode_of_lt]
    intro c hc
    rw [← hcs] at hc
    rcases List.mem_append.1 (List.mem_of_mem_take hc) with hc | hc
    · exact (toNat_of_mem_lengthLine hc).2
    · obtain rfl := List.mem_singleton.1 hc
      decide
  have hline := lineIn_of_not_mem ((headerBytes n).take (k + 1))
    (fun hmem => lineFeed_not_mem_headerBytes n (List.mem_of_mem_take hmem))
    (Nat.le_trans (List.length_take_le' ..) (Nat.le_of_lt (length_headerBytes h)))
  have hdecode : Utf8.decode? ((headerBytes n).take (k + 1)) = some ('C' :: cs) := by
    rw [hbytes, Utf8.decode?_encode]
  have hfull : ((headerBytes n).take (k + 1)).isEmpty = false := by
    rw [hbytes]
    rfl
  rw [hfull, if_neg (by decide)] at hline
  have hne : dropLineEnds ('C' :: cs) ≠ [] :=
    Text.dropEndWhile_cons_ne_nil (by decide) cs
  rw [headersIn_of_header hline hdecode hne]
  cases lengthAfter none (dropLineEnds ('C' :: cs)) with
  | error e => exact ⟨e, rfl⟩
  | ok length =>
    refine ⟨.endInHeaders, ?_⟩
    change headersIn false (fuel + 1) false length [] = _
    rw [headersIn_nil]
    rfl

theorem frameIn_of_headersIn_error {bs : Bytes} {e : Halt}
    (h : headersIn false (bs.length + 1) true none bs = .error e) :
    frameIn false bs = .error e := by
  rw [frameIn, h]
  rfl

/-- A body that is cut off is refused. -/
theorem frameIn_of_short {bs rest : Bytes} {n : Nat} (h : n ≤ maxBody) (hshort : rest.length < n)
    (hheaders : headersIn false (bs.length + 1) true none bs = .ok (some (some n, rest))) :
    frameIn false bs = .error (.failed .endInBody) := by
  rw [frameIn, hheaders]
  change (if maxBody < n then _ else if n ≤ rest.length then _ else _) = _
  rw [if_neg (by omega), if_neg (by omega)]
  rfl

/-- A blank line that lacks its line feed ends the headers too. -/
theorem headersIn_carriageReturn (length : Option Nat) (fuel : Nat) :
    headersIn false (fuel + 1) false length [carriageReturn] = .ok (some (length, [])) := by
  have hline := lineIn_of_not_mem [carriageReturn] (by decide) (by decide)
  have hbytes : [carriageReturn] = Utf8.encode ['\r'] := by decide
  have hdecode : Utf8.decode? [carriageReturn] = some ['\r'] := by
    rw [hbytes, Utf8.decode?_encode]
  exact headersIn_of_blank hline hdecode (by decide) fuel

/-- Behind a header line, a part of what follows is no whole frame. -/
theorem frameIn_of_header {v : Json} (hbody : 0 < v.body.length) (h : v.body.length ≤ maxBody)
    {j : Nat} (hj : j < v.body.length + 2) :
    ∃ e, frameIn false (headerBytes v.body.length ++
      lineFeed :: (carriageReturn :: lineFeed :: v.body).take j) = .error (.failed e) := by
  have hheader (rest : Bytes) :
      headersIn false ((headerBytes v.body.length ++ lineFeed :: rest).length + 1) true none
        (headerBytes v.body.length ++ lineFeed :: rest) =
          headersIn false ((headerBytes v.body.length).length + rest.length + 1) false
            (some v.body.length) rest := by
    rw [headersIn_headerBytes h, List.length_append, List.length_cons, Nat.add_assoc]
  obtain _ | _ | j := j
  · exact ⟨.endInHeaders, frameIn_of_headersIn_error ((hheader []).trans (headersIn_nil _))⟩
  · have hheaders := (hheader [carriageReturn]).trans (headersIn_carriageReturn _ _)
    exact ⟨.endInBody, frameIn_of_short h (show [].length < _ from hbody) hheaders⟩
  · have hheaders := (hheader (carriageReturn :: lineFeed :: v.body.take j)).trans
      (headersIn_blankLine ..)
    refine ⟨.endInBody, frameIn_of_short h ?_ hheaders⟩
    rw [List.length_take]
    omega

/-- A frame of which a part is missing is refused. -/
theorem frameIn_of_cut {v : Json} (hbody : 0 < v.body.length) (h : v.body.length ≤ maxBody)
    {bs : Bytes} (hbs : bs <+: encode v) (hne : bs ≠ encode v) (hnil : bs ≠ []) :
    ∃ e, frameIn false bs = .error (.failed e) := by
  have hpos := List.length_pos_iff.2 hnil
  have hshort : bs.length < (encode v).length :=
    Nat.lt_of_le_of_ne hbs.length_le fun heq => hne (hbs.eq_of_length heq)
  have htake := List.prefix_iff_eq_take.1 hbs
  rw [encode_eq, ← headerBytes] at htake hshort
  rw [List.length_append, List.length_cons, List.length_cons, List.length_cons] at hshort
  rcases Nat.lt_or_ge (headerBytes v.body.length).length bs.length with hlong | hpart
  · -- The cut is behind the header line.
    obtain ⟨j, hj⟩ : ∃ j, bs.length = (headerBytes v.body.length).length + (j + 1) :=
      ⟨bs.length - (headerBytes v.body.length).length - 1, by omega⟩
    rw [hj, List.take_length_add_append, List.take_succ_cons] at htake
    rw [htake]
    exact frameIn_of_header hbody h (by omega)
  · -- The cut is within the header line.
    rw [List.take_append_of_le_length hpart] at htake
    obtain ⟨e, he⟩ := headersIn_of_part h hpos (bs.length - 1)
    rw [← htake, show bs.length - 1 + 2 = bs.length + 1 by omega] at he
    exact ⟨e, frameIn_of_headersIn_error he⟩

theorem valueIn_of_cut {v : Json} (hbody : 0 < v.body.length) (h : v.body.length ≤ maxBody)
    {bs : Bytes} (hbs : bs <+: encode v) (hne : bs ≠ encode v) (hnil : bs ≠ []) :
    ∃ e, valueIn false bs = .error (.failed e) := by
  obtain ⟨e, he⟩ := frameIn_of_cut hbody h hbs hne hnil
  refine ⟨e, ?_⟩
  rw [valueIn, he]
  rfl

/-! ## Frame after frame -/

theorem encode_ne_nil (v : Json) : encode v ≠ [] := by
  rw [encode_eq]
  simp

/-- How many of the frames of some values lie wholly within the first `n` bytes. -/
def framesWithin : (n : Nat) → List Json → Nat
  | _, [] => 0
  | n, v :: vs =>
    if (encode v).length ≤ n then framesWithin (n - (encode v).length) vs + 1 else 0

/-- What reading frame after frame gives : the values, and a clean end if `isWhole`. -/
def Reads (result : List Json × Ending) (vs : List Json) (isWhole : Prop) : Prop :=
  result.1 = vs ∧
    (result.2 = .clean ∧ isWhole ∨ (∃ e, result.2 = .halted (.failed e)) ∧ ¬isWhole)

theorem readAllWith_of_cut {vs : List Json}
    (hvs : ∀ v ∈ vs, v.Restorable 127 ∧ v.body.length ≤ maxBody) {f : Feed}
    (hclosed : f.isOpen = false) {n fuel : Nat}
    (hbytes : f.bytes = (vs.flatMap encode).take n) (hfuel : f.bytes.length < fuel) :
    Reads (readAllWith readValue fuel f) (vs.take (framesWithin n vs))
      (f.bytes = (vs.take (framesWithin n vs)).flatMap encode) := by
  obtain ⟨fuel, rfl⟩ : ∃ m, fuel = m + 1 := ⟨fuel - 1, by omega⟩
  induction vs generalizing f n fuel with
  | nil =>
    have hnil : f.bytes = [] := by simpa using hbytes
    have hread : readValue f = .ok none := readValue_of_none (by rw [hclosed, hnil]; rfl)
    rw [readAllWith, hread]
    exact ⟨rfl, .inl ⟨rfl, hnil⟩⟩
  | cons v vs ih =>
    obtain ⟨hv, hlength⟩ := hvs v List.mem_cons_self
    rw [List.flatMap_cons] at hbytes
    by_cases hfit : (encode v).length ≤ n
    · -- The frame is whole : it is read, and the next one begins behind it.
      rw [List.take_append, List.take_of_length_le hfit] at hbytes
      have hvalue : valueIn f.isOpen f.bytes =
          .ok (some (v, (vs.flatMap encode).take (n - (encode v).length))) := by
        rw [hbytes, valueIn_encode hv hlength]
      obtain ⟨g, hread, hrest, hopen⟩ := exists_of_valueIn hvalue
      have hpos := List.length_pos_iff.2 (encode_ne_nil v)
      have hshorter : g.bytes.length < f.bytes.length := by
        rw [hbytes, hrest, List.length_append]
        omega
      obtain ⟨fuel, rfl⟩ : ∃ m, fuel = m + 1 := ⟨fuel - 1, by omega⟩
      obtain ⟨hvalues, hend⟩ := ih (fun w hw => hvs w (List.mem_cons_of_mem v hw))
        (hopen.trans hclosed) hrest fuel (by omega)
      have hwhole :
          f.bytes = (v :: vs.take (framesWithin (n - (encode v).length) vs)).flatMap encode ↔
            g.bytes = (vs.take (framesWithin (n - (encode v).length) vs)).flatMap encode := by
        rw [hbytes, List.flatMap_cons, List.append_cancel_left_eq, hrest]
      rw [readAllWith, hread, framesWithin, if_pos hfit, List.take_succ_cons]
      refine ⟨congrArg (v :: ·) hvalues, ?_⟩
      rw [hwhole]
      exact hend
    · rw [List.take_append_of_le_length (by omega)] at hbytes
      rw [framesWithin, if_neg hfit, List.take_zero, readAllWith]
      by_cases hnil : f.bytes = []
      · have hread : readValue f = .ok none := readValue_of_none (by rw [hclosed, hnil]; rfl)
        rw [hread]
        exact ⟨rfl, .inl ⟨rfl, hnil⟩⟩
      · have hne : f.bytes ≠ encode v := fun heq => hfit (by
          have := congrArg List.length (heq.symm.trans hbytes)
          rw [List.length_take] at this
          omega)
        have hpos := (hv.scansBack (by decide : 127 < 128)).length_pos
        obtain ⟨e, he⟩ := valueIn_of_cut hpos hlength (hbytes ▸ List.take_prefix n _) hne hnil
        rw [readValue_of_error (hclosed ▸ he)]
        exact ⟨rfl, .inr ⟨⟨e, rfl⟩, hnil⟩⟩

theorem framesWithin_le (n : Nat) (vs : List Json) : framesWithin n vs ≤ vs.length := by
  induction vs generalizing n with
  | nil => exact Nat.le_refl 0
  | cons v vs ih =>
    rw [framesWithin, List.length_cons]
    split
    · exact Nat.succ_le_succ (ih _)
    · omega

/-- Exactly the frames that are counted lie within the first `n` bytes. -/
theorem le_framesWithin_iff {vs : List Json} {j : Nat} (hj : j ≤ vs.length) (n : Nat) :
    j ≤ framesWithin n vs ↔ ((vs.take j).flatMap encode).length ≤ n := by
  induction vs generalizing j n with
  | nil =>
    obtain rfl := Nat.le_zero.1 hj
    simp
  | cons v vs ih =>
    cases j with
    | zero => simp
    | succ j =>
      rw [List.take_succ_cons, List.flatMap_cons, List.length_append, framesWithin]
      split
      next hfit =>
        rw [Nat.succ_le_succ_iff, ih (Nat.le_of_succ_le_succ hj)]
        omega
      next hfit =>
        refine iff_of_false (by omega) fun hle => hfit ?_
        omega

/-- The frames of some values are cut off after `n` bytes, and delivered in any pieces. Then the
values are read whose frames are whole, in order. The end is clean if the cut is between two frames,
and else a frame is refused. -/
theorem readAll_of_cut {vs : List Json}
    (hvs : ∀ v ∈ vs, v.Restorable 127 ∧ v.body.length ≤ maxBody) {f : Feed}
    (hclosed : f.isOpen = false) {n : Nat} (hbytes : f.bytes = (vs.flatMap encode).take n) :
    ∃ k ≤ vs.length, (∀ j ≤ vs.length, j ≤ k ↔ ((vs.take j).flatMap encode).length ≤ n) ∧
      (readAll readValue f).1 = vs.take k ∧
      ((readAll readValue f).2 = .clean ∧ f.bytes = (vs.take k).flatMap encode ∨
        (∃ e, (readAll readValue f).2 = .halted (.failed e)) ∧
          f.bytes ≠ (vs.take k).flatMap encode) :=
  ⟨framesWithin n vs, framesWithin_le n vs, fun _ hj => le_framesWithin_iff hj n,
    readAllWith_of_cut hvs hclosed hbytes (Nat.lt_succ_self _)⟩

/-- Two values, one with what looks like the end of some headers in it. -/
def twoValues : List Json :=
  [.object [("a", .array [.null, .string "\r\n\r\n"]), ("b", Json.ofInt (-7))], .bool true]

/-- The frames of two values, cut off in the header of the second one, in two pieces. -/
def cutInHeader : Feed :=
  ⟨[((twoValues.flatMap encode).take 60).take 3, ((twoValues.flatMap encode).take 60).drop 3],
    false⟩

/-- Of two frames the second is cut off in its header : the first value is read and then a frame is
refused. -/
theorem readAll_of_cut_twoValues : (readAll readValue cutInHeader).1 = twoValues.take 1 ∧
    ∃ e, (readAll readValue cutInHeader).2 = .halted (.failed e) := by
  have hvs : ∀ v ∈ twoValues, v.Restorable 127 ∧ v.body.length ≤ maxBody := by
    intro v hv
    simp only [twoValues, List.mem_cons, List.not_mem_nil, or_false] at hv
    rcases hv with rfl | rfl
    · refine ⟨.object (by decide) ?_, by decide +kernel⟩
      intro m hm
      simp only [List.mem_cons, List.not_mem_nil, or_false] at hm
      rcases hm with rfl | rfl
      · refine .array fun w hw => ?_
        simp only [List.mem_cons, List.not_mem_nil, or_false] at hw
        rcases hw with rfl | rfl
        · exact .null
        · exact .string _
      · exact .number trivial
    · exact ⟨.bool true, by decide +kernel⟩
  obtain ⟨k, hk, hcount, hvalues, hend⟩ := readAll_of_cut hvs (f := cutInHeader) rfl
    (n := 60) (by simp [Feed.bytes, cutInHeader])
  have hone : 1 ≤ k := (hcount 1 (by decide)).2 (by decide +kernel)
  have hnot : ¬2 ≤ k := fun h => absurd ((hcount 2 (by decide)).1 h) (by decide +kernel)
  obtain rfl : k = 1 := by omega
  refine ⟨hvalues, ?_⟩
  rcases hend with ⟨-, hwhole⟩ | ⟨hfailed, -⟩
  · exact absurd (congrArg List.length hwhole) (by decide +kernel)
  · exact hfailed

end DebugAdapter.Protocol.Frame
