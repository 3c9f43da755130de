import DebugAdapter.Proofs.Json.Numerals
/-!
# Values read back

The compact text of a value is read back as the value (`parse_body`), if lists and objects are
nested at most 127 deep in it, no object names a member twice and each of its doubles is read back
(`Restorable`). For whole numbers and strings of any characters this is proved, not asked.
-/

namespace DebugAdapter.Json

open Ascii

/-! ## Strings -/

/-- Bytes that are neither quote, backslash nor control are held as they are. -/
theorem scanStringBytes_plain {bs : Bytes}
    (h : ∀ b ∈ bs, b ≠ quote ∧ b ≠ backslash ∧ ¬b < 0x20) (fuel : Nat) (held more : Bytes) :
    scanStringBytes (fuel + bs.length) held (bs ++ more) =
      scanStringBytes fuel (bs.reverse ++ held) more := by
  induction bs generalizing held with
  | nil => rfl
  | cons b bs ih =>
    obtain ⟨hquote, hbackslash, hcontrol⟩ := h b List.mem_cons_self
    rw [List.length_cons, ← Nat.add_assoc, List.cons_append, scanStringBytes, if_neg hquote,
      if_neg hbackslash, if_neg hcontrol, ih fun c hc => h c (List.mem_cons_of_mem b hc)]
    simp

theorem scanStringBytes_escaped {bs bs' escaped : Bytes} (h : scanEscape bs = .ok (escaped, bs'))
    (fuel : Nat) (held : Bytes) :
    scanStringBytes (fuel + 1) held (backslash :: bs) =
      scanStringBytes fuel (escaped.reverse ++ held) bs' := by
  rw [scanStringBytes, if_neg (by decide), if_pos rfl, h]
  rfl

theorem exists_byte_hexDigit (n : Nat) :
    ∃ b, String.utf8EncodeChar (hexDigit n) = [b] ∧ hexValue? b = some (n % 16) := by
  have hall : ∀ k < 16, (String.utf8EncodeChar (Nat.digitChar k)).map hexValue? = [some k] := by
    decide
  have h := hall (n % 16) (Nat.mod_lt n (by decide))
  rw [List.map_eq_singleton_iff] at h
  obtain ⟨b, hb, hvalue⟩ := h
  exact ⟨b, hb, hvalue⟩

/-- A control is written by its number, which is read back. -/
theorem scanNumericEscape_control {c : Char} (h : c.toNat < 0x20) (more : Bytes) :
    scanNumericEscape
        (Utf8.encode ['0', '0', hexDigit (c.toNat / 16), hexDigit c.toNat] ++ more) =
      .ok (String.utf8EncodeChar c, more) := by
  obtain ⟨b, hb, hhigh⟩ := exists_byte_hexDigit (c.toNat / 16)
  obtain ⟨d, hd, hlow⟩ := exists_byte_hexDigit c.toNat
  have hzero : String.utf8EncodeChar '0' = [zero] := by decide
  have hvalue : ((0 * 16 + 0) * 16 + c.toNat / 16 % 16) * 16 + c.toNat % 16 = c.toNat := by omega
  have hfour : scanFourHex (zero :: zero :: b :: d :: more) = .ok (c.toNat, more) := by
    simp only [scanFourHex, hhigh, hlow, show hexValue? zero = some 0 from rfl, hvalue]
  simp only [Utf8.encode_cons, Utf8.encode_nil, hzero, hb, hd, List.cons_append, List.nil_append,
    scanNumericEscape, hfour]
  change (if _ then _ else _) = _
  rw [if_neg (by omega), if_neg (by omega), codePointBytes, Char.ofNat_toNat]
  rfl

/-- The bytes of a character that needs no escape. -/
theorem plain_of_mem_utf8EncodeChar {c : Char} (hquote : c ≠ '"') (hbackslash : c ≠ '\\')
    (hcontrol : ¬c.toNat < 0x20) {b : UInt8} (hb : b ∈ String.utf8EncodeChar c) :
    b ≠ quote ∧ b ≠ backslash ∧ ¬b < 0x20 := by
  have hbyte {n : UInt8} (h : b.toNat ≠ n.toNat) : b ≠ n := fun heq => h (congrArg _ heq)
  rw [UInt8.lt_iff_toNat_lt]
  change b ≠ quote ∧ b ≠ backslash ∧ ¬b.toNat < 32
  rcases Nat.lt_or_ge c.toNat 128 with hc | hc
  · rw [Utf8.utf8EncodeChar_of_lt hc, List.mem_singleton] at hb
    have hnat : b.toNat = c.toNat := by
      rw [hb, UInt8.toNat_ofNat']
      omega
    have hquote' : c.toNat ≠ '"'.toNat := fun heq => hquote (Char.toNat_inj.1 heq)
    have hbackslash' : c.toNat ≠ '\\'.toNat := fun heq => hbackslash (Char.toNat_inj.1 heq)
    exact ⟨hbyte (hnat ▸ hquote'), hbyte (hnat ▸ hbackslash'), by omega⟩
  · have hle := Utf8.le_of_mem_utf8EncodeChar hc hb
    have h128 {n : UInt8} (hn : n.toNat < 128) : b ≠ n := hbyte (by omega)
    exact ⟨h128 (by decide), h128 (by decide), by omega⟩

/-- Whether reading what a string writes for a character takes as much fuel as bytes at most, and
holds the bytes of the character. -/
def EscapesBack (c : Char) : Prop :=
  ∃ k, k ≤ (Utf8.encode (escape c)).length ∧ ∀ (fuel : Nat) (held more : Bytes),
    scanStringBytes (fuel + k) held (Utf8.encode (escape c) ++ more) =
      scanStringBytes fuel ((String.utf8EncodeChar c).reverse ++ held) more

theorem utf8EncodeChar_backslash : String.utf8EncodeChar '\\' = [backslash] := by decide

/-- A letter behind a backslash stands for one byte. -/
theorem EscapesBack.of_letter {c d : Char} {b : UInt8} (hescape : escape c = ['\\', d])
    (hscan : ∀ more, scanEscape (String.utf8EncodeChar d ++ more) = .ok ([b], more))
    (hbyte : String.utf8EncodeChar c = [b]) : EscapesBack c := by
  refine ⟨1, by simp [hescape, utf8EncodeChar_backslash], fun fuel held more => ?_⟩
  rw [hescape, hbyte, Utf8.encode_cons, Utf8.encode_cons, utf8EncodeChar_backslash,
    Utf8.encode_nil, List.append_nil, List.cons_append, List.cons_append, List.nil_append,
    scanStringBytes_escaped (hscan more)]

/-- What a string writes for a character is read back as the character. -/
theorem escapesBack (c : Char) : EscapesBack c := by
  by_cases hquote : c = '"'
  · exact hquote ▸ .of_letter (d := '"') (b := quote) rfl (fun _ => rfl) (by decide)
  by_cases hbackslash : c = '\\'
  · exact hbackslash ▸ .of_letter (d := '\\') (b := backslash) rfl (fun _ => rfl) (by decide)
  by_cases hbackspace : c = '\x08'
  · exact hbackspace ▸ .of_letter (d := 'b') (b := 0x08) rfl (fun _ => rfl) (by decide)
  by_cases hfeed : c = '\x0c'
  · exact hfeed ▸ .of_letter (d := 'f') (b := 0x0C) rfl (fun _ => rfl) (by decide)
  by_cases hnewline : c = '\n'
  · exact hnewline ▸ .of_letter (d := 'n') (b := 0x0A) rfl (fun _ => rfl) (by decide)
  by_cases hreturn : c = '\r'
  · exact hreturn ▸ .of_letter (d := 'r') (b := 0x0D) rfl (fun _ => rfl) (by decide)
  by_cases htab : c = '\t'
  · exact htab ▸ .of_letter (d := 't') (b := 0x09) rfl (fun _ => rfl) (by decide)
  by_cases hcontrol : c.toNat < 0x20
  · have hescape : escape c =
        '\\' :: 'u' :: ['0', '0', hexDigit (c.toNat / 16), hexDigit c.toNat] := by
      simp only [escape, hquote, hbackslash, hbackspace, hfeed, hnewline, hreturn, htab, hcontrol,
        if_true, if_false]
    refine ⟨1, ?_, fun fuel held more => ?_⟩
    · simp [hescape, utf8EncodeChar_backslash]
    · have hscan : scanEscape (0x75 :: (Utf8.encode
          ['0', '0', hexDigit (c.toNat / 16), hexDigit c.toNat] ++ more)) =
            .ok (String.utf8EncodeChar c, more) := scanNumericEscape_control hcontrol more
      rw [hescape, Utf8.encode_cons, Utf8.encode_cons, utf8EncodeChar_backslash,
        List.cons_append, List.nil_append, List.cons_append,
        show String.utf8EncodeChar 'u' = [0x75] by decide, List.cons_append, List.nil_append]
      exact scanStringBytes_escaped hscan fuel held
  · have hescape : escape c = [c] := by
      simp only [escape, hquote, hbackslash, hbackspace, hfeed, hnewline, hreturn, htab, hcontrol,
        if_false]
    refine ⟨(String.utf8EncodeChar c).length, by simp [hescape], fun fuel held more => ?_⟩
    rw [hescape, Utf8.encode_cons, Utf8.encode_nil, List.append_nil]
    exact scanStringBytes_plain
      (fun b hb => plain_of_mem_utf8EncodeChar hquote hbackslash hcontrol hb) fuel held more

/-- The characters between two quotes are read back. -/
theorem scanStringBytes_escapes (cs : List Char) {fuel : Nat}
    (hfuel : (Utf8.encode (cs.flatMap escape)).length < fuel) (held rest : Bytes) :
    scanStringBytes fuel held (Utf8.encode (cs.flatMap escape) ++ quote :: rest) =
      .ok (held.reverse ++ Utf8.encode cs, rest) := by
  induction cs generalizing fuel held with
  | nil =>
    obtain ⟨fuel, rfl⟩ := Nat.exists_eq_add_of_lt hfuel
    simp [scanStringBytes]
  | cons c cs ih =>
    obtain ⟨k, hk, hscan⟩ := escapesBack c
    rw [List.flatMap_cons, Utf8.encode_append, List.length_append] at hfuel
    obtain ⟨fuel, rfl⟩ : ∃ n, fuel = n + k := ⟨fuel - k, by omega⟩
    rw [List.flatMap_cons, Utf8.encode_append, List.append_assoc, hscan, ih (by omega)]
    simp

/-- The bytes behind the opening quote of a string value. -/
theorem encode_renderString (s : String) :
    Utf8.encode (renderString s) = quote :: (Utf8.encode (s.toList.flatMap escape) ++ [quote]) := by
  have hquote : String.utf8EncodeChar '"' = [quote] := by decide
  simp [renderString, hquote]

theorem scanString_renderString (s : String) (rest : Bytes) :
    scanString (Utf8.encode (s.toList.flatMap escape) ++ quote :: rest) = .ok (s, rest) := by
  have hfuel : (Utf8.encode (s.toList.flatMap escape)).length <
      (Utf8.encode (s.toList.flatMap escape) ++ quote :: rest).length + 1 := by
    rw [List.length_append]
    omega
  unfold scanString
  rw [scanStringBytes_escapes s.toList hfuel [] rest]
  have hbytes : [].reverse ++ Utf8.encode s.toList = Utf8.ofString s := rfl
  simp only [bind, Except.bind, hbytes, Utf8.toString?_ofString]
  rfl

/-! ## Values -/

/-- The bytes of a value's compact text. -/
def body (v : Json) : Bytes :=
  Utf8.encode v.renderChars

/-- Whether the compact text of a value is read back in front of what does not continue it. -/
def ScansBack (depth : Nat) (v : Json) : Prop :=
  ∀ (fuel : Nat) (rest : Bytes), v.body.length ≤ fuel → EndsNumber rest →
    scanValue fuel depth (v.body ++ rest) = .ok (v, rest)

theorem ScansBack.length_pos {depth : Nat} {v : Json} (h : ScansBack depth v) :
    0 < v.body.length := by
  refine Nat.pos_of_ne_zero fun hzero => ?_
  cases h 0 [] (by omega) (by decide)

theorem scanValue_quote (fuel depth : Nat) (bs : Bytes) :
    scanValue (fuel + 1) depth (quote :: bs) =
      (scanString bs).map fun p => (string p.1, p.2) := by
  rw [scanValue, skipBlank_cons (by decide)]
  rfl

theorem scanValue_openBracket {depth : Nat} (h : ¬depth ≤ 1) (fuel : Nat) (bs : Bytes) :
    scanValue (fuel + 1) depth (openBracket :: bs) =
      (scanItems fuel (depth - 1) true bs).map fun p => (array p.1, p.2) := by
  rw [scanValue, skipBlank_cons (by decide)]
  change (if depth ≤ 1 then _ else _) = _
  rw [if_neg h]

theorem scanValue_openBrace {depth : Nat} (h : ¬depth ≤ 1) (fuel : Nat) (bs : Bytes) :
    scanValue (fuel + 1) depth (openBrace :: bs) =
      (scanMembers fuel (depth - 1) true bs).map fun p => (mk p.1, p.2) := by
  rw [scanValue, skipBlank_cons (by decide)]
  change (if depth ≤ 1 then _ else _) = _
  rw [if_neg h]

/-- A value begins with a byte that does not end a list. -/
theorem exists_of_scanValue {fuel depth : Nat} {bs : Bytes} {p : Json × Bytes}
    (h : scanValue fuel depth bs = .ok p) : ∃ b after, skipBlank bs = b :: after ∧
      b ≠ closeBracket ∧ scanValue fuel depth (b :: after) = .ok p := by
  cases fuel with
  | zero => cases h
  | succ fuel =>
    have hskip : scanValue (fuel + 1) depth (skipBlank bs) = .ok p := by
      rw [scanValue] at h ⊢
      rwa [skipBlank_skipBlank]
    cases hbs : skipBlank bs with
    | nil =>
      rw [hbs] at hskip
      cases hskip
    | cons b after =>
      rw [hbs] at hskip
      refine ⟨b, after, rfl, ?_, hskip⟩
      rintro rfl
      rw [scanValue, skipBlank_cons (by decide)] at hskip
      cases hskip

/-! ## Lists -/

theorem utf8EncodeChar_comma : String.utf8EncodeChar ',' = [comma] := by decide

theorem encode_moreItems_cons (v : Json) (items : List Json) :
    Utf8.encode (renderMoreItems (v :: items)) =
      comma :: (v.body ++ Utf8.encode (renderMoreItems items)) := by
  simp [renderMoreItems, utf8EncodeChar_comma, body]

theorem encode_items_cons (v : Json) (items : List Json) :
    Utf8.encode (renderItems (v :: items)) = v.body ++ Utf8.encode (renderMoreItems items) := by
  simp [renderItems, body]

/-- An item is read at the start of a list and behind a comma. -/
theorem scanItems_cons {fuel depth : Nat} {bs r r' : Bytes} {v : Json} {vs : List Json}
    (hv : scanValue fuel depth bs = .ok (v, r))
    (hvs : scanItems fuel depth false r = .ok (vs, r')) :
    scanItems (fuel + 1) depth true bs = .ok (v :: vs, r') ∧
      scanItems (fuel + 1) depth false (comma :: bs) = .ok (v :: vs, r') := by
  obtain ⟨b, after, hbs, hb, hscan⟩ := exists_of_scanValue hv
  constructor
  · rw [scanItems, hbs]
    dsimp only
    rw [if_neg hb, if_pos rfl, hscan]
    change (scanItems fuel depth false r >>= _) = _
    rw [hvs]
    rfl
  · rw [scanItems, skipBlank_cons (by decide)]
    dsimp only
    rw [if_neg (by decide), if_neg (by decide), if_pos rfl, hbs]
    dsimp only
    rw [if_neg hb, hscan]
    change (scanItems fuel depth false r >>= _) = _
    rw [hvs]
    rfl

theorem endsNumber_moreItems (items : List Json) (rest : Bytes) :
    EndsNumber (Utf8.encode (renderMoreItems items) ++ closeBracket :: rest) := by
  cases items with
  | nil => exact ⟨rfl, rfl⟩
  | cons v items =>
    rw [encode_moreItems_cons]
    exact ⟨rfl, rfl⟩

theorem scanItems_moreItems {depth : Nat} {items : List Json} (h : ∀ v ∈ items, ScansBack depth v)
    {fuel : Nat} (hfuel : (Utf8.encode (renderMoreItems items)).length < fuel) (rest : Bytes) :
    scanItems fuel depth false (Utf8.encode (renderMoreItems items) ++ closeBracket :: rest) =
      .ok (items, rest) := by
  induction items generalizing fuel with
  | nil =>
    obtain ⟨fuel, rfl⟩ := Nat.exists_eq_add_of_lt hfuel
    rw [renderMoreItems, Utf8.encode_nil, List.nil_append, scanItems, skipBlank_cons (by decide)]
    rfl
  | cons v items ih =>
    have hv := h v List.mem_cons_self
    rw [encode_moreItems_cons] at hfuel ⊢
    rw [List.length_cons, List.length_append] at hfuel
    obtain ⟨fuel, rfl⟩ : ∃ n, fuel = n + 1 := ⟨fuel - 1, by omega⟩
    rw [List.cons_append, List.append_assoc]
    refine (scanItems_cons (hv fuel _ (by omega) (endsNumber_moreItems items rest)) ?_).2
    exact ih (fun w hw => h w (List.mem_cons_of_mem v hw)) (by omega)

theorem scanItems_items {depth : Nat} {items : List Json} (h : ∀ v ∈ items, ScansBack depth v)
    {fuel : Nat} (hfuel : (Utf8.encode (renderItems items)).length < fuel) (rest : Bytes) :
    scanItems fuel depth true (Utf8.encode (renderItems items) ++ closeBracket :: rest) =
      .ok (items, rest) := by
  obtain ⟨fuel, rfl⟩ : ∃ n, fuel = n + 1 := ⟨fuel - 1, by omega⟩
  cases items with
  | nil =>
    rw [renderItems, Utf8.encode_nil, List.nil_append, scanItems, skipBlank_cons (by decide)]
    rfl
  | cons v items =>
    have hv := h v List.mem_cons_self
    have hpos := hv.length_pos
    rw [encode_items_cons] at hfuel ⊢
    rw [List.length_append] at hfuel
    rw [List.append_assoc]
    refine (scanItems_cons (hv fuel _ (by omega) (endsNumber_moreItems items rest)) ?_).1
    exact scanItems_moreItems (fun w hw => h w (List.mem_cons_of_mem v hw)) (by omega) rest

/-! ## Objects -/

/-- The bytes of a member after its opening quote. -/
def memberBody (m : String × Json) : Bytes :=
  Utf8.encode (m.1.toList.flatMap escape) ++ quote :: colon :: m.2.body

theorem length_lt_memberBody (m : String × Json) : m.2.body.length < (memberBody m).length := by
  simp [memberBody]
  omega

theorem encode_moreMembers_cons (m : String × Json) (members : List (String × Json)) :
    Utf8.encode (renderMoreMembers (m :: members)) =
      comma :: quote :: (memberBody m ++ Utf8.encode (renderMoreMembers members)) := by
  have hcolon : String.utf8EncodeChar ':' = [colon] := by decide
  simp [renderMoreMembers, utf8EncodeChar_comma, encode_renderString, hcolon, memberBody, body]

theorem encode_members_cons (m : String × Json) (members : List (String × Json)) :
    Utf8.encode (renderMembers (m :: members)) =
      quote :: (memberBody m ++ Utf8.encode (renderMoreMembers members)) := by
  have hcolon : String.utf8EncodeChar ':' = [colon] := by decide
  simp [renderMembers, encode_renderString, hcolon, memberBody, body]

theorem endsNumber_moreMembers (members : List (String × Json)) (rest : Bytes) :
    EndsNumber (Utf8.encode (renderMoreMembers members) ++ closeBrace :: rest) := by
  cases members with
  | nil => exact ⟨rfl, rfl⟩
  | cons m members =>
    rw [encode_moreMembers_cons]
    exact ⟨rfl, rfl⟩

theorem scanKey_renderString (key : String) (rest : Bytes) :
    scanKey (Utf8.encode (key.toList.flatMap escape) ++ quote :: colon :: rest) =
      .ok (key, rest) := by
  unfold scanKey
  rw [scanString_renderString]
  rfl

/-- A member is read at the start of an object and behind a comma. -/
theorem scanMembers_cons {fuel depth : Nat} {bs r r' r'' : Bytes} {key : String} {v : Json}
    {ms : List (String × Json)} (hkey : scanKey bs = .ok (key, r))
    (hv : scanValue fuel depth r = .ok (v, r'))
    (hms : scanMembers fuel depth false r' = .ok (ms, r'')) :
    scanMembers (fuel + 1) depth true (quote :: bs) = .ok ((key, v) :: ms, r'') ∧
      scanMembers (fuel + 1) depth false (comma :: quote :: bs) = .ok ((key, v) :: ms, r'') := by
  constructor
  · rw [scanMembers, skipBlank_cons (by decide)]
    dsimp only
    rw [if_neg (by decide), if_pos rfl, if_pos rfl, hkey]
    change (scanValue fuel depth r >>= _) = _
    rw [hv]
    change (scanMembers fuel depth false r' >>= _) = _
    rw [hms]
    rfl
  · rw [scanMembers, skipBlank_cons (by decide)]
    dsimp only
    rw [if_neg (by decide), if_neg (by decide), if_pos rfl, skipBlank_cons (by decide)]
    dsimp only
    rw [if_pos rfl, hkey]
    change (scanValue fuel depth r >>= _) = _
    rw [hv]
    change (scanMembers fuel depth false r' >>= _) = _
    rw [hms]
    rfl

theorem scanKey_memberBody (m : String × Json) (rest : Bytes) :
    scanKey (memberBody m ++ rest) = .ok (m.1, m.2.body ++ rest) := by
  rw [memberBody, List.append_assoc]
  exact scanKey_renderString m.1 (m.2.body ++ rest)

theorem scanMembers_moreMembers {depth : Nat} {members : List (String × Json)}
    (h : ∀ m ∈ members, ScansBack depth m.2) {fuel : Nat}
    (hfuel : (Utf8.encode (renderMoreMembers members)).length < fuel) (rest : Bytes) :
    scanMembers fuel depth false (Utf8.encode (renderMoreMembers members) ++ closeBrace :: rest) =
      .ok (members, rest) := by
  induction members generalizing fuel with
  | nil =>
    obtain ⟨fuel, rfl⟩ := Nat.exists_eq_add_of_lt hfuel
    rw [renderMoreMembers, Utf8.encode_nil, List.nil_append, scanMembers,
      skipBlank_cons (by decide)]
    rfl
  | cons m members ih =>
    have hm := h m List.mem_cons_self
    have hlength := length_lt_memberBody m
    rw [encode_moreMembers_cons] at hfuel ⊢
    rw [List.length_cons, List.length_cons, List.length_append] at hfuel
    obtain ⟨fuel, rfl⟩ : ∃ n, fuel = n + 1 := ⟨fuel - 1, by omega⟩
    rw [List.cons_append, List.cons_append, List.append_assoc]
    refine (scanMembers_cons (scanKey_memberBody m _)
      (hm fuel _ (by omega) (endsNumber_moreMembers members rest)) ?_).2
    exact ih (fun n hn => h n (List.mem_cons_of_mem m hn)) (by omega)

theorem scanMembers_members {depth : Nat} {members : List (String × Json)}
    (h : ∀ m ∈ members, ScansBack depth m.2) {fuel : Nat}
    (hfuel : (Utf8.encode (renderMembers members)).length < fuel) (rest : Bytes) :
    scanMembers fuel depth true (Utf8.encode (renderMembers members) ++ closeBrace :: rest) =
      .ok (members, rest) := by
  obtain ⟨fuel, rfl⟩ : ∃ n, fuel = n + 1 := ⟨fuel - 1, by omega⟩
  cases members with
  | nil =>
    rw [renderMembers, Utf8.encode_nil, List.nil_append, scanMembers, skipBlank_cons (by decide)]
    rfl
  | cons m members =>
    have hm := h m List.mem_cons_self
    have hlength := length_lt_memberBody m
    rw [encode_members_cons] at hfuel ⊢
    rw [List.length_cons, List.length_append] at hfuel
    rw [List.cons_append, List.append_assoc]
    refine (scanMembers_cons (scanKey_memberBody m _)
      (hm fuel _ (by omega) (endsNumber_moreMembers members rest)) ?_).1
    exact scanMembers_moreMembers (fun n hn => h n (List.mem_cons_of_mem m hn)) (by omega) rest

/-! ## Whole texts -/

/-- Whether lists and objects are nested at most `depth` deep in a value, no object names a member
twice, and each number is the one that its text denotes. -/
inductive Restorable : (depth : Nat) → Json → Prop where
  | null {depth : Nat} : Restorable depth null
  | bool {depth : Nat} (b : Bool) : Restorable depth (bool b)
  | number {depth : Nat} {n : Number} : n.ReadsBack → Restorable depth (number n)
  | string {depth : Nat} (s : String) : Restorable depth (string s)
  | array {depth : Nat} {items : List Json} :
      (∀ v ∈ items, Restorable depth v) → Restorable (depth + 1) (array items)
  | object {depth : Nat} {entries : List (String × Json)} : (Table.keys entries).Nodup →
      (∀ m ∈ entries, Restorable depth m.2) → Restorable (depth + 1) (object entries)

/-- A word is read back in front of anything. -/
theorem scansBack_word {depth : Nat} {v : Json} (w : UInt8) (word : Bytes)
    (hbody : v.body = w :: word) (hscan : ∀ (fuel : Nat) (rest : Bytes),
      scanValue (fuel + 1) depth (w :: (word ++ rest)) = .ok (v, rest)) : ScansBack depth v := by
  intro fuel rest hfuel _
  rw [hbody, List.length_cons] at hfuel
  obtain ⟨fuel, rfl⟩ : ∃ n, fuel = n + 1 := ⟨fuel - 1, by omega⟩
  rw [hbody]
  exact hscan fuel rest

theorem scansBack_number {depth : Nat} {n : Number} (h : n.ReadsBack) :
    ScansBack depth (number n) := by
  intro fuel rest hfuel hrest
  cases fuel with
  | succ fuel => exact scanValue_number h hrest fuel depth
  | zero =>
    -- The text of a number is not empty, since it is read back.
    have hnil : Utf8.encode n.render = [] := List.eq_nil_of_length_eq_zero (Nat.le_zero.1 hfuel)
    have hscan := @scanValue_number n h [] (by decide) 0 depth
    rw [hnil] at hscan
    cases hscan

theorem scansBack_string {depth : Nat} (s : String) : ScansBack depth (string s) := by
  intro fuel rest hfuel _
  have hbody : (string s).body =
      quote :: (Utf8.encode (s.toList.flatMap escape) ++ [quote]) := encode_renderString s
  rw [hbody, List.length_cons] at hfuel
  obtain ⟨fuel, rfl⟩ : ∃ n, fuel = n + 1 := ⟨fuel - 1, by omega⟩
  rw [hbody, List.cons_append, List.append_assoc, scanValue_quote]
  change (scanString (_ ++ quote :: rest)).map _ = _
  rw [scanString_renderString]
  rfl

theorem scansBack_array {depth : Nat} {items : List Json} (hdepth : 1 < depth)
    (h : ∀ v ∈ items, ScansBack (depth - 1) v) : ScansBack depth (array items) := by
  intro fuel rest hfuel _
  have hopen : String.utf8EncodeChar '[' = [openBracket] := by decide
  have hclose : String.utf8EncodeChar ']' = [closeBracket] := by decide
  have hbody : (array items).body =
      openBracket :: (Utf8.encode (renderItems items) ++ [closeBracket]) := by
    simp [body, renderChars, hopen, hclose]
  rw [hbody, List.length_cons, List.length_append, List.length_singleton] at hfuel
  obtain ⟨fuel, rfl⟩ : ∃ n, fuel = n + 1 := ⟨fuel - 1, by omega⟩
  rw [hbody, List.cons_append, List.append_assoc, scanValue_openBracket (by omega)]
  change (scanItems fuel (depth - 1) true (_ ++ closeBracket :: rest)).map _ = _
  rw [scanItems_items h (by omega) rest]
  rfl

theorem insert_of_not_mem {t : List (String × Json)} {key : String} (h : key ∉ Table.keys t)
    (v : Json) : Table.insert t key v = t ++ [(key, v)] := by
  induction t with
  | nil => rfl
  | cons p t ih =>
    obtain ⟨k, w⟩ := p
    obtain ⟨hk, ht⟩ := not_or.1 (mt List.mem_cons.2 h)
    rw [Table.insert, if_neg (Ne.symm hk), ih ht]
    rfl

/-- Entries with different names make up a table in their order. -/
theorem insertAll_of_nodup (t pairs : List (String × Json)) (h : (Table.keys (t ++ pairs)).Nodup) :
    Table.insertAll t pairs = t ++ pairs := by
  induction pairs generalizing t with
  | nil => simp [Table.insertAll]
  | cons p pairs ih =>
    have hnew : Table.insert t p.1 p.2 = t ++ [p] := by
      refine insert_of_not_mem (fun hmem => ?_) p.2
      rw [Table.keys, List.map_append, List.nodup_append] at h
      exact h.2.2 p.1 hmem p.1 (by simp) rfl
    have hrest : Table.insertAll t (p :: pairs) = Table.insertAll (t ++ [p]) pairs := by
      rw [← hnew]
      rfl
    rw [hrest, ih (t ++ [p]) (by simpa using h), List.append_assoc]
    rfl

theorem scansBack_object {depth : Nat} {entries : List (String × Json)} (hdepth : 1 < depth)
    (hkeys : (Table.keys entries).Nodup) (h : ∀ m ∈ entries, ScansBack (depth - 1) m.2) :
    ScansBack depth (object entries) := by
  intro fuel rest hfuel _
  have hopen : String.utf8EncodeChar '\x7b' = [openBrace] := by decide
  have hclose : String.utf8EncodeChar '\x7d' = [closeBrace] := by decide
  have hbody : (object entries).body =
      openBrace :: (Utf8.encode (renderMembers entries) ++ [closeBrace]) := by
    simp [body, renderChars, hopen, hclose]
  have hmk : mk entries = object entries := congrArg object (insertAll_of_nodup [] entries hkeys)
  rw [hbody, List.length_cons, List.length_append, List.length_singleton] at hfuel
  obtain ⟨fuel, rfl⟩ : ∃ n, fuel = n + 1 := ⟨fuel - 1, by omega⟩
  rw [hbody, List.cons_append, List.append_assoc, scanValue_openBrace (by omega)]
  change (scanMembers fuel (depth - 1) true (_ ++ closeBrace :: rest)).map _ = _
  rw [scanMembers_members h (by omega) rest, ← hmk]
  rfl

/-- What is nested less deep than a reading admits is read back. -/
theorem Restorable.scansBack {depth depth' : Nat} {v : Json} (h : v.Restorable depth)
    (hdepth : depth < depth') : ScansBack depth' v := by
  induction h generalizing depth' with
  | null => exact scansBack_word 0x6E [0x75, 0x6C, 0x6C] (by decide) fun _ _ => rfl
  | bool b =>
    cases b with
    | false => exact scansBack_word 0x66 [0x61, 0x6C, 0x73, 0x65] (by decide) fun _ _ => rfl
    | true => exact scansBack_word 0x74 [0x72, 0x75, 0x65] (by decide) fun _ _ => rfl
  | number hn => exact scansBack_number hn
  | string s => exact scansBack_string s
  | array _ ih => exact scansBack_array (by omega) fun v hv => ih v hv (by omega)
  | object hkeys _ ih => exact scansBack_object (by omega) hkeys fun m hm => ih m hm (by omega)

/-- The compact text of a value that can be restored is parsed back to it. -/
theorem parse_body {v : Json} (h : v.Restorable 127) : parse v.body = .ok v := by
  have hscan := @Restorable.scansBack 127 depthLimit v h (by decide) (2 * v.body.length + 2) []
    (by omega) (by decide)
  rw [List.append_nil] at hscan
  rw [parse, scan, hscan]
  rfl

end DebugAdapter.Json
