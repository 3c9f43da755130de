import DebugAdapter.Proofs.Source.Passes
/-!
# Other ways to write a path

A client may write any characters of a path as the escapes of their bytes (`Encodes`), put slashes
in front and then the scheme. Main statement : `normalize_encoded`, none of this changes the key.

One pass decodes all escapes at once, but it takes off a scheme only before that. So the path may
get rid of a scheme one pass earlier than the encoded path does. Nothing that happens in between
sees the difference, since neither the extension nor a parenthesis begins in a scheme or in slashes
(`dropMapping_append`, `pass_tidy_scheme`).
-/

namespace DebugAdapter.SourceKey

open Text

/-! ## Escapes -/

/-- The digits of base sixteen with the value `n`, in either case. -/
def hexDigits (n : Nat) : List Char :=
  ["0123456789abcdef".toList.getD n '0', "0123456789ABCDEF".toList.getD n '0']

/-- The escapes of bytes. -/
inductive Escapes : Bytes → List Char → Prop where
  | nil : Escapes [] []
  | cons {b : UInt8} {bs : Bytes} {x y : Char} {cs : List Char}
      (hx : x ∈ hexDigits (b.toNat / 16)) (hy : y ∈ hexDigits (b.toNat % 16)) :
      Escapes bs cs → Escapes (b :: bs) ('%' :: x :: y :: cs)

/-- Whether `ds` is the text `cs` with some of its characters written as the escapes of all their
bytes. -/
inductive Encodes : (cs ds : List Char) → Prop where
  | nil : Encodes [] []
  | plain {cs ds : List Char} (c : Char) : Encodes cs ds → Encodes (c :: cs) (c :: ds)
  | escaped {cs ds es : List Char} {c : Char} (hes : Escapes (String.utf8EncodeChar c) es) :
      Encodes cs ds → Encodes (c :: cs) (es ++ ds)

theorem hexDigits_spec {n : Nat} (hn : n < 16) {x : Char} (hx : x ∈ hexDigits n) :
    x.toNat < 128 ∧ Ascii.hexValue? (UInt8.ofNat x.toNat) = some n := by
  have hall : ∀ n < 16, (hexDigits n).all fun x =>
      x.toNat < 128 && Ascii.hexValue? (UInt8.ofNat x.toNat) == some n := by decide
  simpa using List.all_eq_true.1 (hall n hn) x hx

theorem percentBytes_cons_ne {b : UInt8} (hb : b ≠ 0x25) (bs : Bytes) :
    percentBytes (b :: bs) = b :: percentBytes bs := by
  rw [percentBytes]
  rintro a b' bs' rfl
  exact absurd rfl hb

theorem percentBytes_append {front : Bytes} (h : 0x25 ∉ front) (bs : Bytes) :
    percentBytes (front ++ bs) = front ++ percentBytes bs := by
  induction front with
  | nil => rfl
  | cons b front ih =>
    obtain ⟨hb, hfront⟩ := not_or.1 (mt List.mem_cons.2 h)
    rw [List.cons_append, percentBytes_cons_ne (Ne.symm hb), ih hfront, List.cons_append]

theorem percent_not_mem_utf8EncodeChar {c : Char} (hc : c ≠ '%') :
    0x25 ∉ String.utf8EncodeChar c := by
  intro hb
  by_cases hlt : c.toNat < 128
  · rw [Utf8.utf8EncodeChar_of_lt hlt, List.mem_singleton] at hb
    have hvalue := congrArg UInt8.toNat hb
    rw [UInt8.toNat_ofNat', Nat.mod_eq_of_lt (by omega)] at hvalue
    exact hc (Char.ext (UInt32.toNat_inj.1 hvalue.symm))
  · have := Utf8.le_of_mem_utf8EncodeChar (Nat.le_of_not_lt hlt) hb
    exact absurd this (by decide)

theorem percent_not_mem_encode {cs : List Char} (h : '%' ∉ cs) : 0x25 ∉ Utf8.encode cs := by
  intro hb
  obtain ⟨c, hc, hb⟩ := List.mem_flatMap.1 hb
  exact percent_not_mem_utf8EncodeChar (fun heq => h (heq ▸ hc)) hb

theorem percentBytes_escapes {bs : Bytes} {es : List Char} (h : Escapes bs es) (rest : Bytes) :
    percentBytes (Utf8.encode es ++ rest) = bs ++ percentBytes rest := by
  induction h with
  | nil => rfl
  | @cons b bs x y cs hx hy _ ih =>
    have hb := b.toNat_lt
    obtain ⟨hxlt, hxvalue⟩ := hexDigits_spec (by omega) hx
    obtain ⟨hylt, hyvalue⟩ := hexDigits_spec (by omega) hy
    have hpercent : String.utf8EncodeChar '%' = [0x25] := by decide
    have hbyte : UInt8.ofNat (b.toNat / 16 * 16 + b.toNat % 16) = b := by
      rw [Nat.div_add_mod', UInt8.ofNat_toNat]
    simp only [Utf8.encode_cons, hpercent, Utf8.utf8EncodeChar_of_lt hxlt,
      Utf8.utf8EncodeChar_of_lt hylt, List.cons_append, List.nil_append, percentBytes, hxvalue,
      hyvalue, ih, hbyte]

/-- All escapes of an encoded text are decoded at once. -/
theorem percentBytes_encoded {cs ds : List Char} (hplain : '%' ∉ cs) (h : Encodes cs ds) :
    percentBytes (Utf8.encode ds) = Utf8.encode cs := by
  induction h with
  | nil => rfl
  | plain c _ ih =>
    simp only [List.mem_cons, not_or] at hplain
    rw [Utf8.encode_cons, percentBytes_append (percent_not_mem_utf8EncodeChar (Ne.symm hplain.1)),
      ih hplain.2, Utf8.encode_cons]
  | escaped hes _ ih =>
    simp only [List.mem_cons, not_or] at hplain
    rw [Utf8.encode_append, percentBytes_escapes hes, ih hplain.2, Utf8.encode_cons]

theorem percentDecode_encoded {cs ds : List Char} (hplain : '%' ∉ cs) (h : Encodes cs ds) :
    percentDecode ds = cs := by
  rw [percentDecode, percentBytes_encoded hplain h, Utf8.decode?_encode, Option.getD_some]

theorem Encodes.refl (cs : List Char) : Encodes cs cs := by
  induction cs with
  | nil => exact .nil
  | cons c cs ih => exact .plain c ih

/-- Escapes are decoded behind a beginning that has none. -/
theorem percentDecode_append {front : List Char} (h : '%' ∉ front) (cs : List Char) :
    percentDecode (front ++ cs) = front ++ percentDecode cs := by
  rw [percentDecode, percentDecode, Utf8.encode_append,
    percentBytes_append (percent_not_mem_encode h), Utf8.decode?_append]
  cases Utf8.decode? (percentBytes (Utf8.encode cs)) <;> rfl

theorem percentDecode_of_not_mem {cs : List Char} (h : '%' ∉ cs) : percentDecode cs = cs :=
  percentDecode_encoded h (.refl cs)

theorem Encodes.append_left {cs ds : List Char} (h : Encodes cs ds) (front : List Char) :
    Encodes (front ++ cs) (front ++ ds) := by
  induction front with
  | nil => exact h
  | cons c front ih => exact .plain c ih

theorem Escapes.head?_eq {bs : Bytes} {es : List Char} (h : Escapes bs es) (hne : bs ≠ []) :
    es.head? = some '%' := by
  cases h with
  | nil => exact absurd rfl hne
  | cons => rfl

/-- A beginning without percent signs of an encoded text is not encoded. -/
theorem Encodes.exists_of_append {cs ds front : List Char} (hfront : '%' ∉ front)
    (h : Encodes cs (front ++ ds)) : ∃ cs', cs = front ++ cs' ∧ Encodes cs' ds := by
  induction front generalizing cs with
  | nil => exact ⟨cs, rfl, h⟩
  | cons f front ih =>
    simp only [List.mem_cons, not_or] at hfront
    rw [List.cons_append] at h
    generalize hds : f :: (front ++ ds) = es at h
    cases h with
    | nil => cases hds
    | plain c hrest =>
      obtain ⟨rfl, rfl⟩ := List.cons.inj hds
      obtain ⟨cs', rfl, hcs'⟩ := ih hfront.2 hrest
      exact ⟨cs', rfl, hcs'⟩
    | @escaped _ _ escapes c hescapes _ =>
      have hhead := hescapes.head?_eq (Utf8.utf8EncodeChar_ne_nil c)
      have hpercent := congrArg List.head? hds
      rw [List.head?_append, hhead] at hpercent
      exact absurd (Option.some.inj hpercent).symm hfront.1

/-! ## Beginnings that a pass keeps -/

/-- The request mapping is dropped behind a beginning that has no part in it. -/
theorem dropMapping_append {front : List Char} (hparen : '(' ∉ front) (hdot : '.' ∉ front)
    (cs : List Char) : dropMapping (front ++ cs) = front ++ dropMapping cs := by
  have hsuffix (before : List Char) :
      extension.isSuffixOf (front ++ before) = extension.isSuffixOf before :=
    isSuffixOf_append hdot before
  have hoccurs : occursIn extension (front ++ cs) = occursIn extension cs :=
    occursIn_append hdot cs
  simp only [dropMapping, cutAt?_append hparen]
  cases cutAt? '(' cs with
  | none => rfl
  | some p =>
    simp only [Option.map_some, hsuffix, hoccurs]
    split
    · rw [List.append_assoc]
    · rfl

theorem mem_dropMapping {c : Char} {cs : List Char} (h : c ∈ dropMapping cs) :
    c ∈ cs ∨ c ∈ extension := by
  unfold dropMapping at h
  cases hcut : cutAt? '(' cs with
  | none => exact .inl (by simpa only [hcut] using h)
  | some p =>
    have hcs := (cutAt?_eq_some_iff.1 hcut).2
    simp only [hcut] at h
    split at h
    · exact (List.mem_append.1 h).imp_left fun hc => hcs ▸ List.mem_append_left _ hc
    · exact .inl (hcs ▸ List.mem_append_left _ h)

/-- What is left without the request mapping begins as before, or with the extension. -/
theorem head?_dropMapping {c : Char} {cs : List Char} (h : (dropMapping cs).head? = some c) :
    cs.head? = some c ∨ c = '.' := by
  unfold dropMapping at h
  cases hcut : cutAt? '(' cs with
  | none => exact .inl (by simpa only [hcut] using h)
  | some p =>
    obtain ⟨before, after⟩ := p
    have hcs := (cutAt?_eq_some_iff.1 hcut).2
    cases before with
    | nil =>
      simp only [hcut] at h
      split at h
      · exact .inr (Option.some.inj h).symm
      · cases h
    | cons b before =>
      refine .inl ?_
      simp only [hcut] at h
      split at h
      all_goals rwa [hcs]

theorem dropScheme_append (cs : List Char) : dropScheme (scheme ++ cs) = cs := by
  rw [dropScheme, afterPrefix?_append, Option.getD_some]

theorem percent_not_mem_scheme : '%' ∉ scheme := by decide

theorem tidy_slashes {slashes : List Char} (h : ∀ c ∈ slashes, c = '/') (cs : List Char) :
    tidy (slashes ++ cs) = tidy cs := by
  rw [tidy, List.dropWhile_append_of_pos fun c hc => decide_eq_true (h c hc), tidy]

/-- Behind a scheme that is still there, only the request mapping and the end are cut. -/
theorem tidy_scheme {slashes : List Char} (h : ∀ c ∈ slashes, c = '/') (cs : List Char) :
    tidy (scheme ++ (slashes ++ cs)) =
      scheme ++ (slashes ++ dropEndWhile isBlank (dropMapping cs)) := by
  have hmapping : dropMapping (scheme ++ (slashes ++ cs)) =
      scheme ++ (slashes ++ dropMapping cs) := by
    rw [dropMapping_append (by decide) (by decide),
      dropMapping_append (fun hc => absurd (h _ hc) (by decide))
        (fun hc => absurd (h _ hc) (by decide))]
  have hfront : dropEndWhile isBlank (scheme ++ slashes) = scheme ++ slashes := by
    refine dropEndWhile_eq_self_iff.2 fun c hc => ?_
    rw [List.getLast?_append] at hc
    cases hlast : slashes.getLast? with
    | none =>
      rw [hlast] at hc
      exact Option.some.inj hc ▸ by decide
    | some d =>
      rw [hlast] at hc
      obtain rfl := Option.some.inj hc
      rw [h _ (List.mem_of_getLast? hlast)]
      decide
  have hbegin (ds : List Char) {p : Char → Bool} (hp : p 'm' = false) :
      (scheme ++ ds).dropWhile p = scheme ++ ds :=
    dropWhile_eq_self_iff_head?.2 fun c hc => Option.some.inj hc ▸ hp
  rw [tidy, hbegin _ (by decide), hmapping, trimChars, hbegin _ (by decide), ← List.append_assoc,
    dropEndWhile_append, hfront]
  split
  next hnil => rw [hnil, List.append_nil]
  · rw [List.append_assoc]

/-- A scheme may be taken off one pass later. -/
theorem pass_tidy_scheme {cs : List Char} (hplain : '%' ∉ cs) :
    pass (tidy (scheme ++ cs)) = tidy cs := by
  have hcs := List.takeWhile_append_dropWhile (p := (· = '/')) (l := cs)
  have hslashes (c : Char) (hc : c ∈ cs.takeWhile (· = '/')) : c = '/' :=
    of_decide_eq_true (List.mem_takeWhile_imp (p := (· = '/')) hc)
  have hrest := List.dropWhile_idempotent (· = '/') cs
  generalize cs.takeWhile (· = '/') = slashes at hcs hslashes
  generalize cs.dropWhile (· = '/') = rest at hcs hrest
  subst hcs
  have hpercent : '%' ∉ slashes ++ dropEndWhile isBlank (dropMapping rest) := by
    simp only [List.mem_append, not_or] at hplain ⊢
    refine ⟨hplain.1, fun hc => ?_⟩
    have hc' := mem_dropMapping ((dropEndWhile_prefix_self isBlank _).mem hc)
    exact hc'.elim hplain.2 (by decide)
  have hkept : dropMapping (dropEndWhile isBlank (dropMapping rest)) =
      dropEndWhile isBlank (dropMapping rest) :=
    dropMapping_of_not_mem fun hc =>
      paren_not_mem_dropMapping rest ((dropEndWhile_prefix_self isBlank _).mem hc)
  have hnoSlash : (dropEndWhile isBlank (dropMapping rest)).dropWhile (· = '/') =
      dropEndWhile isBlank (dropMapping rest) := by
    refine dropWhile_eq_self_iff_head?.2 fun c hc => ?_
    have hmapping : (dropMapping rest).head? = some c := by
      obtain ⟨blanks, hblanks⟩ := dropEndWhile_prefix_self isBlank (dropMapping rest)
      rw [← hblanks, List.head?_append, Option.mem_def.1 hc, Option.some_or]
    rcases head?_dropMapping hmapping with hhead | rfl
    · exact dropWhile_eq_self_iff_head?.1 hrest c hhead
    · rfl
  rw [tidy_scheme hslashes, pass_eq_tidy, dropScheme_append, percentDecode_of_not_mem hpercent,
    tidy_slashes hslashes, tidy_slashes hslashes, tidy, tidy, hrest, hnoSlash, hkept,
    trimChars_dropEndWhile]

/-! ## Keys of encoded paths -/

theorem settled_tidy_dropScheme {cs : List Char} (hplain : '%' ∉ cs) :
    settled (tidy (dropScheme cs)) = settled (tidy cs) := by
  by_cases hscheme : scheme <+: cs
  · obtain ⟨rest, rfl⟩ := hscheme
    have hrest : '%' ∉ rest := fun hc => hplain (List.mem_append_right scheme hc)
    rw [dropScheme_append, ← pass_tidy_scheme hrest, settled_pass]
  · rw [dropScheme_eq_self_iff.2 hscheme]

theorem settled_eq_tidy {cs : List Char} (hplain : '%' ∉ cs) : settled cs = settled (tidy cs) := by
  have hrest : '%' ∉ dropScheme cs := by
    by_cases hscheme : scheme <+: cs
    · obtain ⟨rest, rfl⟩ := hscheme
      rw [dropScheme_append]
      exact fun hc => hplain (List.mem_append_right scheme hc)
    · rwa [dropScheme_eq_self_iff.2 hscheme]
  rw [← settled_pass, pass_eq_tidy, percentDecode_of_not_mem hrest, settled_tidy_dropScheme hplain]

/-- A pass over an encoded path gives what is left of the path without scheme or with it. -/
theorem settled_encoded {cs ds : List Char} (hplain : '%' ∉ cs) (h : Encodes cs ds) :
    settled ds = settled cs := by
  rw [settled_eq_tidy hplain, ← settled_pass, pass_eq_tidy]
  by_cases hscheme : scheme <+: ds
  · obtain ⟨rest, rfl⟩ := hscheme
    obtain ⟨cs', rfl, hrest⟩ := h.exists_of_append percent_not_mem_scheme
    have hplain' : '%' ∉ cs' := fun hc => hplain (List.mem_append_right scheme hc)
    rw [dropScheme_append, percentDecode_encoded hplain' hrest, ← settled_tidy_dropScheme hplain,
      dropScheme_append]
  · rw [dropScheme_eq_self_iff.2 hscheme, percentDecode_encoded hplain h]

theorem settled_slashes {cs slashes : List Char} (hplain : '%' ∉ cs)
    (h : ∀ c ∈ slashes, c = '/') : settled (slashes ++ cs) = settled cs := by
  have hplain' : '%' ∉ slashes ++ cs := by
    simp only [List.mem_append, not_or]
    exact ⟨fun hc => absurd (h _ hc) (by decide), hplain⟩
  rw [settled_eq_tidy hplain', tidy_slashes h, ← settled_eq_tidy hplain]

theorem settled_scheme {cs : List Char} (hplain : '%' ∉ cs) :
    settled (scheme ++ cs) = settled cs := by
  have hplain' : '%' ∉ scheme ++ cs := by
    simp only [List.mem_append, not_or]
    exact ⟨percent_not_mem_scheme, hplain⟩
  rw [settled_eq_tidy hplain', ← settled_tidy_dropScheme hplain', dropScheme_append,
    ← settled_eq_tidy hplain]

/-- Escapes, slashes in front of them and then the scheme do not change the key of a path. -/
theorem normalize_encoded (path : String) (hplain : '%' ∉ path.toList) {es : List Char}
    (hencodes : Encodes path.toList es) (slashes : Nat) (withScheme : Bool) :
    normalize (String.ofList
        ((if withScheme then scheme else []) ++ (List.replicate slashes '/' ++ es))) =
      normalize path := by
  have hslashes : ∀ c ∈ List.replicate slashes '/', c = '/' := fun c hc =>
    List.eq_of_mem_replicate hc
  have hencoded := hencodes.append_left (List.replicate slashes '/')
  have hplain' : '%' ∉ List.replicate slashes '/' ++ path.toList := by
    simp only [List.mem_append, not_or]
    exact ⟨fun hc => absurd (hslashes _ hc) (by decide), hplain⟩
  rw [normalize_eq, normalize_eq, String.toList_ofList, ← settled_slashes hplain hslashes]
  cases withScheme with
  | false => exact congrArg String.ofList (settled_encoded hplain' hencoded)
  | true =>
    have hscheme : '%' ∉ scheme ++ (List.replicate slashes '/' ++ path.toList) := by
      simp only [List.mem_append, not_or] at hplain' ⊢
      exact ⟨percent_not_mem_scheme, hplain'⟩
    rw [if_pos rfl, settled_encoded hscheme (hencoded.append_left scheme), settled_scheme hplain']

/-- The key of `/demo(/x)` comes from its parenthesis and slash as escapes, too. -/
theorem normalize_encoded_mapping :
    normalize "magic-api://%2Fdemo%28/x)" = normalize "/demo(/x)" := by
  have hslash : Escapes (String.utf8EncodeChar '/') "%2F".toList :=
    .cons (by decide) (by decide) .nil
  have hparen : Escapes (String.utf8EncodeChar '(') "%28".toList :=
    .cons (by decide) (by decide) .nil
  have hencodes : Encodes "/demo(/x)".toList "%2Fdemo%28/x)".toList :=
    .escaped hslash <| (Encodes.escaped hparen <| .refl "/x)".toList).append_left "demo".toList
  exact normalize_encoded "/demo(/x)" (by decide) hencodes 2 true

end DebugAdapter.SourceKey
