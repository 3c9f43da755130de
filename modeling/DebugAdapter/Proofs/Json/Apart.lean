import DebugAdapter.Json.Decode
import DebugAdapter.Proofs.Text.Redacted
/-!
# What decoding says of a text

Two values are `Apart` if they are the same but for the contents of one text. A decoder that meets
such a pair takes both or refuses both (`Alike`), and it says the same unless the text itself is at
fault. A decoder is `Discreet` if it does so; records are discreet whose fields are
(`RecordShape.discreet_decode`).
-/

namespace DebugAdapter.Json

/-- Whether the second value is the first with a text `t` in the place of one text `s`. -/
inductive Apart (s t : String) : Json → Json → Prop where
  | here : Apart s t (.string s) (.string t)
  | item (before after : List Json) {v w : Json} :
      Apart s t v w → Apart s t (.array (before ++ v :: after)) (.array (before ++ w :: after))
  | member (before after : Fields) (name : String) {v w : Json} : Apart s t v w →
      Apart s t (.object (before ++ (name, v) :: after)) (.object (before ++ (name, w) :: after))

/-- Whether two values are both taken, or both refused with the same error, but for a text in it
that is of the wrong type. -/
inductive Alike (s t : String) {α β : Type} :
    Except DecodeError α → Except DecodeError β → Prop where
  | ok (a : α) (b : β) : Alike s t (.ok a) (.ok b)
  | same (e : DecodeError) : Alike s t (.error e) (.error e)
  | text {wanted : String} : Text.IsPlain wanted →
      Alike s t (.error (.wrongType (.string s) wanted)) (.error (.wrongType (.string t) wanted))

variable {s t : String} {v w : Json} {α β γ δ : Type}

theorem Alike.refl (x : Except DecodeError α) : Alike s t x x := by
  cases x with
  | ok a => exact .ok a a
  | error e => exact .same e

theorem Alike.map {x : Except DecodeError α} {y : Except DecodeError β} (h : Alike s t x y)
    (f : α → γ) (g : β → δ) : Alike s t (x.map f) (y.map g) := by
  cases h with
  | ok a b => exact .ok _ _
  | same e => exact .same e
  | text hplain => exact .text hplain

theorem Alike.bind {x : Except DecodeError α} {y : Except DecodeError β}
    {f : α → Except DecodeError γ} {g : β → Except DecodeError δ} (h : Alike s t x y)
    (hfg : ∀ a b, Alike s t (f a) (g b)) : Alike s t (x >>= f) (y >>= g) := by
  cases h with
  | ok a b => exact hfg a b
  | same e => exact .same e
  | text hplain => exact .text hplain

theorem Apart.isNull_left (h : Apart s t v w) : v.isNull = false := by
  cases h <;> rfl

theorem Apart.isNull_right (h : Apart s t v w) : w.isNull = false := by
  cases h <;> rfl

/-! ## Decoders -/

/-- Whether a decoder does not tell two texts apart, unless one of them is at fault. -/
def Decoder.Discreet (d : Decoder α) : Prop :=
  ∀ ⦃s t v w⦄, Apart s t v w → Alike s t (d v) (d w)

namespace Decoder

theorem discreet_text : text.Discreet := by
  intro s t v w h
  cases h with
  | here => exact .ok s t
  | item | member => exact .same _

theorem discreet_whole {wanted : String} (hplain : Text.IsPlain wanted) (lo hi : Int) :
    (whole wanted lo hi).Discreet := by
  intro s t v w h
  cases h with
  | here => exact .text hplain
  | item | member => exact .same _

theorem discreet_signed : signed.Discreet :=
  discreet_whole (by decide) _ _

theorem discreet_unsigned : unsigned.Discreet := fun _ _ _ _ h =>
  (discreet_whole (by decide) _ _ h).map _ _

theorem optional_of_isNull {d : Decoder α} (h : v.isNull = false) :
    optional d v = (d v).map some := by
  cases v <;> first | rfl | cases h

theorem Discreet.optional {d : Decoder α} (hd : d.Discreet) : (Decoder.optional d).Discreet := by
  intro s t v w h
  rw [optional_of_isNull h.isNull_left, optional_of_isNull h.isNull_right]
  exact (hd h).map some some

theorem Discreet.list {d : Decoder α} (hd : d.Discreet) : (Decoder.list d).Discreet := by
  intro s t v w h
  cases h with
  | here => exact .text (by decide)
  | member => exact .same _
  | item before after h =>
    simp only [Decoder.list]
    induction before with
    | nil =>
      simp only [List.nil_append, List.mapM_cons]
      exact (hd h).bind fun a b => (Alike.refl _).bind fun _ _ => .ok _ _
    | cons u before ih =>
      simp only [List.cons_append, List.mapM_cons]
      exact (Alike.refl _).bind fun _ _ => ih.bind fun _ _ => .ok _ _

end Decoder

/-! ## Records -/

/-- Whether storing a field fails for the same reason whatever is stored already, and does not tell
two texts apart. -/
structure Field.Discreet {ρ : Type} (f : Field ρ) : Prop where
  steady : ∀ s t v r r', Alike s t (f.store v r) (f.store v r')
  apart : ∀ {s t v w}, Apart s t v w → ∀ r r', Alike s t (f.store v r) (f.store w r')

theorem Field.discreet_of {ρ : Type} {d : Decoder α} (hd : d.Discreet) (name : String)
    (required : Bool) (put : α → ρ → ρ) : (Field.of name required d put).Discreet :=
  ⟨fun _ _ _ _ _ => (Alike.refl _).map _ _, fun h _ _ => (hd h).map _ _⟩

namespace RecordShape

variable {ρ : Type} {shape : RecordShape ρ}

/-- Whether the name of a record is plain and its fields are discreet. -/
structure Discreet (shape : RecordShape ρ) : Prop where
  plain : Text.IsPlain ("struct " ++ shape.name)
  fields : ∀ f ∈ shape.fields, f.Discreet

theorem Discreet.storeMembers_steady (h : shape.Discreet) (members : Fields) (r r' : ρ) :
    Alike s t (shape.storeMembers members r) (shape.storeMembers members r') := by
  induction members generalizing r r' with
  | nil => exact .ok r r'
  | cons m members ih =>
    obtain ⟨key, value⟩ := m
    unfold storeMembers
    split
    · exact ih r r'
    next f hf =>
      exact ((h.fields f (List.mem_of_find?_eq_some hf)).steady s t value r r').bind ih

/-- Two objects that are apart in one member are stored alike. -/
theorem Discreet.storeMembers_apart (h : shape.Discreet) (before after : Fields) (name : String)
    (hvw : Apart s t v w) (r r' : ρ) :
    Alike s t (shape.storeMembers (before ++ (name, v) :: after) r)
      (shape.storeMembers (before ++ (name, w) :: after) r') := by
  induction before generalizing r r' with
  | nil =>
    simp only [List.nil_append, storeMembers]
    split
    · exact h.storeMembers_steady after r r'
    next f hf =>
      exact ((h.fields f (List.mem_of_find?_eq_some hf)).apart hvw r r').bind
        (h.storeMembers_steady after)
  | cons m before ih =>
    obtain ⟨key, value⟩ := m
    simp only [List.cons_append, storeMembers]
    split
    · exact ih r r'
    next f hf =>
      exact ((h.fields f (List.mem_of_find?_eq_some hf)).steady s t value r r').bind ih

theorem storeItems_steady {fields : List (Field ρ)} (h : ∀ f ∈ fields, f.Discreet)
    (index : Nat) (items : List Json) (r r' : ρ) :
    Alike s t (shape.storeItems index fields items r) (shape.storeItems index fields items r') := by
  induction fields generalizing index items r r' with
  | nil => cases items <;> exact .ok r r'
  | cons f fields ih =>
    have hfields : ∀ g ∈ fields, g.Discreet := fun g hg => h g (List.mem_cons_of_mem f hg)
    cases items with
    | nil =>
      unfold storeItems
      split
      · exact .same _
      · exact ih hfields _ [] r r'
    | cons item items =>
      exact ((h f List.mem_cons_self).steady s t item r r').bind (ih hfields _ items)

/-- Two lists that are apart in one item are stored alike. -/
theorem storeItems_apart {fields : List (Field ρ)} (h : ∀ f ∈ fields, f.Discreet)
    (index : Nat) (before after : List Json) (hvw : Apart s t v w) (r r' : ρ) :
    Alike s t (shape.storeItems index fields (before ++ v :: after) r)
      (shape.storeItems index fields (before ++ w :: after) r') := by
  induction fields generalizing index before r r' with
  | nil => cases before <;> exact .ok r r'
  | cons f fields ih =>
    have hfields : ∀ g ∈ fields, g.Discreet := fun g hg => h g (List.mem_cons_of_mem f hg)
    cases before with
    | nil =>
      exact ((h f List.mem_cons_self).apart hvw r r').bind (storeItems_steady hfields _ after)
    | cons item before =>
      exact ((h f List.mem_cons_self).steady s t item r r').bind (ih hfields _ before)

theorem discreet_decode (h : shape.Discreet) : Decoder.Discreet shape.decode := by
  intro s t v w hvw
  cases hvw with
  | here => exact .text h.plain
  | item before after hvw =>
    simp only [decode, List.length_append, List.length_cons]
    refine (storeItems_apart h.fields 0 before after hvw _ _).bind fun a b => ?_
    split
    · exact .same _
    · exact .ok a b
  | @member before after name v w hvw =>
    -- Which fields are missing depends on the names of the members only.
    have hmissing (u : Json) : shape.firstMissing? (before ++ (name, u) :: after) =
        shape.firstMissing? (before ++ (name, .null) :: after) := by
      simp [firstMissing?, Table.keys]
    simp only [decode]
    rw [hmissing v, hmissing w]
    refine (h.storeMembers_apart before after name hvw _ _).bind fun a b => ?_
    split
    · exact .same _
    · exact .ok a b

end RecordShape

end DebugAdapter.Json
