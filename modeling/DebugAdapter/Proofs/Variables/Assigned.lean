import DebugAdapter.Proofs.Variables.Expansion
/-!
# What an assignment changes

A value is put in a place inside of another one. `Json.Changes` says how the two differ before and
after: the last key of the way may be new, and then it comes last, and nothing else moves. From it
follow what each path leads to afterwards: the new value at the place (`Json.Changes.at?_self`), a
value that changed in the same way above it (`Json.Changes.at?_above`), and what was there before
anywhere else (`Json.Changes.at?_apart`). `Snapshot.Puts` says this of the variables of a snapshot,
and `Snapshot.puts_of_rootValue?` of an assignment.
-/

namespace DebugAdapter

/-! ## Bindings -/

theorem Table.get?_eq_none_iff {α : Type} (t : Table α) (name : String) :
    t.get? name = none ↔ name ∉ t.keys := by
  induction t with
  | nil => simp [keys]
  | cons p t ih =>
    obtain ⟨key, value⟩ := p
    by_cases hkey : key = name
    · simp [get?, keys, hkey]
    · simpa [get?, keys, hkey, Ne.symm hkey] using ih

theorem Bindings.find?_eq_none_iff {α : Type} (bs : Bindings α) (name : String) :
    bs.find? name = none ↔ name ∉ bs.map Prod.fst := by
  refine ⟨fun h => ?_, find?_eq_none⟩
  induction bs with
  | nil => simp
  | cons p bs ih =>
    obtain ⟨n, v⟩ := p
    rw [find?, Option.or_eq_none_iff] at h
    have hn : n ≠ name := fun heq => by simp [heq] at h
    simpa [Ne.symm hn] using ih h.1

/-- The name of a binding is bound. -/
theorem Bindings.exists_find?_of_mem {α : Type} {bs : Bindings α} {p : String × α} (hp : p ∈ bs) :
    ∃ w, bs.find? p.1 = some w := by
  have hfind : bs.find? p.1 ≠ none := fun hnone =>
    (find?_eq_none_iff bs p.1).1 hnone (List.mem_map_of_mem hp)
  exact Option.ne_none_iff_exists'.1 hfind

/-- A name that is bound is given its new value where it is bound last. -/
theorem Bindings.exists_of_assign? {α : Type} {bs bs' : Bindings α} {name : String} {value : α}
    (h : bs.assign? name value = some bs') :
    ∃ before old behind, bs = before ++ (name, old) :: behind ∧ name ∉ behind.map Prod.fst ∧
      bs' = before ++ (name, value) :: behind := by
  induction bs generalizing bs' with
  | nil => cases h
  | cons p bs ih =>
    obtain ⟨n, v⟩ := p
    simp only [assign?] at h
    split at h
    next rest hrest =>
      obtain rfl := Option.some.inj h
      obtain ⟨before, old, behind, rfl, hbehind, rfl⟩ := ih hrest
      exact ⟨(n, v) :: before, old, behind, rfl, hbehind, rfl⟩
    next hrest =>
      split at h
      next hn =>
        obtain rfl := Option.some.inj h
        subst hn
        have hfind := (assign?_eq_none_iff bs n value).1 hrest
        exact ⟨[], v, bs, rfl, (find?_eq_none_iff bs n).1 hfind, rfl⟩
      next => cases h

namespace Json

/-! ## Values -/

/-- The second value is the first one with `new` in the place that the steps lead to. -/
inductive Changes (new : Json) : List Segment → Json → Json → Prop where
  | here {v : Json} : Changes new [] v new
  | added {entries : List (String × Json)} {name : String} : Table.get? entries name = none →
      Changes new [.key name] (object entries) (object (Table.insert entries name new))
  | entry {entries : List (String × Json)} {name : String} {ss : List Segment}
      {child child' : Json} : Table.get? entries name = some child → Changes new ss child child' →
      Changes new (.key name :: ss) (object entries) (object (Table.insert entries name child'))
  | item {items : List Json} {i : Nat} {ss : List Segment} {child child' : Json} :
      items[i]? = some child → Changes new ss child child' →
      Changes new (.index i :: ss) (array items) (array (items.set i child'))

theorem changes_of_assignAt? {new : Json} {ss : List Segment} {v v' : Json}
    (h : v.assignAt? ss new = some v') : Changes new ss v v' := by
  induction ss generalizing v v' with
  | nil =>
    obtain rfl : new = v' := by simpa [assignAt?] using h
    exact .here
  | cons s ss ih =>
    cases v with
    | object entries =>
      cases s with
      | key name =>
        cases hget : Table.get? entries name with
        | none =>
          cases ss with
          | nil =>
            obtain rfl := Option.some.inj h
            exact .added hget
          | cons s ss => simp [assignAt?, hget] at h
        | some child =>
          cases ss with
          | nil =>
            obtain rfl := Option.some.inj h
            exact .entry hget .here
          | cons s ss =>
            simp only [assignAt?, hget, Option.bind_some, Option.map_eq_some_iff] at h
            obtain ⟨child', hchild, rfl⟩ := h
            exact .entry hget (ih hchild)
      | index i => cases ss <;> cases h
    | array items =>
      cases s with
      | key name => cases ss <;> cases h
      | index i =>
        cases hget : items[i]? with
        | none => simp [assignAt?, hget] at h
        | some child =>
          simp only [assignAt?, hget, Option.bind_some, Option.map_eq_some_iff] at h
          obtain ⟨child', hchild, rfl⟩ := h
          exact .item hget (ih hchild)
    | null | bool _ | number _ | string _ => cases s <;> cases ss <;> cases h

namespace Changes

variable {new v v' : Json} {ss : List Segment}

/-- The new value is found in its place. -/
theorem at?_self (h : Changes new ss v v') : v'.at? ss = some new := by
  induction h with
  | here => rfl
  | added _ => simp [at?, step?]
  | entry _ _ ih => simp [at?, step?, ih]
  | item hget _ ih =>
    obtain ⟨hi, -⟩ := List.getElem?_eq_some_iff.1 hget
    simp [at?, step?, hi, ih]

/-- A step off the way leads to the same part as before. -/
theorem step?_of_ne {s : Segment} (h : Changes new (s :: ss) v v') {q : Segment} (hq : q ≠ s) :
    v'.step? q = v.step? q := by
  have hkey {entries : List (String × Json)} {name : String} {child : Json}
      (hq : q ≠ .key name) :
      (object (Table.insert entries name child)).step? q = (object entries).step? q := by
    cases q with
    | key other =>
      have hne : name ≠ other := fun heq => hq (heq ▸ rfl)
      simp [step?, hne]
    | index i => rfl
  cases h with
  | added _ => exact hkey hq
  | entry _ _ => exact hkey hq
  | @item _ i _ _ _ hget _ =>
    cases q with
    | key name => rfl
    | index j =>
      have hne : i ≠ j := fun heq => hq (heq ▸ rfl)
      simp [step?, List.getElem?_set_ne hne]

/-- What lies above the place is there, and changes in the same way by the rest of the steps. -/
theorem at?_above {qs : List Segment} {s : Segment} (h : Changes new (qs ++ s :: ss) v v') :
    ∃ w w', v.at? qs = some w ∧ v'.at? qs = some w' ∧ Changes new (s :: ss) w w' := by
  induction qs generalizing v v' with
  | nil => exact ⟨v, v', rfl, rfl, h⟩
  | cons q qs ih =>
    rw [List.cons_append] at h
    generalize hrest : qs ++ s :: ss = rest at h
    cases h with
    | added _ => simp at hrest
    | entry hget hchange =>
      obtain ⟨w, w', hat, hat', habove⟩ := ih (hrest ▸ hchange)
      exact ⟨w, w', by simpa [at?, step?, hget] using hat, by simpa [at?, step?] using hat',
        habove⟩
    | item hget hchange =>
      obtain ⟨hi, -⟩ := List.getElem?_eq_some_iff.1 hget
      obtain ⟨w, w', hat, hat', habove⟩ := ih (hrest ▸ hchange)
      refine ⟨w, w', ?_, ?_, habove⟩
      · simpa only [at?, step?, hget, Option.bind_some] using hat
      · simpa only [at?, step?, List.getElem?_set_self hi, Option.bind_some] using hat'

/-- A path that neither leads to the place nor through it leads where it did. -/
theorem at?_apart (h : Changes new ss v v') {qs : List Segment} (hqs : ¬qs <+: ss)
    (hss : ¬ss <+: qs) : v'.at? qs = v.at? qs := by
  induction h generalizing qs with
  | here => exact absurd List.nil_prefix hss
  | @added entries name hget =>
    cases qs with
    | nil => exact absurd List.nil_prefix hqs
    | cons q qs =>
      have hne : q ≠ .key name := fun heq => hss (heq ▸ (List.prefix_append [_] qs))
      rw [at?, at?, step?_of_ne (.added hget) hne]
  | @entry entries name ss child child' hget hchange ih =>
    cases qs with
    | nil => exact absurd List.nil_prefix hqs
    | cons q qs =>
      by_cases hq : q = .key name
      · subst hq
        rw [List.cons_prefix_cons] at hqs hss
        simp [at?, step?, hget, ih (by simpa using hqs) (by simpa using hss)]
      · rw [at?, at?, step?_of_ne (.entry hget hchange) hq]
  | @item items i ss child child' hget hchange ih =>
    cases qs with
    | nil => exact absurd List.nil_prefix hqs
    | cons q qs =>
      by_cases hq : q = .index i
      · subst hq
        obtain ⟨hi, -⟩ := List.getElem?_eq_some_iff.1 hget
        rw [List.cons_prefix_cons] at hqs hss
        simp only [at?, step?, List.getElem?_set_self hi, hget, Option.bind_some]
        exact ih (by simpa using hqs) (by simpa using hss)
      · rw [at?, at?, step?_of_ne (.item hget hchange) hq]

/-- A list with the place in it keeps its length. -/
theorem length_eq {s : Segment} {items : List Json} (h : Changes new (s :: ss) (array items) v') :
    ∃ items', v' = array items' ∧ items'.length = items.length := by
  cases h
  exact ⟨_, rfl, List.length_set⟩

/-- An object with the place in it keeps its keys in order; one more may come last. -/
theorem keys_eq {s : Segment} {entries : List (String × Json)}
    (h : Changes new (s :: ss) (object entries) v') :
    ∃ entries', v' = object entries' ∧ (Table.keys entries' = Table.keys entries ∨
      ∃ name, s :: ss = [.key name] ∧ name ∉ Table.keys entries ∧
        Table.keys entries' = Table.keys entries ++ [name]) := by
  cases h with
  | @added _ name hget =>
    have hnot := (Table.get?_eq_none_iff entries name).1 hget
    exact ⟨_, rfl, .inr ⟨name, rfl, hnot, by rw [Table.keys_insert, if_neg hnot]⟩⟩
  | @entry _ name _ child child' hget hchange =>
    have hmem : name ∈ Table.keys entries := Decidable.of_not_not fun hnot => by
      rw [(Table.get?_eq_none_iff entries name).2 hnot] at hget
      cases hget
    exact ⟨_, rfl, .inl (by rw [Table.keys_insert, if_pos hmem])⟩

end Changes

end Json

namespace Snapshot

/-! ## Variables -/

/-- Giving a variable a value changes the last one of its name, or adds it as the last. -/
theorem putVariable_cases (vars : Variables) (name : String) (value : Json) :
    (∃ before old behind, vars = before ++ (name, old) :: behind ∧
        name ∉ behind.map Prod.fst ∧
        putVariable vars name value = before ++ (name, value) :: behind) ∨
      name ∉ vars.map Prod.fst ∧ putVariable vars name value = vars ++ [(name, value)] := by
  unfold putVariable
  cases hassign : vars.assign? name value with
  | some vars' =>
    obtain ⟨before, old, behind, hvars, hbehind, rfl⟩ := Bindings.exists_of_assign? hassign
    exact .inl ⟨before, old, behind, hvars, hbehind, rfl⟩
  | none =>
    have hfind := (Bindings.assign?_eq_none_iff vars name value).1 hassign
    exact .inr ⟨(Bindings.find?_eq_none_iff vars name).1 hfind, rfl⟩

/-- Whether the variables of `t` are those of `s` with `value` in a place: nothing else changes,
and nothing moves. -/
structure Puts (s : Snapshot) (place : Target) (value : Json) (t : Snapshot) : Prop where
  /-- The place holds the value. -/
  here : t.resolve? (.path place.root place.segments) = some value
  /-- A path that leads neither above the place nor to or into it leads where it did. -/
  apart {root : String} {qs : List Segment} :
    (root = place.root → ¬qs <+: place.segments ∧ ¬place.segments <+: qs) →
      t.resolve? (.path root qs) = s.resolve? (.path root qs)
  /-- A list that is not at or in the place keeps its length. -/
  length_eq {root : String} {qs : List Segment} {items : List Json} :
    (root = place.root → ¬place.segments <+: qs) →
      s.resolve? (.path root qs) = some (.array items) →
      ∃ items', t.resolve? (.path root qs) = some (.array items') ∧ items'.length = items.length
  /-- An object that is not at or in the place keeps its keys in order; if the place is an entry
  that it lacks, the new key comes last. -/
  keys_eq {root : String} {qs : List Segment} {entries : List (String × Json)} :
    (root = place.root → ¬place.segments <+: qs) →
      s.resolve? (.path root qs) = some (.object entries) →
      ∃ entries', t.resolve? (.path root qs) = some (.object entries') ∧
        (Table.keys entries' = Table.keys entries ∨
          ∃ name, root = place.root ∧ place.segments = qs ++ [.key name] ∧
            name ∉ Table.keys entries ∧ Table.keys entries' = Table.keys entries ++ [name])
  /-- Only the last variable of the name has another value, or it is new and comes last. -/
  vars :
    (∃ before old behind whole, s.vars = before ++ (place.root, old) :: behind ∧
        place.root ∉ behind.map Prod.fst ∧ t.vars = before ++ (place.root, whole) :: behind) ∨
      place.segments = [] ∧ place.root ∉ s.vars.map Prod.fst ∧
        t.vars = s.vars ++ [(place.root, value)]

theorem resolve?_path (s : Snapshot) (root : String) (qs : List Segment) :
    s.resolve? (.path root qs) = (s.vars.find? root).bind fun v => v.at? qs :=
  rfl

/-- The whole variable is changed in the place, or there was none and the place is all of it. -/
theorem rootValue?_cases {s : Snapshot} {place : Target} {value whole : Json}
    (h : s.rootValue? place value = some whole) :
    (∃ old, s.vars.find? place.root = some old ∧
        Json.Changes value place.segments old whole) ∨
      s.vars.find? place.root = none ∧ place.segments = [] ∧ whole = value := by
  unfold rootValue? at h
  split at h
  next hnil =>
    obtain rfl := Option.some.inj h
    cases hfind : s.vars.find? place.root with
    | some old => exact .inl ⟨old, rfl, hnil ▸ .here⟩
    | none => exact .inr ⟨rfl, hnil, rfl⟩
  next =>
    obtain ⟨old, hold, hassign⟩ := Option.bind_eq_some_iff.1 h
    exact .inl ⟨old, hold, Json.changes_of_assignAt? hassign⟩

section Puts

variable {s t : Snapshot} {place : Target} {value whole : Json}

/-- A path that does not lead to or into the place leads where it did, or above the place, where
the change is by the rest of the steps. -/
theorem resolve?_of_putVariable (hwhole : s.rootValue? place value = some whole)
    (hvars : t.vars = putVariable s.vars place.root whole) {root : String} {qs : List Segment}
    (hqs : root = place.root → ¬place.segments <+: qs) :
    t.resolve? (.path root qs) = s.resolve? (.path root qs) ∨
      ∃ step ss w w', root = place.root ∧ place.segments = qs ++ step :: ss ∧
        s.resolve? (.path root qs) = some w ∧ t.resolve? (.path root qs) = some w' ∧
        Json.Changes value (step :: ss) w w' := by
  simp only [resolve?_path, hvars, find?_putVariable]
  by_cases hroot : place.root = root
  · subst hroot
    rcases rootValue?_cases hwhole with ⟨old, hold, hchange⟩ | ⟨-, hnil, -⟩
    · simp only [hold, if_true, Option.bind_some]
      by_cases habove : qs <+: place.segments
      · obtain ⟨rest, hrest⟩ := habove
        cases rest with
        | nil => exact absurd (by simp [← hrest]) (hqs rfl)
        | cons step ss =>
          obtain ⟨w, w', hat, hat', hrest'⟩ := (hrest ▸ hchange).at?_above
          exact .inr ⟨step, ss, w, w', trivial, hrest.symm, hat, hat', hrest'⟩
      · exact .inl (hchange.at?_apart habove (hqs rfl))
    · exact absurd (hnil ▸ List.nil_prefix) (hqs rfl)
  · exact .inl (by rw [if_neg hroot])

theorem puts_of_rootValue? (hwhole : s.rootValue? place value = some whole)
    (hvars : t.vars = putVariable s.vars place.root whole) : Puts s place value t where
  here := by
    rw [resolve?_path, hvars, find?_putVariable, if_pos rfl, Option.bind_some]
    rcases rootValue?_cases hwhole with ⟨old, -, hchange⟩ | ⟨-, hnil, rfl⟩
    · exact hchange.at?_self
    · rw [hnil]
      rfl
  apart {root qs} hqs := by
    rcases resolve?_of_putVariable hwhole hvars fun h => (hqs h).2 with
      heq | ⟨step, ss, w, w', hroot, hrest, -⟩
    · exact heq
    · exact absurd (hrest ▸ List.prefix_append qs _) (hqs hroot).1
  length_eq {root qs items} hqs hat := by
    rcases resolve?_of_putVariable hwhole hvars hqs with
      heq | ⟨step, ss, w, w', -, -, hat', hnew, hchange⟩
    · exact ⟨items, heq.trans hat, rfl⟩
    · obtain rfl := Option.some.inj (hat'.symm.trans hat)
      obtain ⟨items', rfl, hlength⟩ := hchange.length_eq
      exact ⟨items', hnew, hlength⟩
  keys_eq {root qs entries} hqs hat := by
    rcases resolve?_of_putVariable hwhole hvars hqs with
      heq | ⟨step, ss, w, w', hroot, hrest, hat', hnew, hchange⟩
    · exact ⟨entries, heq.trans hat, .inl rfl⟩
    · obtain rfl := Option.some.inj (hat'.symm.trans hat)
      obtain ⟨entries', rfl, hkeys⟩ := hchange.keys_eq
      refine ⟨entries', hnew, hkeys.imp_right ?_⟩
      rintro ⟨name, hlast, hname, happended⟩
      exact ⟨name, hroot, hlast ▸ hrest, hname, happended⟩
  vars := by
    rcases putVariable_cases s.vars place.root whole with
      ⟨before, old, behind, hold, hbehind, hnew⟩ | ⟨hnot, hnew⟩
    · exact .inl ⟨before, old, behind, whole, hold, hbehind, hvars.trans hnew⟩
    · rcases rootValue?_cases hwhole with ⟨old, hold, -⟩ | ⟨-, hnil, rfl⟩
      · rw [(Bindings.find?_eq_none_iff s.vars place.root).2 hnot] at hold
        cases hold
      · exact .inr ⟨hnil, hnot, hvars.trans hnew⟩

end Puts

end Snapshot

end DebugAdapter
