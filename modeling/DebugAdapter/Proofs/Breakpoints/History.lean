import DebugAdapter.Proofs.Breakpoints.StoredLines
import DebugAdapter.Proofs.Text.Cut
import Mathlib.Data.List.Induction
/-!
# The history of a registry

A registry is what it was asked for, one after the other (`Registry.after`). Breakpoints are kept
under the key of their source and under the key without its resource type, until a later request for
one of these keys, or until all are forgotten : `Registry.LastUnder` says which request that leaves
under a key, and `Registry.Holds` which breakpoints it left there. So the history alone tells what
each key finds, and what was answered with which ids (`Registry.history_exact`).
-/

namespace DebugAdapter

/-! ## Maps with the same values -/

namespace LineMap

variable {α : Type}

theorem get?_eq_none_of_lt {m : LineMap α} {line : UInt32} (h : ∀ k ∈ m.lines, line < k) :
    m.get? line = none := by
  have hnot : line ∉ m.lines := fun hmem => UInt32.lt_irrefl line (h line hmem)
  rwa [mem_lines, Bool.not_eq_true, Option.isSome_eq_false_iff, Option.isNone_iff_eq_none] at hnot

/-- A line that comes first is one of any map with the same values. -/
theorem le_of_get?_eq {m m' : LineMap α} {l : UInt32} (hfirst : ∀ k ∈ m'.lines, l ≤ k)
    (hget : ∀ line, m.get? line = m'.get? line) {line : UInt32} (hmem : line ∈ m.lines) :
    l ≤ line := by
  rw [mem_lines, hget, ← mem_lines] at hmem
  exact hfirst line hmem

/-- Maps with ascending lines are the same when their lines have the same values. -/
theorem Ascending.ext {m m' : LineMap α} (h : m.Ascending) (h' : m'.Ascending)
    (hget : ∀ line, m.get? line = m'.get? line) : m = m' := by
  induction m generalizing m' with
  | nil =>
    cases m' with
    | nil => rfl
    | cons p m' => simpa [get?] using hget p.1
  | cons p m ih =>
    cases m' with
    | nil => simpa [get?] using hget p.1
    | cons p' m' =>
      obtain ⟨l, v⟩ := p
      obtain ⟨l', v'⟩ := p'
      obtain ⟨hfirst, hrest⟩ := List.pairwise_cons.1 h
      obtain ⟨hfirst', hrest'⟩ := List.pairwise_cons.1 h'
      have hle {k : UInt32} {n : LineMap α} {w : α} (hlt : ∀ j ∈ n.lines, k < j) :
          ∀ j ∈ lines ((k, w) :: n), k ≤ j := fun j hj => by
        rcases List.mem_cons.1 hj with rfl | hj
        · exact UInt32.le_refl _
        · exact UInt32.le_of_lt (hlt j hj)
      obtain rfl : l = l' := UInt32.le_antisymm
        (le_of_get?_eq (hle hfirst) (fun line => (hget line).symm) List.mem_cons_self)
        (le_of_get?_eq (hle hfirst') hget List.mem_cons_self)
      obtain rfl : v = v' := by simpa [get?] using hget l
      refine congrArg _ (ih hrest hrest' fun line => ?_)
      by_cases hl : l = line
      · subst hl
        rw [get?_eq_none_of_lt hfirst, get?_eq_none_of_lt hfirst']
      · simpa [get?, hl] using hget line

end LineMap

namespace Registry

open Script (toInstrumentedLine)
open SourceKey (normalize withoutKind)

/-! ## Histories -/

/-- What may be asked of a registry. -/
inductive Update where
  /-- To replace the breakpoints of a source. -/
  | replace (source : Source) (requested : List SourceBreakpoint)
  /-- To forget all breakpoints. -/
  | clear

/-- What an update is answered, if anything, and what it leaves. -/
def update (r : Registry) : Update → Option Replaced × Registry
  | .replace source requested => (some (r.replace source requested).1,
      (r.replace source requested).2)
  | .clear => (none, r.clear)

/-- The registry after updates, the first of which finds it empty. -/
def after (us : List Update) : Registry :=
  us.foldl (fun r u => (r.update u).2) {}

/-- What updates of a registry are answered, in order. -/
def answersFrom : Registry → List Update → List Replaced
  | _, [] => []
  | r, u :: us => (r.update u).1.toList ++ answersFrom (r.update u).2 us

/-- What updates are answered, the first of which finds the registry empty. -/
def answers (us : List Update) : List Replaced :=
  answersFrom {} us

/-- The source and the breakpoints of a request. -/
def Update.request? : Update → Option (Source × List SourceBreakpoint)
  | replace source requested => some (source, requested)
  | clear => none

/-- The requests among updates. -/
def requests (us : List Update) : List (Source × List SourceBreakpoint) :=
  us.filterMap Update.request?

/-- How many breakpoints are asked for. -/
def asked (us : List Update) : Nat :=
  ((requests us).flatMap Prod.snd).length

/-- Whether the breakpoints of a source are kept under a key. -/
def KeptUnder (source : Source) (key : String) : Prop :=
  normalize (source.path.getD "") = key ∨ withoutKind (normalize (source.path.getD "")) = key

instance (source : Source) (key : String) : Decidable (KeptUnder source key) :=
  inferInstanceAs (Decidable (_ ∨ _))

/-- Whether an update changes what is kept under a key. -/
def Update.Touches (key : String) : Update → Prop
  | replace source _ => KeptUnder source key
  | clear => True

/-- Whether the last update that changed what is kept under a key is a request for these
breakpoints, the first of which got the id `first`. -/
def LastUnder (us : List Update) (key : String) (first : Nat) (requested : List SourceBreakpoint) :
    Prop :=
  ∃ before source since, us = before ++ .replace source requested :: since ∧
    KeptUnder source key ∧ (∀ u ∈ since, ¬u.Touches key) ∧ first = 1 + asked before

/-- Whether a breakpoint is what a request for it with an id makes of it; a blank message does not
count. -/
structure Answers (bp : LineBreakpoint) (id : Nat) (b : SourceBreakpoint) : Prop where
  id_eq : bp.id = id
  logMessage_iff (text : String) : bp.logMessage = some text ↔
    b.logMessage = some text ∧ ∃ c ∈ text.toList, Text.isBlank c = false

/-- Whether a map holds what a request asks for, the first of whose breakpoints got the id `first` :
the lines that it asks for, each with what the last request for it makes of it. -/
structure Holds (m : SourceBreakpoints) (first : Nat) (requested : List SourceBreakpoint) :
    Prop where
  ascending : m.Ascending
  mem_lines_iff (line : UInt32) :
    line ∈ m.lines ↔ ∃ b ∈ requested, toInstrumentedLine b.line = line
  get?_last {before since : List SourceBreakpoint} {b : SourceBreakpoint} :
    requested = before ++ b :: since →
      (∀ b' ∈ since, toInstrumentedLine b'.line ≠ toInstrumentedLine b.line) →
        ∃ bp, m.get? (toInstrumentedLine b.line) = some bp ∧ Answers bp (first + before.length) b

/-! ## What one request leaves -/

theorem template?_eq_some_iff (b : SourceBreakpoint) (text : String) :
    template? b = some text ↔
      b.logMessage = some text ∧ ∃ c ∈ text.toList, Text.isBlank c = false := by
  have hblank : (Text.trim text).isEmpty = true ↔ ∀ c ∈ text.toList, Text.isBlank c = true := by
    rw [← Text.trimChars_eq_nil_iff, String.isEmpty_iff, Text.trim, String.ofList_eq_empty_iff]
  rw [template?, Option.filter_eq_some_iff, Bool.not_eq_true', ← Bool.not_eq_true, hblank]
  simp

theorem numbered_append (id : Nat) (bs bs' : List SourceBreakpoint) :
    numbered id (bs ++ bs') = numbered id bs ++ numbered (id + bs.length) bs' := by
  induction bs generalizing id with
  | nil => rfl
  | cons b bs ih => simp [numbered, ih, Nat.add_assoc, Nat.add_comm 1]

theorem map_snd_numbered (id : Nat) (bs : List SourceBreakpoint) :
    (numbered id bs).map Prod.snd = bs := by
  induction bs generalizing id with
  | nil => rfl
  | cons b bs ih => simp [numbered, ih]

theorem map_fst_numbered (id : Nat) (bs : List SourceBreakpoint) :
    (numbered id bs).map Prod.fst = List.range' id bs.length := by
  induction bs generalizing id with
  | nil => rfl
  | cons b bs ih => simp [numbered, ih, List.range'_succ]

theorem get?_foldl_insert_of_ne {given : List (Nat × SourceBreakpoint)} {line : UInt32}
    (h : ∀ p ∈ given, toInstrumentedLine p.2.line ≠ line) (m : SourceBreakpoints) :
    LineMap.get? (given.foldl
      (fun m (id, b) => m.insert (toInstrumentedLine b.line) ⟨id, template? b⟩) m) line =
        m.get? line := by
  induction given generalizing m with
  | nil => rfl
  | cons p given ih =>
    obtain ⟨hfirst, hrest⟩ := List.forall_mem_cons.1 h
    rw [List.foldl_cons, ih hrest, LineMap.get?_insert, if_neg hfirst]

/-- The last request for a line counts. -/
theorem get?_entries_last (first : Nat) (before since : List SourceBreakpoint)
    (b : SourceBreakpoint)
    (h : ∀ b' ∈ since, toInstrumentedLine b'.line ≠ toInstrumentedLine b.line) :
    (entries (numbered first (before ++ b :: since))).get? (toInstrumentedLine b.line) =
      some ⟨first + before.length, template? b⟩ := by
  rw [entries, numbered_append, List.foldl_append, numbered, List.foldl_cons,
    get?_foldl_insert_of_ne, LineMap.get?_insert, if_pos rfl]
  intro p hp
  refine h p.2 ?_
  rw [← map_snd_numbered (first + before.length + 1) since]
  exact List.mem_map_of_mem hp

/-- Of the requests for a line one is the last. -/
theorem exists_last {requested : List SourceBreakpoint} {line : UInt32}
    (h : ∃ b ∈ requested, toInstrumentedLine b.line = line) :
    ∃ before b since, requested = before ++ b :: since ∧ toInstrumentedLine b.line = line ∧
      ∀ b' ∈ since, toInstrumentedLine b'.line ≠ line := by
  induction requested with
  | nil => simp at h
  | cons b bs ih =>
    by_cases hlater : ∃ b' ∈ bs, toInstrumentedLine b'.line = line
    · obtain ⟨before, b', since, rfl, hb', hsince⟩ := ih hlater
      exact ⟨b :: before, b', since, rfl, hb', hsince⟩
    · have hb : toInstrumentedLine b.line = line := by simpa [hlater] using h
      exact ⟨[], b, bs, rfl, hb, fun b' hb' heq => hlater ⟨b', hb', heq⟩⟩

theorem Answers.eq {bp bp' : LineBreakpoint} {id : Nat} {b : SourceBreakpoint}
    (h : Answers bp id b) (h' : Answers bp' id b) : bp = bp' := by
  have hid : bp.id = bp'.id := h.id_eq.trans h'.id_eq.symm
  have hmessage : bp.logMessage = bp'.logMessage :=
    Option.ext fun text => (h.logMessage_iff text).trans (h'.logMessage_iff text).symm
  cases bp
  cases bp'
  simp_all

theorem holds_entries (first : Nat) (requested : List SourceBreakpoint) :
    Holds (entries (numbered first requested)) first requested where
  ascending := ascending_entries _
  mem_lines_iff := mem_lines_entries first requested
  get?_last {before since b} hsplit hlast := by
    subst hsplit
    exact ⟨_, get?_entries_last first before since b hlast, rfl, template?_eq_some_iff b⟩

/-- A request says all about the map that holds what it asks for. -/
theorem holds_iff (m : SourceBreakpoints) (first : Nat) (requested : List SourceBreakpoint) :
    Holds m first requested ↔ m = entries (numbered first requested) := by
  refine ⟨fun h => ?_, fun h => h ▸ holds_entries first requested⟩
  have hentries := holds_entries first requested
  refine h.ascending.ext hentries.ascending fun line => ?_
  by_cases hline : ∃ b ∈ requested, toInstrumentedLine b.line = line
  · obtain ⟨before, b, since, rfl, rfl, hlast⟩ := exists_last hline
    obtain ⟨bp, hget, hanswers⟩ := h.get?_last rfl hlast
    obtain ⟨bp', hget', hanswers'⟩ := hentries.get?_last rfl hlast
    rw [hget, hget', hanswers.eq hanswers']
  · have hnone {m : SourceBreakpoints} (hm : Holds m first requested) : m.get? line = none := by
      rw [← Option.not_isSome_iff_eq_none, ← LineMap.mem_lines, hm.mem_lines_iff]
      exact hline
    rw [hnone h, hnone hentries]

/-! ## What updates leave -/

theorem after_concat (us : List Update) (u : Update) :
    after (us ++ [u]) = ((after us).update u).2 := by
  simp [after]

theorem asked_append (us us' : List Update) : asked (us ++ us') = asked us + asked us' := by
  simp [asked, requests]

theorem asked_replace (source : Source) (requested : List SourceBreakpoint) :
    asked [.replace source requested] = requested.length := by
  simp [asked, requests, Update.request?]

/-- The ids go on, whatever is forgotten. -/
theorem nextId_update (r : Registry) (u : Update) :
    (r.update u).2.nextId = r.nextId + asked [u] := by
  cases u with
  | replace source requested =>
    rw [asked_replace]
    rfl
  | clear => rfl

theorem nextId_after (us : List Update) : (after us).nextId = 1 + asked us := by
  induction us using List.reverseRecOn with
  | nil => rfl
  | append_singleton us u ih => rw [after_concat, nextId_update, ih, asked_append, Nat.add_assoc]

/-- What is last under a key after one more update. -/
theorem lastUnder_concat (us : List Update) (u : Update) (key : String) (first : Nat)
    (requested : List SourceBreakpoint) : LastUnder (us ++ [u]) key first requested ↔
      (∃ source, u = .replace source requested ∧ KeptUnder source key ∧ first = 1 + asked us) ∨
        ¬u.Touches key ∧ LastUnder us key first requested := by
  constructor
  · rintro ⟨before, source, since, hsplit, hkept, hsince, rfl⟩
    rcases List.eq_nil_or_concat since with rfl | ⟨since, v, rfl⟩
    · obtain ⟨rfl, hu⟩ := List.append_inj' hsplit rfl
      exact .inl ⟨source, List.singleton_inj.1 hu, hkept, rfl⟩
    · rw [List.concat_eq_append, ← List.cons_append, ← List.append_assoc] at hsplit
      obtain ⟨rfl, hu⟩ := List.append_inj' hsplit rfl
      obtain rfl := List.singleton_inj.1 hu
      refine .inr ⟨hsince u (by simp), before, source, since, rfl, hkept, fun v hv => ?_, rfl⟩
      exact hsince v (by simp [hv])
  · rintro (⟨source, rfl, hkept, rfl⟩ | ⟨hu, before, source, since, rfl, hkept, hsince, rfl⟩)
    · exact ⟨us, source, [], rfl, hkept, by simp, rfl⟩
    · refine ⟨before, source, since ++ [u], by simp, hkept, fun v hv => ?_, rfl⟩
      rcases List.mem_append.1 hv with hv | hv
      · exact hsince v hv
      · rwa [List.mem_singleton.1 hv]

theorem get?_sources_replace (r : Registry) (source : Source) (requested : List SourceBreakpoint)
    (key : String) : (r.replace source requested).2.sources.get? key =
      if KeptUnder source key then some (entries (numbered r.nextId requested))
      else r.sources.get? key := by
  have hkept : key = normalize (source.path.getD "") ∨
      key = withoutKind (normalize (source.path.getD "")) ↔ KeptUnder source key :=
    or_congr eq_comm eq_comm
  simp only [replace, get?_store, hkept]

/-- The breakpoints under a key are those of the last request that left some there. -/
theorem get?_after (us : List Update) (key : String) (m : SourceBreakpoints) :
    (after us).sources.get? key = some m ↔
      ∃ first requested, Holds m first requested ∧ LastUnder us key first requested := by
  induction us using List.reverseRecOn generalizing m with
  | nil => simp [after, LastUnder]
  | append_singleton us u ih =>
    simp only [after_concat, lastUnder_concat]
    cases u with
    | clear => simp [update, clear, Update.Touches]
    | replace source requested =>
      simp only [update, get?_sources_replace, nextId_after, Update.Touches]
      by_cases hkept : KeptUnder source key
      · simp [hkept, holds_iff, eq_comm]
      · simp [hkept, ih]

/-- Nothing is under a key that no request left breakpoints under. -/
theorem get?_after_eq_none_iff (us : List Update) (key : String) :
    (after us).sources.get? key = none ↔ ∀ first requested, ¬LastUnder us key first requested := by
  rw [Option.eq_none_iff_forall_ne_some]
  constructor
  · intro hnone first requested hlast
    exact hnone _ ((get?_after us key _).2 ⟨first, requested, holds_entries first requested, hlast⟩)
  · intro hlast m hm
    obtain ⟨first, requested, -, h⟩ := (get?_after us key m).1 hm
    exact hlast first requested h

theorem lookup_eq_some_iff (r : Registry) (key : String) (m : SourceBreakpoints) :
    r.lookup key = some m ↔ r.sources.get? key = some m ∨
      r.sources.get? key = none ∧ r.sources.get? (withoutKind key) = some m := by
  rw [lookup, Option.or_eq_some_iff]

theorem lookup_eq_none_iff (r : Registry) (key : String) : r.lookup key = none ↔
    r.sources.get? key = none ∧ r.sources.get? (withoutKind key) = none := by
  rw [lookup, Option.or_eq_none_iff]

/-! ## What updates are answered -/

variable (r : Registry) (source : Source) (requested : List SourceBreakpoint)

theorem map_id_replace : (r.replace source requested).1.breakpoints.map Breakpoint.id =
    List.range' r.nextId requested.length := by
  rw [← map_fst_numbered]
  exact List.map_map

theorem map_line_replace : (r.replace source requested).1.breakpoints.map
    (fun b => (b.line, b.source)) = requested.map fun b => (b.line, source) := by
  conv => rhs; rw [← map_snd_numbered r.nextId requested]
  simp only [replace, List.map_map]
  rfl

theorem map_id_answersFrom (us : List Update) :
    (answersFrom r us).flatMap (fun a => a.breakpoints.map Breakpoint.id) =
      List.range' r.nextId (asked us) := by
  induction us generalizing r with
  | nil => rfl
  | cons u us ih =>
    have hasked : asked (u :: us) = asked [u] + asked us := asked_append [u] us
    rw [answersFrom, List.flatMap_append, ih, nextId_update, hasked, ← List.range'_append_1]
    congr 1
    cases u with
    | clear => rfl
    | replace source requested =>
      rw [asked_replace]
      exact (List.append_nil _).trans (r.map_id_replace source requested)

theorem map_line_answersFrom (us : List Update) :
    (answersFrom r us).map (fun a => a.breakpoints.map fun b => (b.line, b.source)) =
      (requests us).map fun p => p.2.map fun b => (b.line, p.1) := by
  induction us generalizing r with
  | nil => rfl
  | cons u us ih =>
    rw [answersFrom, List.map_append, ih]
    cases u with
    | clear => rfl
    | replace source requested => exact congrArg (· :: _) (r.map_line_replace source requested)

theorem verified_toJson (b : Breakpoint) : b.toJson.member? "verified" = some (.bool true) := by
  simp [Breakpoint.toJson, Json.mk, Json.member?, Table.ofList, Table.insertAll]

/-- The history of a registry says what it knows and what it answered. A key finds the breakpoints
of the last request since the last time that all were forgotten whose key, or whose key without its
resource type, is that key; failing that, it finds what is found in the same way under the key
without its resource type; failing that, nothing. Each request is answered with one verified
breakpoint for each that it asks for, in that order and on that line, and the ids are counted
through. -/
theorem history_exact (us : List Update) :
    (∀ key m, (after us).lookup key = some m ↔ ∃ first requested, Holds m first requested ∧
        (LastUnder us key first requested ∨
          (∀ first' requested', ¬LastUnder us key first' requested') ∧
            LastUnder us (withoutKind key) first requested)) ∧
      (∀ key, (after us).lookup key = none ↔ ∀ first requested,
        ¬LastUnder us key first requested ∧ ¬LastUnder us (withoutKind key) first requested) ∧
      (answers us).map (fun a => a.breakpoints.map fun b => (b.line, b.source)) =
        (requests us).map (fun p => p.2.map fun b => (b.line, p.1)) ∧
      (∀ a ∈ answers us, ∀ b ∈ a.breakpoints,
        b.toJson.member? "verified" = some (.bool true)) ∧
      (answers us).flatMap (fun a => a.breakpoints.map Breakpoint.id) =
        List.range' 1 (asked us) := by
  refine ⟨fun key m => ?_, fun key => ?_, map_line_answersFrom {} us,
    fun _ _ b _ => verified_toJson b, map_id_answersFrom {} us⟩
  · rw [lookup_eq_some_iff, get?_after_eq_none_iff, get?_after, get?_after]
    constructor
    · rintro (⟨first, requested, hm, hlast⟩ | ⟨hnone, first, requested, hm, hlast⟩)
      · exact ⟨first, requested, hm, .inl hlast⟩
      · exact ⟨first, requested, hm, .inr ⟨hnone, hlast⟩⟩
    · rintro ⟨first, requested, hm, hlast | ⟨hnone, hlast⟩⟩
      · exact .inl ⟨first, requested, hm, hlast⟩
      · exact .inr ⟨hnone, first, requested, hm, hlast⟩
  · rw [lookup_eq_none_iff, get?_after_eq_none_iff, get?_after_eq_none_iff]
    exact ⟨fun h first requested => ⟨h.1 first requested, h.2 first requested⟩,
      fun h => ⟨fun first requested => (h first requested).1,
        fun first requested => (h first requested).2⟩⟩

end Registry

end DebugAdapter
