import Mathlib.Data.List.Count
import DebugAdapter.Execution.Rendezvous
/-!
# Waiters at a rendezvous

Any number of parties wait at a `Rendezvous`, signal it or close it, in any order. A waiter looks at
the rendezvous when it arrives and whenever it was woken, and falls asleep when it finds no permit;
so one that arrives may take the permit for which another was woken. `Moved` lists what a move can
do.

As long as nobody closes the rendezvous, each signal is a permit or has ended one wait (`Balanced`).
While somebody sleeps, there are at least as many waiters about to look as there are permits
(`Attended`). `Ended` is what holds from the close on. Each is kept by every move, and so by all
moves after one another. Main statement: `waits_exact`.
-/

namespace DebugAdapter.Crowd

/-! ## What is counted -/

/-- How many waits were ended by a signal. -/
def passed (c : Crowd) : Nat :=
  c.waiters.count (.left .signaled)

/-- How many waiters are about to look. -/
def lookers (c : Crowd) : Nat :=
  c.waiters.count .looking

/-- Whether a move is a signal. -/
def Move.isSignal : Move → Bool
  | .signal _ => true
  | _ => false

/-- How many of the moves are signals. -/
def given (ms : List Move) : Nat :=
  ms.countP Move.isSignal

/-! ## Moves -/

/-- Waiter `i` becomes `w`. -/
def put (c : Crowd) (i : Nat) (w : Waiter) : Crowd :=
  { c with waiters := c.waiters.set i w }

@[simp] theorem put_rendezvous (c : Crowd) (i : Nat) (w : Waiter) :
    (c.put i w).rendezvous = c.rendezvous := rfl

/-- What a move can do. -/
inductive Moved (c : Crowd) : Move → Crowd → Prop where
  /-- Somebody arrives and is about to look. -/
  | arrive : Moved c .arrive { c with waiters := c.waiters ++ [.looking] }
  /-- One who looks finds the rendezvous closed. -/
  | leaveClosed {i : Nat} (hi : c.waiters[i]? = some .looking)
      (hclosed : c.rendezvous.closed = true) : Moved c (.look i) (c.put i (.left .closed))
  /-- One who looks takes a permit. -/
  | leaveSignaled {i : Nat} (hi : c.waiters[i]? = some .looking)
      (hopen : c.rendezvous.closed = false) (hpermits : 0 < c.rendezvous.permits) :
    Moved c (.look i)
      { c.put i (.left .signaled) with
        rendezvous := { c.rendezvous with permits := c.rendezvous.permits - 1 } }
  /-- One who looks finds no permit. -/
  | sleep {i : Nat} (hi : c.waiters[i]? = some .looking) (hopen : c.rendezvous.closed = false)
      (hpermits : c.rendezvous.permits = 0) : Moved c (.look i) (c.put i .asleep)
  /-- A signal comes too late. -/
  | late (wakes : Option Nat) (hclosed : c.rendezvous.closed = true) : Moved c (.signal wakes) c
  /-- A signal wakes one of those who sleep. -/
  | wakeOne {i : Nat} (hi : c.waiters[i]? = some .asleep) (hopen : c.rendezvous.closed = false) :
    Moved c (.signal (some i))
      { c.put i .looking with rendezvous := c.rendezvous.signal, signals := c.signals + 1 }
  /-- A signal finds nobody asleep. -/
  | wakeNone (hawake : .asleep ∉ c.waiters) (hopen : c.rendezvous.closed = false) :
    Moved c (.signal none) { c with rendezvous := c.rendezvous.signal, signals := c.signals + 1 }
  /-- The rendezvous is closed and everybody is woken. -/
  | close :
    Moved c .close { c with rendezvous := c.rendezvous.close, waiters := c.waiters.map woken }

variable {b c d : Crowd} {m : Move} {ms before after : List Move} {n i : Nat} {w : Waiter}
  {wake : Wake}

theorem modify_woken {ws : List Waiter} (hi : ws[i]? = some .asleep) :
    ws.modify i woken = ws.set i .looking := by
  rw [List.modify_eq_set_getElem?, hi]
  rfl

theorem moved_of_move? (h : c.move? m = some d) : Moved c m d := by
  cases m with
  | arrive => exact Option.some.inj h ▸ .arrive
  | close => exact Option.some.inj h ▸ .close
  | look i =>
    simp only [move?, Rendezvous.wait?] at h
    split at h
    next hi =>
      by_cases hclosed : c.rendezvous.closed = true
      · rw [if_pos hclosed] at h
        exact Option.some.inj h ▸ .leaveClosed hi hclosed
      have hopen : c.rendezvous.closed = false := eq_false_of_ne_true hclosed
      by_cases hpermits : 0 < c.rendezvous.permits
      · rw [if_neg hclosed, if_pos hpermits] at h
        exact Option.some.inj h ▸ .leaveSignaled hi hopen hpermits
      · rw [if_neg hclosed, if_neg hpermits] at h
        exact Option.some.inj h ▸ .sleep hi hopen (Nat.eq_zero_of_not_pos hpermits)
    · cases h
  | signal wakes =>
    simp only [move?] at h
    split at h
    next hclosed => exact Option.some.inj h ▸ .late wakes hclosed
    next hclosed =>
      have hopen : c.rendezvous.closed = false := eq_false_of_ne_true hclosed
      split at h
      next hwakes =>
        cases wakes with
        | none => exact Option.some.inj h ▸ .wakeNone (by simpa [mayWake] using hwakes) hopen
        | some i =>
          have hi : c.waiters[i]? = some .asleep := by simpa [mayWake] using hwakes
          simp only [modify_woken hi] at h
          exact Option.some.inj h ▸ .wakeOne hi hopen
      · cases h

/-- Moves after one another. -/
theorem moves?_append (c : Crowd) (before after : List Move) :
    c.moves? (before ++ after) = (c.moves? before).bind (·.moves? after) := by
  induction before generalizing c with
  | nil => rfl
  | cons m ms ih =>
    simp only [List.cons_append, moves?, ih]
    exact (Option.bind_assoc _ _ _).symm

/-- What each move keeps, all moves after one another keep. -/
theorem kept_of_moves? {P : Crowd → Prop} (hkept : ∀ m c d, P c → Moved c m d → P d) (h : P c)
    (hmoves : c.moves? ms = some d) : P d := by
  induction ms generalizing c with
  | nil =>
    obtain rfl := Option.some.inj hmoves
    exact h
  | cons m ms ih =>
    obtain ⟨c', hm, hms⟩ := Option.bind_eq_some_iff.1 hmoves
    exact ih (hkept m c c' h (moved_of_move? hm)) hms

/-! ## While the rendezvous is open -/

/-- One who takes the place of another is counted in its stead. -/
theorem count_put {v : Waiter} (hi : c.waiters[i]? = some v) (v' w : Waiter) :
    (c.put i v').waiters.count w + (if v = w then 1 else 0) =
      c.waiters.count w + if v' = w then 1 else 0 := by
  obtain ⟨hlt, rfl⟩ := List.getElem?_eq_some_iff.1 hi
  have hpos : c.waiters[i] = w → 0 < c.waiters.count w := fun h =>
    List.count_pos_iff.2 (h ▸ List.getElem_mem hlt)
  simp only [put, List.count_set hlt, beq_iff_eq]
  grind

theorem signal_of_open (hopen : c.rendezvous.closed = false) :
    c.rendezvous.signal.closed = false ∧
      c.rendezvous.signal.permits = min (c.rendezvous.permits + 1) Rendezvous.maxPermits := by
  simp [Rendezvous.signal, hopen]

/-- Whether `n` signals were given at an open rendezvous, and each of them is a permit or has ended
one wait. -/
structure Balanced (n : Nat) (c : Crowd) : Prop where
  isOpen : c.rendezvous.closed = false
  balance : c.passed + c.rendezvous.permits = n

theorem Balanced.of_moved (h : c.Balanced n) (hmoved : Moved c m d) (hclose : m ≠ .close)
    (hmax : n + given [m] ≤ Rendezvous.maxPermits) : d.Balanced (n + given [m]) := by
  obtain ⟨hopen, hbalance⟩ := h
  simp only [passed] at hbalance
  simp only [given, List.countP_singleton] at hmax ⊢
  cases hmoved with
  | arrive => exact ⟨hopen, by simpa [passed, Move.isSignal] using hbalance⟩
  | leaveClosed _ hclosed => cases hopen.symm.trans hclosed
  | leaveSignaled hi _ hpermits =>
    have hcount := count_put hi (.left .signaled) (.left .signaled)
    exact ⟨hopen, by grind [passed, Move.isSignal]⟩
  | sleep hi _ _ =>
    have hcount := count_put hi .asleep (.left .signaled)
    exact ⟨hopen, by grind [passed, Move.isSignal, put_rendezvous]⟩
  | late _ hclosed => cases hopen.symm.trans hclosed
  | wakeOne hi _ =>
    have hcount := count_put hi .looking (.left .signaled)
    obtain ⟨hopen, hpermits⟩ := signal_of_open hopen
    exact ⟨hopen, by grind [passed, Move.isSignal]⟩
  | wakeNone _ _ =>
    obtain ⟨hopen, hpermits⟩ := signal_of_open hopen
    exact ⟨hopen, by grind [passed, Move.isSignal]⟩
  | close => exact absurd rfl hclose

theorem Balanced.of_moves? (h : c.Balanced n) (hmoves : c.moves? ms = some d)
    (hclose : .close ∉ ms) (hmax : n + given ms ≤ Rendezvous.maxPermits) :
    d.Balanced (n + given ms) := by
  induction ms generalizing c n with
  | nil =>
    obtain rfl := Option.some.inj hmoves
    exact h
  | cons m ms ih =>
    obtain ⟨c', hm, hms⟩ := Option.bind_eq_some_iff.1 hmoves
    have hgiven : given (m :: ms) = given [m] + given ms := by
      simp [given, List.countP_cons, Nat.add_comm]
    rw [hgiven, ← Nat.add_assoc] at hmax ⊢
    have hstep := h.of_moved (moved_of_move? hm) (fun hm => hclose (by simp [hm])) (by omega)
    exact ih hstep hms (fun hms => hclose (List.mem_cons_of_mem _ hms)) hmax

/-! ## Who sleeps -/

theorem asleep_notMem_map_woken (ws : List Waiter) : .asleep ∉ ws.map woken := by
  intro hmem
  obtain ⟨w, -, hw⟩ := List.mem_map.1 hmem
  cases w <;> cases hw

theorem getElem?_of_map_woken {ws : List Waiter} (hi : (ws.map woken)[i]? = some (.left wake)) :
    ws[i]? = some (.left wake) := by
  rw [List.getElem?_map, Option.map_eq_some_iff] at hi
  obtain ⟨w, hi, hw⟩ := hi
  cases w <;> cases hw
  exact hi

/-- Whether each permit is about to be taken by a waiter that is awake, if somebody sleeps. -/
def Attended (c : Crowd) : Prop :=
  .asleep ∈ c.waiters → c.rendezvous.closed = false ∧ c.rendezvous.permits ≤ c.lookers

theorem Attended.of_moved (h : c.Attended) (hmoved : Moved c m d) : d.Attended := by
  intro hsleeps
  cases hmoved with
  | arrive =>
    obtain ⟨hopen, hpermits⟩ := h (by simpa using hsleeps)
    exact ⟨hopen, by simpa [lookers] using Nat.le_succ_of_le hpermits⟩
  | leaveClosed hi hclosed =>
    obtain ⟨hopen, -⟩ := h ((List.mem_or_eq_of_mem_set hsleeps).resolve_right nofun)
    cases hopen.symm.trans hclosed
  | leaveSignaled hi hopen hpermits =>
    obtain ⟨-, hle⟩ := h ((List.mem_or_eq_of_mem_set hsleeps).resolve_right nofun)
    have hcount := count_put hi (.left .signaled) .looking
    exact ⟨hopen, by grind [lookers]⟩
  | sleep hi hopen hpermits => exact ⟨hopen, by simp [hpermits]⟩
  | late _ _ => exact h hsleeps
  | wakeOne hi hopen =>
    obtain ⟨-, hle⟩ := h (List.mem_of_getElem? hi)
    have hcount := count_put hi .looking .looking
    obtain ⟨hopen, hpermits⟩ := signal_of_open hopen
    exact ⟨hopen, by grind [lookers]⟩
  | wakeNone hawake _ => exact absurd hsleeps hawake
  | close => exact absurd hsleeps (asleep_notMem_map_woken _)

theorem Attended.of_moves? (h : c.Attended) (hmoves : c.moves? ms = some d) : d.Attended :=
  kept_of_moves? (fun _ _ _ h hmoved => h.of_moved hmoved) h hmoves

/-! ## From the close on -/

/-- Whether the rendezvous is closed and nobody sleeps. -/
structure Ended (c : Crowd) : Prop where
  closed : c.rendezvous.closed = true
  awake : .asleep ∉ c.waiters

theorem ended_close (h : c.move? .close = some d) : d.Ended := by
  obtain rfl := Option.some.inj h
  exact ⟨rfl, asleep_notMem_map_woken _⟩

/-- Whoever has left stays away. -/
theorem Moved.left (hmoved : Moved c m d) (hi : c.waiters[i]? = some (.left wake)) :
    d.waiters[i]? = some (.left wake) := by
  have hput {j : Nat} {v v' : Waiter} (hj : c.waiters[j]? = some v) (hv : v ≠ .left wake) :
      (c.put j v').waiters[i]? = some (.left wake) := by
    have hne : j ≠ i := fun h => hv (Option.some.inj ((h ▸ hj).symm.trans hi))
    rw [put, List.getElem?_set_ne hne, hi]
  cases hmoved with
  | arrive => exact List.getElem?_append_left (List.getElem?_eq_some_iff.1 hi).1 |>.trans hi
  | leaveClosed hj _ | leaveSignaled hj _ _ | sleep hj _ _ | wakeOne hj _ => exact hput hj nofun
  | late _ _ | wakeNone _ _ => exact hi
  | close => simp [hi, woken]

theorem left_of_moves? (hmoves : c.moves? ms = some d)
    (hi : c.waiters[i]? = some (.left wake)) : d.waiters[i]? = some (.left wake) :=
  kept_of_moves? (fun _ _ _ hi hmoved => hmoved.left hi) hi hmoves

namespace Ended

theorem of_moved (h : c.Ended) (hmoved : Moved c m d) : d.Ended := by
  obtain ⟨hclosed, hawake⟩ := h
  cases hmoved with
  | arrive => exact ⟨hclosed, by simpa using hawake⟩
  | leaveClosed hi _ =>
    exact ⟨hclosed, fun hmem => hawake ((List.mem_or_eq_of_mem_set hmem).resolve_right nofun)⟩
  | leaveSignaled _ hopen _ | sleep _ hopen _ | wakeOne _ hopen | wakeNone _ hopen =>
    cases hopen.symm.trans hclosed
  | late _ _ => exact ⟨hclosed, hawake⟩
  | close => exact ⟨rfl, asleep_notMem_map_woken _⟩

/-- A signal has no effect any more. -/
theorem eq_of_signal (h : c.Ended) (hmoved : Moved c m d) (hm : m.isSignal = true) : d = c := by
  cases hmoved with
  | late _ _ => rfl
  | wakeOne _ hopen | wakeNone _ hopen => cases hopen.symm.trans h.closed
  | arrive | leaveClosed _ _ | leaveSignaled _ _ _ | sleep _ _ _ | close => cases hm

/-- Whoever looks leaves. -/
theorem look (h : c.Ended) (hmoved : Moved c (.look i) d) :
    d.waiters[i]? = some (.left .closed) := by
  cases hmoved with
  | leaveClosed hi _ =>
    exact List.getElem?_set_self (List.getElem?_eq_some_iff.1 hi).1
  | leaveSignaled _ hopen _ | sleep _ hopen _ => cases hopen.symm.trans h.closed

/-- Whoever is awake can look. -/
theorem exists_look (h : c.Ended) (hi : c.waiters[i]? = some .looking) :
    ∃ d, c.move? (.look i) = some d ∧ d.waiters[i]? = some (.left .closed) := by
  have hmove : c.move? (.look i) = some (c.put i (.left .closed)) := by
    simp [move?, hi, Rendezvous.wait?, h.closed, put]
  exact ⟨_, hmove, h.look (moved_of_move? hmove)⟩

/-- A waiter stays what it is, or has just arrived, or leaves because of the close. -/
theorem waiter_of_moved (h : c.Ended) (hmoved : Moved c m d) (hi : d.waiters[i]? = some w) :
    w = .left .closed ∨ c.waiters[i]? = some w ∨ w = .looking := by
  cases hmoved with
  | arrive => grind
  | leaveClosed _ _ => grind [put]
  | leaveSignaled _ hopen _ | sleep _ hopen _ | wakeOne _ hopen | wakeNone _ hopen =>
    cases hopen.symm.trans h.closed
  | late _ _ => exact .inr (.inl hi)
  | close =>
    simp only [List.getElem?_map, Option.map_eq_some_iff] at hi
    obtain ⟨v, hi, rfl⟩ := hi
    cases v with
    | asleep => exact absurd (List.mem_of_getElem? hi) h.awake
    | looking | left _ => exact .inr (.inl hi)

theorem of_moves? (h : c.Ended) (hmoves : c.moves? ms = some d) : d.Ended :=
  kept_of_moves? (fun _ _ _ h hmoved => h.of_moved hmoved) h hmoves

/-- The same comes about without the signals. -/
theorem moves?_filter (h : c.Ended) (hmoves : c.moves? ms = some d) :
    c.moves? (ms.filter fun m => !m.isSignal) = some d := by
  induction ms generalizing c with
  | nil => exact hmoves
  | cons m ms ih =>
    obtain ⟨c', hm, hms⟩ := Option.bind_eq_some_iff.1 hmoves
    have hmoved := moved_of_move? hm
    have hrest := ih (h.of_moved hmoved) hms
    cases hsignal : m.isSignal with
    | false =>
      rw [List.filter_cons_of_pos (by simp [hsignal]), moves?, hm]
      exact hrest
    | true =>
      rw [List.filter_cons_of_neg (by simp [hsignal]), ← h.eq_of_signal hmoved hsignal]
      exact hrest

/-- Who is still there has not had its turn, and everybody else had left before or has left because
of the close. -/
theorem waiter_of_moves? (h : c.Ended) (hmoves : c.moves? ms = some d)
    (hi : d.waiters[i]? = some w) :
    w = .left .closed ∨ (∃ wake, w = .left wake ∧ c.waiters[i]? = some (.left wake)) ∨
      w = .looking ∧ .look i ∉ ms := by
  induction ms generalizing c with
  | nil =>
    obtain rfl := Option.some.inj hmoves
    cases w with
    | looking => exact .inr (.inr ⟨rfl, List.not_mem_nil⟩)
    | asleep => exact absurd (List.mem_of_getElem? hi) h.awake
    | left wake => exact .inr (.inl ⟨wake, rfl, hi⟩)
  | cons m ms ih =>
    obtain ⟨c', hm, hms⟩ := Option.bind_eq_some_iff.1 hmoves
    have hmoved := moved_of_move? hm
    rcases ih (h.of_moved hmoved) hms with rfl | ⟨wake, rfl, hi'⟩ | ⟨rfl, hlook⟩
    · exact .inl rfl
    · rcases h.waiter_of_moved hmoved hi' with hclosed | hi | hlooking
      · exact .inl hclosed
      · exact .inr (.inl ⟨wake, rfl, hi⟩)
      · cases hlooking
    · refine .inr (.inr ⟨rfl, fun hmem => ?_⟩)
      rcases List.mem_cons.1 hmem with rfl | hmem
      · cases (left_of_moves? hms (h.look hmoved)).symm.trans hi
      · exact hlook hmem

end Ended

/-- While nobody has closed the rendezvous, each signal is a permit or has ended one wait. At any
time, if somebody sleeps, each permit is about to be taken by a waiter that is awake. Once the
rendezvous was closed, a waiter that had not left before leaves because of the close as soon as it
has its turn, and all goes on as if there were no signals. -/
theorem waits_exact (h : moves? {} ms = some c) :
    (.close ∉ ms → given ms ≤ Rendezvous.maxPermits →
      c.passed + c.rendezvous.permits = given ms) ∧
    (.asleep ∈ c.waiters → c.rendezvous.permits ≤ c.lookers) ∧
    ∀ before after, ms = before ++ .close :: after → ∃ b, moves? {} before = some b ∧
      moves? {} (before ++ .close :: after.filter fun m => !m.isSignal) = some c ∧
      ∀ i w, c.waiters[i]? = some w →
        w = .left .closed ∨ (∃ wake, w = .left wake ∧ b.waiters[i]? = some (.left wake)) ∨
        w = .looking ∧ .look i ∉ after ∧
          ∃ d, c.move? (.look i) = some d ∧ d.waiters[i]? = some (.left .closed) := by
  refine ⟨fun hclose hmax => ?_, fun hsleeps => ?_, fun before after hms => ?_⟩
  · have hstart : Balanced 0 {} := ⟨rfl, rfl⟩
    simpa using (hstart.of_moves? h hclose (by simpa using hmax)).balance
  · have hstart : Attended {} := fun hsleeps => absurd hsleeps List.not_mem_nil
    exact (hstart.of_moves? h hsleeps).2
  · subst hms
    obtain ⟨b, hb, hclose⟩ := Option.bind_eq_some_iff.1 ((moves?_append _ _ _).symm.trans h)
    obtain ⟨b', hb', hafter⟩ := Option.bind_eq_some_iff.1 hclose
    have hended := ended_close hb'
    refine ⟨b, hb, ?_, fun i w hi => ?_⟩
    · rw [moves?_append, hb, Option.bind_some, moves?, hb']
      exact hended.moves?_filter hafter
    · rcases hended.waiter_of_moves? hafter hi with hw | ⟨wake, rfl, hi'⟩ | ⟨rfl, hlook⟩
      · exact .inl hw
      · obtain rfl := Option.some.inj hb'
        exact .inr (.inl ⟨wake, rfl, getElem?_of_map_woken hi'⟩)
      · exact .inr (.inr ⟨rfl, hlook, (hended.of_moves? hafter).exists_look hi⟩)

/-- One that arrives takes the permit for which another was woken, and the close comes when nobody
else has a permit. -/
theorem waits_exact_overtaken :
    let ms := [Move.arrive, .look 0, .signal (some 0), .arrive, .look 1, .look 0]
    let c : Crowd := { waiters := [.asleep, .left .signaled], signals := 1 }
    let d : Crowd :=
      { rendezvous := { closed := true }, waiters := [.left .closed, .left .signaled, .looking]
        signals := 1 }
    (moves? {} ms = some c ∧ c.passed + c.rendezvous.permits = 1 ∧
      c.rendezvous.permits ≤ c.lookers) ∧
    moves? {} (ms ++ .close :: [.signal none, .arrive, .look 0]) = some d ∧
    moves? {} (ms ++ .close :: [.arrive, .look 0]) = some d ∧
    ∃ e, d.move? (.look 2) = some e ∧ e.waiters[2]? = some (.left .closed) := by
  intro ms c d
  have hbefore : moves? {} ms = some c := by decide
  have hafter : moves? {} (ms ++ .close :: [.signal none, .arrive, .look 0]) = some d := by decide
  obtain ⟨hbalance, hattended, -⟩ := waits_exact hbefore
  obtain ⟨b, -, hsame, hwaiters⟩ := (waits_exact hafter).2.2 _ _ rfl
  refine ⟨⟨hbefore, hbalance (by decide) (by decide), hattended (by decide)⟩, hafter, hsame, ?_⟩
  rcases hwaiters 2 .looking (by decide) with h | ⟨wake, h, -⟩ | ⟨-, -, h⟩
  · cases h
  · cases h
  · exact h

end DebugAdapter.Crowd
