import DebugAdapter.Proofs.Session.Asked
import DebugAdapter.Proofs.Source.Shown
/-!
# The path that a client is shown

A run is named by the key of its script, and shows the client the path for this key in all of its
frames (`Run.Named`). Keys are canonical. So a client that is shown a frame and asks for breakpoints
in its source asks for those of the run : `keys_canonical`.
-/

namespace DebugAdapter.Session

open SourceKey (clientPath normalize)

/-- Whether a run has the key of a path, and shows the client the path for this key. -/
structure Run.Named (run : Run) : Prop where
  key : ∃ path, run.key = normalize path
  clientPath : run.clientPath = SourceKey.clientPath run.key
  frames : ∀ frame ∈ run.snapshot.frames, frame.source.path = some run.clientPath

variable {b : Backend} {s t : State} {p : Party} {r : RunId} {run run' : Run}

/-- A run that a step makes is named as its launch names it. -/
theorem State.Stride.named_of_new (hst : s.Stride b t p) (hnone : s.runs[r]? = none)
    (hr : t.runs[r]? = some run) : run.Named := by
  obtain ⟨-, request, args, ds, -, ht⟩ := hst.openRun_of_new hnone hr
  subst ht
  rcases State.prepare_cases b { s with handler := ds } request args with
    ⟨_, -, heq⟩ | ⟨_, script, program, -, -, -, heq⟩
  · simp only [SessionDuty.perform, heq] at hr
    cases hnone.symm.trans hr
  · simp only [SessionDuty.perform, heq, State.openRun, List.getElem?_append] at hr
    split at hr
    next hlt => cases hnone.symm.trans hr
    · obtain rfl := List.mem_singleton.1 (List.mem_of_getElem? hr)
      exact ⟨⟨_, rfl⟩, rfl, by simp⟩

theorem Run.Named.of_asked {c : Option Snapshot.Call} (h : run.Named) (hasked : run.Asked c run') :
    run'.Named where
  key := hasked.key ▸ h.key
  clientPath := by rw [hasked.clientPath, hasked.key, h.clientPath]
  frames := by
    rw [hasked.snapshot, Snapshot.frames_calls, hasked.clientPath]
    exact h.frames

theorem Run.Named.of_moves {e : State × Party} (h : run.Named) (hmoves : run.Moves r e run') :
    run'.Named := by
  cases hmoves with
  | asked hasked => exact h.of_asked hasked
  | captured _ _ _ _ _ hkey hpath hsnapshot =>
    refine ⟨hkey ▸ h.key, by rw [hpath, hkey, h.clientPath], ?_⟩
    rw [hsnapshot, hpath]
    simp [Snapshot.capture, frameAt]
  | wentOn _ _ _ _ hkey hpath hframes =>
    refine ⟨hkey ▸ h.key, by rw [hpath, hkey, h.clientPath], ?_⟩
    rw [hframes, hpath]
    exact h.frames

theorem State.Path.named {es : List (State × Party)} (h : Path b {} es s)
    (hr : s.runs[r]? = some run) : run.Named := by
  induction h generalizing r run with
  | refl => simp at hr
  | step hpath hp ih =>
    have horder := hpath.orderly orderly_empty
    have hst := horder.stride hp
    rcases hst.moves horder hr with ⟨hnone, -⟩ | ⟨run₁, hr₁, hmoves⟩
    · exact hst.named_of_new hnone hr
    · exact (ih hr₁).of_moves hmoves
  | accept i _ _ ih => exact ih (by cases i <;> exact hr)
  | giveUp _ hr' hgive ih =>
    rcases getElem?_setRun hr with ⟨rfl, rfl⟩ | ⟨-, hr⟩
    · exact (ih hr').of_asked hgive.asked
    · exact ih hr

/-- The passes over a path come to an end, and what is left is canonical : no pass changes it any
more, and neither does the way by the path that the client is shown for it. Breakpoints for this
path are for the script under the key, which finds them and no others. This is the path that all
frames of a run have, which is under such a key, whoever takes which step. -/
theorem keys_canonical (path : String) (registry : Registry) (source : Source)
    (requested : List SourceBreakpoint) :
    let key := normalize path
    let replaced := registry.replace { source with path := some (clientPath key) } requested
    SourceKey.EndsWith path.toList key.toList ∧ SourceKey.IsCanonical key.toList ∧
      normalize key = key ∧ normalize (clientPath key) = key ∧
      replaced.1.matches key = true ∧
      replaced.2.lookup key = some (registry.requestedEntries requested) ∧
      ∀ (b : Backend) (es : List (State × Party)) (s : State), State.Path b {} es s →
        ∀ run ∈ s.runs, (∃ path', run.key = normalize path') ∧
          ∀ frame ∈ run.snapshot.frames, frame.source.path = some (clientPath run.key) := by
  have hcanonical := SourceKey.normalize_canonical path
  refine ⟨?_, hcanonical, SourceKey.normalize_normalize path,
    SourceKey.normalize_clientPath hcanonical, ?_⟩
  · rw [SourceKey.toList_normalize]
    exact SourceKey.endsWith_settled path.toList
  · have hsource : { source with path := some (clientPath (normalize path)) }.path =
        some (clientPath (normalize path)) := rfl
    obtain ⟨hmatches, hlookup⟩ := registry.replace_clientPath hcanonical hsource requested
    refine ⟨hmatches, hlookup, fun b es s hpath run hrun => ?_⟩
    obtain ⟨r, hr⟩ := List.getElem?_of_mem hrun
    have hnamed := hpath.named hr
    exact ⟨hnamed.key, fun frame hframe => hnamed.clientPath ▸ hnamed.frames frame hframe⟩

/-- A script that stopped shows a path that leads back to its key. -/
theorem keys_canonical_stopOnce : ∃ es s run frame, State.Path promptBackend {} es s ∧
    run ∈ s.runs ∧ frame ∈ run.snapshot.frames ∧
      frame.source.path = some (clientPath run.key) ∧ normalize (clientPath run.key) = run.key := by
  have hwalk : (({} : State).walk? promptBackend stopOnce).any (fun w =>
      w.2.runs.any fun run => !run.snapshot.frames.isEmpty) = true := by decide +kernel
  obtain ⟨⟨es, s⟩, hw, hrun⟩ := (Option.any_eq_true ..).1 hwalk
  obtain ⟨run, hmem, hframes⟩ := List.any_eq_true.1 hrun
  have hpath : State.Path promptBackend {} es s := State.Path.refl.walk hw
  have hruns := (keys_canonical "" {} {} []).2.2.2.2.2.2
  obtain ⟨⟨path, hkey⟩, hsource⟩ := hruns promptBackend es s hpath run hmem
  have hback := (keys_canonical path {} {} []).2.2.2.1
  cases hframe : run.snapshot.frames with
  | nil => simp [hframe] at hframes
  | cons frame frames =>
    have hin : frame ∈ run.snapshot.frames := hframe ▸ List.mem_cons_self
    exact ⟨es, s, run, frame, hpath, hmem, hin, hsource frame hin, by rw [hkey, hback]⟩

end DebugAdapter.Session
