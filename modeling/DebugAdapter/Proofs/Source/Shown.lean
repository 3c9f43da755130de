import DebugAdapter.Proofs.Breakpoints.Lookup
import DebugAdapter.Proofs.Source.Encodings
/-!
# Keys, and the paths that show them

A key is left alone by every pass (`normalize_normalize`), and the path that the client is shown for
it has it for its own key (`normalize_clientPath`). So a request for breakpoints under that path is
for the script under the key, and the script finds them there (`Registry.replace_clientPath`).
-/

namespace DebugAdapter

namespace SourceKey

/-- Whether passes over `cs` come to an end with `key`: so many of them change the text, and the
next one does not. -/
def EndsWith (cs key : List Char) : Prop :=
  ∃ n ≤ weight cs, pass^[n] cs = key ∧ pass key = key ∧ ∀ m < n, pass (pass^[m] cs) ≠ pass^[m] cs

theorem endsWith_settled (cs : List Char) : EndsWith cs (settled cs) := by
  obtain ⟨n, hn, hcanonical, hmoves⟩ := exists_canonical_iterate cs
  have hsettled : settled cs = pass^[n] cs := iterate_of_canonical hcanonical hn
  exact ⟨n, hn, hsettled.symm, hsettled ▸ pass_eq_self_iff.2 hcanonical, hmoves⟩

theorem normalize_of_canonical {key : String} (h : IsCanonical key.toList) :
    normalize key = key := by
  rw [normalize_eq, settled_of_canonical h, String.ofList_toList]

theorem toList_normalize (path : String) : (normalize path).toList = settled path.toList :=
  String.toList_ofList

theorem normalize_canonical (path : String) : IsCanonical (normalize path).toList := by
  rw [toList_normalize]
  exact settled_canonical path.toList

theorem normalize_normalize (path : String) : normalize (normalize path) = normalize path :=
  normalize_of_canonical (normalize_canonical path)

/-- A pass takes the scheme and the slash off that the client is shown. -/
theorem pass_shown {cs : List Char} (h : IsCanonical cs) : pass (scheme ++ '/' :: cs) = cs := by
  have htidy : tidy cs = cs := by
    have hpass := pass_eq_self_iff.2 h
    rwa [pass_eq_tidy, dropScheme_eq_self_iff.2 h.noScheme, h.decoded] at hpass
  have hdecoded : percentDecode ('/' :: cs) = '/' :: cs := by
    have happend : percentDecode (['/'] ++ cs) = ['/'] ++ percentDecode cs :=
      percentDecode_append (by decide) cs
    rwa [h.decoded] at happend
  have hslash : tidy (['/'] ++ cs) = tidy cs := tidy_slashes (by simp) cs
  rw [pass_eq_tidy, dropScheme_append, hdecoded]
  exact hslash.trans htidy

/-- The path that the client is shown for a key has this key. -/
theorem normalize_clientPath {key : String} (h : IsCanonical key.toList) :
    normalize (clientPath key) = key := by
  rw [normalize_eq, clientPath, String.toList_ofList, ← settled_pass, pass_shown h,
    settled_of_canonical h, String.ofList_toList]

end SourceKey

open SourceKey (IsCanonical clientPath normalize_clientPath)

/-- Breakpoints for the path that the client is shown are for the script under the key, and it finds
them and no others. -/
theorem Registry.replace_clientPath (r : Registry) {key : String} (h : IsCanonical key.toList)
    {source : Source} (hsource : source.path = some (clientPath key))
    (requested : List SourceBreakpoint) :
    (r.replace source requested).1.matches key = true ∧
      (r.replace source requested).2.lookup key = some (r.requestedEntries requested) := by
  have hkey : SourceKey.normalize (source.path.getD "") = key := by
    rw [hsource, Option.getD_some, normalize_clientPath h]
  refine ⟨(matches_replace ..).2 (.inl hkey), ?_⟩
  rw [lookup_replace, if_pos (.inl hkey.symm)]

end DebugAdapter
