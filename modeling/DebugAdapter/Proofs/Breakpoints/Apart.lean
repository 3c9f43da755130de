import DebugAdapter.Proofs.Breakpoints.History
/-!
# Sources that are kept apart

The breakpoints of a source are kept under two keys and a script is looked up under two keys, so a
request for one source may be found for the script of another. `Registry.leavesAlone_iff` says when
it never is : when the source is kept under neither of the keys that the script is looked up under
(`Registry.Apart`). Two sources with no key in common are such (`Registry.apart_normalize_iff`), but
two of different types with the same name are not.

Registries that differ only in what is kept for one source (`Registry.AgreeBut`) answer all further
requests alike and stay such.
-/

namespace DebugAdapter.Registry

open SourceKey (normalize withoutKind)

/-! ## Keys that find nothing of a source -/

/-- Whether nothing of a source is kept where the script with this key is looked up. -/
def Apart (source : Source) (key : String) : Prop :=
  ¬KeptUnder source key ∧ ¬KeptUnder source (withoutKind key)

instance (source : Source) (key : String) : Decidable (Apart source key) :=
  inferInstanceAs (Decidable (_ ∧ _))

theorem apart_normalize_iff (source other : Source) :
    Apart source (normalize (other.path.getD "")) ↔
      ∀ key, KeptUnder source key → ¬KeptUnder other key := by
  constructor
  · rintro ⟨hkey, hkind⟩ key hkept (rfl | rfl)
    · exact hkey hkept
    · exact hkind hkept
  · exact fun h => ⟨fun hkey => h _ hkey (.inl rfl), fun hkind => h _ hkind (.inr rfl)⟩

/-- Whether a request for a source neither counts as one for the script with this key nor changes
what is found for it. -/
structure LeavesAlone (r : Registry) (source : Source) (requested : List SourceBreakpoint)
    (key : String) : Prop where
  matches_eq : (r.replace source requested).1.matches key = false
  lookup_eq : (r.replace source requested).2.lookup key = r.lookup key
  hasEntry_eq : (r.replace source requested).2.hasEntry key = r.hasEntry key

variable {source : Source} {key : String}

theorem leavesAlone_of_apart (h : Apart source key) (r : Registry)
    (requested : List SourceBreakpoint) : r.LeavesAlone source requested key := by
  have hlookup : (r.replace source requested).2.lookup key = r.lookup key := by
    rw [lookup, get?_sources_replace, get?_sources_replace, if_neg h.1, if_neg h.2, lookup]
  refine ⟨?_, hlookup, by rw [hasEntry, hlookup, hasEntry]⟩
  rw [← Bool.not_eq_true, matches_replace]
  rintro (hkey | hkind)
  · exact h.1 (.inl hkey)
  · exact h.2 (.inr hkind)

/-- All requests for a source leave a key alone just when nothing of the source is kept where the
key is looked up. -/
theorem leavesAlone_iff : (∀ r requested, LeavesAlone r source requested key) ↔
    Apart source key := by
  refine ⟨fun h => ?_, leavesAlone_of_apart⟩
  -- the empty registry shows it : whatever it finds after a request is of the source
  have hnone := (h {} []).lookup_eq
  have hempty : ({} : Registry).lookup key = none := rfl
  rw [hempty, lookup_eq_none_iff, get?_sources_replace, get?_sources_replace] at hnone
  exact ⟨fun hkept => by simp [hkept] at hnone, fun hkept => by simp [hkept] at hnone⟩

/-- Scripts with the same name and different types share a key : what is requested for one counts
for the other and is found for it. When the name of a script begins with a type itself, what is
requested for it is found for the script with the rest of its name too, but does not count for
that. -/
theorem not_leavesAlone_of_sharedKey :
    normalize "api/a.ms" = "api/a.ms" ∧ normalize "function/a.ms" = "function/a.ms" ∧
      normalize "api/function/a.ms" = "api/function/a.ms" ∧
      ({} : Registry).lookup "function/a.ms" = none ∧
      ({} : Registry).hasEntry "function/a.ms" = false ∧
      (let r := (({} : Registry).replace { path := some "api/a.ms" } [{ line := 1 }]);
        r.1.matches "function/a.ms" = true ∧ r.2.hasEntry "function/a.ms" = true ∧
          r.2.lookup "function/a.ms" = some [(2, ⟨1, none⟩)]) ∧
      (let r := (({} : Registry).replace { path := some "api/function/a.ms" } [{ line := 1 }]);
        r.1.matches "function/a.ms" = false ∧ r.2.hasEntry "function/a.ms" = true ∧
          r.2.lookup "function/a.ms" = some [(2, ⟨1, none⟩)]) := by
  decide +kernel

/-! ## Registries that agree but for a source -/

/-- Whether two registries differ at most in what is kept for a source. -/
structure AgreeBut (source : Source) (r r' : Registry) : Prop where
  nextId_eq : r.nextId = r'.nextId
  get?_eq {key : String} : ¬KeptUnder source key → r.sources.get? key = r'.sources.get? key

theorem agreeBut_replace (r : Registry) (source : Source) (requested : List SourceBreakpoint) :
    AgreeBut source (r.replace source requested).2
      { r with nextId := r.nextId + requested.length } where
  nextId_eq := rfl
  get?_eq hkey := by rw [get?_sources_replace, if_neg hkey]

namespace AgreeBut

variable {r r' : Registry} (h : AgreeBut source r r')
include h

theorem lookup_eq (hkey : Apart source key) : r.lookup key = r'.lookup key := by
  rw [lookup, h.get?_eq hkey.1, h.get?_eq hkey.2, lookup]

theorem replaced_eq (other : Source) (requested : List SourceBreakpoint) :
    (r.replace other requested).1 = (r'.replace other requested).1 := by
  simp only [replace, h.nextId_eq]

theorem replace (other : Source) (requested : List SourceBreakpoint) :
    AgreeBut source (r.replace other requested).2 (r'.replace other requested).2 where
  nextId_eq := congrArg (· + requested.length) h.nextId_eq
  get?_eq hkey := by rw [get?_sources_replace, get?_sources_replace, h.nextId_eq, h.get?_eq hkey]

theorem clear : AgreeBut source r.clear r'.clear :=
  ⟨h.nextId_eq, fun _ => rfl⟩

end AgreeBut

end DebugAdapter.Registry
