import AutoImport.Proofs.Path.Route

/-!
# Canonical paths

A canonical path has no `.` and no `..` behind a name. The normal form of a path is canonical, canonical
paths are in normal form already, and a path may be normalized before it is continued.
-/

namespace AutoImport

open Text Component

namespace Path

/-- The components of a canonical path. -/
structure IsCanonical (components : List Component) : Prop where
  noCurrent : .current ∉ components
  noReturn : ∀ front name rest, components = front ++ .name name :: rest → .parent ∉ rest

/-- In a canonical path no component takes back the one before it. -/
theorem IsCanonical.isNormal {steps : List Component} {absolute : Bool}
    (canonical : IsCanonical (anchor absolute ++ steps)) (all : ∀ step ∈ steps, step.IsStep) :
    IsNormal (anchor absolute ++ steps) := by
  intro front step rest shape
  cases step with
  | name text => rfl
  | current => exact absurd (by rw [shape]; simp) canonical.noCurrent
  | root =>
      -- The root is no step, so that it is the anchor itself.
      cases front with
      | nil => rfl
      | cons first front =>
          have member : Component.root ∈ steps := by
            cases absolute with
            | false => exact (show steps = _ from shape) ▸ by simp
            | true => exact (show steps = _ from (List.cons.inj shape).2) ▸ by simp
          exact (all .root member).elim
  | parent =>
      rw [normalizeComponents.step]
      split
      · rename_i text last
        obtain ⟨before, rfl⟩ := List.getLast?_eq_some_iff.mp last
        have behind := canonical.noReturn before text (.parent :: rest) (by simpa using shape)
        simp at behind
      · rfl

theorem IsNormal.isCanonical {steps : List Component} {absolute : Bool}
    (normal : IsNormal (anchor absolute ++ steps)) (all : ∀ step ∈ steps, step.IsStep) :
    IsCanonical (anchor absolute ++ steps) where
  noCurrent := by
    intro member
    obtain ⟨front, rest, shape⟩ := List.append_of_mem member
    have walked := congrArg List.length (normal front .current rest shape)
    simp [normalizeComponents.step] at walked
  noReturn := by
    intro front name rest shape member
    have later : ∀ step ∈ rest, step.IsStep := by
      intro step inside
      apply all
      -- What stands behind a name is no anchor.
      cases front with
      | nil => cases absolute <;> simp_all [anchor]
      | cons first front => cases absolute <;> simp_all [anchor]
    have named := (shape ▸ normal).isName_of_mem later .parent member
    simp [isName] at named

theorem isCanonical_normalize (path : Path) : IsCanonical path.normalize.components := by
  rcases exists_normalizeComponents_eq path with ⟨steps, same, all⟩
  have normal := isNormal_normalizeComponents path.components
  rw [components_normalize, same]
  exact (same ▸ normal).isCanonical all

/-- The canonical paths are those that have the components of their normal form. -/
theorem normalize_same_iff {path : Path} : path.normalize.Same path ↔ IsCanonical path.components := by
  rw [Same, components_normalize]
  constructor
  · intro fixed
    rw [← fixed, ← components_normalize]
    exact isCanonical_normalize path
  · intro canonical
    rcases exists_components_eq path with ⟨steps, same, all⟩
    have whole : path.components.filter (· != .current) = path.components := by
      refine List.filter_eq_self.mpr fun component member => bne_iff_ne.mpr ?_
      rintro rfl
      exact canonical.noCurrent member
    rw [whole] at same
    rw [same] at canonical ⊢
    exact (canonical.isNormal all).normalizeComponents_eq

@[simp]
theorem normalizeComponents_normalize (path : Path) :
    normalizeComponents path.normalize.components = normalizeComponents path.components := by
  rw [components_normalize]
  exact (isNormal_normalizeComponents path.components).normalizeComponents_eq

/-- The normal form of a path is canonical and starts where the path does, it is its own normal form, and
it is continued like the path. Only canonical paths have the components of their normal form. -/
theorem normalize_canonical (path : Path) :
    IsCanonical path.normalize.components ∧
      path.normalize.isAbsolute = path.isAbsolute ∧
      path.normalize.normalize = path.normalize ∧
      (∀ other : Path, other.isAbsolute = false →
        (path.join other).normalize = (path.normalize.join other).normalize) ∧
      (path.normalize.Same path ↔ IsCanonical path.components) := by
  have again : path.normalize.normalize = path.normalize := by
    rw [normalize, normalizeComponents_normalize]
    rfl
  refine ⟨isCanonical_normalize path, ?_, again, fun other relative => ?_, normalize_same_iff⟩
  · rw [Bool.eq_iff_iff, isAbsolute_eq_true_iff, isAbsolute_eq_true_iff, again]
  · rw [normalize, normalize, normalizeComponents_join _ relative, normalizeComponents_join _ relative,
      normalizeComponents_normalize]

/-- A `..` above the root stays, and one that is joined takes back a name of the normal form. -/
theorem normalize_canonical_of_detour :
    IsCanonical (Path.mk "/../a/./x/../b").normalize.components ∧
      ((Path.mk "/../a/./x/../b").join ⟨"./../c"⟩).normalize = ⟨"/../a/c"⟩ := by
  have canonical := normalize_canonical ⟨"/../a/./x/../b"⟩
  refine ⟨canonical.1, ?_⟩
  rw [canonical.2.2.2.1 ⟨"./../c"⟩ (by decide)]
  decide +kernel

end Path

end AutoImport
