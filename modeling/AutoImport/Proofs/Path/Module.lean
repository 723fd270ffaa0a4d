import AutoImport.Path.Module
import AutoImport.Proofs.Path.Route
import Mathlib.Data.List.Basic

/-!
# The names of modules

Taking the source extension off a path, and an `index` off a specifier, concerns the last segment
alone.
-/

namespace AutoImport

open Text Component

/-- The file name of a file that stands for its directory, without the extension. -/
def indexStem : List Char := ['i', 'n', 'd', 'e', 'x']

/-! ## Without the extension -/

theorem not_mem_sourceExtension {extension : String} (member : extension ∈ sourceExtensions) :
    '/' ∉ extension.toList := by
  have slashless : ∀ ending ∈ sourceExtensions, '/' ∉ ending.toList := by decide
  exact slashless extension member

theorem stem?_eq_some_iff {path stem : List Char} {extension : String} :
    stem? path extension = some stem ↔
      path = stem ++ extension.toList ∧ stem ≠ [] ∧ endsWith ['/'] stem = false := by
  unfold stem?
  cases cut : dropSuffix? extension.toList path with
  | none =>
      have nowhere : path ≠ stem ++ extension.toList := by
        intro shape
        rw [dropSuffix?_eq_some_iff.mpr shape] at cut
        simp at cut
      simp [nowhere]
  | some other =>
      have same : path = stem ++ extension.toList ↔ other = stem := by
        rw [dropSuffix?_eq_some_iff.mp cut]
        exact ⟨List.append_cancel_right, fun shape => shape ▸ rfl⟩
      rw [same]
      by_cases cutOff : (other.isEmpty || endsWith ['/'] other) = true
      · have unfit : ¬(other = stem ∧ stem ≠ [] ∧ endsWith ['/'] stem = false) := by
          rintro ⟨rfl, nonempty, unslashed⟩
          simp [nonempty, unslashed] at cutOff
        simp [cutOff, unfit]
      · simp only [cutOff, Bool.false_eq_true, reduceIte, Option.some.injEq]
        simp only [Bool.or_eq_true, List.isEmpty_iff, not_or, Bool.not_eq_true] at cutOff
        exact ⟨fun shape => ⟨shape, shape ▸ cutOff.1, shape ▸ cutOff.2⟩, And.left⟩

/-- A text that is empty or ends with a slash, so that a segment begins behind it. -/
def IsLead (front : List Char) : Prop :=
  front = [] ∨ endsWith ['/'] front = true

theorem exists_lead_joinWith (pieces : List (List Char)) :
    ∃ front, IsLead front ∧ ∀ segment, joinWith ['/'] (pieces ++ [segment]) = front ++ segment := by
  by_cases empty : pieces = []
  · exact ⟨[], .inl rfl, fun segment => by simp [empty, joinWith]⟩
  · refine ⟨joinWith ['/'] pieces ++ ['/'], .inr ?_, fun segment => ?_⟩
    · rw [endsWith_singleton_iff, List.getLast?_concat]
    · rw [Path.joinWith_append empty (by simp)]
      simp [joinWith]

/-- The name of a file stands behind a lead that does not depend on it. -/
theorem exists_lead_route (absolute : Bool) {steps : List Component}
    (all : ∀ step ∈ steps, step.IsStep) :
    ∃ front, IsLead front ∧ ∀ {name : String}, IsEntryName name →
      (Path.route absolute (steps ++ [.name name])).spelling.toList = front ++ name.toList := by
  rcases exists_lead_joinWith (Path.piecesOf steps) with ⟨front, lead, joined⟩
  refine ⟨(if absolute then ['/'] else []) ++ front, ?_, fun {name} named => ?_⟩
  · rcases lead with rfl | slashed
    · cases absolute <;> simp [IsLead, endsWith_singleton_iff]
    · rcases endsWith_iff.mp slashed with ⟨before, rfl⟩
      exact .inr (endsWith_iff.mpr ⟨_, (List.append_assoc _ _ _).symm⟩)
  · have withName : ∀ step ∈ steps ++ [.name name], step.IsStep := by
      intro step member
      rcases List.mem_append.mp member with outer | inner
      · exact all step outer
      · exact List.mem_singleton.mp inner ▸ named
    rw [Path.route_spelling _ withName, Path.piecesOf_append_step, joined, List.append_assoc]
    rfl

section Segment

variable {front segment : List Char} (lead : IsLead front) (plain : '/' ∉ segment)
include lead plain

theorem stem?_append {extension : String} (member : extension ∈ sourceExtensions) :
    stem? (front ++ segment) extension = (stem? segment extension).map (front ++ ·) := by
  ext stem
  simp only [Option.map_eq_some_iff, stem?_eq_some_iff]
  constructor
  · rintro ⟨shape, nonempty, closed⟩
    have other : stem ≠ front := by
      rintro rfl
      rcases lead with empty | slashed
      · exact nonempty empty
      · simp [slashed] at closed
    -- The extension has no slash, so it lies in the segment.
    rcases List.append_eq_append_iff.mp shape with ⟨kept, rfl, rest⟩ | ⟨taken, rfl, rest⟩
    · have filled : kept ≠ [] := fun empty => other (by simp [empty])
      refine ⟨kept, ⟨rest, filled, ?_⟩, rfl⟩
      rw [Bool.eq_false_iff, ne_eq, endsWith_singleton_iff]
      intro last
      exact plain (rest ▸ List.mem_append_left _ (List.mem_of_getLast? last))
    · have filled : taken ≠ [] := fun empty => other (by simp [empty])
      rcases lead with empty | slashed
      · simp [filled] at empty
      · rw [endsWith_singleton_iff, List.getLast?_append_of_ne_nil _ filled] at slashed
        exact absurd (rest ▸ List.mem_append_left _ (List.mem_of_getLast? slashed))
          (not_mem_sourceExtension member)
  · rintro ⟨kept, ⟨rfl, nonempty, closed⟩, rfl⟩
    refine ⟨(List.append_assoc _ _ _).symm, by simp [nonempty], ?_⟩
    rw [Bool.eq_false_iff, ne_eq, endsWith_singleton_iff] at closed ⊢
    rwa [List.getLast?_append_of_ne_nil _ nonempty]

/-- The extension is taken off the last segment of a path. -/
theorem stripSourceExtension_append :
    stripSourceExtension (front ++ segment) = front ++ stripSourceExtension segment := by
  have each : ∀ extensions ⊆ sourceExtensions,
      extensions.findSome? (stem? (front ++ segment)) =
        (extensions.findSome? (stem? segment)).map (front ++ ·) := by
    intro extensions within
    induction extensions with
    | nil => rfl
    | cons extension extensions ih =>
        rcases List.cons_subset.mp within with ⟨member, later⟩
        rw [List.findSome?_cons, List.findSome?_cons, stem?_append lead plain member, ih later]
        cases stem? segment extension <;> rfl
  rw [stripSourceExtension, each sourceExtensions (List.Subset.refl _), stripSourceExtension]
  cases sourceExtensions.findSome? (stem? segment) <;> rfl

end Segment

theorem stripSourceExtension_joinWith (pieces : List (List Char)) {segment : List Char}
    (plain : '/' ∉ segment) :
    stripSourceExtension (joinWith ['/'] (pieces ++ [segment])) =
      joinWith ['/'] (pieces ++ [stripSourceExtension segment]) := by
  rcases exists_lead_joinWith pieces with ⟨front, lead, joined⟩
  rw [joined, joined, stripSourceExtension_append lead plain]

/-- A path begins with its stem, and only the empty path has an empty one. -/
theorem exists_stripSourceExtension_append (path : List Char) :
    ∃ ending, path = stripSourceExtension path ++ ending ∧
      (stripSourceExtension path = [] → path = []) := by
  rw [stripSourceExtension]
  cases found : sourceExtensions.findSome? (stem? path) with
  | none => exact ⟨[], by simp, id⟩
  | some stem =>
      rcases List.exists_of_findSome?_eq_some found with ⟨extension, -, cut⟩
      rcases stem?_eq_some_iff.mp cut with ⟨shape, nonempty, -⟩
      exact ⟨extension.toList, shape, fun empty => absurd empty nonempty⟩

/-! ## Without the index -/

theorem collapseIndex_of_plain {segment : List Char} (plain : '/' ∉ segment) :
    collapseIndex segment = segment := by
  have whole : dropSuffix? ['/', 'i', 'n', 'd', 'e', 'x'] segment = none := by
    apply Option.eq_none_iff_forall_ne_some.mpr
    intro parent cut
    apply plain
    rw [dropSuffix?_eq_some_iff.mp cut]
    simp
  rw [collapseIndex, whole]

/-- A last segment `index` is left out behind another one. -/
theorem collapseIndex_append {front segment : List Char} (nonempty : front ≠ [])
    (plain : '/' ∉ segment) :
    collapseIndex (front ++ '/' :: segment) =
      if segment = indexStem then front else front ++ '/' :: segment := by
  by_cases same : segment = indexStem
  · subst same
    have cut : dropSuffix? ('/' :: indexStem) (front ++ '/' :: indexStem) = some front :=
      dropSuffix?_eq_some_iff.mpr rfl
    have filled : front.isEmpty = false := by simpa using nonempty
    rw [indexStem] at cut ⊢
    rw [collapseIndex, cut, if_pos rfl]
    simp only [filled, Bool.false_eq_true, reduceIte]
  · have cut : dropSuffix? ('/' :: indexStem) (front ++ '/' :: segment) = none := by
      rw [Option.eq_none_iff_forall_ne_some]
      intro parent found
      exact same (eq_of_append_separator plain (by decide) (dropSuffix?_eq_some_iff.mp found)).2
    rw [indexStem] at cut
    rw [collapseIndex, cut, if_neg same]

theorem collapseIndex_joinWith {first segment : List Char} (rest : List (List Char))
    (filled : first ≠ []) (plain : '/' ∉ segment) :
    collapseIndex (joinWith ['/'] (first :: rest ++ [segment])) =
      joinWith ['/'] (first :: rest ++ if segment = indexStem then [] else [segment]) := by
  have joined : joinWith ['/'] (first :: rest) ≠ [] := by cases rest <;> simp [joinWith, filled]
  have shape : joinWith ['/'] (first :: rest ++ [segment]) =
      joinWith ['/'] (first :: rest) ++ '/' :: segment := Path.joinWith_append (by simp) (by simp)
  rw [shape, collapseIndex_append joined plain, ← shape]
  split <;> simp

theorem collapseIndex_index {front : List Char} (nonempty : front ≠ []) :
    collapseIndex (front ++ '/' :: indexStem) = front := by
  rw [collapseIndex_append nonempty (by decide), if_pos rfl]

theorem collapseIndex_cases (text : List Char) :
    collapseIndex text = text ∨
      collapseIndex text ≠ [] ∧ text = collapseIndex text ++ '/' :: indexStem := by
  rw [collapseIndex]
  cases cut : dropSuffix? ['/', 'i', 'n', 'd', 'e', 'x'] text with
  | none => exact .inl rfl
  | some parent =>
      cases parent with
      | nil => exact .inl rfl
      | cons c parent => exact .inr ⟨by simp, dropSuffix?_eq_some_iff.mp cut⟩

theorem collapseIndex_eq_nil_iff {text : List Char} : collapseIndex text = [] ↔ text = [] := by
  constructor
  · intro empty
    rcases collapseIndex_cases text with same | ⟨nonempty, -⟩
    · rw [← same, empty]
    · exact absurd empty nonempty
  · rintro rfl
    rfl

theorem collapseIndex_eq_index_iff {text : List Char} :
    collapseIndex text = indexStem ↔ text = indexStem ∨ text = indexStem ++ '/' :: indexStem := by
  constructor
  · intro index
    rcases collapseIndex_cases text with same | ⟨-, shape⟩
    · exact .inl (same.symm.trans index)
    · exact .inr (by rwa [index] at shape)
  · rintro (rfl | rfl) <;> rfl

/-- One module is the index of a directory that has the name of the other, which is no such index
itself. -/
def IsIndexOf (index module : List Char) : Prop :=
  module ≠ [] ∧ index = module ++ '/' :: indexStem ∧ collapseIndex module = module

/-- Texts are made one by taking off an `index` if they are one, or one is the index of the other. -/
theorem collapseIndex_eq_iff {left right : List Char} :
    collapseIndex left = collapseIndex right ↔
      left = right ∨ IsIndexOf left right ∨ IsIndexOf right left := by
  constructor
  · intro same
    rcases collapseIndex_cases left with leftKept | ⟨leftSome, leftShape⟩
    · rcases collapseIndex_cases right with rightKept | ⟨rightSome, rightShape⟩
      · exact .inl (leftKept.symm.trans (same.trans rightKept))
      · rw [← same, leftKept] at rightShape rightSome
        exact .inr (.inr ⟨rightSome, rightShape, leftKept⟩)
    · rcases collapseIndex_cases right with rightKept | ⟨rightSome, rightShape⟩
      · rw [same, rightKept] at leftShape leftSome
        exact .inr (.inl ⟨leftSome, leftShape, rightKept⟩)
      · exact .inl (leftShape.trans ((congrArg (· ++ '/' :: indexStem) same).trans rightShape.symm))
  · rintro (rfl | ⟨nonempty, rfl, kept⟩ | ⟨nonempty, rfl, kept⟩)
    · rfl
    · rw [collapseIndex_index nonempty, kept]
    · rw [collapseIndex_index nonempty, kept]

end AutoImport
