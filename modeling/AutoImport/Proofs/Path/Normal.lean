import AutoImport.Proofs.Path.Components
import Mathlib.Data.List.Induction
import Mathlib.Tactic.SplitIfs

/-!
# Normal forms

The normal form of a path has no `.`, and a `..` only where no name stands in front of it. A path that
comes down to names when `.` and `..` are resolved continues a directory just as these names do, whatever
detours it makes in between.
-/

namespace AutoImport

open Text Component

namespace Path

/-! ## The components of any path -/

theorem isStep_of_ofPiece? {piece : List Char} {step : Component} (plain : '/' ∉ piece)
    (read : ofPiece? piece = some step) : step.IsStep := by
  cases step with
  | parent => trivial
  | name text =>
      have same := ofPiece?_eq_name read
      exact ⟨same ▸ read, same ▸ plain⟩
  | _ =>
      unfold ofPiece? at read
      split_ifs at read <;> simp at read

theorem isStep_of_mem_pieces (text : List Char) :
    ∀ step ∈ (splitOn '/' text).filterMap ofPiece?, step.IsStep := by
  intro step member
  rcases List.mem_filterMap.mp member with ⟨piece, inside, read⟩
  exact isStep_of_ofPiece? (not_mem_of_mem_splitOn inside) read

theorem exists_steps_of_absolute {path : Path} (absolute : path.isAbsolute = true) :
    ∃ steps : List Component, path.components = .root :: steps ∧ ∀ step ∈ steps, step.IsStep := by
  rcases startsWith_iff.mp absolute with ⟨rest, spelled⟩
  refine ⟨_, ?_, isStep_of_mem_pieces rest⟩
  rw [components, spelled]
  exact componentsOf_slash_cons rest

theorem filter_steps {steps : List Component} (all : ∀ step ∈ steps, step.IsStep) :
    steps.filter (· != .current) = steps := by
  apply List.filter_eq_self.mpr
  intro step member
  cases step with
  | current => exact (all _ member).elim
  | _ => rfl

/-- But for a `.` in front, the components of a relative path are its pieces. -/
theorem filter_components_of_relative {path : Path} (relative : path.isAbsolute = false) :
    path.components.filter (· != .current) = (splitOn '/' path.spelling.toList).filterMap ofPiece? := by
  rw [components]
  cases pieces : splitOn '/' path.spelling.toList with
  | nil => exact absurd pieces (splitOn_ne_nil _ _)
  | cons first rest =>
      have all := isStep_of_mem_pieces path.spelling.toList
      rw [pieces] at all
      rw [componentsOf_eq pieces]
      by_cases empty : path.spelling.toList = []
      · rw [empty] at pieces
        obtain ⟨rfl, rfl⟩ : [] = first ∧ [] = rest := by simpa [splitOn] using pieces
        rw [if_pos empty]
        rfl
      · have filled := first_ne_nil_of_relative relative pieces empty
        rw [if_neg empty, List.filter_append]
        cases read : ofPiece? first with
        | none =>
            -- A first piece that is no component is `.`, for it is not empty.
            rw [List.filterMap_cons_none read] at all ⊢
            rw [filter_steps all]
            unfold startOf
            split
            · exact absurd rfl filled
            · rfl
            · rw [read]; rfl
        | some step =>
            rw [List.filterMap_cons_some read] at all ⊢
            rcases List.forall_mem_cons.mp all with ⟨isStep, later⟩
            rw [filter_steps later]
            unfold startOf
            split
            · exact absurd rfl filled
            · simp [ofPiece?] at read
            · rw [read, Option.toList_some, filter_steps (List.forall_mem_singleton.mpr isStep)]
              rfl

theorem isAbsolute_of_components {path : Path} {rest : List Component}
    (spelled : path.components = .root :: rest) : path.isAbsolute = true := by
  by_contra relative
  rw [Bool.not_eq_true] at relative
  have member : Component.root ∈ path.components.filter (· != .current) := by
    rw [spelled]
    exact List.mem_cons_self
  rw [filter_components_of_relative relative] at member
  exact isStep_of_mem_pieces _ _ member

theorem join_of_absolute (base : Path) {path : Path} (absolute : path.isAbsolute = true) :
    base.join path = path := by
  rw [join, absolute, Bool.true_or, if_pos rfl]

/-- A relative path continues a directory, a `.` in front of it makes no difference. -/
theorem components_join_of_relative {base path : Path} {steps : List Component}
    (spelled : base.components = .root :: steps) (relative : path.isAbsolute = false) :
    (base.join path).components = .root :: (steps ++ path.components.filter (· != .current)) := by
  have nonempty : base.spelling ≠ "" := by
    intro empty
    rw [components, empty] at spelled
    simp [componentsOf, splitOn] at spelled
  rw [components_join_eq nonempty relative, filter_components_of_relative relative, spelled,
    List.cons_append]

/-! ## Resolving `.` and `..` -/

theorem foldl_step_filter (components done : List Component) :
    (components.filter (· != .current)).foldl normalizeComponents.step done =
      components.foldl normalizeComponents.step done := by
  induction components generalizing done with
  | nil => rfl
  | cons component components ih =>
      cases component with
      | current => exact ih done
      | _ => exact ih _

theorem map_name_ne_cons {first : Component} {rest : List Component} (fixed : first.isName = false)
    (names : List String) : names.map Component.name ≠ first :: rest := by
  intro same
  cases names with
  | nil => simp at same
  | cons name names =>
      simp only [List.map_cons, List.cons.injEq] at same
      simp [← same.1, isName] at fixed

/-- What stands in front and is no name is not taken back. -/
theorem exists_head_foldl_step (components : List Component) (first : Component)
    (done : List Component) (fixed : first.isName = false) :
    ∃ other rest, components.foldl normalizeComponents.step (first :: done) = other :: rest ∧
      other.isName = false := by
  induction components generalizing first done with
  | nil => exact ⟨first, done, rfl, fixed⟩
  | cons component components ih =>
      rw [List.foldl_cons]
      cases component with
      | root => exact ih .root [] rfl
      | current => exact ih first done fixed
      | name text => exact ih first (done ++ [.name text]) fixed
      | parent =>
          rw [normalizeComponents.step]
          split
          · rename_i text last
            cases done with
            | nil =>
                obtain rfl : first = .name text := by simpa using last
                simp [isName] at fixed
            | cons second done => exact ih first (second :: done).dropLast fixed
          · exact ih first (done ++ [.parent]) fixed

/-- Components that come down to names lead from any directory along these names. -/
theorem foldl_step_append (base components : List Component) (before : List String)
    {names : List String}
    (ends : components.foldl normalizeComponents.step (before.map Component.name) =
      names.map Component.name) :
    components.foldl normalizeComponents.step (base ++ before.map Component.name) =
      base ++ names.map Component.name := by
  -- A root, or a `..` behind no name, stays in front, so it does not come down to names.
  induction components generalizing before with
  | nil => exact congrArg (base ++ ·) ends
  | cons component components ih =>
      rw [List.foldl_cons] at ends ⊢
      cases component with
      | root =>
          rcases exists_head_foldl_step components .root [] rfl with ⟨first, rest, same, fixed⟩
          exact absurd (ends.symm.trans same) (map_name_ne_cons fixed names)
      | current => exact ih before ends
      | name text =>
          have continued : before.map Component.name ++ [.name text] =
              (before ++ [text]).map Component.name := by simp
          rw [normalizeComponents.step, continued] at ends
          rw [normalizeComponents.step, List.append_assoc, continued]
          exact ih (before ++ [text]) ends
      | parent =>
          induction before using List.reverseRecOn with
          | nil =>
              rcases exists_head_foldl_step components .parent [] rfl with
                ⟨first, rest, same, fixed⟩
              exact absurd (ends.symm.trans same) (map_name_ne_cons fixed names)
          | append_singleton before last _ =>
              have taken (front : List Component) :
                  normalizeComponents.step (front ++ (before ++ [last]).map Component.name) .parent =
                    front ++ before.map Component.name := by
                rw [List.map_append, List.map_singleton, ← List.append_assoc,
                  normalizeComponents.step, List.getLast?_concat]
                exact List.dropLast_concat
              have own := taken []
              rw [List.nil_append, List.nil_append] at own
              rw [own] at ends
              rw [taken]
              exact ih before ends

theorem name_mem_of_mem_foldl_step {components done : List Component} {text : String}
    (member : Component.name text ∈ components.foldl normalizeComponents.step done) :
    Component.name text ∈ done ∨ Component.name text ∈ components := by
  induction components generalizing done with
  | nil => exact .inl member
  | cons component components ih =>
      rcases ih member with old | later
      · cases component with
        | root => simp [normalizeComponents.step] at old
        | current => exact .inl old
        | name other =>
            rcases List.mem_append.mp old with old | new
            · exact .inl old
            · exact .inr (List.mem_cons.mpr (.inl (List.mem_singleton.mp new)))
        | parent =>
            rw [normalizeComponents.step] at old
            split at old
            · exact .inl (List.dropLast_subset _ old)
            · exact .inl (by simpa using old)
      · exact .inr (List.mem_cons_of_mem _ later)

theorem length_foldl_step_le (components done : List Component) :
    (components.foldl normalizeComponents.step done).length ≤ done.length + components.length := by
  induction components generalizing done with
  | nil => simp
  | cons component components ih =>
      have stepped : (normalizeComponents.step done component).length ≤ done.length + 1 := by
        cases component with
        | root => simp [normalizeComponents.step]
        | current => simp [normalizeComponents.step]
        | name text => simp [normalizeComponents.step]
        | parent =>
            rw [normalizeComponents.step]
            split
            · rw [List.length_dropLast]
              omega
            · simp
      have later := ih (normalizeComponents.step done component)
      rw [List.foldl_cons, List.length_cons]
      omega

/-! ## Paths that go along names -/

/-- Up to `.` and `..` a path goes along names, and it never leaves the directory in which it starts. -/
def GoesAlong (path : Path) (names : List String) : Prop :=
  normalizeComponents path.components = names.map Component.name

instance (path : Path) (names : List String) : Decidable (path.GoesAlong names) :=
  inferInstanceAs (Decidable (_ = _))

theorem foldl_step_names (before names : List String) :
    (names.map Component.name).foldl normalizeComponents.step (before.map Component.name) =
      (before ++ names).map Component.name := by
  induction names generalizing before with
  | nil => simp
  | cons name names ih =>
      have continued : before.map Component.name ++ [.name name] =
          (before ++ [name]).map Component.name := by simp
      rw [List.map_cons, List.foldl_cons, normalizeComponents.step, continued, ih, List.append_assoc]
      rfl

theorem ofNames_goesAlong {names : List String} (named : ∀ name ∈ names, IsEntryName name) :
    (ofNames names).GoesAlong names := by
  rw [GoesAlong, components_ofNames named]
  exact foldl_step_names [] names

section GoesAlong

variable {path : Path} {names : List String} (along : path.GoesAlong names)
include along

theorem GoesAlong.isEntryName : ∀ name ∈ names, IsEntryName name := by
  intro name member
  have inside : Component.name name ∈ normalizeComponents path.components := by
    rw [along]
    exact List.mem_map_of_mem member
  rcases name_mem_of_mem_foldl_step inside with before | spelled
  · simp at before
  · exact isEntryName_of_mem_components spelled

theorem GoesAlong.isAbsolute_eq_false : path.isAbsolute = false := by
  by_contra absolute
  rw [Bool.not_eq_false] at absolute
  rcases exists_steps_of_absolute absolute with ⟨steps, spelled, -⟩
  rcases exists_head_foldl_step steps .root [] rfl with ⟨first, rest, same, fixed⟩
  have ends : names.map Component.name = first :: rest := by
    rw [← along, ← same, spelled]
    rfl
  exact map_name_ne_cons fixed names ends

/-- A path that goes along names leads from a directory to where these names lead. -/
theorem GoesAlong.normalize_join {base : Path} {location : List String}
    (spelled : base.components = .root :: location.map Component.name) :
    (base.join path).isAbsolute = true ∧
      (base.join path).normalize = FileTree.pathOf (location ++ names) := by
  have joined := components_join_of_relative spelled along.isAbsolute_eq_false
  refine ⟨isAbsolute_of_components joined, ?_⟩
  have directory : normalizeComponents (.root :: location.map Component.name) =
      .root :: location.map Component.name :=
    foldl_step_append [Component.root] _ [] (foldl_step_names [] location)
  have onward := foldl_step_append (.root :: location.map Component.name) _ [] along
  rw [List.map_nil, List.append_nil] at onward
  have normal : normalizeComponents (base.join path).components =
      .root :: (location ++ names).map Component.name := by
    rw [joined, ← List.cons_append, normalizeComponents, List.foldl_append, foldl_step_filter]
    change path.components.foldl _ (normalizeComponents (.root :: location.map Component.name)) = _
    rw [directory, onward, List.map_append]
    rfl
  rw [normalize, normal]
  rfl

end GoesAlong

end Path

end AutoImport
