import AutoImport.Proofs.Path.Normal

/-!
# Routes

The normal form of a path is a row of steps, with the root in front of them when the path is absolute.
Where no step takes back the one before it, a route is walked step by step, and the way back up is one
`..` for each name.
-/

namespace AutoImport

open Text Component

namespace Path

/-! ## Steps of a normal form -/

theorem exists_components_eq (path : Path) :
    ∃ steps : List Component, path.components.filter (· != .current) = anchor path.isAbsolute ++ steps ∧
      ∀ step ∈ steps, step.IsStep := by
  cases absolute : path.isAbsolute with
  | false =>
      exact ⟨_, filter_components_of_relative absolute, isStep_of_mem_pieces _⟩
  | true =>
      rcases exists_steps_of_absolute absolute with ⟨steps, spelled, all⟩
      refine ⟨steps, ?_, all⟩
      rw [spelled, List.filter_cons_of_pos (by decide), filter_steps all]
      rfl

theorem exists_step_eq {step : Component} (isStep : step.IsStep) (absolute : Bool)
    {done : List Component} (all : ∀ other ∈ done, other.IsStep) :
    ∃ steps, normalizeComponents.step (anchor absolute ++ done) step = anchor absolute ++ steps ∧
      ∀ other ∈ steps, other.IsStep := by
  have continued : ∀ other ∈ done ++ [step], other.IsStep := by
    intro other member
    rcases List.mem_append.mp member with old | new
    · exact all other old
    · exact List.mem_singleton.mp new ▸ isStep
  cases step with
  | root => exact isStep.elim
  | current => exact isStep.elim
  | name text => exact ⟨_, List.append_assoc _ _ _, continued⟩
  | parent =>
      rw [normalizeComponents.step]
      split
      · rename_i text last
        cases done using List.reverseRecOn with
        | nil => cases absolute <;> simp [anchor] at last
        | append_singleton done final =>
            rw [← List.append_assoc, List.dropLast_concat]
            exact ⟨done, rfl, fun other member => all other (List.mem_append_left _ member)⟩
      · exact ⟨_, List.append_assoc _ _ _, continued⟩

theorem exists_foldl_step_eq {components : List Component} (isSteps : ∀ step ∈ components, step.IsStep)
    (absolute : Bool) {done : List Component} (all : ∀ step ∈ done, step.IsStep) :
    ∃ steps, components.foldl normalizeComponents.step (anchor absolute ++ done) =
      anchor absolute ++ steps ∧ ∀ step ∈ steps, step.IsStep := by
  induction components generalizing done with
  | nil => exact ⟨done, rfl, all⟩
  | cons component components ih =>
      rcases List.forall_mem_cons.mp isSteps with ⟨isStep, later⟩
      rcases exists_step_eq isStep absolute all with ⟨next, same, nextAll⟩
      rw [List.foldl_cons, same]
      exact ih later nextAll

/-- The normal form of a path leads along steps, from the root when the path is absolute. -/
theorem exists_normalizeComponents_eq (path : Path) :
    ∃ steps, normalizeComponents path.components = anchor path.isAbsolute ++ steps ∧
      ∀ step ∈ steps, step.IsStep := by
  rcases exists_components_eq path with ⟨spelled, same, isSteps⟩
  rw [normalizeComponents, ← foldl_step_filter, same, List.foldl_append]
  have start : (anchor path.isAbsolute).foldl normalizeComponents.step [] =
      anchor path.isAbsolute ++ [] := by
    cases path.isAbsolute <;> rfl
  rw [start]
  exact exists_foldl_step_eq isSteps path.isAbsolute (by simp)

theorem components_normalize (path : Path) :
    path.normalize.components = normalizeComponents path.components := by
  rcases exists_normalizeComponents_eq path with ⟨steps, same, all⟩
  rw [normalize, same]
  exact components_route _ all

theorem isAbsolute_eq_true_iff {path : Path} :
    path.isAbsolute = true ↔ .root ∈ path.normalize.components := by
  rcases exists_normalizeComponents_eq path with ⟨steps, same, all⟩
  rw [components_normalize, same]
  cases path.isAbsolute with
  | true => simp [anchor]
  | false =>
      have noRoot : .root ∉ steps := fun member => all .root member
      simp [anchor, noRoot]

theorem parentComponents?_concat_name (front : List Component) (text : String) :
    parentComponents? (front ++ [Component.name text]) = some front := by
  rw [parentComponents?, List.getLast?_concat, List.dropLast_concat]

theorem components_directory_normalize (path : Path) :
    path.normalize.directory.components =
      (parentComponents? (normalizeComponents path.components)).getD [] := by
  rcases exists_normalizeComponents_eq path with ⟨steps, same, all⟩
  rw [normalize, same]
  generalize path.isAbsolute = absolute
  cases steps using List.reverseRecOn with
  | nil => cases absolute <;> rfl
  | append_singleton steps last =>
      have isStep : last.IsStep := all last (by simp)
      change (route absolute (steps ++ [last])).directory.components = _
      rw [directory_route _ all, components_route _ fun step member =>
        all step (List.mem_append_left _ member), ← List.append_assoc, parentComponents?,
        List.getLast?_concat, List.dropLast_concat]
      cases last with
      | root => exact isStep.elim
      | _ => rfl

/-! ## Paths of names -/

/-- A path that leads down from where it starts, by names. -/
def LeadsDown (path : Path) : Prop :=
  ∃ names, (∀ name ∈ names, IsEntryName name) ∧ path = ofNames names

theorem exists_names_of_all {components : List Component} (all : components.all isName = true) :
    ∃ names : List String, components = names.map Component.name := by
  induction components with
  | nil => exact ⟨[], rfl⟩
  | cons component components ih =>
      rw [List.all_cons, Bool.and_eq_true] at all
      rcases ih all.2 with ⟨names, rfl⟩
      cases component with
      | name text => exact ⟨text :: names, rfl⟩
      | _ => simp [isName] at all

theorem leadsDown_ofComponents {steps : List Component} (all : ∀ step ∈ steps, step.IsStep)
    (names : ∀ step ∈ steps, step.isName = true) : (ofComponents steps).LeadsDown := by
  rcases exists_names_of_all (List.all_eq_true.mpr names) with ⟨texts, rfl⟩
  refine ⟨texts, fun text member => ?_, rfl⟩
  exact all (.name text) (List.mem_map_of_mem member)

/-! ## Walking a route -/

/-- No component of a normal form takes back the one before it. -/
def IsNormal (components : List Component) : Prop :=
  ∀ front step rest, components = front ++ step :: rest →
    normalizeComponents.step front step = front ++ [step]

theorem IsNormal.of_append {front rest : List Component} (normal : IsNormal (front ++ rest)) :
    IsNormal front := by
  intro before step after shape
  apply normal before step (after ++ rest)
  rw [shape, List.append_assoc, List.cons_append]

theorem IsNormal.append_step {front : List Component} {step : Component} (normal : IsNormal front)
    (walked : normalizeComponents.step front step = front ++ [step]) : IsNormal (front ++ [step]) := by
  intro before next after shape
  induction after using List.reverseRecOn with
  | nil =>
      obtain ⟨rfl, same⟩ := List.append_inj' shape rfl
      obtain rfl : step = next := by simpa using same
      exact walked
  | append_singleton after last _ =>
      rw [← List.cons_append, ← List.append_assoc] at shape
      exact normal before next after (List.append_inj' shape rfl).1

theorem IsNormal.step {done : List Component} (normal : IsNormal done) (component : Component) :
    IsNormal (normalizeComponents.step done component) := by
  cases component with
  | current => exact normal
  | name text => exact normal.append_step rfl
  | root =>
      have walked : IsNormal ([] ++ [.root]) :=
        IsNormal.append_step (fun before step after shape => by simp at shape) rfl
      exact walked
  | parent =>
      have stepped : normalizeComponents.step done .parent = done.dropLast ∨
          normalizeComponents.step done .parent = done ++ [.parent] := by
        rw [normalizeComponents.step]
        split
        · exact .inl rfl
        · exact .inr rfl
      rcases stepped with back | onward
      · rw [back]
        induction done using List.reverseRecOn with
        | nil => exact normal
        | append_singleton front last _ =>
            rw [List.dropLast_concat]
            exact normal.of_append
      · rw [onward]
        exact normal.append_step onward

theorem isNormal_foldl_step (components : List Component) {done : List Component}
    (normal : IsNormal done) : IsNormal (components.foldl normalizeComponents.step done) := by
  induction components generalizing done with
  | nil => exact normal
  | cons component components ih => exact ih (normal.step component)

theorem isNormal_normalizeComponents (components : List Component) :
    IsNormal (normalizeComponents components) :=
  isNormal_foldl_step components fun before step after shape => by simp at shape

/-- A normal form is reached from any part in front of it by the rest of its steps. -/
theorem IsNormal.foldl_step {front rest : List Component} (normal : IsNormal (front ++ rest)) :
    rest.foldl normalizeComponents.step front = front ++ rest := by
  induction rest generalizing front with
  | nil => simp
  | cons step rest ih =>
      have walked := normal front step rest rfl
      rw [List.append_cons] at normal
      rw [List.foldl_cons, walked, ih normal, ← List.append_cons]

theorem IsNormal.normalizeComponents_eq {components : List Component} (normal : IsNormal components) :
    normalizeComponents components = components := by
  rw [← List.nil_append components] at normal
  exact normal.foldl_step

/-- Behind a name, a normal form goes on by names. -/
theorem IsNormal.isName_of_mem {front rest : List Component} {name : String}
    (normal : IsNormal (front ++ .name name :: rest)) (all : ∀ step ∈ rest, step.IsStep) :
    ∀ step ∈ rest, step.isName = true := by
  induction rest generalizing front name with
  | nil => simp
  | cons next rest ih =>
      rcases List.forall_mem_cons.mp all with ⟨isStep, later⟩
      have walked := normal (front ++ [.name name]) next rest (by simp)
      cases next with
      | root => exact isStep.elim
      | current => exact isStep.elim
      | parent =>
          have lengths := congrArg List.length walked
          simp [normalizeComponents.step] at lengths
      | name text =>
          rw [List.append_cons] at normal
          exact List.forall_mem_cons.mpr ⟨rfl, ih normal later⟩

/-- From a directory below another one, one `..` for each name between them leads back up. -/
theorem foldl_step_parents (base : List Component) (names : List String) :
    (names.map fun _ => Component.parent).foldl normalizeComponents.step
      (base ++ names.map Component.name) = base := by
  induction names using List.reverseRecOn with
  | nil => simp
  | append_singleton names name ih =>
      have back : normalizeComponents.step (base ++ (names ++ [name]).map Component.name) .parent =
          base ++ names.map Component.name := by
        rw [List.map_append, List.map_singleton, ← List.append_assoc, normalizeComponents.step,
          List.getLast?_concat]
        exact List.dropLast_concat
      have sameWay : (names ++ [name]).map (fun _ => Component.parent) =
          .parent :: names.map fun _ => Component.parent := by
        rw [List.map_const', List.map_const', List.length_append, List.length_singleton,
          List.replicate_succ]
      rw [sameWay, List.foldl_cons, back, ih]

/-- A relative path is walked by its pieces from the normal form of the directory it continues. -/
theorem normalizeComponents_join (base : Path) {path : Path} (relative : path.isAbsolute = false) :
    normalizeComponents (base.join path).components =
      ((splitOn '/' path.spelling.toList).filterMap ofPiece?).foldl normalizeComponents.step
        (normalizeComponents base.components) := by
  by_cases empty : base.spelling = ""
  · have alone : base.join path = path := by simp [join, empty]
    have start : normalizeComponents base.components = [] := by
      rw [components, empty]
      rfl
    rw [alone, start, ← filter_components_of_relative relative, foldl_step_filter]
    rfl
  · rw [components_join_eq empty relative, normalizeComponents, List.foldl_append]
    rfl

end Path

end AutoImport
