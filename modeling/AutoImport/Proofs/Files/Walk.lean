import AutoImport.Proofs.Files.Tree

/-!
# Walks along paths

A walk along components can be broken off at a directory and taken up again from there, and so can the
following of links. Wherever either gets to, its location is made of names.
-/

namespace AutoImport.FileTree

open Component

/-! ## Walks in two parts -/

section Append

variable {tree : FileTree} {directory : Location} {first : List Component} (second : List Component)

theorem walk_append {location : Location} (arrives : tree.walk directory first = .arrived location)
    (inside : tree.node? location = some .directory) :
    tree.walk directory (first ++ second) = tree.walk location second := by
  induction first generalizing directory with
  | nil =>
      obtain rfl : directory = location := by simpa [walk] using arrives
      rfl
  | cons component first ih =>
      cases component with
      | root => exact ih arrives
      | current => exact ih arrives
      | parent => exact ih arrives
      | name text =>
          rw [walk] at arrives
          rw [List.cons_append, walk]
          cases found : tree.node? (directory ++ [text]) with
          | none => simp [found] at arrives
          | some node =>
              cases node with
              | link target => simp [found] at arrives
              | directory =>
                  simp only [found] at arrives ⊢
                  exact ih arrives
              | file content =>
                  -- A walk that ends at a file does not end in a directory.
                  simp only [found] at arrives
                  split at arrives
                  · rw [← Reach.arrived.inj arrives, found] at inside
                    simp at inside
                  · simp at arrives

theorem walk_append_of_link {inside : Location} {target : Path} {rest : List Component}
    (meets : tree.walk directory first = .link inside target rest) :
    tree.walk directory (first ++ second) = .link inside target (rest ++ second) := by
  induction first generalizing directory with
  | nil => simp [walk] at meets
  | cons component first ih =>
      cases component with
      | root => exact ih meets
      | current => exact ih meets
      | parent => exact ih meets
      | name text =>
          rw [walk] at meets
          rw [List.cons_append, walk]
          cases found : tree.node? (directory ++ [text]) with
          | none => simp [found] at meets
          | some node =>
              cases node with
              | link other =>
                  simp only [found, Reach.link.injEq] at meets ⊢
                  rcases meets with ⟨rfl, rfl, rfl⟩
                  exact ⟨rfl, rfl, rfl⟩
              | directory =>
                  simp only [found] at meets ⊢
                  exact ih meets
              | file content =>
                  simp only [found] at meets
                  split at meets <;> simp at meets

/-- After the first components have led to a directory, the others are followed from there, with as many
links as are left. -/
theorem exists_follow_append {links : Nat} {location : Location}
    (arrives : tree.follow links directory first = some location)
    (inside : tree.node? location = some .directory) :
    ∃ left, tree.follow links directory (first ++ second) = tree.follow left location second := by
  induction links generalizing directory first with
  | zero =>
      refine ⟨0, ?_⟩
      unfold follow at arrives ⊢
      cases reach : tree.walk directory first with
      | arrived other =>
          obtain rfl : other = location := by simpa [reach] using arrives
          rw [walk_append second reach inside]
      | lost => simp [reach] at arrives
      | link => simp [reach] at arrives
  | succ links ih =>
      unfold follow at arrives
      cases reach : tree.walk directory first with
      | arrived other =>
          obtain rfl : other = location := by simpa [reach] using arrives
          refine ⟨links + 1, ?_⟩
          rw [follow, follow, walk_append second reach inside]
      | lost => simp [reach] at arrives
      | link place target rest =>
          -- The target of the link is followed in front of both parts.
          rw [reach] at arrives
          rcases ih arrives with ⟨left, same⟩
          refine ⟨left, ?_⟩
          rw [follow, walk_append_of_link second reach, ← same, List.append_assoc]

end Append

/-! ## Names of locations -/

/-- What a walk may meet: names that can be names of entries. -/
def Named (components : List Component) : Prop :=
  ∀ text, Component.name text ∈ components → IsEntryName text

theorem named_components (path : Path) : Named path.components := by
  intro text
  exact Path.isEntryName_of_mem_components

/-- What is known of the place where a walk ends: its names are names, and the rest of the way too. -/
def Reach.Named : Reach → Prop
  | .arrived location => ∀ name ∈ location, IsEntryName name
  | .lost => True
  | .link directory _ rest => (∀ name ∈ directory, IsEntryName name) ∧ FileTree.Named rest

theorem named_walk (tree : FileTree) {components : List Component} (named : Named components)
    {directory : Location} (inDirectory : ∀ name ∈ directory, IsEntryName name) :
    (tree.walk directory components).Named := by
  induction components generalizing directory with
  | nil => exact inDirectory
  | cons component components ih =>
      have later : Named components := by
        intro text member
        exact named text (List.mem_cons_of_mem _ member)
      cases component with
      | root => exact ih later (by simp)
      | current => exact ih later inDirectory
      | parent =>
          apply ih later
          intro name member
          exact inDirectory name (List.dropLast_subset _ member)
      | name text =>
          have inner : ∀ name ∈ directory ++ [text], IsEntryName name :=
            List.forall_mem_append.mpr
              ⟨inDirectory, List.forall_mem_singleton.mpr (named text List.mem_cons_self)⟩
          rw [walk]
          cases tree.node? (directory ++ [text]) with
          | none => trivial
          | some node =>
              cases node with
              | link target => exact ⟨inDirectory, later⟩
              | directory => exact ih later inner
              | file content =>
                  simp only
                  split
                  · exact inner
                  · trivial

theorem named_follow {tree : FileTree} {links : Nat} {components : List Component}
    {directory location : Location} (named : Named components)
    (inDirectory : ∀ name ∈ directory, IsEntryName name)
    (arrives : tree.follow links directory components = some location) :
    ∀ name ∈ location, IsEntryName name := by
  induction links generalizing directory components with
  | zero =>
      have reached := named_walk tree named inDirectory
      unfold follow at arrives
      split at arrives
      · rename_i other reach
        rw [reach] at reached
        exact Option.some.inj arrives ▸ reached
      · simp at arrives
  | succ links ih =>
      have reached := named_walk tree named inDirectory
      unfold follow at arrives
      split at arrives
      · rename_i other reach
        rw [reach] at reached
        exact Option.some.inj arrives ▸ reached
      · simp at arrives
      · rename_i place target rest reach
        rw [reach] at reached
        refine ih ?_ reached.1 arrives
        intro text member
        rcases List.mem_append.mp member with inside | after
        · exact named_components target text inside
        · exact reached.2 text after

theorem isEntryName_of_locate? {tree : FileTree} {path : Path} {location : Location}
    (arrives : tree.locate? path = some location) : ∀ name ∈ location, IsEntryName name :=
  named_follow (named_components path) (by simp) arrives

end AutoImport.FileTree
