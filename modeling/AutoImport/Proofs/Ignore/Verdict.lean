import AutoImport.Ignore.Rule

/-!
# Verdicts of ignore files

Of several verdicts the first one counts that says anything. Where no rule takes entries back, their order
makes no difference: an entry is ignored when some rule speaks of it.
-/

namespace AutoImport.Ignore

namespace Verdict

theorem firstOf_cons (verdict : Verdict) (verdicts : List Verdict) :
    firstOf (verdict :: verdicts) = verdict.orElse (firstOf verdicts) := rfl

theorem firstOf_append_silent (verdicts : List Verdict) {others : List Verdict}
    (silent : ∀ verdict ∈ others, verdict = .silent) :
    firstOf (verdicts ++ others) = firstOf verdicts := by
  have rest : firstOf others = .silent := by
    induction others with
    | nil => rfl
    | cons verdict others ih =>
        obtain ⟨rfl, later⟩ := List.forall_mem_cons.mp silent
        exact ih later
  induction verdicts with
  | nil => exact rest
  | cons verdict verdicts ih => rw [List.cons_append, firstOf_cons, firstOf_cons, ih]

theorem firstOf_ne_kept {verdicts : List Verdict} (never : ∀ verdict ∈ verdicts, verdict ≠ .kept) :
    firstOf verdicts ≠ .kept := by
  induction verdicts with
  | nil => simp [firstOf]
  | cons verdict verdicts ih =>
      have later := ih fun other member => never other (List.mem_cons_of_mem _ member)
      cases verdict with
      | silent => exact later
      | ignored => simp [firstOf_cons, orElse]
      | kept => exact absurd rfl (never _ List.mem_cons_self)

theorem firstOf_eq_ignored_iff {verdicts : List Verdict}
    (never : ∀ verdict ∈ verdicts, verdict ≠ .kept) :
    firstOf verdicts = .ignored ↔ .ignored ∈ verdicts := by
  induction verdicts with
  | nil => simp [firstOf]
  | cons verdict verdicts ih =>
      have later := ih fun other member => never other (List.mem_cons_of_mem _ member)
      cases verdict with
      | silent => simpa [firstOf_cons, orElse] using later
      | ignored => simp [firstOf_cons, orElse]
      | kept => exact absurd rfl (never _ List.mem_cons_self)

end Verdict

theorem verdictOf_nil (path : List Char) (isDirectory : Bool) :
    verdictOf [] path isDirectory = .silent := rfl

/-- A rule speaks of an entry at a path below its directory. -/
def Rule.SpeaksOf (rule : Rule) (path : List Char) (isDirectory : Bool) : Prop :=
  (rule.directoriesOnly = true → isDirectory = true) ∧ fits rule.pattern path = true

/-- No rule takes entries back. -/
def OnlyIgnore (rules : List Rule) : Prop :=
  ∀ rule ∈ rules, rule.keeps = false

section OnlyIgnore

variable {rules : List Rule} (only : OnlyIgnore rules) (path : List Char)
include only

theorem OnlyIgnore.verdictOf_ne_kept (isDirectory : Bool) :
    verdictOf rules path isDirectory ≠ .kept := by
  unfold verdictOf
  split
  · rename_i rule found
    have ignores := only rule (List.mem_reverse.mp (List.mem_of_find?_eq_some found))
    simp [ignores]
  · simp

theorem OnlyIgnore.verdictOf_eq_ignored_iff (isDirectory : Bool) :
    verdictOf rules path isDirectory = .ignored ↔ ∃ rule ∈ rules, rule.SpeaksOf path isDirectory := by
  have speaks (rule : Rule) : rule.SpeaksOf path isDirectory ↔
      ((!rule.directoriesOnly || isDirectory) && fits rule.pattern path) = true := by
    cases only : rule.directoriesOnly <;> simp [Rule.SpeaksOf, only]
  unfold verdictOf
  split
  · rename_i rule found
    have member := List.mem_reverse.mp (List.mem_of_find?_eq_some found)
    have fitting := List.find?_some found
    have said := (speaks rule).mpr fitting
    simp only [only rule member, Bool.false_eq_true, reduceIte, true_iff]
    exact ⟨rule, member, said⟩
  · rename_i missing
    refine iff_of_false (by simp) ?_
    rintro ⟨rule, member, said⟩
    exact List.find?_eq_none.mp missing rule (List.mem_reverse.mpr member) ((speaks rule).mp said)

theorem OnlyIgnore.ne_kept_of_mem {above : List (List Char)} {verdict : Verdict}
    (member : verdict ∈ verdictOf rules path false ::
      above.map fun directory => verdictOf rules directory true) : verdict ≠ .kept := by
  rcases List.mem_cons.mp member with rfl | outer
  · exact only.verdictOf_ne_kept path false
  · obtain ⟨directory, -, rfl⟩ := List.mem_map.mp outer
    exact only.verdictOf_ne_kept directory true

theorem OnlyIgnore.verdictWithin_ne_kept (above : List (List Char)) :
    verdictWithin rules path above ≠ .kept :=
  Verdict.firstOf_ne_kept fun _ => only.ne_kept_of_mem path

/-- A file is ignored with each directory above it that is. -/
theorem OnlyIgnore.verdictWithin_eq_ignored_iff (above : List (List Char)) :
    verdictWithin rules path above = .ignored ↔
      (∃ rule ∈ rules, rule.SpeaksOf path false) ∨
        ∃ directory ∈ above, ∃ rule ∈ rules, rule.SpeaksOf directory true := by
  have never : ∀ verdict ∈ verdictOf rules path false ::
      above.map fun directory => verdictOf rules directory true, verdict ≠ .kept :=
    fun _ => only.ne_kept_of_mem path
  rw [verdictWithin, Verdict.firstOf_eq_ignored_iff never, List.mem_cons, List.mem_map, eq_comm,
    only.verdictOf_eq_ignored_iff]
  simp only [only.verdictOf_eq_ignored_iff]

end OnlyIgnore

end AutoImport.Ignore
