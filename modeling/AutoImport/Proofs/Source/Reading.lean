import Mathlib.Logic.Relation
import AutoImport.Source.Peg

/-!
# What a grammar reads and keeps

A reading is taken apart along its parsing expression: `Reads` tells which part of a text it takes up, and
`Yields` what holds of each tree that it keeps.
-/

namespace AutoImport.Source.Peg

variable {Rule Label : Type} {grammar : Rule → Peg Rule Label}

attribute [local simp] run

/-! ## A step of a reading -/

section

variable {fuel : Nat} {text rest : List Char} {kept found : List (Tree Label)}

theorem run_choice_cons_cases {option : Peg Rule Label} {options : List (Peg Rule Label)}
    (ran : run grammar (fuel + 1) (.choice (option :: options)) text kept = some (rest, found)) :
    run grammar fuel option text kept = some (rest, found) ∨
      run grammar fuel (.choice options) text kept = some (rest, found) := by
  simp only [run] at ran
  split at ran
  · rename_i here
    exact .inl (here.trans ran)
  · exact .inr ran

theorem run_star_cases {body : Peg Rule Label}
    (ran : run grammar (fuel + 1) (.star body) text kept = some (rest, found)) :
    (∃ middle keptHere, run grammar fuel body text kept = some (middle, keptHere) ∧
      run grammar fuel (.star body) middle keptHere = some (rest, found)) ∨
      some (text, kept) = some (rest, found) := by
  simp only [run] at ran
  split at ran
  · rename_i middle keptHere here
    exact .inl ⟨middle, keptHere, here, ran⟩
  · exact .inr ran

end

/-! ## The text that a reading takes up -/

/-- A parsing expression reads a text up to the given rest. -/
def Reads (grammar : Rule → Peg Rule Label) (phrase : Peg Rule Label) (text rest : List Char) : Prop :=
  ∃ fuel kept found, run grammar fuel phrase text kept = some (rest, found)

namespace Reads

variable {text rest : List Char}

theorem terminal {read : List Char → Option (List Char)}
    (reads : Reads grammar (.terminal read) text rest) : read text = some rest := by
  rcases reads with ⟨_ | fuel, kept, found, ran⟩
  · simp at ran
  · rcases Option.map_eq_some_iff.mp ran with ⟨rest, readHere, same⟩
    rw [readHere, (Prod.mk.inj same).1]

theorem choice {options : List (Peg Rule Label)} (reads : Reads grammar (.choice options) text rest) :
    ∃ option ∈ options, Reads grammar option text rest := by
  rcases reads with ⟨fuel, kept, found, ran⟩
  induction options generalizing fuel with
  | nil => cases fuel <;> simp at ran
  | cons option options ih =>
      cases fuel with
      | zero => simp at ran
      | succ fuel =>
          rcases run_choice_cons_cases ran with here | later
          · exact ⟨option, List.mem_cons_self, fuel, kept, found, here⟩
          · rcases ih fuel later with ⟨other, member, readsOther⟩
            exact ⟨other, List.mem_cons_of_mem _ member, readsOther⟩

/-- A repetition reads its body time after time. -/
theorem star {body : Peg Rule Label} (reads : Reads grammar (.star body) text rest) :
    Relation.ReflTransGen (Reads grammar body) text rest := by
  rcases reads with ⟨fuel, kept, found, ran⟩
  induction fuel generalizing text kept with
  | zero => simp at ran
  | succ fuel ih =>
      rcases run_star_cases ran with ⟨middle, keptHere, here, after⟩ | same
      · exact (ih keptHere after).head ⟨fuel, kept, keptHere, here⟩
      · obtain rfl := (Prod.mk.inj (Option.some.inj same)).1
        exact .refl

end Reads

/-- What a leaf over a parsing expression keeps: the text that a reading takes up. -/
def TakesUp (grammar : Rule → Peg Rule Label) (phrase : Peg Rule Label) (taken : List Char) : Prop :=
  ∃ text rest, Reads grammar phrase text rest ∧ taken = text.take (text.length - rest.length)

/-! ## The trees that a reading keeps -/

/-- Every tree that a parsing expression keeps satisfies `holds`, as long as every tree that a rule of the
grammar keeps satisfies `byRule`. -/
inductive Yields (grammar : Rule → Peg Rule Label) (byRule : Rule → Tree Label → Prop) :
    Peg Rule Label → (Tree Label → Prop) → Prop where
  | terminal {read : List Char → Option (List Char)} {holds : Tree Label → Prop} :
      Yields grammar byRule (.terminal read) holds
  | seq {parts : List (Peg Rule Label)} {holds : Tree Label → Prop}
      (each : ∀ part ∈ parts, Yields grammar byRule part holds) : Yields grammar byRule (.seq parts) holds
  | choice {options : List (Peg Rule Label)} {holds : Tree Label → Prop}
      (each : ∀ option ∈ options, Yields grammar byRule option holds) :
      Yields grammar byRule (.choice options) holds
  | star {body : Peg Rule Label} {holds : Tree Label → Prop} (inside : Yields grammar byRule body holds) :
      Yields grammar byRule (.star body) holds
  | absent {body : Peg Rule Label} {holds : Tree Label → Prop} : Yields grammar byRule (.absent body) holds
  | rule {name : Rule} {holds : Tree Label → Prop} (keeps : ∀ tree, byRule name tree → holds tree) :
      Yields grammar byRule (.rule name) holds
  | branch {label : Label} {body : Peg Rule Label} {inner holds : Tree Label → Prop}
      (inside : Yields grammar byRule body inner)
      (keeps : ∀ children, (∀ child ∈ children, inner child) → holds (.branch label children)) :
      Yields grammar byRule (.branch label body) holds
  | leaf {label : Label} {body : Peg Rule Label} {holds : Tree Label → Prop}
      (keeps : ∀ taken, TakesUp grammar body taken → holds (.leaf label taken)) :
      Yields grammar byRule (.leaf label body) holds
  | quiet {body : Peg Rule Label} {holds : Tree Label → Prop} : Yields grammar byRule (.quiet body) holds

namespace Yields

variable {byRule : Rule → Tree Label → Prop} {holds : Tree Label → Prop}

attribute [simp] terminal absent quiet

@[simp]
theorem seq_iff {parts : List (Peg Rule Label)} :
    Yields grammar byRule (.seq parts) holds ↔ ∀ part ∈ parts, Yields grammar byRule part holds := by
  constructor
  · rintro ⟨⟩
    assumption
  · exact .seq

@[simp]
theorem choice_iff {options : List (Peg Rule Label)} :
    Yields grammar byRule (.choice options) holds ↔
      ∀ option ∈ options, Yields grammar byRule option holds := by
  constructor
  · rintro ⟨⟩
    assumption
  · exact .choice

@[simp]
theorem star_iff {body : Peg Rule Label} :
    Yields grammar byRule (.star body) holds ↔ Yields grammar byRule body holds := by
  constructor
  · rintro ⟨⟩
    assumption
  · exact .star

@[simp]
theorem rule_iff {name : Rule} :
    Yields grammar byRule (.rule name) holds ↔ ∀ tree, byRule name tree → holds tree := by
  constructor
  · rintro ⟨⟩
    assumption
  · exact .rule

@[simp]
theorem leaf_iff {label : Label} {body : Peg Rule Label} :
    Yields grammar byRule (.leaf label body) holds ↔
      ∀ taken, TakesUp grammar body taken → holds (.leaf label taken) := by
  constructor
  · rintro ⟨⟩
    assumption
  · exact .leaf

@[simp]
theorem opt_iff {body : Peg Rule Label} :
    Yields grammar byRule (opt body) holds ↔ Yields grammar byRule body holds := by
  simp [opt, nothing]

@[simp]
theorem present {body : Peg Rule Label} : Yields grammar byRule (present body) holds :=
  .absent

@[simp]
theorem sepBy_iff {separator body : Peg Rule Label} :
    Yields grammar byRule (sepBy separator body) holds ↔
      Yields grammar byRule body holds ∧ Yields grammar byRule separator holds := by
  simp [sepBy, and_comm]

/-- Nothing at all holds of every tree. -/
theorem trivial : ∀ phrase : Peg Rule Label, Yields grammar byRule phrase fun _ => True
  | .terminal _ => .terminal
  | .seq parts => .seq fun part _ => trivial part
  | .choice options => .choice fun option _ => trivial option
  | .star body => .star (trivial body)
  | .absent _ => .absent
  | .rule _ => .rule fun _ _ => True.intro
  | .branch _ body => .branch (trivial body) fun _ _ => True.intro
  | .leaf _ _ => .leaf fun _ _ => True.intro
  | .quiet _ => .quiet

end Yields

end AutoImport.Source.Peg
