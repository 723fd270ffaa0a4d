import AutoImport.Proofs.Symbol.Contents
import AutoImport.Proofs.Text.Lowercase

/-!
# Queries that are typed on

What a query finds is found by each beginning of the query, unless the beginning ends a word with a sigma
and the rest of the query carries that word on: the beginning is then compared with a final sigma, which
no name has in that place. From the start of names the two queries find nothing in common, and a name
that is spelled like the longer query is not found by its own beginning.
-/

namespace AutoImport

open Text

namespace MatchMode

/-- Whether a query is found in what it is typed on to: no word goes on behind a sigma of it, or what it
is compared with occurs in the longer query all the same. -/
def KeepsFinding (fromStart : Bool) (query more : String) : Prop :=
  ¬CarriesOnSigma query.toList more.toList ∨
    fromStart = false ∧ lowercase query.toList <:+: lowercase (query ++ more).toList

theorem lowercase_prefix_iff {query more : String} :
    lowercase query.toList <+: lowercase (query ++ more).toList ↔
      ¬CarriesOnSigma query.toList more.toList := by
  rw [← startsWith_lowercase_append_iff, startsWith_iff, String.toList_append]
  exact exists_congr fun rest => eq_comm

/-- A query keeps finding what it finds exactly if it names itself typed on. -/
theorem keepsFinding_iff_names {fromStart : Bool} {query more : String} :
    KeepsFinding fromStart query more ↔ anyCase.Names fromStart query (query ++ more) := by
  cases fromStart with
  | true =>
      simp only [KeepsFinding, Names, Bool.true_eq_false, false_and, or_false, reduceIte]
      exact lowercase_prefix_iff.symm
  | false =>
      have inside : ¬CarriesOnSigma query.toList more.toList →
          lowercase query.toList <:+: lowercase (query ++ more).toList :=
        fun ends => (lowercase_prefix_iff.mpr ends).isInfix
      simp only [KeepsFinding, Names, true_and, Bool.false_eq_true, reduceIte]
      exact or_iff_right_of_imp inside

/-- Names are passed on from a query to what it names. -/
theorem Names.trans {fromStart : Bool} {query longer name : String}
    (first : anyCase.Names fromStart query longer) (second : anyCase.Names fromStart longer name) :
    anyCase.Names fromStart query name := by
  cases fromStart with
  | true => exact List.IsPrefix.trans first second
  | false => exact List.IsInfix.trans first second

theorem Names.refl (mode : MatchMode) (fromStart : Bool) (name : String) :
    mode.Names fromStart name name := by
  cases mode with
  | exact => rfl
  | anyCase =>
      cases fromStart with
      | true => exact List.prefix_refl _
      | false => exact List.infix_refl _

/-- No name begins with a query and with what it is typed on to when that carries on its final sigma. -/
theorem not_names_both {query more name : String}
    (carries : CarriesOnSigma query.toList more.toList)
    (longer : anyCase.Names true (query ++ more) name) : ¬anyCase.Names true query name := by
  intro short
  change lowercase (query ++ more).toList <+: lowercase name.toList at longer
  change lowercase query.toList <+: lowercase name.toList at short
  rcases exists_lowercase_of_carriesOnSigma carries with ⟨lowered, final, medial, alone, whole⟩
  rw [String.toList_append, whole] at longer
  rw [alone] at short
  -- At the place of the sigma the name would have to hold both of its lower cases.
  have atSigma {c : Char} {rest : List Char} (starts : lowered ++ c :: rest <+: lowercase name.toList) :
      (lowercase name.toList)[lowered.length]? = some c := by
    rcases starts with ⟨ending, shape⟩
    rw [← shape]
    simp
  have sigmas := (atSigma longer).symm.trans (atSigma short)
  exact absurd sigmas (by decide)

end MatchMode

namespace SymbolIndex

/-- What the longer query finds, the query finds. -/
structure Narrows (index : SymbolIndex) (fromStart : Bool) (query longer : String) : Prop where
  symbols : index.getSymbols longer fromStart .anyCase ⊆ index.getSymbols query fromStart .anyCase
  modules : index.getModules longer fromStart .anyCase ⊆ index.getModules query fromStart .anyCase

/-- Nothing that the longer query finds is found by the query. -/
structure FindsApart (index : SymbolIndex) (fromStart : Bool) (query longer : String) : Prop where
  symbols : (index.getSymbols longer fromStart .anyCase).Disjoint
    (index.getSymbols query fromStart .anyCase)
  modules : (index.getModules longer fromStart .anyCase).Disjoint
    (index.getModules query fromStart .anyCase)

/-- What is named like a query typed on is found by the longer query, and by the query itself exactly if
that keeps finding it. -/
structure FindsNamesakes (index : SymbolIndex) (fromStart : Bool) (query more : String) : Prop where
  symbols : ∀ symbol ∈ index.getSymbols (query ++ more) fromStart .exact,
    symbol ∈ index.getSymbols (query ++ more) fromStart .anyCase ∧
      (symbol ∈ index.getSymbols query fromStart .anyCase ↔ MatchMode.KeepsFinding fromStart query more)
  modules : ∀ key ∈ index.getModules (query ++ more) fromStart .exact,
    key ∈ index.getModules (query ++ more) fromStart .anyCase ∧
      (key ∈ index.getModules query fromStart .anyCase ↔ MatchMode.KeepsFinding fromStart query more)

section Keeps

variable {index : SymbolIndex} {contents : FileContents} (keeps : index.Keeps contents)
include keeps

theorem Keeps.mem_getSymbols_iff {query : String} {fromStart : Bool} {mode : MatchMode}
    {symbol : ExportedSymbol} : symbol ∈ index.getSymbols query fromStart mode ↔
      symbol ∈ contents.symbols ∧ mode.Names fromStart query symbol.name :=
  (keeps.lists_getSymbols query fromStart mode).mem_iff symbol

theorem Keeps.mem_getModules_iff {query key : String} {fromStart : Bool} {mode : MatchMode} :
    key ∈ index.getModules query fromStart mode ↔
      key ∈ contents.modules ∧ mode.Names fromStart query key :=
  (keeps.lists_getModules query fromStart mode).mem_iff key

theorem Keeps.narrows {fromStart : Bool} {query longer : String}
    (named : MatchMode.anyCase.Names fromStart query longer) :
    index.Narrows fromStart query longer where
  symbols symbol found := by
    rcases keeps.mem_getSymbols_iff.mp found with ⟨inside, names⟩
    exact keeps.mem_getSymbols_iff.mpr ⟨inside, named.trans names⟩
  modules key found := by
    rcases keeps.mem_getModules_iff.mp found with ⟨inside, names⟩
    exact keeps.mem_getModules_iff.mpr ⟨inside, named.trans names⟩

theorem Keeps.findsApart {query more : String} (carries : CarriesOnSigma query.toList more.toList) :
    index.FindsApart true query (query ++ more) where
  symbols _ long short :=
    MatchMode.not_names_both carries (keeps.mem_getSymbols_iff.mp long).2
      (keeps.mem_getSymbols_iff.mp short).2
  modules _ long short :=
    MatchMode.not_names_both carries (keeps.mem_getModules_iff.mp long).2
      (keeps.mem_getModules_iff.mp short).2

theorem Keeps.findsNamesakes (fromStart : Bool) (query more : String) :
    index.FindsNamesakes fromStart query more where
  symbols symbol exactly := by
    rcases keeps.mem_getSymbols_iff.mp exactly with ⟨inside, (named : symbol.name = query ++ more)⟩
    rw [keeps.mem_getSymbols_iff, keeps.mem_getSymbols_iff, named, MatchMode.keepsFinding_iff_names]
    exact ⟨⟨inside, .refl _ _ _⟩, and_iff_right inside⟩
  modules key exactly := by
    rcases keeps.mem_getModules_iff.mp exactly with ⟨inside, (named : key = query ++ more)⟩
    rw [keeps.mem_getModules_iff, keeps.mem_getModules_iff, named, MatchMode.keepsFinding_iff_names]
    exact ⟨⟨named ▸ inside, .refl _ _ _⟩, and_iff_right (named ▸ inside)⟩

end Keeps

/-- After any history of changes a query finds all that it finds typed on as long as it keeps finding.
What is named like the longer query is found by each beginning that keeps finding, and by no other. Where
the longer query carries on a final sigma, the two have nothing in common from the start of names. -/
theorem afterChanges_narrows (changes : List IndexChange) (query more : String) :
    (∀ fromStart, MatchMode.KeepsFinding fromStart query more →
      (afterChanges changes).Narrows fromStart query (query ++ more)) ∧
    (∀ fromStart, (afterChanges changes).FindsNamesakes fromStart query more) ∧
    (CarriesOnSigma query.toList more.toList →
      (afterChanges changes).FindsApart true query (query ++ more)) := by
  have keeps := afterChanges_keeps changes
  refine ⟨fun fromStart keepsFinding => ?_, fun fromStart => ?_, fun carries => ?_⟩
  · exact keeps.narrows (MatchMode.keepsFinding_iff_names.mp keepsFinding)
  · exact keeps.findsNamesakes fromStart query more
  · exact keeps.findsApart carries

/-- A file that exports a name with a sigma inside of a word, and one with a sigma at the end of one. -/
def sigmaChanges : List IndexChange :=
  [.replaceFile ⟨"ΑΣΑ.ts"⟩ [⟨"ΑΣΑ", .classLike, ⟨"ΑΣΑ.ts"⟩, none⟩, ⟨"ΑΣ_Α", .function, ⟨"ΑΣΑ.ts"⟩, none⟩]]

theorem carriesOnSigma_alpha : CarriesOnSigma "ΑΣ".toList "Α".toList :=
  ⟨['Α'], [], by decide, by decide +kernel, by simp, by decide +kernel⟩

theorem afterChanges_narrows_of_sigmas :
    (MatchMode.KeepsFinding true "ΑΣ" "_" ∧
      (afterChanges sigmaChanges).Narrows true "ΑΣ" ("ΑΣ" ++ "_")) ∧
    CarriesOnSigma "ΑΣ".toList "Α".toList ∧
      (afterChanges sigmaChanges).FindsApart true "ΑΣ" ("ΑΣ" ++ "Α") := by
  have ends : MatchMode.KeepsFinding true "ΑΣ" "_" := by
    refine .inl ?_
    rintro ⟨front, back, -, -, -, carried⟩
    exact absurd carried (by decide +kernel)
  exact ⟨⟨ends, (afterChanges_narrows sigmaChanges "ΑΣ" "_").1 true ends⟩, carriesOnSigma_alpha,
    (afterChanges_narrows sigmaChanges "ΑΣ" "Α").2.2 carriesOnSigma_alpha⟩

/-- A beginning of a name in its own spelling does not find the name, neither from the start of names nor
inside of them, and a beginning of a module does not find the module. -/
theorem not_narrows_of_sigmas :
    (∃ symbol ∈ (afterChanges sigmaChanges).getSymbols ("ΑΣ" ++ "Α") true .anyCase,
      symbol ∉ (afterChanges sigmaChanges).getSymbols "ΑΣ" true .anyCase ∧
        symbol ∉ (afterChanges sigmaChanges).getSymbols "ΑΣ" false .anyCase) ∧
    ∃ key ∈ (afterChanges sigmaChanges).getModules ("ΑΣ" ++ "Α") true .anyCase,
      key ∉ (afterChanges sigmaChanges).getModules "ΑΣ" true .anyCase ∧
        key ∉ (afterChanges sigmaChanges).getModules "ΑΣ" false .anyCase := by
  refine ⟨⟨⟨"ΑΣΑ", .classLike, ⟨"ΑΣΑ.ts"⟩, none⟩, ?_⟩, "ΑΣΑ", ?_⟩
  · decide +kernel
  · decide +kernel

end SymbolIndex

end AutoImport
