import AutoImport.Proofs.Glob.Matching
import AutoImport.Scan.Filter

/-!
# What pruning leaves out

A directory is not entered when an excluding pattern without its `/**` fits it. Every file below it is
left out by that pattern, unless the pattern ends with `**//**`. Such a pattern leaves out no file of the
workspace, but the directories that it prunes are not entered.
-/

namespace AutoImport

open Text Glob Component

/-! ## Files below a directory -/

namespace Path

theorem length_startOf_le (piece : List Char) : (startOf piece).length ≤ 1 := by
  unfold startOf
  split
  · exact Nat.le_refl 1
  · exact Nat.le_refl 1
  · cases ofPiece? piece <;> simp

/-- Only the first component of a path can be no step. -/
theorem isStep_of_mem_tail {path : Path} {first : Component} {rest : List Component}
    (shape : path.components = first :: rest) : ∀ step ∈ rest, step.IsStep := by
  cases pieces : splitOn '/' path.spelling.toList with
  | nil => exact absurd pieces (splitOn_ne_nil _ _)
  | cons piece more =>
      have all := isStep_of_mem_pieces path.spelling.toList
      rw [pieces] at all
      have short := length_startOf_le piece
      rw [components, componentsOf_eq pieces] at shape
      intro step member
      have later : step ∈ more.filterMap ofPiece? := by
        split at shape
        · simp at shape
        · rcases List.append_eq_cons_iff.mp shape with ⟨-, whole⟩ | ⟨start, begins, rfl⟩
          · exact whole ▸ List.mem_cons_of_mem first member
          · obtain rfl : start = [] := by
              rw [begins, List.length_cons] at short
              exact List.length_eq_zero_iff.mp (Nat.le_zero.mp (Nat.le_of_succ_le_succ short))
            exact member
      rcases List.mem_filterMap.mp later with ⟨text, inside, read⟩
      exact all step (List.mem_filterMap.mpr ⟨text, List.mem_cons_of_mem _ inside, read⟩)

theorem segment?_of_isStep {step : Component} (isStep : step.IsStep) :
    step.segment? = some step.spelling.toList := by
  cases step with
  | parent => rfl
  | name text => rfl
  | _ => exact isStep.elim

theorem filterMap_segment?_of_isStep {steps : List Component} (all : ∀ step ∈ steps, step.IsStep) :
    steps.filterMap Component.segment? = piecesOf steps := by
  induction steps with
  | nil => rfl
  | cons step steps ih =>
      rcases List.forall_mem_cons.mp all with ⟨first, rest⟩
      rw [List.filterMap_cons, segment?_of_isStep first]
      exact congrArg (_ :: ·) (ih rest)

/-- A path continues the directories above it. -/
theorem exists_slashed_of_below {directory path : Path} (nonempty : directory.slashed ≠ [])
    (within : path.isWithin directory = true) (other : ¬path.Same directory) :
    ∃ rest, path.slashed = directory.slashed ++ '/' :: rest := by
  rcases isWithin_iff.mp within with ⟨below, shape⟩
  have segments : directory.components.filterMap Component.segment? ≠ [] := by
    intro empty
    exact nonempty (by rw [slashed, empty]; rfl)
  have filled : below ≠ [] := by
    rintro rfl
    exact other (by rw [Same, ← shape, List.append_nil])
  cases components : directory.components with
  | nil => simp [components] at segments
  | cons first more =>
      rw [components, List.cons_append] at shape
      have isStep (step : Component) (member : step ∈ below) : step.IsStep :=
        isStep_of_mem_tail shape.symm step (List.mem_append_right more member)
      refine ⟨joinWith ['/'] (piecesOf below), ?_⟩
      rw [slashed, slashed, ← shape, ← List.cons_append, ← components, List.filterMap_append,
        filterMap_segment?_of_isStep isStep,
        joinWith_append segments (by simpa [piecesOf] using filled)]

theorem isAbsolute_of_isWithin {directory path : Path} (relative : directory.isAbsolute = false)
    (nonempty : directory.slashed ≠ []) (within : path.isWithin directory = true) :
    path.isAbsolute = false := by
  rw [Bool.eq_false_iff]
  intro absolute
  rcases isWithin_iff.mp within with ⟨below, shape⟩
  rcases exists_steps_of_absolute absolute with ⟨steps, components, -⟩
  cases spelled : directory.components with
  | nil => exact nonempty (by rw [slashed, spelled]; rfl)
  | cons first rest =>
      rw [spelled, components, List.cons_append] at shape
      obtain rfl := (List.cons.inj shape).1
      have member : Component.root ∈ directory.components.filter (· != .current) := by
        simp [spelled]
      rw [filter_components_of_relative relative] at member
      exact isStep_of_mem_pieces _ _ member

theorem not_hasEmptySegment_joinWith {pieces : List (List Char)} {segment : Bool}
    (filled : ∀ piece ∈ pieces, piece ≠ []) (plain : ∀ piece ∈ pieces, '/' ∉ piece) :
    ¬Pattern.HasEmptySegment segment (joinWith ['/'] pieces) := by
  rintro ⟨front, rest, shape, lead⟩
  have split : splitOn '/' (front ++ '/' :: rest) = splitOn '/' front ++ splitOn '/' rest :=
    splitOn_append_separator '/' front rest
  have nonempty : pieces ≠ [] := by
    rintro rfl
    simp [joinWith] at shape
  rw [← shape, splitOn_joinWith nonempty plain] at split
  -- The piece between the two slashes, or in front of the first one, is empty.
  have empty : [] ∈ splitOn '/' front := by
    rcases lead with ⟨rfl, -⟩ | slash
    · simp [splitOn]
    · rcases endsWith_iff.mp slash with ⟨before, rfl⟩
      rw [splitOn_append_separator]
      simp [splitOn]
  exact filled [] (split ▸ List.mem_append_left _ empty) rfl

/-- No segment of a relative path is empty. -/
theorem not_hasEmptySegment_slashed {path : Path} (relative : path.isAbsolute = false) :
    ¬Pattern.HasEmptySegment true path.slashed := by
  have kept (components : List Component) : (components.filter (· != .current)).filterMap
      Component.segment? = components.filterMap Component.segment? := by
    rw [List.filterMap_filter]
    refine List.filterMap_congr fun component _ => ?_
    cases component <;> rfl
  have all := isStep_of_mem_pieces path.spelling.toList
  rw [slashed, ← kept, filter_components_of_relative relative, filterMap_segment?_of_isStep all]
  refine not_hasEmptySegment_joinWith ?_ (not_mem_piecesOf all)
  rintro piece member rfl
  simpa [isIdlePiece] using not_idle_piecesOf all _ member

end Path

/-! ## One pattern -/

namespace FileFilter

/-- An excluding pattern that leaves out no file. -/
def IsHollow (text : String) : Prop :=
  endsWith ['*', '*', '/', '/', '*', '*'] text.toList = true

instance (text : String) : Decidable (IsHollow text) :=
  inferInstanceAs (Decidable (_ = true))

/-- Whether one excluding pattern keeps a directory from being entered. -/
def prunesBy (text : String) (directory : Path) : Bool :=
  (directoriesOf [text]).any (·.fits directory.slashed)

theorem spells_of_parse? {text : String} {pattern : Pattern} (parsed : Pattern.parse? text = some pattern) :
    Spells true text.toList pattern.tokens := by
  rcases Option.map_eq_some_iff.mp parsed with ⟨tokens, read, rfl⟩
  exact spells_of_parseFrom read

/-- A hollow pattern asks for an empty segment. -/
theorem hasEmptySegment_of_isHollow {text : String} {pattern : Pattern} {path : List Char}
    (hollow : IsHollow text) (parsed : Pattern.parse? text = some pattern)
    (fits : pattern.fits path = true) : Pattern.HasEmptySegment true path := by
  have spells := spells_of_parse? parsed
  rcases endsWith_iff.mp hollow with ⟨front, shape⟩
  have cut : front ++ ['*', '*', '/'] ++ ['/', '*', '*'] = text.toList := by simp [shape]
  rw [← cut] at spells
  rcases spells.exists_anySegments (by decide) with ⟨before, behind, tokens, later⟩
  have slash : Spells true ['/', '*', '*'] [.literal '/', .anySegments] :=
    .literal (by decide) .allSegments
  obtain rfl : [.literal '/', .anySegments] = behind :=
    Option.some.inj (slash.parseFrom.symm.trans later.parseFrom)
  have segmented := spells.segmented
  rw [Pattern.fits, tokens] at fits
  rw [tokens] at segmented
  exact Pattern.hasEmptySegment_of_fitsTokens segmented fits

/-- What is below a pruned directory fits the pattern that prunes it. -/
theorem fits_of_prunesBy {text : String} {pattern : Pattern} {directory : Path} (rest : List Char)
    (solid : ¬IsHollow text) (parsed : Pattern.parse? text = some pattern)
    (pruned : prunesBy text directory = true) :
    pattern.fits (directory.slashed ++ '/' :: rest) = true := by
  rcases List.any_eq_true.mp pruned with ⟨cut, member, fits⟩
  rcases List.mem_filterMap.mp member with ⟨same, single, read⟩
  obtain rfl := List.mem_singleton.mp single
  rcases Option.bind_eq_some_iff.mp read with ⟨front, dropped, parsedCut⟩
  have shape := dropSuffix?_eq_some_iff.mp dropped
  have spells := spells_of_parse? parsedCut
  rw [String.toList_ofList] at spells
  rcases spells.append_segments with ⟨ending, whole, continues⟩
  have tokens : cut.tokens ++ ending = pattern.tokens := by
    have again := (spells_of_parse? parsed).parseFrom
    rw [shape, whole.parseFrom] at again
    exact Option.some.inj again
  rw [Pattern.fits, ← tokens]
  refine Pattern.fitsTokens_append rest ?_ fits
  cases continues with
  | segments => exact .inl rfl
  | slash otherLast => exact .inr ⟨rfl, otherLast⟩
  | twoSlashes hollow =>
      rcases endsWith_iff.mp hollow with ⟨before, rfl⟩
      refine absurd (endsWith_iff.mpr ⟨before, ?_⟩) solid
      rw [shape]
      simp

/-! ## All patterns of the settings -/

theorem exists_parse?_of_mem_parseAll {texts : List String} {patterns : List Pattern}
    (parsed : parseAll texts = .ok patterns) {text : String} (member : text ∈ texts) :
    ∃ pattern ∈ patterns, Pattern.parse? text = some pattern := by
  induction texts generalizing patterns with
  | nil => simp at member
  | cons first texts ih =>
      rw [parseAll] at parsed
      split at parsed
      · simp at parsed
      · rename_i pattern read
        cases later : parseAll texts with
        | error _ => simp [later, Except.map] at parsed
        | ok others =>
            rw [later] at parsed
            obtain rfl : pattern :: others = patterns := by simpa [Except.map] using parsed
            rcases List.mem_cons.mp member with rfl | inside
            · exact ⟨pattern, List.mem_cons_self, read⟩
            · rcases ih later inside with ⟨found, there, readFound⟩
              exact ⟨found, List.mem_cons_of_mem _ there, readFound⟩

theorem ofSettings_eq_ok {settings : ScanSettings} {filter : FileFilter}
    (made : ofSettings settings = .ok filter) :
    parseAll settings.excluding = .ok filter.excluding ∧
      filter.excludedDirectories = directoriesOf settings.excluding := by
  rw [ofSettings] at made
  cases including : parseAll settings.including with
  | error _ => simp [including, bind, Except.bind] at made
  | ok patterns =>
      cases excluding : parseAll settings.excluding with
      | error _ => simp [including, excluding, bind, Except.bind] at made
      | ok others =>
          simp only [including, excluding, bind, Except.bind, Except.ok.injEq] at made
          subst made
          exact ⟨rfl, rfl⟩

theorem prunes_iff {settings : ScanSettings} {filter : FileFilter}
    (made : ofSettings settings = .ok filter) (directory : Path) :
    filter.prunes directory = true ↔ ∃ text ∈ settings.excluding, prunesBy text directory = true := by
  simp only [prunes, (ofSettings_eq_ok made).2, prunesBy, directoriesOf, List.any_eq_true,
    List.mem_filterMap, List.mem_singleton]
  constructor
  · rintro ⟨pattern, ⟨text, member, read⟩, fits⟩
    exact ⟨text, member, pattern, ⟨text, rfl, read⟩, fits⟩
  · rintro ⟨text, member, pattern, ⟨same, rfl, read⟩, fits⟩
    exact ⟨pattern, ⟨same, member, read⟩, fits⟩

theorem accepts_eq_false_of_fits {filter : FileFilter} {pattern : Pattern} {path : Path}
    (member : pattern ∈ filter.excluding) (fits : pattern.fits path.slashed = true) :
    filter.accepts path = false := by
  have left : filter.excluding.any (·.fits path.slashed) = true := List.any_eq_true.mpr ⟨pattern, member, fits⟩
  rw [accepts, left, Bool.not_true, Bool.and_false]

/-- Below a directory that is not the root, pruning loses a file exactly where a hollow pattern prunes the
directory, and a hollow pattern itself leaves out none. -/
theorem prunes_loses_iff {settings : ScanSettings} {filter : FileFilter} {directory file : Path}
    (made : ofSettings settings = .ok filter) (relative : directory.isAbsolute = false)
    (belowRoot : directory.slashed ≠ []) (within : file.isWithin directory = true)
    (other : ¬file.Same directory) :
    ((filter.prunes directory = true → filter.accepts file = false) ↔
      (filter.accepts file = true →
        ∀ text ∈ settings.excluding, IsHollow text → prunesBy text directory = false)) ∧
      ∀ text, IsHollow text → ∀ pattern, Pattern.parse? text = some pattern →
        pattern.fits file.slashed = false := by
  rcases Path.exists_slashed_of_below belowRoot within other with ⟨rest, below⟩
  refine ⟨⟨fun safe accepted text member _ => ?_, fun solid pruned => ?_⟩, fun text hollow pattern parsed => ?_⟩
  · rw [Bool.eq_false_iff]
    intro pruned
    have refused := safe ((prunes_iff made directory).mpr ⟨text, member, pruned⟩)
    simp [accepted] at refused
  · rcases (prunes_iff made directory).mp pruned with ⟨text, member, prunedBy⟩
    by_cases hollow : IsHollow text
    · rw [Bool.eq_false_iff]
      intro accepted
      simp [solid accepted text member hollow] at prunedBy
    · rcases exists_parse?_of_mem_parseAll (ofSettings_eq_ok made).1 member with ⟨pattern, there, parsed⟩
      refine accepts_eq_false_of_fits there ?_
      rw [below]
      exact fits_of_prunesBy rest hollow parsed prunedBy
  · rw [Bool.eq_false_iff]
    intro fits
    exact Path.not_hasEmptySegment_slashed (Path.isAbsolute_of_isWithin relative belowRoot within)
      (hasEmptySegment_of_isHollow hollow parsed fits)

/-- All TypeScript files but those below `dist`. -/
theorem prunes_loses_iff_of_dist :
    let filter : FileFilter :=
      ⟨[⟨[.anySegments, .anyRun, .literal '.', .literal 't', .literal 's']⟩],
        [⟨[.literal 'd', .literal 'i', .literal 's', .literal 't', .literal '/', .anySegments]⟩],
        [⟨[.literal 'd', .literal 'i', .literal 's', .literal 't']⟩]⟩
    ofSettings ⟨["**/*.ts"], ["dist/**"], true, none⟩ = .ok filter ∧
      filter.prunes ⟨"dist"⟩ = true ∧ filter.accepts ⟨"dist/a/x.ts"⟩ = false := by
  intro filter
  have made : ofSettings ⟨["**/*.ts"], ["dist/**"], true, none⟩ = .ok filter := by decide +kernel
  have pruned : filter.prunes ⟨"dist"⟩ = true := by decide +kernel
  have relative : Path.isAbsolute ⟨"dist"⟩ = false := by decide +kernel
  have belowRoot : Path.slashed ⟨"dist"⟩ ≠ [] := by decide +kernel
  have within : Path.isWithin ⟨"dist/a/x.ts"⟩ ⟨"dist"⟩ = true := by decide +kernel
  have other : ¬Path.Same ⟨"dist/a/x.ts"⟩ ⟨"dist"⟩ := by decide +kernel
  have safe := (prunes_loses_iff made relative belowRoot within other).1.mpr
  refine ⟨made, pruned, safe (fun _ text member hollow => ?_) pruned⟩
  obtain rfl := List.mem_singleton.mp member
  exact absurd hollow (by decide +kernel)

/-- No directory is entered, although no file is left out. -/
theorem accepts_of_pruned_by_hollow :
    let filter : FileFilter :=
      ⟨[⟨[.anySegments, .anyRun, .literal '.', .literal 't', .literal 's']⟩],
        [⟨[.anySegments, .literal '/', .anySegments]⟩], [⟨[.anySegments]⟩]⟩
    ofSettings ⟨["**/*.ts"], ["**//**"], true, none⟩ = .ok filter ∧
      Path.isWithin ⟨"a/x.ts"⟩ ⟨"a"⟩ = true ∧ filter.prunes ⟨"a"⟩ = true ∧
      filter.accepts ⟨"a/x.ts"⟩ = true := by
  decide +kernel

end FileFilter

end AutoImport
