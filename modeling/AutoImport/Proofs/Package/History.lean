import AutoImport.Package.Cache
import AutoImport.Proofs.Package.Specifier
import Mathlib.Data.List.TakeWhile

/-!
# Histories of remembered packages

Files are looked up while the tree changes, and now and then everything is forgotten. What is answered
about a file of an installed package is what its manifest said when a file of the package was looked up
for the first time since then, whether the manifest was of use or not.
-/

namespace AutoImport

open Text

namespace PackageFile

/-! ## Files of installed packages -/

/-- The names on the way to a package from the directory of installed packages. -/
inductive NamesPackage : List String → Prop where
  | alone {name : String} (unscoped : startsWith ['@'] name.toList = false) : NamesPackage [name]
  | inScope {scope name : String} (isScope : startsWith ['@'] scope.toList = true) :
      NamesPackage [scope, name]

theorem packageDepth_of_unscoped {name : String} (unscoped : startsWith ['@'] name.toList = false) :
    packageDepth name = 1 := by
  simp [packageDepth, unscoped]

theorem packageDepth_of_scope {name : String} (isScope : startsWith ['@'] name.toList = true) :
    packageDepth name = 2 := by
  simp [packageDepth, isScope]

/-- The last directory of installed packages on a path is followed by a package, whose directory is given,
and then by a file of the package. -/
def LiesInPackage (path : Path) (directory file : List String) : Prop :=
  ∃ outer package, namesOf path = outer ++ modulesName :: (package ++ file) ∧
    modulesName ∉ package ++ file ∧ NamesPackage package ∧ file ≠ [] ∧
      directory = outer ++ modulesName :: package

theorem inside_of_namesOf {outer inside : List String} (outside : modulesName ∉ inside) :
    ((outer ++ modulesName :: inside).reverse.takeWhile (· != modulesName)).reverse = inside := by
  have reversed : (outer ++ modulesName :: inside).reverse =
      inside.reverse ++ modulesName :: outer.reverse := by simp
  rw [reversed, List.takeWhile_append_of_pos (bne_of_mem_reverse outside),
    List.takeWhile_cons_of_neg (by simp), List.append_nil, List.reverse_reverse]

theorem ofPath?_of_namesOf {path : Path} {outer inside : List String}
    (names : namesOf path = outer ++ modulesName :: inside) (outside : modulesName ∉ inside) :
    ofPath? path =
      match inside with
      | [] => none
      | first :: _ =>
        if inside.length ≤ packageDepth first then none
        else some ⟨outer ++ modulesName :: inside.take (packageDepth first),
          inside.drop (packageDepth first)⟩ := by
  have front : (outer ++ modulesName :: inside).take
      ((outer ++ modulesName :: inside).length - inside.length) = outer ++ [modulesName] := by
    have length : (outer ++ modulesName :: inside).length - inside.length =
        (outer ++ [modulesName]).length := by
      simp only [List.length_append, List.length_cons, List.length_nil]
      omega
    rw [length, List.append_cons outer modulesName inside, List.take_left]
  have shorter : (inside.length == (outer ++ modulesName :: inside).length) = false := by
    rw [beq_eq_false_iff_ne, List.length_append, List.length_cons]
    omega
  simp only [ofPath?, names, inside_of_namesOf outside, front, shorter, Bool.false_eq_true, if_false,
    List.append_assoc, List.singleton_append]
  cases inside <;> rfl

theorem exists_namesOf_eq {path : Path} (member : modulesName ∈ namesOf path) :
    ∃ outer inside, namesOf path = outer ++ modulesName :: inside ∧ modulesName ∉ inside := by
  rcases List.eq_append_cons_of_mem (List.mem_reverse.mpr member) with ⟨inside, outer, turned, outside⟩
  refine ⟨outer.reverse, inside.reverse, ?_, by simpa using outside⟩
  rw [← List.reverse_reverse (namesOf path), turned]
  simp

theorem mem_namesOf_of_ofPath? {path : Path} {found : PackageFile} (inPackage : ofPath? path = some found) :
    modulesName ∈ namesOf path := by
  by_contra outside
  rw [ofPath?, List.takeWhile_eq_self_iff.mpr (bne_of_mem_reverse outside), List.reverse_reverse]
    at inPackage
  simp at inPackage

theorem ofPath?_eq_some_iff {path : Path} {directory file : List String} :
    ofPath? path = some ⟨directory, file⟩ ↔ LiesInPackage path directory file := by
  constructor
  · intro inPackage
    rcases exists_namesOf_eq (mem_namesOf_of_ofPath? inPackage) with ⟨outer, inside, names, outside⟩
    rw [ofPath?_of_namesOf names outside] at inPackage
    cases inside with
    | nil => simp at inPackage
    | cons first rest =>
        cases scope : startsWith ['@'] first.toList with
        | false =>
            simp only [packageDepth_of_unscoped scope] at inPackage
            cases rest with
            | nil => simp at inPackage
            | cons second rest =>
                obtain ⟨rfl, rfl⟩ : outer ++ modulesName :: [first] = directory ∧ second :: rest = file := by
                  simpa using inPackage
                exact ⟨outer, [first], names, outside, .alone scope, List.cons_ne_nil _ _, rfl⟩
        | true =>
            simp only [packageDepth_of_scope scope] at inPackage
            rcases rest with _ | ⟨second, _ | ⟨third, rest⟩⟩
            · simp at inPackage
            · simp at inPackage
            · obtain ⟨rfl, rfl⟩ : outer ++ modulesName :: [first, second] = directory ∧
                  third :: rest = file := by simpa using inPackage
              exact ⟨outer, [first, second], names, outside, .inScope scope, List.cons_ne_nil _ _, rfl⟩
  · rintro ⟨outer, package, names, outside, named, nonempty, rfl⟩
    rw [ofPath?_of_namesOf names outside]
    rcases List.exists_cons_of_ne_nil nonempty with ⟨first, rest, rfl⟩
    cases named with
    | alone unscoped => simp [packageDepth_of_unscoped unscoped]
    | inScope isScope => simp [packageDepth_of_scope isScope]

theorem ofPath?_eq_none {path : Path}
    (elsewhere : ∀ directory file, ¬LiesInPackage path directory file) : ofPath? path = none :=
  Option.eq_none_iff_forall_ne_some.mpr fun found inPackage =>
    elsewhere found.directory found.file (ofPath?_eq_some_iff.mp inPackage)

end PackageFile

namespace PackageCache

open PackageFile

/-! ## What happens to remembered packages -/

/-- Something that happens between two look ups, or a look up. -/
inductive Event where
  | lookUp (path : Path)
  | forget
  /-- The files are others from now on. -/
  | change (tree : FileTree)
  deriving Repr

/-- The files and what is remembered of the packages among them. -/
structure Moment where
  tree : FileTree
  cache : PackageCache
  deriving Repr

/-- The next moment after something happens in a workspace. -/
def Moment.after (root : Path) (moment : Moment) : Event → Moment
  | .lookUp path => ⟨moment.tree, (moment.cache.specifierFor moment.tree root path).2⟩
  | .forget => ⟨moment.tree, .empty⟩
  | .change tree => ⟨tree, moment.cache⟩

/-- The moment after all events, of which the first one comes when nothing is remembered. -/
def momentAfter (root : Path) (start : FileTree) (events : List Event) : Moment :=
  events.foldl (Moment.after root) ⟨start, .empty⟩

/-- The specifier that is given for a file after events. -/
def answerAfter (root : Path) (start : FileTree) (events : List Event) (path : Path) : Option String :=
  ((momentAfter root start events).cache.specifierFor (momentAfter root start events).tree root path).1

/-- An event is a look up of a file of the package in a directory. -/
def Event.AsksFor (event : Event) (directory : List String) : Prop :=
  ∃ path file, event = .lookUp path ∧ LiesInPackage path directory file

/-- The files after an event. -/
def Event.treeAfter (tree : FileTree) : Event → FileTree
  | .change other => other
  | _ => tree

def treeAfter (start : FileTree) (events : List Event) : FileTree :=
  events.foldl Event.treeAfter start

/-- No file of a package was looked up since everything was forgotten for the last time. -/
inductive Unasked (directory : List String) : List Event → Prop where
  | start : Unasked directory []
  | forgotten (events : List Event) : Unasked directory (events ++ [.forget])
  | other {events : List Event} {event : Event} (before : Unasked directory events)
      (silent : ¬event.AsksFor directory) : Unasked directory (events ++ [event])

/-- Since everything was forgotten for the last time a file of a package was first looked up while the
files were those of a tree. -/
inductive FirstLookUp (start : FileTree) (directory : List String) (tree : FileTree) :
    List Event → Prop where
  | now {events : List Event} {event : Event} (before : Unasked directory events)
      (asks : event.AsksFor directory) (current : treeAfter start events = tree) :
      FirstLookUp start directory tree (events ++ [event])
  | earlier {events : List Event} {event : Event} (before : FirstLookUp start directory tree events)
      (kept : event ≠ .forget) : FirstLookUp start directory tree (events ++ [event])

theorem unasked_or_firstLookUp (start : FileTree) (directory : List String) (events : List Event) :
    Unasked directory events ∨ ∃ tree, FirstLookUp start directory tree events := by
  induction events using List.reverseRecOn with
  | nil => exact .inl .start
  | append_singleton events event ih =>
      -- A look up is the first one only if none came before; later ones leave what was read then.
      by_cases forgets : event = .forget
      · exact .inl (forgets ▸ .forgotten events)
      · rcases ih with before | ⟨tree, before⟩
        · by_cases asks : event.AsksFor directory
          · exact .inr ⟨_, .now before asks rfl⟩
          · exact .inl (.other before asks)
        · exact .inr ⟨tree, .earlier before forgets⟩

/-! ## What one event does to what is remembered -/

section LookUp

variable {cache : PackageCache} {tree : FileTree} {root : Path} {directory other : List String}
  {package? : Option Package}

theorem lookup_lookUp_self :
    (cache.lookUp tree root directory).2.known.lookup directory =
      some (cache.lookUp tree root directory).1 := by
  rw [lookUp]
  cases known : cache.known.lookup directory with
  | some package? => exact known
  | none => exact List.lookup_cons_self

theorem lookUp_of_unknown (unknown : cache.known.lookup directory = none) :
    (cache.lookUp tree root directory).1 = readPackage? tree root directory := by
  rw [lookUp, unknown]

theorem lookup_lookUp_of_ne (apart : directory ≠ other) :
    (cache.lookUp tree root other).2.known.lookup directory = cache.known.lookup directory := by
  rw [lookUp]
  cases cache.known.lookup other with
  | some package? => rfl
  | none =>
      have unlike : (directory == other) = false := by simpa using apart
      simp only [List.lookup_cons, unlike]

theorem lookup_lookUp_of_known (known : cache.known.lookup directory = some package?) :
    (cache.lookUp tree root other).2.known.lookup directory = some package? := by
  by_cases same : directory = other
  · rw [lookUp, ← same, known]
    exact known
  · rw [lookup_lookUp_of_ne same, known]

end LookUp

theorem specifierFor_of_liesInPackage {cache : PackageCache} {tree : FileTree} {root path : Path}
    {directory file : List String} (lies : LiesInPackage path directory file) :
    cache.specifierFor tree root path =
      ((cache.lookUp tree root directory).1.map (·.specifier (Package.textOf file)),
        (cache.lookUp tree root directory).2) := by
  rw [specifierFor, ofPath?_eq_some_iff.mpr lies]
  rfl

section Event

variable {root : Path} {moment : Moment} {event : Event} {directory : List String}
  {package? : Option Package}

theorem lookup_after_of_known (known : moment.cache.known.lookup directory = some package?)
    (kept : event ≠ .forget) : (moment.after root event).cache.known.lookup directory = some package? := by
  cases event with
  | forget => exact absurd rfl kept
  | change tree => exact known
  | lookUp path =>
      rw [Moment.after, specifierFor]
      cases ofPath? path with
      | none => exact known
      | some found => exact lookup_lookUp_of_known known

theorem lookup_after_of_silent (unknown : moment.cache.known.lookup directory = none)
    (silent : ¬event.AsksFor directory) :
    (moment.after root event).cache.known.lookup directory = none := by
  cases event with
  | forget => rfl
  | change tree => exact unknown
  | lookUp path =>
      rw [Moment.after, specifierFor]
      cases inPackage : ofPath? path with
      | none => exact unknown
      | some found =>
          have apart : directory ≠ found.directory := by
            rintro rfl
            exact silent ⟨path, found.file, rfl, ofPath?_eq_some_iff.mp inPackage⟩
          exact (lookup_lookUp_of_ne apart).trans unknown

theorem lookup_after_of_asks (unknown : moment.cache.known.lookup directory = none)
    (asks : event.AsksFor directory) :
    (moment.after root event).cache.known.lookup directory =
      some (readPackage? moment.tree root directory) := by
  rcases asks with ⟨path, file, rfl, lies⟩
  rw [Moment.after, specifierFor_of_liesInPackage lies, ← lookUp_of_unknown unknown]
  exact lookup_lookUp_self

end Event

/-! ## What is remembered after a history -/

section History

variable (root : Path) {start tree : FileTree} {events : List Event} {directory : List String}

theorem momentAfter_concat (start : FileTree) (events : List Event) (event : Event) :
    momentAfter root start (events ++ [event]) = (momentAfter root start events).after root event := by
  rw [momentAfter, List.foldl_append]
  rfl

theorem treeAfter_concat (start : FileTree) (events : List Event) (event : Event) :
    treeAfter start (events ++ [event]) = event.treeAfter (treeAfter start events) := by
  rw [treeAfter, List.foldl_append]
  rfl

theorem tree_momentAfter (start : FileTree) (events : List Event) :
    (momentAfter root start events).tree = treeAfter start events := by
  induction events using List.reverseRecOn with
  | nil => rfl
  | append_singleton events event ih =>
      rw [momentAfter_concat, treeAfter_concat, ← ih]
      cases event <;> rfl

theorem lookup_of_unasked (unasked : Unasked directory events) :
    (momentAfter root start events).cache.known.lookup directory = none := by
  induction unasked with
  | start => rfl
  | forgotten events =>
      rw [momentAfter_concat]
      rfl
  | other before silent ih =>
      rw [momentAfter_concat]
      exact lookup_after_of_silent ih silent

theorem lookup_of_firstLookUp (first : FirstLookUp start directory tree events) :
    (momentAfter root start events).cache.known.lookup directory =
      some (readPackage? tree root directory) := by
  induction first with
  | now before asks current =>
      rw [momentAfter_concat, lookup_after_of_asks (lookup_of_unasked root before) asks, tree_momentAfter,
        current]
  | earlier before kept ih =>
      rw [momentAfter_concat]
      exact lookup_after_of_known ih kept

end History

/-- The manifest of a package in a directory of the workspace is there and can be read. -/
def HasManifest (tree : FileTree) (root : Path) (directory : List String) (manifest : Manifest) : Prop :=
  ∃ content text, tree.content? (root.join (.ofNames (directory ++ ["package.json"]))) = some content ∧
    content.text? = some text ∧ Manifest.ofText? text = some manifest

/-- With the files of a tree a file of a package has a specifier: the manifest of the package gives it a
name, and the specifier is that of the package of this name and of the entry of the manifest. -/
def GivesSpecifier (tree : FileTree) (root : Path) (directory file : List String) (specifier : String) :
    Prop :=
  ∃ (manifest : Manifest) (package : Package), HasManifest tree root directory manifest ∧
    manifest.name = some package.name ∧ package.name ≠ "" ∧
      package.entryKey = Package.keyOf (Package.dropCurrent manifest.entry.toList) ∧
        package.entryDirectory = Package.directoryOf (Package.dropCurrent manifest.entry.toList) ∧
          specifier = package.specifier (Package.textOf file)

theorem readPackage?_eq_some_iff {tree : FileTree} {root : Path} {directory : List String}
    {package : Package} : readPackage? tree root directory = some package ↔
      ∃ manifest, HasManifest tree root directory manifest ∧
        Package.ofManifest? manifest = some package := by
  have place : Path.ofComponents (directory.map Component.name ++ [.name "package.json"]) =
      .ofNames (directory ++ ["package.json"]) := by
    simp [Path.ofNames]
  rw [readPackage?]
  simp only [place, HasManifest, Option.bind_eq_bind, Option.bind_eq_some_iff]
  constructor
  · rintro ⟨content, there, text, reads, manifest, spelled, described⟩
    exact ⟨manifest, ⟨content, text, there, reads, spelled⟩, described⟩
  · rintro ⟨manifest, ⟨content, text, there, reads, spelled⟩, described⟩
    exact ⟨content, there, text, reads, manifest, spelled, described⟩

theorem map_readPackage?_eq_some_iff {tree : FileTree} {root : Path} {directory file : List String}
    {specifier : String} :
    (readPackage? tree root directory).map (·.specifier (Package.textOf file)) = some specifier ↔
      GivesSpecifier tree root directory file specifier := by
  simp only [Option.map_eq_some_iff, readPackage?_eq_some_iff, Package.ofManifest?_eq_some_iff,
    GivesSpecifier]
  constructor
  · rintro ⟨package, ⟨manifest, has, named, nonempty, key, entry⟩, rfl⟩
    exact ⟨manifest, package, has, named, nonempty, key, entry, rfl⟩
  · rintro ⟨manifest, package, has, named, nonempty, key, entry, rfl⟩
    exact ⟨package, ⟨manifest, has, named, nonempty, key, entry⟩, rfl⟩

theorem answerAfter_eq {root path : Path} {start : FileTree} {events : List Event}
    {directory file : List String} (lies : LiesInPackage path directory file) :
    ((momentAfter root start (events ++ [.lookUp path])).cache.known.lookup directory).map
        (·.map (·.specifier (Package.textOf file))) =
      some (answerAfter root start events path) := by
  rw [answerAfter, momentAfter_concat, Moment.after, specifierFor_of_liesInPackage lies,
    lookup_lookUp_self]
  rfl

/-- After any history a file outside of installed packages has no specifier, and one of a package has the
specifier that the package had for it when the package was first looked up since everything was
forgotten. -/
theorem answerAfter_history (root : Path) (start : FileTree) (events : List Event) (path : Path) :
    ((∀ directory file, ¬LiesInPackage path directory file) →
      answerAfter root start events path = none) ∧
    ∀ directory file, LiesInPackage path directory file →
      (∃ tree, FirstLookUp start directory tree (events ++ [.lookUp path])) ∧
        ∀ tree, FirstLookUp start directory tree (events ++ [.lookUp path]) →
          ∀ specifier, answerAfter root start events path = some specifier ↔
            GivesSpecifier tree root directory file specifier := by
  refine ⟨fun elsewhere => ?_, fun directory file lies => ⟨?_, fun tree first specifier => ?_⟩⟩
  · rw [answerAfter, specifierFor, ofPath?_eq_none elsewhere]
  · rcases unasked_or_firstLookUp start directory events with unasked | ⟨tree, first⟩
    · exact ⟨_, .now unasked ⟨path, file, rfl, lies⟩ rfl⟩
    · exact ⟨tree, .earlier first (by simp)⟩
  · have answer : _ = some (answerAfter root start events path) := answerAfter_eq lies
    rw [lookup_of_firstLookUp root first, Option.map_some, Option.some_inj] at answer
    rw [← answer, map_readPackage?_eq_some_iff]

/-- A workspace with one package, whose manifest is given. -/
def withPackage (manifest : String) : FileTree :=
  ⟨[(["w"], .directory), (["w", "node_modules"], .directory), (["w", "node_modules", "pkg"], .directory),
    (["w", "node_modules", "pkg", "package.json"], .file (.text manifest))]⟩

def oldPackage : FileTree :=
  withPackage "\x7b\"name\":\"old\"\x7d"

def newPackage : FileTree :=
  withPackage "\x7b\"name\":\"new\"\x7d"

theorem oldPackage_hasManifest :
    HasManifest oldPackage ⟨"/w"⟩ ["node_modules", "pkg"] ⟨some "old", none, none, none⟩ :=
  ⟨.text "\x7b\"name\":\"old\"\x7d", _, by decide +kernel, rfl, by decide +kernel⟩

/-- The name of a package is changed after a first look up. It is the old name until everything is
forgotten. -/
theorem answerAfter_history_of_renaming :
    answerAfter ⟨"/w"⟩ oldPackage [.lookUp ⟨"node_modules/pkg/a.ts"⟩, .change newPackage]
        ⟨"node_modules/pkg/b.ts"⟩ = some "old/b" ∧
      answerAfter ⟨"/w"⟩ oldPackage [.lookUp ⟨"node_modules/pkg/a.ts"⟩, .change newPackage, .forget]
        ⟨"node_modules/pkg/b.ts"⟩ = some "new/b" := by
  have lies : LiesInPackage ⟨"node_modules/pkg/b.ts"⟩ ["node_modules", "pkg"] ["b.ts"] :=
    ⟨[], ["pkg"], by decide +kernel, by decide, .alone (by decide), by decide, rfl⟩
  have asks : Event.AsksFor (.lookUp ⟨"node_modules/pkg/a.ts"⟩) ["node_modules", "pkg"] :=
    ⟨_, ["a.ts"], rfl, [], ["pkg"], by decide +kernel, by decide, .alone (by decide), by decide, rfl⟩
  have remembered : FirstLookUp oldPackage ["node_modules", "pkg"] oldPackage
      ([] ++ [.lookUp ⟨"node_modules/pkg/a.ts"⟩] ++ [.change newPackage] ++
        [.lookUp ⟨"node_modules/pkg/b.ts"⟩]) :=
    .earlier (.earlier (.now .start asks rfl) (by simp)) (by simp)
  have readAgain : FirstLookUp oldPackage ["node_modules", "pkg"] newPackage
      ([.lookUp ⟨"node_modules/pkg/a.ts"⟩, .change newPackage] ++ [.forget] ++
        [.lookUp ⟨"node_modules/pkg/b.ts"⟩]) :=
    .now (.forgotten _) ⟨_, _, rfl, lies⟩ rfl
  constructor
  · refine (((answerAfter_history ⟨"/w"⟩ _ _ _).2 _ _ lies).2 _ remembered _).mpr ?_
    exact ⟨_, ⟨"old", "index".toList, []⟩, oldPackage_hasManifest, rfl, by decide, by decide +kernel,
      by decide +kernel, by decide +kernel⟩
  · refine (((answerAfter_history ⟨"/w"⟩ _ _ _).2 _ _ lies).2 _ readAgain _).mpr ?_
    exact ⟨⟨some "new", none, none, none⟩, ⟨"new", "index".toList, []⟩,
      ⟨.text "\x7b\"name\":\"new\"\x7d", _, by decide +kernel, rfl, by decide +kernel⟩, rfl, by decide,
      by decide +kernel, by decide +kernel, by decide +kernel⟩

/-- A directory of installed packages in a package hides the package, also when no package follows. -/
theorem answerAfter_of_nested_modules :
    namesOf ⟨"node_modules/pkg/node_modules/x.ts"⟩ =
        ["node_modules"] ++ ["pkg"] ++ ["node_modules", "x.ts"] ∧
      NamesPackage ["pkg"] ∧
      GivesSpecifier oldPackage ⟨"/w"⟩ ["node_modules", "pkg"] ["node_modules", "x.ts"]
        "old/node_modules/x" ∧
      answerAfter ⟨"/w"⟩ oldPackage [] ⟨"node_modules/pkg/node_modules/x.ts"⟩ = none := by
  refine ⟨by decide +kernel, .alone (by decide), ?_, by decide +kernel⟩
  exact ⟨_, ⟨"old", "index".toList, []⟩, oldPackage_hasManifest, rfl, by decide, by decide +kernel,
    by decide +kernel, by decide +kernel⟩

end PackageCache

end AutoImport
