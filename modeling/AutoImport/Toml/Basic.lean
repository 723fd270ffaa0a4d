/-!
# TOML

The values that a document of TOML holds, and how statements fill its tables. A table is opened by a
header once, and names with dots do not reach into a table that was opened otherwise.
-/

namespace AutoImport

/-- How a table came to be. -/
inductive TableOrigin where
  /-- A header opened it. -/
  | header
  /-- It is above a table that a header opened. -/
  | implied
  /-- A name with dots leads through it. -/
  | dotted
  /-- It was written as a value. -/
  | inline
  deriving DecidableEq, Repr, Inhabited

inductive Toml where
  | string (value : String)
  | integer (value : Int)
  /-- A number with a fraction or an exponent, or one that is no number. -/
  | real
  | truth (value : Bool)
  /-- A date, a time, or both. -/
  | moment
  | list (items : List Toml)
  | table (origin : TableOrigin) (entries : List (String × Toml))
  /-- Tables that headers opened under one name. -/
  | tables (items : List Toml)
  deriving Inhabited

namespace Toml

def newTable : Toml :=
  .table .header []

def emptyDocument : Toml :=
  newTable

/-- Entries with the value of a name replaced. -/
def replaceEntry (name : String) (value : Toml) (entries : List (String × Toml)) :
    List (String × Toml) :=
  entries.map fun entry => if entry.1 == name then (name, value) else entry

/-- A list with its last item changed. -/
def changeLast? {α : Type} (change : α → Option α) : List α → Option (List α)
  | [] => none
  | [item] => (change item).map fun item => [item]
  | item :: items => (changeLast? change items).map (item :: ·)

/-- Whether names that have dots lead through a table of the given origin. -/
def TableOrigin.isOpen (viaDots : Bool) : TableOrigin → Bool
  | .header => !viaDots
  | .implied | .dotted => true
  | .inline => false

/-- A table in which the table that names lead to is changed. Tables that are missing on the way are
made. Of tables under one name the last one is meant. -/
def within? (viaDots : Bool) (change : Toml → Option Toml) : List String → Toml → Option Toml
  | [], here => change here
  | name :: names, .table origin entries =>
    match entries.lookup name with
    | none =>
      (within? viaDots change names (.table (if viaDots then .dotted else .implied) [])).map
        fun child => .table origin (entries ++ [(name, child)])
    | some (.table childOrigin childEntries) =>
      -- A table that was opened otherwise is closed to these names.
      if TableOrigin.isOpen viaDots childOrigin then
        (within? viaDots change names (.table childOrigin childEntries)).map
          fun child => .table origin (replaceEntry name child entries)
      else none
    | some (.tables items) =>
      (changeLast? (within? viaDots change names) items).map
        fun items => .table origin (replaceEntry name (.tables items) entries)
    | some _ => none
  | _ :: _, _ => none

/-- A table with a new entry. When its name had dots, the table has to be one that names with dots lead
to. -/
def insert? (afterDots : Bool) (name : String) (value : Toml) : Toml → Option Toml
  | .table origin entries =>
    if (origin == .dotted) == afterDots && (entries.lookup name).isNone then
      some (.table origin (entries ++ [(name, value)]))
    else none
  | _ => none

/-- A table with a new entry under a name, which may have dots. -/
def set? (path : List String) (name : String) (value : Toml) (target : Toml) : Option Toml :=
  within? true (insert? (!path.isEmpty) name value) path target

/-- A table in which a header opens a table. -/
def openTable? (name : String) : Toml → Option Toml
  | .table origin entries =>
    match entries.lookup name with
    | none => some (.table origin (entries ++ [(name, newTable)]))
    -- A header may still come for a table that was only on the way to another.
    | some (.table .implied children) =>
      some (.table origin (replaceEntry name (.table .header children) entries))
    | some _ => none
  | _ => none

/-- A table in which a header opens one more table of the same name. -/
def openNext? (name : String) : Toml → Option Toml
  | .table origin entries =>
    match entries.lookup name with
    | none => some (.table origin (entries ++ [(name, .tables [newTable])]))
    | some (.tables items) =>
      some (.table origin (replaceEntry name (.tables (items ++ [newTable])) entries))
    | some _ => none
  | _ => none

/-! ## Documents -/

/-- A statement of a document. The last name of a path stands apart. -/
inductive Statement where
  /-- `[path.name]` -/
  | header (path : List String) (name : String)
  /-- `[[path.name]]` -/
  | nextHeader (path : List String) (name : String)
  /-- `path.name = value` -/
  | setting (path : List String) (name : String) (value : Toml)
  deriving Inhabited

/-- A document while it is read: what it holds so far, and the names of the table that is being
filled. -/
structure Draft where
  document : Toml
  current : List String
  deriving Inhabited

def Draft.start : Draft :=
  ⟨emptyDocument, []⟩

/-- A document after one more statement. -/
def Draft.add? (draft : Draft) : Statement → Option Draft
  | .header path name =>
    (within? false (openTable? name) path draft.document).map (⟨·, path ++ [name]⟩)
  | .nextHeader path name =>
    (within? false (openNext? name) path draft.document).map (⟨·, path ++ [name]⟩)
  | .setting path name value =>
    (within? false (set? path name value) draft.current draft.document).map (⟨·, draft.current⟩)

def ofStatements? (statements : List Statement) : Option Toml :=
  (statements.foldlM Draft.add? Draft.start).map Draft.document

/-- The table that settings in braces make up. -/
def inlineTable? (settings : List (List String × String × Toml)) : Option Toml := do
  let filled ← settings.foldlM (fun target (path, name, value) => set? path name value target)
    (.table .implied [])
  match filled with
  | .table _ entries => some (.table .inline entries)
  | _ => none

end Toml

end AutoImport
