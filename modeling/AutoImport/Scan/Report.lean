import AutoImport.Decimal.Seconds
import AutoImport.Path.Basic

/-!
# Scan reports

What a scan of a workspace did, and the files on which it failed.
-/

namespace AutoImport

inductive ScanStage where
  | walk
  | read
  | parse
  deriving DecidableEq, Repr, Inhabited

namespace ScanStage

def label : ScanStage → String
  | .walk => "Walk"
  | .read => "File Read"
  | .parse => "Parse"

def all : List ScanStage :=
  [.walk, .read, .parse]

end ScanStage

structure FileError where
  path : Path
  error : String
  stage : ScanStage
  deriving DecidableEq, Repr, Inhabited

namespace FileError

/-- Failures in the order of their files; failures of one file keep their order. -/
def sort (errors : List FileError) : List FileError :=
  errors.mergeSort fun left right => left.path.compare right.path != .gt

end FileError

structure ScanReport where
  filesScanned : Nat
  filesFailed : Nat
  symbolsIndexed : Nat
  errors : List FileError
  milliseconds : Nat
  /-- A newer scan took over before this one was done. -/
  cancelled : Bool
  deriving DecidableEq, Repr, Inhabited

namespace ScanReport

/-- The report of a scan that was not made. -/
def nothing : ScanReport :=
  ⟨0, 0, 0, [], 0, false⟩

/-- The report of a scan that a newer one took over from. -/
def superseded : ScanReport :=
  ⟨0, 0, 0, [], 0, true⟩

def hasErrors (report : ScanReport) : Bool :=
  !report.errors.isEmpty

/-- The failures of each stage that has any. -/
def byStage (report : ScanReport) : List (ScanStage × List FileError) :=
  (ScanStage.all.map fun stage => (stage, report.errors.filter (·.stage == stage))).filter
    fun (_, errors) => !errors.isEmpty

/-- One line about a scan whose duration is written as given. -/
def summaryWith (report : ScanReport) (duration : String) : String :=
  if report.cancelled then "Scan cancelled"
  else
    "Indexed " ++ toString report.symbolsIndexed ++ " symbols from " ++
      toString report.filesScanned ++ " files in " ++ duration ++ "s" ++
      (if report.filesFailed > 0 then " (" ++ toString report.filesFailed ++ " files failed)" else "")

def summary (report : ScanReport) : String :=
  report.summaryWith (Decimal.showSeconds report.milliseconds)

end ScanReport

end AutoImport
