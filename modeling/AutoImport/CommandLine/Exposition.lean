import AutoImport.Decimal.Seconds
import AutoImport.Indexer.Basic

/-!
# Metrics as text

What was counted, in the text format in which metrics are collected: for each metric a line of help, a
line with its type, and its value. The metrics are in the order of their names.
-/

namespace AutoImport

/-- How the duration of a scan is written where it is shown. -/
structure ShownDuration where
  twoPlaces : String
  threePlaces : String
  /-- The lines that say how the durations of scans are spread. -/
  spread : List String
  deriving DecidableEq, Repr, Inhabited

/-- The name of the metric for durations. -/
def durationMetric : String := "tsimport_scan_duration_seconds"

namespace ShownDuration

/-- The bounds between which durations are spread, in milliseconds, and as they are written. -/
def bounds : List (Nat × String) :=
  [(50, "0.05"), (100, "0.1"), (500, "0.5"), (1000, "1"), (5000, "5"), (10000, "10"), (30000, "30")]

def showThousandths (milliseconds : Nat) : String :=
  let places := toString (milliseconds % 1000)
  toString (milliseconds / 1000) ++ "." ++ String.ofList (List.replicate (3 - places.length) '0') ++
    places

def ofMilliseconds (milliseconds : Nat) : ShownDuration :=
  let bucket (bound : String) (count : Nat) : String :=
    durationMetric ++ "_bucket\x7ble=\"" ++ bound ++ "\"\x7d " ++ toString count
  { twoPlaces := Decimal.showSeconds milliseconds
    threePlaces := showThousandths milliseconds
    spread :=
      bounds.map (fun (bound, shown) => bucket shown (if milliseconds ≤ bound then 1 else 0)) ++
        [bucket "+Inf" 1, durationMetric ++ "_sum " ++ showThousandths milliseconds] }

end ShownDuration

namespace Metrics

/-- The lines of a metric with one value. -/
def expose (name help type : String) (value : Nat) : List String :=
  ["# HELP " ++ name ++ " " ++ help, "# TYPE " ++ name ++ " " ++ type,
    name ++ " " ++ toString value]

def exposition (metrics : Metrics) (shown : ShownDuration) : List String :=
  expose "tsimport_files_scanned_total" "Files parsed and committed to the index" "counter"
      metrics.filesScanned ++
    expose "tsimport_import_edits_total" "Import edits produced" "counter" metrics.importEdits ++
    expose "tsimport_indexed_modules" "Modules currently in the index" "gauge"
      metrics.indexedModules ++
    expose "tsimport_indexed_symbols" "Exported symbols currently in the index" "gauge"
      metrics.indexedSymbols ++
    expose "tsimport_parse_errors_total" "Files that could not be read or parsed" "counter"
      metrics.parseErrors ++
    expose "tsimport_query_requests_total" "Symbol and module lookups served" "counter"
      metrics.queryRequests ++
    ["# HELP " ++ durationMetric ++ " Full workspace scan duration in seconds",
      "# TYPE " ++ durationMetric ++ " histogram"] ++
    shown.spread ++ [durationMetric ++ "_count " ++ toString metrics.timedScans]

end Metrics

end AutoImport
