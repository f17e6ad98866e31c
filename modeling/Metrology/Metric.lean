import Metrology.Value

/-! # Metrics

A metric is a named, typed quantity that can be measured. Several metric types share one type of
value: a duration is a long, a percentage a double.
-/

namespace Metrology

/-- The declared types of metrics. -/
inductive MetricType where
  | int
  | float
  | percent
  | bool
  | string
  | millisec
  | data
  | level
  | distrib
  | rating
  | workDur
deriving DecidableEq

instance : Named MetricType where
  all := [.int, .float, .percent, .bool, .string, .millisec, .data, .level, .distrib, .rating,
    .workDur]
  label
    | .int => "INT"
    | .float => "FLOAT"
    | .percent => "PERCENT"
    | .bool => "BOOL"
    | .string => "STRING"
    | .millisec => "MILLISEC"
    | .data => "DATA"
    | .level => "LEVEL"
    | .distrib => "DISTRIB"
    | .rating => "RATING"
    | .workDur => "WORK_DUR"

/-- The type of the values that measures of a metric of this type hold. -/
def MetricType.valueType : MetricType → ValueType
  | .int | .rating => .int
  | .millisec | .workDur => .long
  | .float | .percent => .double
  | .bool => .boolean
  | .string | .data | .distrib => .string
  | .level => .level

/-- A quantity that can be measured. -/
structure Metric where
  /-- Identifies the metric, for instance `ncloc`. -/
  key : String
  type : MetricType
  /-- The name shown to people. -/
  name : String := key
deriving DecidableEq

namespace Metric

def valueType (metric : Metric) : ValueType :=
  metric.type.valueType

/-- The metrics every installation knows. -/
def core : List Metric :=
  [⟨"lines", .int, "Lines"⟩,
   ⟨"ncloc", .int, "Lines of code"⟩,
   ⟨"comment_lines", .int, "Comment lines"⟩,
   ⟨"comment_lines_density", .percent, "Comments (%)"⟩,
   ⟨"files", .int, "Files"⟩,
   ⟨"directories", .int, "Directories"⟩,
   ⟨"functions", .int, "Functions"⟩,
   ⟨"classes", .int, "Classes"⟩,
   ⟨"statements", .int, "Statements"⟩,
   ⟨"complexity", .int, "Complexity"⟩,
   ⟨"function_complexity", .float, "Complexity / function"⟩,
   ⟨"tests", .int, "Unit tests"⟩,
   ⟨"test_execution_time", .millisec, "Unit tests duration"⟩,
   ⟨"sqale_index", .workDur, "Technical Debt"⟩,
   ⟨"sqale_rating", .rating, "Maintainability Rating"⟩,
   ⟨"ncloc_language_distribution", .data, "Lines of code per language"⟩,
   ⟨"alert_status", .level, "Quality Gate Status"⟩]

end Metric

end Metrology
