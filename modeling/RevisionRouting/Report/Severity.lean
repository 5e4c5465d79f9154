/-!
# Severities

A log record has a severity, and a log keeps the records from a least severity
on (`Severity.rank`). Severities are named in any mixture of cases, and `warning`
is another name for `warn`.
-/

namespace RevisionRouting

/-- How much a log record matters. -/
inductive Severity where
  | trace
  | info
  | warn
  | error
  deriving DecidableEq, Repr

/-- A severity is named that does not exist. -/
structure UnknownSeverity where
  /-- The name in lower case. -/
  name : String
  deriving DecidableEq, Repr

/-- The sentence that reports an unknown severity. -/
def UnknownSeverity.message (f : UnknownSeverity) : String :=
  "unknown log level '" ++ f.name ++ "', expected trace, info, warn or error"

namespace Severity

/-- The name of a severity in log records. -/
def name : Severity → String
  | trace => "TRACE"
  | info => "INFO"
  | warn => "WARN"
  | error => "ERROR"

/-- The place of a severity among all. -/
def rank : Severity → Nat
  | trace => 0
  | info => 1
  | warn => 2
  | error => 3

/-- All severities, the least first. -/
def all : List Severity := [trace, info, warn, error]

instance : LE Severity := ⟨fun a b => a.rank ≤ b.rank⟩

instance (a b : Severity) : Decidable (a ≤ b) := inferInstanceAs (Decidable (a.rank ≤ b.rank))

/-- A name with its letters in lower case; the letters are those of ASCII. -/
def lowerCase (name : String) : String := String.ofList (name.toList.map Char.toLower)

/-- The severity with a given name. -/
def ofName (name : String) : Except UnknownSeverity Severity :=
  let name := lowerCase name
  if name = "trace" then .ok trace
  else if name = "info" then .ok info
  else if name = "warn" ∨ name = "warning" then .ok warn
  else if name = "error" then .ok error
  else .error ⟨name⟩

end Severity

end RevisionRouting
