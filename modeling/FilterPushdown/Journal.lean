import FilterPushdown.Value

/-!
The journal: log records, the loggers that write them, and computations that write records on the
way to their result.  A call is written when it is at least as severe as the logger's level, and a
silent logger writes nothing.
-/

namespace FilterPushdown

/-- How severe a log call is, in ascending order. -/
inductive Severity where
  | trace
  | debug
  | info
  | warn
  | error
  | fatal
  deriving DecidableEq, Repr

namespace Severity

/-- The place in the order of severities. -/
def rank : Severity → Nat
  | trace => 0
  | debug => 1
  | info => 2
  | warn => 3
  | error => 4
  | fatal => 5

/-- The label that a record shows. -/
def label : Severity → String
  | trace => "trace"
  | debug => "debug"
  | info => "info"
  | warn => "warn"
  | error => "error"
  | fatal => "fatal"

end Severity

/-- From which severity on a logger writes. -/
inductive LogLevel where
  | atLeast (severity : Severity)
  | silent
  deriving DecidableEq, Repr

namespace LogLevel

/-- Whether calls of a severity are written. -/
def admits : LogLevel → Severity → Bool
  | atLeast least, severity => least.rank ≤ severity.rank
  | silent, _ => false

/-- The name of the level. -/
def label : LogLevel → String
  | atLeast severity => severity.label
  | silent => "silent"

end LogLevel

/-- One written log call. -/
structure LogRecord where
  severity : Severity
  /-- The name of the logger. -/
  logger : String
  fields : List (String × Value)
  message : String

/-- The record as one list of members.  Where a name occurs twice, the later member counts. -/
def LogRecord.members (written : LogRecord) : List (String × Value) :=
  ("level", .text written.severity.label) :: ("name", .text written.logger) ::
    (written.fields ++ [("msg", .text written.message)])

/-- `createLogger`: a named destination of log calls. -/
structure Logger where
  level : LogLevel := .silent
  name : String := "pushdown-sql"
  deriving DecidableEq, Repr

/-- What a call adds to the journal. -/
def Logger.write (logger : Logger) (severity : Severity) (fields : List (String × Value))
    (message : String) : List LogRecord :=
  if logger.level.admits severity then [⟨severity, logger.name, fields, message⟩] else []

/-- The outcome of a computation together with the records that it has written. -/
structure Logged (ε α : Type) where
  outcome : Except ε α
  records : List LogRecord

namespace Logged

variable {ε α β : Type}

/-- A result that wrote nothing. -/
protected def pure (a : α) : Logged ε α := ⟨.ok a, []⟩

/-- Runs one computation after another.  A failure keeps what was written before it. -/
protected def bind (first : Logged ε α) (next : α → Logged ε β) : Logged ε β :=
  match first.outcome with
  | .error failure => ⟨.error failure, first.records⟩
  | .ok a => ⟨(next a).outcome, first.records ++ (next a).records⟩

instance : Monad (Logged ε) where
  pure := Logged.pure
  bind := Logged.bind

/-- A computation that may fail and writes nothing. -/
def ofExcept (outcome : Except ε α) : Logged ε α := ⟨outcome, []⟩

/-- Writes records. -/
def tell (records : List LogRecord) : Logged ε Unit := ⟨.ok (), records⟩

end Logged

end FilterPushdown
