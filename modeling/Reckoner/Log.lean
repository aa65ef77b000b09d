/-!
Log records.

A log is a list of records, each of a level. Debug records tell what was read and
what came of it; trace records tell every token and every move of an engine, and
are left out unless that detail is asked for.
-/

namespace Reckoner

/-- How much detail a record is. -/
inductive Level where
  | debug
  | trace
deriving DecidableEq, Repr

def Level.name : Level → String
  | debug => "DEBUG"
  | trace => "TRACE"

/-- Whether records of a level are kept when detail up to `limit` is asked for. -/
def Level.within (level limit : Level) : Bool :=
  level = .debug || limit = .trace

structure Record where
  level : Level
  text : String
deriving DecidableEq, Repr

def Record.line (record : Record) : String :=
  record.level.name ++ " " ++ record.text

def logLines (limit : Level) (log : List Record) : List String :=
  (log.filter (·.level.within limit)).map Record.line

end Reckoner
