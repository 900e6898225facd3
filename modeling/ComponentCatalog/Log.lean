/-!
# Log records

What the catalogue does on the way to a document – which sources it skipped,
which ancestors it could not find – is told in log records. A record has a
level, the name of the part that speaks, and a message. The parts form a
hierarchy under one root name.

Nothing is printed here: the functions of the library return their records
beside their results, and `Log.Routing` says which of them reach the console
and which a file.
-/

namespace ComponentCatalog.Log

/-- How urgent a record is: a rank, from that of debugging on. -/
structure Level where
  rank : Nat
  least : 10 ≤ rank
  deriving DecidableEq, Repr

namespace Level

def debug : Level := ⟨10, by decide⟩
def info : Level := ⟨20, by decide⟩
def warning : Level := ⟨30, by decide⟩
def error : Level := ⟨40, by decide⟩
def critical : Level := ⟨50, by decide⟩

/-- A level as it is written in front of a message. One without a name shows its rank. -/
def text (l : Level) : String :=
  match l.rank with
  | 10 => "DEBUG"
  | 20 => "INFO"
  | 30 => "WARNING"
  | 40 => "ERROR"
  | 50 => "CRITICAL"
  | rank => "Level " ++ rank.repr

/-- The level with a given name. -/
def ofText? (s : String) : Option Level :=
  [debug, info, warning, error, critical].find? fun l => l.text == s

end Level

/-- The name at the root of the hierarchy. -/
def rootName : String := "compdoc"

/-- The full name of a part; the empty name is the root itself. -/
def fullName (part : String) : String :=
  if part.isEmpty then rootName else rootName ++ "." ++ part

/-- One log record. -/
structure Record where
  level : Level
  /-- The full name of the part that speaks. -/
  logger : String
  message : String
  deriving DecidableEq, Repr

/-- A record of a part, at the lowest level. -/
def debug (part message : String) : Record := ⟨.debug, fullName part, message⟩

/-- A record of a part about the normal course of events. -/
def info (part message : String) : Record := ⟨.info, fullName part, message⟩

/-- A record of a part about something that was left out. -/
def warning (part message : String) : Record := ⟨.warning, fullName part, message⟩

/-- A record of a part about a failure. -/
def error (part message : String) : Record := ⟨.error, fullName part, message⟩

end ComponentCatalog.Log
