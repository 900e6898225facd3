import ComponentCatalog.Log.Routing

/-!
# Loggers

A record is logged under the name of a part. The names form a hierarchy by the dots in them: a
logger hands its records on to the one that it belongs to, which is the nearest one there is among
the names that stand before a dot of its own name. The dots are gone through from the last to the
first, and the character before a dot is never looked at, so that of two dots in a row the first
one does not count. A record that gets to the root in this way is sent where records go. One that
does not has nobody who asked for it: it is shown as it is if it is at least a warning.

Whether a logger takes records of a level is worked out when it is first asked, and remembered
until records are routed anew, even if the logger has come to belong to another one since.
-/

namespace ComponentCatalog.Log

/-- Whether records get to the root, given the loggers there are and, from its end on, what is
left of the name of a logger. -/
def leadsToRoot (names : List String) : List Char → Bool
  | [] => false
  | c :: rest =>
    if c = '.' then
      match rest with
      | [] => false
      | last :: before =>
        -- `last` is not looked at itself: of two dots in a row the first does not count
        let owner := String.ofList (last :: before).reverse
        if owner = rootName then true
        else if owner ∈ names then leadsToRoot names (last :: before)
        else leadsToRoot names before
    else leadsToRoot names rest

/-- Whether the records of a logger get to the root, given the loggers there are. -/
def isHeard (names : List String) (logger : String) : Bool :=
  logger = rootName || leadsToRoot names logger.toList.reverse

/-- The outlets, with the loggers that there are. -/
structure Loggers extends Outlets where
  names : List String := []
  /-- What loggers remember of whether they take records of a level. -/
  known : List ((String × Level) × Bool) := []

namespace Loggers

/-- Routes records anew; nothing is remembered then. -/
def configure (g : Loggers) (verbose : Bool) (logFile? : Option Path) :
    Option PathFault × Loggers :=
  let (fault?, o) := g.toOutlets.configure verbose logFile?
  (fault?, { g with toOutlets := o, known := [] })

/-- Makes a logger, if there is none of the name yet. -/
def enroll (g : Loggers) (logger : String) : Loggers :=
  if logger ∈ g.names then g else { g with names := logger :: g.names }

/-- The least level of the records that a logger takes. -/
def threshold (g : Loggers) (logger : String) : Level :=
  if isHeard g.names logger then g.routing.threshold else .warning

/-- Whether a logger takes records of a level, as it remembers it or else as it is now. -/
def takes (g : Loggers) (logger : String) (level : Level) : Bool :=
  (g.known.lookup (logger, level)).getD (level.reaches (g.threshold logger))

/-- What is remembered when a logger has been asked about a level. -/
def remember (g : Loggers) (logger : String) (level : Level) : Loggers :=
  { g with known := ((logger, level), g.takes logger level) :: g.known }

/-- Brings a record that a logger takes to its outlets. -/
def deliver (g : Loggers) (r : Record) : Loggers :=
  if isHeard g.names r.logger then { g with toOutlets := (g.display r).append r }
  else if r.level.reaches .warning then { g with console := g.console ++ (r.message ++ "\n") }
  else g

/-- Logs a record. -/
def log (g : Loggers) (r : Record) : Loggers :=
  let g := g.enroll r.logger
  let after := g.remember r.logger r.level
  if g.takes r.logger r.level then after.deliver r else after

end Loggers

/-- What can be asked of the log. -/
inductive Event where
  | configure (verbose : Bool) (logFile? : Option Path)
  | log (level : Level) (part message : String)

/-- What an event does. A log file that cannot be opened does not keep records from being logged
afterwards. -/
def Loggers.step (g : Loggers) : Event → Loggers
  | .configure verbose logFile? => (g.configure verbose logFile?).2
  | .log level part message => g.log ⟨level, fullName part, message⟩

/-- What events do, one after the other. -/
def Loggers.run (g : Loggers) (events : List Event) : Loggers :=
  events.foldl step g

end ComponentCatalog.Log
