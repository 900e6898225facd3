import ComponentCatalog.FileTree
import ComponentCatalog.Log
import ComponentCatalog.Text.Utf8

/-!
# Where log records go

Records go to the console and, if one is asked for, to a log file. The console shows
records from the level of information on, or all of them when it is asked to be
verbose. A log file gets all records. Each new configuration takes the place of the
one before, and does so even if its log file cannot be opened.
-/

namespace ComponentCatalog.Log

/-- The records that go to the console and to a file. -/
structure Routing where
  /-- The least level of the records that are looked at. -/
  threshold : Level := .info
  /-- The least level of the records that the console shows. -/
  console : Level := .info
  /-- The log file that is open. -/
  file? : Option Path := none
  deriving DecidableEq, Repr

/-- The least levels of the records that go to each place: the console, and the log
file if there is one. -/
def Routing.levels (r : Routing) : List Level :=
  r.console :: (r.file?.map fun _ => Level.debug).toList

/-- The least level of the records that the console shows, as it is asked for. -/
def consoleLevel (verbose : Bool) : Level :=
  if verbose then .debug else .info

/-- Whether a record of a level goes to a place that takes records from another
level on. -/
def Level.reaches (level least : Level) : Bool :=
  least.rank ≤ level.rank

/-- A record as a line on the console. -/
def Record.consoleLine (r : Record) : String :=
  "[compdoc] " ++ r.level.text ++ " " ++ r.message ++ "\n"

/-- A record as a line of a log file. -/
def Record.fileLine (r : Record) : String :=
  r.level.text ++ " " ++ r.logger ++ ": " ++ r.message ++ "\n"

/-- The places that records go to, with what they hold. -/
structure Outlets where
  /-- The files there are, among them the log files. -/
  disk : Disk
  /-- What stands on the console. -/
  console : String := ""
  routing : Routing := {}

namespace Outlets

/-- Opens a log file, which is made if it does not exist, with the directories it
lies in. -/
def openFile (o : Outlets) (path : Path) : Except PathFault Outlets := do
  let disk ← o.disk.makeDirectories path.parent
  let file := disk.resolve path
  let disk ← disk.updateFile file id
  return { o with disk := disk, routing := { o.routing with file? := some file } }

/-- Routes records anew. If the log file cannot be opened, the fault is told and
records go to the console only; directories that have been made for it stay. -/
def configure (o : Outlets) (verbose : Bool) (logFile? : Option Path) :
    Option PathFault × Outlets :=
  let console := consoleLevel verbose
  let threshold : Level := if logFile?.isSome then .debug else console
  -- what was set up before is gone even if the file cannot be opened
  let o := { o with routing := { threshold := threshold, console := console, file? := none } }
  match logFile? with
  | none => (none, o)
  | some path =>
    match o.openFile path with
    | .ok o => (none, o)
    | .error f => (some f, { o with disk := o.disk.attemptDirectories path.parent })

/-- Shows a record on the console, if it is one for the console. -/
def display (o : Outlets) (r : Record) : Outlets :=
  if r.level.reaches o.routing.console then { o with console := o.console ++ r.consoleLine } else o

/-- Appends a record to the log file, if there is one. -/
def append (o : Outlets) (r : Record) : Outlets :=
  match o.routing.file? with
  | none => o
  | some path =>
    match o.disk.updateFile path fun bytes => bytes ++ Text.encode r.fileLine with
    | .ok disk => { o with disk := disk }
    | .error _ => o

/-- Sends a record where it goes. -/
def send (o : Outlets) (r : Record) : Outlets :=
  if r.level.reaches o.routing.threshold then (o.display r).append r else o

/-- Sends records where they go, in order. -/
def sendAll (o : Outlets) (rs : List Record) : Outlets :=
  rs.foldl send o

end Outlets

end ComponentCatalog.Log
