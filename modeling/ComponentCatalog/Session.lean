import ComponentCatalog.Document
import ComponentCatalog.FileTree
import ComponentCatalog.Log

/-!
# Sessions

Documents are made in a session. A session keeps the log, and it keeps two things
that it has worked out once: the properties of the root type, and for each search
root the files that may declare a type. Sources and directories are read anew every
time.

A computation of a session may fail. What it had logged and worked out before it
failed is kept.
-/

namespace ComponentCatalog

/-- Why a computation fails. -/
inductive Fault where
  /-- No file declares a type; the stems are those that were tried. -/
  | unresolvedAncestor (typeName : String) (stems : List String)
  /-- The directory of a declared child does not exist. -/
  | missingChild (parent child path : String)
  /-- A source holds something that is no character. -/
  | unencodable
  /-- A source map holds an integer that is too long to be read. -/
  | oversizedNumber
  /-- A path cannot be used. -/
  | badPath (f : PathFault)
  deriving DecidableEq, Repr

/-- The message of a fault that has one. -/
def Fault.message? : Fault → Option String
  | unresolvedAncestor typeName stems =>
    let tried := if stems.isEmpty then "none" else String.intercalate ", " stems
    some ("Could not resolve base type " ++ typeName ++ " (tried stems: " ++ tried ++ ")")
  | missingChild parent child path =>
    some ("Child component " ++ child ++ " of " ++ parent ++ " not found at " ++ path)
  | _ => none

/-- The files of a search root that may declare a type, by their names. -/
abbrev ArtifactIndex := List (String × Path)

/-- What is kept from one computation to the next. -/
structure Session where
  /-- The log, latest record first. -/
  log : List Log.Record := []
  /-- The properties of the root type, once they are known. -/
  rootProps? : Option (List Property) := none
  /-- The files of the search roots that have been listed. -/
  artifacts : List (String × ArtifactIndex) := []

/-- A computation in a session. -/
abbrev Catalog := ExceptT Fault (StateM Session)

namespace Catalog

/-- Adds a record to the log. -/
def note (r : Log.Record) : Catalog Unit :=
  modify fun s => { s with log := r :: s.log }

/-- Adds records to the log. -/
def noteAll (rs : List Log.Record) : Catalog Unit :=
  modify fun s => { s with log := rs.reverse ++ s.log }

/-- The result of a computation, or the fault it ended with. -/
def attempt {α : Type} (x : Catalog α) : Catalog (Except Fault α) :=
  fun s => let (r, s) := x.run s; (.ok r, s)

end Catalog

end ComponentCatalog
