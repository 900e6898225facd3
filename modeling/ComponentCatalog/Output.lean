import ComponentCatalog.Document.Json
import ComponentCatalog.FileTree
import ComponentCatalog.Json.Printer
import ComponentCatalog.Log
import ComponentCatalog.Text.Utf8

/-!
# Writing documents

Documents are written as JSON, all into one file or each into a file of its own that
is named after it. The text that the manual has about a component is written beside
its document. Directories are made where they do not exist.
-/

namespace ComponentCatalog.Output

open Text

/-- The ending of the names of files with texts of the manual. -/
def manualSuffix : String := ".manual.md"

/-- The text of a file that holds all documents. -/
def catalogText (docs : List Document) : String :=
  Json.render (.array (docs.map Document.toJson))

/-- The text of a file that holds one document. -/
def documentText (doc : Document) : String :=
  Json.render doc.toJson

/-- The file of a document. -/
def documentPath (dir : Path) (name : String) : Path :=
  dir.child (name ++ ".json")

/-- The file with the text that the manual has about a component. -/
def manualPath (dir : Path) (name : String) : Path :=
  dir.child (name ++ manualSuffix)

/-- Writes a text into a file, after making a directory. -/
def writeText (d : Disk) (dir path : Path) (text : String) : Except PathFault Disk := do
  let d ← d.makeDirectories dir
  d.writeFile path (encode text)

/-- Writes all documents into one file. -/
def saveAll (d : Disk) (docs : List Document) (path : Path) : Except PathFault Disk :=
  writeText d path.parent path (catalogText docs)

/-- Writes the text that the manual has about a component. -/
def saveManual (d : Disk) (dir : Path) (name text : String) : Except PathFault Disk :=
  writeText d dir (manualPath dir name) text

/-- Writes a document into a file of its own, with a text of the manual beside it
unless there is none or it is empty. -/
def saveDocument (d : Disk) (dir : Path) (doc : Document) (manual? : Option String) :
    Except PathFault Disk := do
  let d ← writeText d dir (documentPath dir doc.name) (documentText doc)
  match manual? with
  | some text => if text.isEmpty then return d else saveManual d dir doc.name text
  | none => return d

/-- What is noted when all documents have been written. -/
def savedAllNote (path : Path) : Log.Record :=
  Log.info "writer" ("Documentation saved to " ++ path.toString)

/-- What is noted when a document has been written. -/
def savedNote (path : Path) : Log.Record :=
  Log.info "writer" ("Saved " ++ path.name)

end ComponentCatalog.Output
