import ComponentCatalog.Command.Arguments
import ComponentCatalog.Config.Load
import ComponentCatalog.Generator
import ComponentCatalog.Log.Routing
import ComponentCatalog.Manual.Fetch
import ComponentCatalog.Output

/-!
# Running commands

A run turns a command line, the files there are and what the web answers into the
files there are afterwards, what stands on the console and what was printed. It ends
normally, with a status, or with a fault that nothing expected.

`list` prints the components of a library by category. `generate` writes the
documents of all components, or of one whose name is given in any case, and then the
texts that the manual has about them. It writes nothing before it knows what to
write.
-/

namespace ComponentCatalog.Command

open Text

/-- A fault that ends a run. -/
inductive Failure where
  | path (f : PathFault)
  | config (f : Config.Fault)
  | catalog (f : Fault)
  | manual (f : Manual.Fault)
  deriving DecidableEq, Repr

/-- How a run ends, if it does not end normally. -/
inductive Ending where
  /-- Help was asked for. -/
  | help (command? : Option String)
  /-- The run ends with a status. -/
  | status (code : Nat)
  /-- The run breaks off. -/
  | failure (f : Failure)
  deriving DecidableEq, Repr

/-- The surroundings of a run. -/
structure Host extends Log.Outlets where
  /-- What has been printed. -/
  printed : String := ""
  /-- The requests for pages of the manual, latest first. -/
  requests : List Manual.Request := []

/-- A part of a run. -/
abbrev Run := ExceptT Ending (StateM Host)

/-- The name of the file that holds all documents. -/
def singleFileName : String := "all-components.json"

/-- Prints a line. -/
def print (line : String) : Run Unit :=
  modify fun h => { h with printed := h.printed ++ line ++ "\n" }

/-- Ends a run with a status and a message on the console. -/
def exit {α : Type} (code : Nat) (message : String) : Run α := do
  modify fun h => { h with console := h.console ++ message ++ "\n" }
  throw (.status code)

/-- Sends log records where they go. -/
def sendAll (rs : List Log.Record) : Run Unit :=
  modify fun h => { h with toOutlets := h.toOutlets.sendAll rs }

/-- Changes the files. -/
def change (f : Disk → Except PathFault Disk) : Run Unit := do
  let h ← get
  match f h.disk with
  | .ok disk => set { h with disk := disk }
  | .error e => throw (.failure (.path e))

/-- A computation of a session, whose records are sent where they go. -/
def catalog {α : Type} (session : Session) (x : Catalog α) : Run (α × Session) := do
  let (r, after) := x.run { session with log := [] }
  -- also where the computation ends with a fault
  sendAll after.log.reverse
  match r with
  | .ok a => return (a, after)
  | .error f => throw (.failure (.catalog f))

/-- A path as it is shown: from the working directory, if it lies there. -/
def shown (cwd path : Path) : String :=
  match Path.relativeTo? cwd path with
  | some p => p.toString
  | none => path.toString

/-- The absolute path that an argument stands for. -/
def argumentPath (d : Disk) (argument : String) : Path :=
  d.resolve (Path.expandHome d.home (Path.ofString argument))

/-! ## Documents -/

/-- What is said when there is no component of a name. -/
def unknownComponent (name : String) (candidates : List Candidate) : String :=
  "Component '" ++ name ++ "' not found\n\nAvailable components:\n" ++
    String.intercalate "\n" (candidates.map fun c => "  - " ++ c.name ++ " (" ++ c.category ++ ")")

/-- What is said when a document cannot be made. -/
def failedDocument : String :=
  "Failed to generate documentation\nRun with --verbose for more details."

/-- The document of the first component that has a name, whatever its case. -/
def oneDocument (l : Library) (name : String) : Run Document := do
  let (candidates, session) ← catalog {} l.findComponents
  match candidates.find? fun c => lower c.name == lower name with
  | none => exit 1 (unknownComponent name candidates)
  | some c =>
    match ← catalog session (l.candidateDocument c) with
    | (some doc, _) => return doc
    | (none, _) => exit 1 failedDocument

/-- The documents that are asked for. -/
def documents (l : Library) (s : Settings) : Run (List Document) := do
  if s.all then return (← catalog {} l.allDocuments).1
  else return [← oneDocument l (s.component?.getD "")]

/-- Writes documents, each into a file of its own. -/
def writeEach (dir : Path) : List Document → Run Unit
  | [] => return
  | doc :: rest => do
    change fun d => Output.saveDocument d dir doc none
    sendAll [Output.savedNote (Output.documentPath dir doc.name)]
    writeEach dir rest

/-- Writes documents and says where. -/
def writeDocuments (s : Settings) (dir : Path) (docs : List Document) : Run Unit := do
  let cwd := (← get).disk.cwd
  if s.singleFile then
    let path := dir.child singleFileName
    change fun d => Output.saveAll d docs path
    sendAll [Output.savedAllNote path]
    print ("Documentation saved to " ++ shown cwd path)
  else
    writeEach dir docs
    print ("Generated documentation for " ++ docs.length.repr ++ " components in " ++ shown cwd dir)

/-! ## The manual -/

/-- Fetches pages of the manual, with the records and requests that this makes. -/
def visit {α : Type} (x : Manual.Fetch α) : Run α := do
  let (r, v) := x.run {}
  sendAll v.log.reverse
  modify fun h => { h with requests := v.requests ++ h.requests }
  match r with
  | .ok a => return a
  | .error f => throw (.failure (.manual f))

/-- Writes the texts that the manual has about components. -/
def writeManual (dir : Path) : List (String × String) → Run Unit
  | [] => return
  | (name, text) :: rest => do
    change fun d => Output.saveManual d dir name text
    writeManual dir rest

/-- Fetches the texts that the manual has about components, and writes them. -/
def fetchManual (web : Manual.Web) (settings : ManualSettings) (dir : Path)
    (docs : List Document) : Run Unit := do
  let source : Manual.Source := { baseUrl := settings.baseUrl, pages := settings.pages }
  let texts ← visit (source.fetchMany web [] (docs.map Document.name))
  writeManual dir texts
  print ("Saved prose documentation for " ++ texts.length.repr ++ " of " ++ docs.length.repr ++
    " components")

/-! ## Commands -/

/-- Generates documents. -/
def generate (web : Manual.Web) (l : Library) (s : Settings) : Run Unit := do
  let dir := argumentPath (← get).disk s.output
  let docs ← documents l s
  writeDocuments s dir docs
  if s.fetchDocs then fetchManual web l.config.manual dir docs

/-- The names of components by their categories, in the order of the first of each. -/
def byCategory (candidates : List Candidate) : List (String × List String) :=
  let categories := (candidates.map Candidate.category).eraseDups
  categories.map fun category =>
    (category, (candidates.filter fun c => c.category == category).map Candidate.name)

/-- The lines about the components of a category. -/
def categoryLines (category : String) (names : List String) : List String :=
  (category ++ "/ (" ++ names.length.repr ++ ")") :: names.map ("  - " ++ ·) ++ [""]

/-- Lists the components of a library. -/
def list (l : Library) : Run Unit := do
  let (candidates, _) ← catalog {} l.findComponents
  print ("Found " ++ candidates.length.repr ++ " components:\n")
  ((byCategory candidates).flatMap fun (category, names) => categoryLines category names).forM print

/-- Where the configuration is looked for: in the working directory, unless another
place is asked for. -/
def configPath (d : Disk) (s : Settings) : Path :=
  match s.config? with
  | some p => if p.isEmpty then d.cwd else Path.ofString p
  | none => d.cwd

/-- The configuration that is asked for. -/
def configuration (s : Settings) : Run Config := do
  let d := (← get).disk
  match Config.load d (some (configPath d s)) with
  | .ok config => return config
  | .error f =>
    match f.message? with
    | some message => exit 1 message
    | none => throw (.failure (.config f))

/-- Routes log records as the settings ask for. -/
def routeLog (s : Settings) : Run Unit := do
  let h ← get
  let (fault?, outlets) := h.toOutlets.configure s.verbose s.logFile?
  set { h with toOutlets := outlets }
  match fault? with
  | some f => throw (.failure (.path f))
  | none => return

/-- Carries out a command. -/
def perform (web : Manual.Web) (task : Task) (s : Settings) : Run Unit := do
  -- a log file is opened before the library is looked for
  routeLog s
  let path := argumentPath (← get).disk s.library
  match (← get).disk.directory? path with
  | .error f => throw (.failure (.path f))
  | .ok none => exit 1 ("Library path not found: " ++ path.toString)
  | .ok (some _) =>
    let config ← configuration s
    let l : Library := { disk := (← get).disk, path := path, config := config }
    match task with
    | .generate => generate web l s
    | .list => list l

/-- Carries out a command line. -/
def carryOut (web : Manual.Web) (words : List String) : Run Unit := do
  match parse words with
  | .ok (task, s) => perform web task s
  | .error (.help command?) => throw (.help command?)
  | .error (.problem command? p) =>
    exit 2 (programName command? ++ ": error: " ++ p.message)

/-- How a command line ends, if not normally, and its surroundings afterwards. -/
def run (web : Manual.Web) (words : List String) (d : Disk) : Option Ending × Host :=
  match (carryOut web words).run { disk := d } with
  | (.ok _, h) => (none, h)
  | (.error e, h) => (some e, h)

end ComponentCatalog.Command
