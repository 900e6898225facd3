import ComponentCatalog.Command.Help
import ComponentCatalog.Command.Run

/-!
# The program

The files that a command line may read are loaded into a tree, the command line is
run on that tree, and what changed is written back. There is no connection to the
web, so that every request for a page of the manual fails.
-/

open ComponentCatalog

namespace ComponentCatalog.Program

/-- The files behind the entries of a directory. -/
partial def loadEntries (entries : List IO.FS.DirEntry) : IO (List (String × FileTree)) :=
  entries.mapM fun e => do
    if ← e.path.isDir then
      return (e.fileName, .directory (← loadEntries (← e.path.readDir).toList))
    else
      return (e.fileName, .file (← IO.FS.readBinFile e.path).toList)

/-- The file or directory that a path leads to, if there is one. The files inside a
directory are loaded only if they are asked for. -/
def loadPath (path : Path) (deep : Bool) : IO (Option FileTree) := do
  try
    let real ← IO.FS.realPath path.toString
    if ← real.isDir then
      if deep then return some (.directory (← loadEntries (← real.readDir).toList))
      else return some (.directory [])
    else return some (.file (← IO.FS.readBinFile real).toList)
  catch _ => return none

/-- A disk with what a path leads to. -/
def mount (d : Disk) (path : Path) (deep : Bool) : IO Disk := do
  let parts := (d.resolve path).parts
  match ← loadPath (d.resolve path) deep with
  | none => return d
  | some t =>
    if !deep && (d.tree.at? parts).isSome then return d
    else return { d with tree := d.tree.put t parts }

/-- The files that a command line may read. -/
def surroundings (words : List String) : IO Disk := do
  let cwd := Path.ofString (← IO.currentDir).toString
  let home := Path.ofString ((← IO.getEnv "HOME").getD "/")
  let d : Disk := { tree := .directory [], cwd := cwd, home := home }
  let d ← mount d cwd false
  match Command.parse words with
  | .error _ => return d
  | .ok (_, s) =>
    let config := match s.config? with
      | some p => if p.isEmpty then cwd else Path.expandHome home (Path.ofString p)
      | none => cwd
    let d ← mount d (Command.argumentPath d s.library) true
    let d ← mount d config false
    let d ← mount d (config.child configFileName) false
    let d ← mount d (Command.argumentPath d s.output) true
    match s.logFile? with
    | some path =>
      let d ← mount d path.parent false
      mount d path false
    | none => return d

/-- Writes back what changed. -/
def writeBack (before after : Disk) : IO Unit :=
  after.tree.descendants.forM fun (parts, t) => do
    let path := "/" ++ String.intercalate "/" parts
    match before.tree.at? parts, t with
    | none, .directory _ => IO.FS.createDirAll path
    | some (.file old), .file bytes =>
      if old != bytes then IO.FS.writeBinFile path ⟨bytes.toArray⟩
    | _, .file bytes => IO.FS.writeBinFile path ⟨bytes.toArray⟩
    | _, .directory _ => pure ()

/-- The status that a run ends with, after what it has to say at its end. -/
def finish : Option Command.Ending → IO UInt32
  | none => return 0
  | some (.help command?) => do
    IO.print (Command.helpText command?)
    return 0
  | some (.status code) => return code.toUInt32
  | some (.failure _) => do
    IO.eprintln "compdoc: unexpected failure"
    return 1

end ComponentCatalog.Program

open ComponentCatalog.Program

/-- Runs a command line. -/
def main (words : List String) : IO UInt32 := do
  let before ← surroundings words
  let offline : Manual.Web := fun _ => .unreachable "no connection"
  let (ending?, host) := Command.run offline words before
  writeBack before host.disk
  IO.print host.printed
  IO.eprint host.console
  finish ending?
