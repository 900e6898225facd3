import ComponentCatalog.SourceMap
import ComponentCatalog.Text.Affix

/-!
# Sources of a component

The directory of a component holds what its sources were compiled to. Three source
maps matter, one each for the properties, the component itself and its styles. A map
that is named after the directory is taken before any other with the right ending,
and of several others the first by name. The compiled component is taken only from
beside the map that was chosen.
-/

namespace ComponentCatalog

open Text

/-- The endings of the names of the files that matter. -/
def propsSuffix : String := ".props.js.map"

/-- The ending of the names of maps of components. -/
def componentSuffix : String := ".component.js.map"

/-- The ending of the names of maps of styles. -/
def stylesSuffix : String := ".styles.js.map"

/-- The ending of the names of compiled components. -/
def compiledSuffix : String := ".component.js"

/-- A source with the name of the file it was written in. -/
structure Recovered where
  content? : Option Wide := none
  file? : Option Wide := none
  deriving DecidableEq

/-- The sources of one component. -/
structure Sources where
  props : Recovered := {}
  component : Recovered := {}
  styles : Recovered := {}
  /-- The compiled component. -/
  compiled? : Option String := none
  deriving DecidableEq

/-- Whether there is nothing to make a document from. -/
def Sources.isEmpty (s : Sources) : Bool :=
  s.props.content?.isNone && s.component.content?.isNone

/-- The file that is chosen among those of a directory, which are given in
increasing order. -/
def pickArtifact? (files : List String) (stem suffix : String) : Option String :=
  if files.contains (stem ++ suffix) then some (stem ++ suffix)
  else files.find? fun name => endsWith name suffix

/-- Whether a directory holds a map of properties or of a component that is named
after it. The second is looked for only if there is none of the first. -/
def hasArtifacts (d : Disk) (dir : Path) : Except PathFault Bool := do
  if ← d.isFile (dir.child (dir.name ++ propsSuffix)) then return true
  else d.isFile (dir.child (dir.name ++ componentSuffix))

/-- The source that a map of a directory holds. -/
def recover (d : Disk) (dir : Path) (file : String) : Catalog Recovered := do
  let path := dir.child file
  let content ← SourceMap.content? d path 0
  let name ← SourceMap.name? d path 0
  return { content? := content, file? := name }

/-- The compiled component beside a chosen map. -/
def recoverCompiled (d : Disk) (dir : Path) (map : String) : Catalog (Option String) := do
  let path := dir.child (dropLast map componentSuffix.length ++ compiledSuffix)
  match d.readFile path with
  -- a compiled component that is missing is not worth a note
  | .error _ => return none
  | .ok bytes =>
    match ofFile? bytes with
    | some s => return some s
    | none =>
      Catalog.note (Log.warning "source_map" ("Cannot read compiled output " ++ path.toString))
      return none

/-- The source that a map of a directory holds, if there is such a map. -/
def recoverIfAny (d : Disk) (dir : Path) : Option String → Catalog Recovered
  | some file => recover d dir file
  | none => return {}

/-- The compiled component beside the map of a component, if there is such a map. -/
def recoverCompiledIfAny (d : Disk) (dir : Path) : Option String → Catalog (Option String)
  | some map => recoverCompiled d dir map
  | none => return none

/-- A directory whose files can be listed: that takes looking up all of its entries. -/
def Disk.listing (d : Disk) (dir : Path) : Except PathFault FileTree :=
  match d.readDirectory dir with
  | .error f => .error f
  | .ok t => if d.isListable dir t then .ok t else .error .nameTooLong

/-- The sources of the component in a directory. -/
def sourcesOf (d : Disk) (dir : Path) : Catalog Sources := do
  match d.listing dir with
  | .error .zeroCharacter => throw (.badPath .zeroCharacter)
  | .error _ =>
    Catalog.note
      (Log.warning "source_map" ("Cannot list component directory " ++ dir.toString))
    return {}
  | .ok t =>
    let files := t.sortedNames fun e => !e.isDirectory
    let map? := pickArtifact? files dir.name componentSuffix
    let props ← recoverIfAny d dir (pickArtifact? files dir.name propsSuffix)
    let component ← recoverIfAny d dir map?
    let compiled ← recoverCompiledIfAny d dir map?
    let styles ← recoverIfAny d dir (pickArtifact? files dir.name stylesSuffix)
    return { props := props, component := component, styles := styles, compiled? := compiled }

end ComponentCatalog
