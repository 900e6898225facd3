import ComponentCatalog.Config
import ComponentCatalog.Inheritance.Stem
import ComponentCatalog.Sources

/-!
# Files that declare a type

The file that declares a type is looked for under the search roots of a
configuration, at any depth, by the stems of the type's name. A stem is tried under
all search roots before the next stem is tried, and of several files of one name
under one root the first counts, paths being compared name by name.

Directories whose names begin with a dot are passed over, and so are those that hold
installed packages. They are listed all the same, so a search root fails if the path of
any directory below it is too long. A search root is listed once in a session.
-/

namespace ComponentCatalog

open Text

/-- Whether a directory below a search root is passed over. -/
def isPassedOver (name : String) : Bool :=
  startsWith name "." || name == "node_modules"

/-- The names that lead from a directory to everything that may declare a type, in
the order of paths. -/
def artifactParts (root : FileTree) : List (List String) :=
  let found := root.descendants.map Prod.fst
  let kept := found.filter fun parts =>
    endsWith (parts.getLast?.getD "") propsSuffix && !(parts.dropLast.any isPassedOver)
  kept.mergeSort Path.partsLe

/-- Whether all directories below one can be listed, each by its whole path. -/
def Disk.isSearchable (d : Disk) (dir : Path) (t : FileTree) : Bool :=
  t.descendants.all fun e =>
    !(e.2.isDirectory && d.isTooLong { dir with parts := dir.parts ++ e.1 })

/-- The directory that a search root leads to, if it leads to one. A path that is too long
to be looked up is a fault, be it that of the search root or of a directory below it. -/
def Disk.searchRoot? (d : Disk) (root : Path) : Except PathFault (Option FileTree) :=
  match d.directory? root with
  | .ok (some t) => if d.isSearchable root t then .ok (some t) else .error .nameTooLong
  | .ok none => .ok none
  | .error f => .error f

/-- The files under a search root that may declare a type, by their names; none if
the search root is not a directory. -/
def artifactIndex (d : Disk) (library : Path) (searchRoot : String) :
    Except Fault ArtifactIndex :=
  let root := library.child searchRoot
  match d.searchRoot? root with
  | .ok (some t) =>
    .ok ((artifactParts t).map fun parts =>
      (parts.getLast?.getD "", { root with parts := root.parts ++ parts }))
  | .ok none => .ok []
  | .error f => .error (.badPath f)

/-- The files under a search root, listed now or remembered. -/
def artifactsUnder (d : Disk) (library : Path) (searchRoot : String) : Catalog ArtifactIndex := do
  match (← get).artifacts.lookup searchRoot with
  | some index => return index
  | none =>
    match artifactIndex d library searchRoot with
    | .error f => throw f
    | .ok index =>
      modify fun s => { s with artifacts := (searchRoot, index) :: s.artifacts }
      return index

/-- The first file of a given name under the search roots. -/
def firstUnder? (d : Disk) (library : Path) (file : String) : List String → Catalog (Option Path)
  | [] => return none
  | root :: rest => do
    match (← artifactsUnder d library root).lookup file with
    | some path => return some path
    | none => firstUnder? d library file rest

/-- The file for the first stem that has one. -/
def firstOfStems? (d : Disk) (library : Path) (roots : List String) :
    List String → Catalog (Option Path)
  | [] => return none
  | stem :: rest => do
    match ← firstUnder? d library (stem ++ propsSuffix) roots with
    | some path => return some path
    | none => firstOfStems? d library roots rest

/-- The file that declares a type. -/
def findArtifact (d : Disk) (library : Path) (rules : InheritanceRules) (typeName : String) :
    Catalog Path := do
  let stems := Stem.candidates rules.typePrefixes rules.typeSuffix typeName
  match ← firstOfStems? d library rules.searchRoots stems with
  | some path =>
    Catalog.note (Log.debug "inheritance" ("Resolved " ++ typeName ++ " to " ++ path.toString))
    return path
  | none => throw (.unresolvedAncestor typeName stems)

end ComponentCatalog
