import ComponentCatalog.Config
import ComponentCatalog.FileTree
import ComponentCatalog.Table
import ComponentCatalog.Text.Blank
import ComponentCatalog.Text.Lowercase
import ComponentCatalog.Text.Utf8
import ComponentCatalog.Yaml.Build

/-!
# Reading configurations

A configuration is written in YAML. What it does not mention keeps its default, and
so does what it gives a value of the wrong kind. Lists may be written as a single
text, and items that are no texts, numbers or truth values are passed over. A list
that is mentioned replaces its default, even by nothing; a text replaces its default
unless it is empty; and the pages of the manual are added to the default ones, by
names in small letters.
-/

namespace ComponentCatalog

open Text

/-- The name of a configuration file. -/
def configFileName : String := ".compdoc.yml"

namespace Config

/-- The part of a configuration that a key leads to; nothing if it is left out. -/
def part (v : Yaml.Value) (key : String) : Yaml.Value :=
  (v.get? key).getD .null

/-- The list that a key leads to, or its default if the key is left out. -/
def listOr (v : Yaml.Value) (key : String) (default : List String) :
    Except Yaml.Fault (List String) :=
  match v.get? key with
  | some w => w.texts
  | none => .ok default

/-- The text that a key leads to, or its default if there is none. -/
def textOr (v : Yaml.Value) (key default : String) : Except Yaml.Fault String :=
  (part v key).plainText?.map fun
    | some s => if s.isEmpty then default else s
    | none => default

/-- The entries of a mapping whose values are texts, numbers or truth values, without
those of empty text. -/
def textTable (v : Yaml.Value) : Except Yaml.Fault (List (String × String)) :=
  v.pairs.foldlM (fun table (k, w) => do
    match ← w.plainText? with
    | some s => if s.isEmpty then return table else return putKey (← k.keyText) s table
    | none => return table) []

/-- The children of components; those of a component that has none are left out. -/
def childTable (v : Yaml.Value) : Except Yaml.Fault (List (String × List (String × String))) :=
  v.pairs.foldlM (fun table (k, w) => do
    let children ← textTable w
    if children.isEmpty then return table else return putKey (← k.keyText) children table) []

/-- The children of components that a key leads to, or their default if the key is left
out. -/
def childrenOr (v : Yaml.Value) (key : String)
    (default : List (String × List (String × String))) :
    Except Yaml.Fault (List (String × List (String × String))) :=
  match v.get? key with
  | some w => childTable w
  | none => .ok default

/-- What is left out of one component. -/
def overrideOf (v : Yaml.Value) : Except Yaml.Fault Override := do
  return { excludeProps := ← (part v "exclude_props").texts
           excludeMethods := ← (part v "exclude_methods").texts
           excludeStyleClasses := ← (part v "exclude_style_classes").texts }

/-- What is left out of documents. -/
def policyOf (v : Yaml.Value) : Except Yaml.Fault Policy := do
  let default : Policy := {}
  let overrides ← (part v "component_overrides").pairs.foldlM
    (fun table (k, w) => do return putKey (← k.keyText) (← overrideOf w) table) []
  return { excludeProps := ← listOr v "exclude_props" default.excludeProps
           excludeInheritedProps :=
             ← listOr v "exclude_inherited_props" default.excludeInheritedProps
           excludeMethods := ← listOr v "exclude_methods" default.excludeMethods
           excludeStyleClasses := ← listOr v "exclude_style_classes" default.excludeStyleClasses
           overrides := overrides }

/-- How ancestors are found. -/
def inheritanceOf (v : Yaml.Value) : Except Yaml.Fault InheritanceRules := do
  let default : InheritanceRules := {}
  return { rootType := ← textOr v "root_type" default.rootType
           rootArtifact := ← textOr v "root_artifact" default.rootArtifact
           searchRoots := ← listOr v "search_roots" default.searchRoots
           typePrefixes := ← listOr v "type_prefixes" default.typePrefixes
           typeSuffix := ← textOr v "type_suffix" default.typeSuffix }

/-- The names that are recognised in sources. -/
def namesOf (v : Yaml.Value) : Except Yaml.Fault SourceNames := do
  let default : SourceNames := {}
  return { internalMethods := ← listOr v "internal_methods" default.internalMethods
           styleRegistrars := ← listOr v "style_registrars" default.styleRegistrars
           defaultClassConstant :=
             ← textOr v "default_class_constant" default.defaultClassConstant
           eventEmitters := ← listOr v "event_emitters" default.eventEmitters
           defaultPropsNames := ← listOr v "default_props_names" default.defaultPropsNames }

/-- Pages added to a table of pages, by names in small letters; an entry without
pages adds nothing. -/
def addPages (pages : List (String × List String)) (pairs : List (Yaml.Value × Yaml.Value)) :
    Except Yaml.Fault (List (String × List String)) :=
  pairs.foldlM (fun table (k, w) => do
    let added ← w.texts
    if added.isEmpty then return table else return putKey (lower (← k.keyText)) added table) pages

/-- Where the manual is. -/
def manualOf (v : Yaml.Value) : Except Yaml.Fault ManualSettings := do
  let default : ManualSettings := {}
  return { baseUrl := ← textOr v "base_url" default.baseUrl
           pages := ← addPages default.pages (part v "paths").pairs }

/-- The configuration that a mapping spells. A number that has to be shown and has too
many digits is a fault. -/
def ofValue (v : Yaml.Value) : Except Yaml.Fault Config := do
  let default : Config := {}
  let components := part v "components"
  return { includeComponents := ← listOr components "include" default.includeComponents
           excludeGroups := ← listOr components "exclude_groups" default.excludeGroups
           excludeComponents := ← listOr components "exclude" default.excludeComponents
           aliases := ← textTable (part components "aliases")
           childComponents := ← childrenOr components "children" default.childComponents
           policy := ← policyOf (part v "documentation")
           inheritance := ← inheritanceOf (part v "inheritance")
           names := ← namesOf (part v "parser")
           manual := ← manualOf (part v "docs") }

/-- Why a configuration cannot be read. -/
inductive Fault where
  /-- The text of a file is not YAML. -/
  | unparsable (file : String)
  /-- The value of a file is not a mapping. -/
  | notMapping (file : String)
  /-- A value in a file is written as what it is not. -/
  | badValue (f : Yaml.Fault)
  /-- A file is not a text. -/
  | undecodable
  /-- A file cannot be read. -/
  | badPath (f : PathFault)
  deriving DecidableEq, Repr

/-- The message of a fault that has one. -/
def Fault.message? : Fault → Option String
  | unparsable file => some ("Failed to parse " ++ file)
  | notMapping file => some (file ++ " must contain a mapping at the root")
  | _ => none

/-- The value that a text spells at its root; the name of its file is for messages. A
text without a value is an empty mapping. -/
def rootValue (file text : String) : Except Fault Yaml.Value :=
  if (trimChars text.toList).isEmpty then .ok (.mapping [])
  else match Yaml.Value.read text with
    | .error .malformed => .error (.unparsable file)
    | .error f => .error (.badValue f)
    | .ok (.mapping pairs) => .ok (.mapping pairs)
    | .ok v => if v.isNothing then .ok (.mapping []) else .error (.notMapping file)

/-- The configuration that a text spells; the name of its file is for messages. -/
def ofText (file text : String) : Except Fault Config := do
  (ofValue (← rootValue file text)).mapError .badValue

/-- The configuration that the bytes of a file spell. -/
def ofBytes (file : String) (bytes : List UInt8) : Except Fault Config :=
  match ofFile? bytes with
  | some text => ofText file text
  | none => .error .undecodable

/-- The file that a path asks for: the path itself, or the configuration file of a
directory. -/
def fileAt (d : Disk) (path : Path) : Except PathFault Path := do
  let path := Path.expandHome d.home path
  match ← d.directory? path with
  | some _ => return d.resolve (path.child configFileName)
  | none => return d.resolve path

/-- The configuration that a path leads to; the default if there is no file. -/
def load (d : Disk) (path? : Option Path) : Except Fault Config :=
  match path? with
  | none => .ok {}
  | some path => do
    let file ← (fileAt d path).mapError .badPath
    if ← (d.exists? file).mapError .badPath then
      let bytes ← (d.readFile file).mapError .badPath
      ofBytes file.name bytes
    else return {}

end Config

end ComponentCatalog
