import ComponentCatalog.Discovery
import ComponentCatalog.Extract.Events
import ComponentCatalog.Extract.Methods
import ComponentCatalog.Extract.Styles
import ComponentCatalog.Filter

/-!
# Making documents

The document of a component is put together from its sources: properties with those
that are inherited, methods, events and styles, and the documents of its declared
children. Then the policy of the configuration is applied to it.

A component without sources has no document. A source that cannot be parsed at all,
or a path that cannot be looked up, makes the making of the document fail; the failure
is noted, and the other components are not affected. A child is made like any
component, except that a child which is a directory on its own lineage is left out, so
that the nesting ends.
-/

namespace ComponentCatalog

open Text Syntax Extract

/-- The description of an alias. -/
def aliasDescription (name source : String) : String :=
  name ++ " is an alias of " ++ source ++ " and shares its API."

namespace Library

/-- A source as a text that can be parsed. -/
def sourceText (source : Wide) : Catalog String :=
  match source.toString? with
  | some s => return s
  | none => throw .unencodable

/-- The dialect of a source by the name of its file, if that is known. -/
def dialectOr (default : Dialect) (file? : Option Wide) : Dialect :=
  if file?.isSome then dialectOf file? else default

/-- The properties of a component with those it inherits, and the type it extends. -/
def componentProps (l : Library) (sources : Sources) :
    Catalog (List Property × Option String) := do
  match sources.props.content? with
  | none => return ([], none)
  | some source =>
    let file? := sources.props.file?
    match ← declaredProperties (dialectOr .typescript file?) (l.optionsFor none) source with
    | none =>
      let file := (file?.map Wide.display).getD "None"
      Catalog.note (Log.debug "generator" ("No props declaration in " ++ file))
      return ([], none)
    | some bag =>
      let inherited ← l.inheritedProperties bag.1.base?
      return (firstOfEachName Property.name [] (bag.1.props ++ inherited), bag.1.base?)

/-- The methods of a component. -/
def componentMethods (l : Library) (sources : Sources) : Catalog (List Method) := do
  match sources.component.content? with
  | none => return []
  | some source =>
    let tree := parse (dialectOr .tsx sources.component.file?) (← sourceText source)
    let o : MethodOptions := { denylist := l.config.names.internalMethods }
    Catalog.noteAll (methodNotes tree o)
    return (methods? tree o).getD []

/-- The events of a component, given its properties. -/
def componentEvents (l : Library) (sources : Sources) (props : List Property) :
    Catalog (List Event) := do
  let ofProperties := eventsOfProperties props
  match sources.compiled?.filter fun s => !s.isEmpty with
  | none => return mergeEvents ofProperties []
  | some compiled =>
    let tree := parse .tsx compiled
    let emitters := l.config.names.eventEmitters
    Catalog.noteAll (callNotes tree emitters)
    return mergeEvents ofProperties (eventsOfCalls tree emitters)

/-- The styles of a component. -/
def componentStyles (l : Library) (sources : Sources) : Catalog (List Style) := do
  match sources.styles.content? with
  | none => return []
  | some source =>
    let tree := parse (dialectOr .typescript sources.styles.file?) (← sourceText source)
    let o : StyleOptions :=
      { defaultConstant := l.config.names.defaultClassConstant
        registrars := l.config.names.styleRegistrars }
    let (classes, notes) := styleClasses tree o
    Catalog.noteAll notes
    return (classes.map stylesOf).getD []

/-- The children that are declared for a component, with the directories they lie in,
seen from its own. -/
def childPaths (l : Library) (parent : String) (dir : Path) : List (String × Except Fault Path) :=
  (l.declaredChildren parent).map fun (child, relative) =>
    (child, l.childPath parent dir child relative)

/-- The documents of children, made by the given function. A child whose directory
does not exist, or is one of the lineage, is noted and left out; one whose path cannot
be looked up at all is a fault. -/
def childDocuments (l : Library) (make : Path → Catalog (Option Component)) (parent : String)
    (lineage : List Path) : List (String × Except Fault Path) → Catalog (List Component)
  | [] => return []
  | (_, .error f) :: rest => do
    match f.message? with
    | some m =>
      Catalog.note (Log.warning "generator" m)
      l.childDocuments make parent lineage rest
    | none => throw f
  | (child, .ok path) :: rest => do
    if lineage.contains (l.disk.resolve path) then
      Catalog.note (Log.warning "generator" ("Child " ++ child ++ " of " ++ parent ++
        " points back at an ancestor directory; skipped"))
      l.childDocuments make parent lineage rest
    else
      let document ← make path
      let documents ← l.childDocuments make parent lineage rest
      return document.toList ++ documents

/-- Puts the document of a component together, its children made by the given
function. -/
def assemble (l : Library) (make : List Path → Path → Catalog (Option Component)) (dir : Path)
    (category : String) (name? : Option String) (ancestry : List Path) :
    Catalog (Option Component) := do
  let sources ← sourcesOf l.disk dir
  if sources.isEmpty then
    Catalog.note (Log.warning "generator" ("No source files found for " ++ dir.toString))
    return none
  else
    let name := (name?.filter fun s => !s.isEmpty).getD dir.name
    let (props, base?) ← l.componentProps sources
    let methods ← l.componentMethods sources
    let events ← l.componentEvents sources props
    let styles ← l.componentStyles sources
    let lineage := ancestry ++ [l.disk.resolve dir]
    let children ← l.childDocuments (make lineage) name lineage (l.childPaths name dir)
    return some {
      name := name
      path := dir.toString
      category := category
      props := props
      methods := methods
      events := events
      styles := styles
      base? := base?
      children := children }

/-- Makes the document of a component, with at most `limit` levels of children; a
failure is noted, and then there is no document. -/
def build (l : Library) (category : String) : (limit : Nat) → (name? : Option String) →
    (ancestry : List Path) → (dir : Path) → Catalog (Option Component)
  -- not met from `componentDocument`, which allows for more levels than a lineage has
  | 0, _, _, _ => return none
  | limit + 1, name?, ancestry, dir => do
    let make := fun lineage (path : Path) => l.build category limit (some path.name) lineage path
    match ← (l.assemble make dir category name? ancestry).attempt with
    | .ok document => return document
    | .error _ =>
      Catalog.note (Log.error "generator" ("Error generating docs for " ++ dir.toString))
      return none

/-- The document of the component in a directory. The lineage of a child holds
distinct directories, so there are no more levels than directories. -/
def componentDocument (l : Library) (path : String) (category : String) (name? : Option String) :
    Catalog (Option Component) := do
  let document ← l.build category (l.disk.tree.directoryCount + 1) name? [] (.ofString path)
  return document.map l.config.policy.applyTo

/-- The document of an alias. -/
def aliasDocument (name : String) (source : Component) : Document :=
  .renamed name source (aliasDescription name source.name)

/-- The document of one candidate. -/
def candidateDocument (l : Library) (c : Candidate) : Catalog (Option Document) := do
  match c.aliasOf? with
  | none => return (← l.componentDocument c.path c.category (some c.name)).map .component
  | some source =>
    return (← l.componentDocument c.path c.category (some source)).map (aliasDocument c.name)

/-- The documents of the candidates that are no aliases, by the names of the
candidates. -/
def concreteDocuments (l : Library) : List Candidate → Catalog (List (String × Component))
  | [] => return []
  | c :: rest => do
    if c.aliasOf?.isSome then l.concreteDocuments rest
    else
      Catalog.note
        (Log.info "generator" ("Generating docs for " ++ c.category ++ "/" ++ c.name))
      let document ← l.componentDocument c.path c.category (some c.name)
      let documents ← l.concreteDocuments rest
      return (document.map fun d => (c.name, d)).toList ++ documents

/-- The documents of the aliases among the candidates, given the documents of the
others. An alias whose source has no document is noted and left out. -/
def aliasDocuments (concrete : List (String × Component)) :
    List Candidate → Catalog (List Document)
  | [] => return []
  | c :: rest => do
    match c.aliasOf? with
    | none => aliasDocuments concrete rest
    | some source =>
      match concrete.lookup source with
      | some d =>
        let documents ← aliasDocuments concrete rest
        return aliasDocument c.name d :: documents
      | none =>
        Catalog.note (Log.warning "generator"
          ("Alias " ++ c.name ++ " skipped: no document for " ++ source))
        aliasDocuments concrete rest

/-- The documents of all components of a library, and then those of the aliases. -/
def allDocuments (l : Library) : Catalog (List Document) := do
  let candidates ← l.findComponents
  Catalog.note (Log.info "generator" ("Found " ++ candidates.length.repr ++ " components"))
  let concrete ← l.concreteDocuments candidates
  let aliases ← aliasDocuments concrete candidates
  return concrete.map (fun e => .component e.2) ++ aliases

end Library

end ComponentCatalog
