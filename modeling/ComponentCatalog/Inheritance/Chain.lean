import ComponentCatalog.Extract.Properties
import ComponentCatalog.Inheritance.Artifacts
import ComponentCatalog.Syntax.Parse

/-!
# Inherited properties

A declaration of properties may extend another type, which is declared in a file of
its own and may extend a third, and so on up to the root type. The inherited
properties of a component are those of all types on that chain, nearest first, each
marked with the type it comes from.

The chain ends at the root type, whose properties are read from a file that the
configuration names; at a type that no file declares; at a file without a usable
source or declaration; and at a type that is on the chain already. Each step of the
walk puts a new name on the list of visited ones, and every such name is the base
type of a declaration in one of the files under the search roots.
-/

namespace ComponentCatalog

open Text Syntax Extract

/-- The library that documents are made for, and the rules they are made by. -/
structure Library where
  /-- All files there are. -/
  disk : Disk
  /-- The directory of the library. -/
  path : Path
  config : Config := {}

/-- The types that the declarations of a source extend, in whichever dialect it is
read; none if it is no text. -/
def basesOfSource (source : Wide) : List String :=
  match source.toString? with
  | some s => basesOf (parse .typescript s) ++ basesOf (parse .tsx s)
  | none => []

/-- The types that the sources in the files of a disk extend. -/
def Disk.bases (d : Disk) : List String :=
  d.tree.files.flatMap fun bytes => ((SourceMap.firstContent? bytes).map basesOfSource).getD []

theorem mem_bases_of_contentAt {d : Disk} {path : Path} {source : Wide} {base : String}
    (h : SourceMap.contentAt d path 0 = .ok source) (hb : base ∈ basesOfSource source) :
    base ∈ d.bases := by
  obtain ⟨bytes, hm, hc⟩ := SourceMap.exists_firstContent?_of_contentAt h
  exact List.mem_flatMap.2 ⟨bytes, hm, by simp [hc, hb]⟩

theorem mem_basesOfSource {source : Wide} {s : String} {dialect : Dialect} {o : PropertyOptions}
    {bag : PropertyBag} {base : String} (hs : source.toString? = some s)
    (h : properties? (parse dialect s) o = some bag) (hb : bag.base? = some base) :
    base ∈ basesOfSource source := by
  have := mem_basesOf_of_properties? h hb
  unfold basesOfSource
  rw [hs]
  cases dialect
  · exact List.mem_append_left _ this
  · exact List.mem_append_right _ this

/-- Taking a name of a list off those that have not been visited leaves fewer of
them. -/
theorem countP_unvisited_lt {names visited : List String} {name : String}
    (hn : name ∈ names) (hv : visited.contains name = false) :
    names.countP (fun n => !(name :: visited).contains n)
      < names.countP (fun n => !visited.contains n) := by
  induction names with
  | nil => cases hn
  | cons m names ih =>
    have le : names.countP (fun n => !(name :: visited).contains n)
        ≤ names.countP (fun n => !visited.contains n) :=
      List.countP_mono_left fun x _ hx => by
        simp only [List.contains_cons, Bool.not_or, Bool.and_eq_true] at hx
        exact hx.2
    rw [List.countP_cons, List.countP_cons]
    rcases List.mem_cons.1 hn with rfl | hn
    · simp only [List.contains_cons, beq_self_eq_true, Bool.true_or, Bool.not_true, hv,
        Bool.not_false]
      simp only [Bool.false_eq_true, ↓reduceIte]
      simp only [List.contains_cons] at le
      omega
    · have := ih hn
      have step : (if (!(name :: visited).contains m) = true then 1 else 0)
          ≤ (if (!visited.contains m) = true then 1 else 0) := by
        by_cases h : visited.contains m <;> simp_all
        split <;> omega
      omega

namespace Library

/-- What a source says about properties, with what is known about the base type. -/
abbrev SourcedBag (source : Wide) :=
  { bag : PropertyBag // ∀ base, bag.base? = some base → base ∈ basesOfSource source }

/-- The properties that a source declares, with a note if it declares none. A source
that is no text cannot be parsed. -/
def declaredProperties (dialect : Dialect) (o : PropertyOptions) (source : Wide) :
    Catalog (Option (SourcedBag source)) :=
  match hs : source.toString? with
  | none => throw .unencodable
  | some s =>
    match h : properties? (parse dialect s) o with
    | some bag => return some ⟨bag, fun _ hb => mem_basesOfSource hs h hb⟩
    | none => do
      Catalog.note (missingPropertiesNote o)
      return none

/-- What to look for in a file that declares the properties of a given type. -/
def optionsFor (l : Library) (typeName? : Option String) : PropertyOptions :=
  { typeName? := typeName?
    typeSuffix := l.config.inheritance.typeSuffix
    defaultNames := l.config.names.defaultPropsNames }

/-- The dialect of a source by the name of the file it was written in. -/
def dialectOf (file? : Option Wide) : Dialect :=
  Dialect.ofFileName (file?.map Wide.display)

/-- What a file of a library says about properties, with what is known about the base
type. -/
abbrev FoundBag (l : Library) :=
  { bag : PropertyBag // ∀ base, bag.base? = some base → base ∈ l.disk.bases }

/-- What a file declares about the properties of a type: nothing if it holds no
source, and no bag if the source has no declaration. -/
def bagIn (l : Library) (typeName : String) (artifact : Path) :
    Catalog (Option (Option (FoundBag l))) :=
  match h : SourceMap.contentAt l.disk artifact 0 with
  | .error s => do
    let _ : Option Wide ← SourceMap.orNote (.error s)
    return none
  | .ok source => do
    let file ← SourceMap.name? l.disk artifact 0
    let bag ← declaredProperties (dialectOf file) (l.optionsFor (some typeName)) source
    return some (bag.map fun b => ⟨b.1, fun base hb => mem_bases_of_contentAt h (b.2 base hb)⟩)

/-- The properties of the root type, read from its file. -/
def readRootProperties (l : Library) : Catalog (List Property) := do
  let rules := l.config.inheritance
  let artifact := l.path.child rules.rootArtifact
  match ← l.bagIn rules.rootType artifact with
  | none => return []
  | some bag =>
    match (bag.map Subtype.val).filter fun b => b.className == rules.rootType with
    | none =>
      Catalog.note (Log.warning "inheritance"
        ("Root type " ++ rules.rootType ++ " not declared in " ++ artifact.toString))
      return []
    | some bag =>
      Catalog.note (Log.debug "inheritance"
        ("Loaded " ++ bag.props.length.repr ++ " root properties from " ++ artifact.toString))
      return bag.props

/-- The properties of the root type, read now or remembered. -/
def rootProperties (l : Library) : Catalog (List Property) := do
  match (← get).rootProps? with
  | some props => return props
  | none =>
    let props ← l.readRootProperties
    modify fun s => { s with rootProps? := some props }
    return props

/-- What one type on a chain contributes: its properties, and the type that comes
after it, which is one that the files of the library extend. -/
structure Link (l : Library) where
  props : List Property := []
  next? : Option String := none
  next_mem : ∀ base, next? = some base → base ∈ l.disk.bases := by simp

/-- The contribution of a type that is not on the chain yet. -/
def linkOf (l : Library) (typeName : String) : Catalog (Link l) := do
  let marked := fun (props : List Property) => props.map fun p => p.inheritedFrom typeName
  if typeName == l.config.inheritance.rootType then
    return { props := marked (← l.rootProperties) }
  else
    match ← (findArtifact l.disk l.path l.config.inheritance typeName).attempt with
    | .error f =>
      -- a type without a file ends the chain, a search that cannot be made does not
      match f.message? with
      | some m =>
        Catalog.note (Log.warning "inheritance" m)
        return {}
      | none => throw f
    | .ok artifact =>
      match ← l.bagIn typeName artifact with
      | none => return {}
      | some none =>
        Catalog.note (Log.debug "inheritance"
          ("No props declaration for " ++ typeName ++ " in " ++ artifact.toString))
        return {}
      | some (some bag) =>
        return { props := marked bag.1.props, next? := bag.1.base?, next_mem := bag.2 }

set_option linter.unusedVariables false in
/-- The inherited properties from a type on, given the type at which the chain began
and those that are on it already. -/
def inheritedFrom (l : Library) (start : String) (visited : List String) (typeName : String)
    (h : typeName ∈ start :: l.disk.bases) : Catalog (List Property) := do
  if typeName.isEmpty then return []
  else if hv : visited.contains typeName then
    Catalog.note (Log.warning "inheritance"
      ("Inheritance cycle at " ++ typeName ++ "; chain truncated"))
    return []
  else
    let link ← l.linkOf typeName
    match hn : link.next? with
    | none => return link.props
    | some next =>
      let rest ← l.inheritedFrom start (typeName :: visited) next
        (List.mem_cons_of_mem _ (link.next_mem next hn))
      return link.props ++ rest
  termination_by (start :: l.disk.bases).countP fun n => !visited.contains n
  decreasing_by exact countP_unvisited_lt h (by simpa using hv)

/-- The properties that a declaration inherits, given the type it extends. -/
def inheritedProperties (l : Library) (base? : Option String) : Catalog (List Property) :=
  match base? with
  | none => return []
  | some base => l.inheritedFrom base [] base (List.mem_cons_self ..)

end Library

end ComponentCatalog
