import ComponentCatalog.Proofs.OneByOne

/-!
# What a document is made of

Putting a document together reads files, notes what is left out, and remembers what has
been worked out on the way. Its answer depends on none of that. Here the answer is
written down without a session: each facet from its own source and from nothing else
(`Library.methodsIn` and its like), the children from the declared entries one by one
(`Library.childrenIn`), and the whole from these (`Library.assembled`). One statement
each says that the computation gives this answer.

Two kinds of faults are in these answers. A source that is no text is one, wherever it is
read. A child whose path cannot be looked up at all is another; one that leads nowhere
is merely left out.
-/

namespace ComponentCatalog

open Text Syntax Extract

/-! ## Facets -/

/-- A source that holds something that is no character, and so is no text. -/
def Recovered.Garbled (source : Recovered) : Prop :=
  ∃ w, source.content? = some w ∧ w.toString? = none

/-- What a reader of texts makes of a source, and what there is without one. -/
def Recovered.read {α : Type} (source : Recovered) (nothing : α) (reader : String → α) :
    Except Fault α :=
  match source.content? with
  | none => .ok nothing
  | some w =>
    match w.toString? with
    | none => .error .unencodable
    | some text => .ok (reader text)

/-- A source that can be read gives what the reader makes of its text. -/
theorem Recovered.read_eq_ok_or_garbled {α : Type} (source : Recovered) (nothing : α)
    (reader : String → α) :
    (source.Garbled ∧ source.read nothing reader = .error .unencodable)
      ∨ ¬ source.Garbled ∧ ∃ a, source.read nothing reader = .ok a := by
  unfold Recovered.read Recovered.Garbled
  cases source.content? with
  | none => exact .inr ⟨nofun, nothing, rfl⟩
  | some w =>
    dsimp only
    cases hw : w.toString? with
    | none => exact .inl ⟨⟨w, rfl, hw⟩, rfl⟩
    | some text =>
      refine .inr ⟨?_, reader text, rfl⟩
      rintro ⟨w', heq, hw'⟩
      cases heq
      cases hw.symm.trans hw'

/-- What a document says about a component itself. -/
structure Facets where
  props : List Property := []
  base? : Option String := none
  methods : List Method := []
  events : List Event := []
  styles : List Style := []

/-- The document with given facets and children. -/
def Facets.document (f : Facets) (name : String) (dir : Path) (category : String)
    (children : List Component) : Component :=
  { name := name
    path := dir.toString
    category := category
    props := f.props
    methods := f.methods
    events := f.events
    styles := f.styles
    base? := f.base?
    children := children }

namespace Library

variable (l : Library)

/-- The properties that a source of properties gives, with those that are inherited, and
the type that is extended. -/
def propsIn (source : Recovered) : Except Fault (List Property × Option String) :=
  (l.componentProps { props := source }).fresh

/-- The methods that the source of a component gives. -/
def methodsIn (source : Recovered) : Except Fault (List Method) :=
  source.read [] fun text =>
    (methods? (parse (dialectOr .tsx source.file?) text)
      { denylist := l.config.names.internalMethods }).getD []

/-- The events that properties and a compiled component give. -/
def eventsIn (compiled? : Option String) (props : List Property) : List Event :=
  mergeEvents (eventsOfProperties props)
    (((compiled?.filter fun s => !s.isEmpty).map fun compiled =>
      eventsOfCalls (parse .tsx compiled) l.config.names.eventEmitters).getD [])

/-- The styles that a source of styles gives. -/
def stylesIn (source : Recovered) : Except Fault (List Style) :=
  source.read [] fun text =>
    ((styleClasses (parse (dialectOr .typescript source.file?) text)
      { defaultConstant := l.config.names.defaultClassConstant
        registrars := l.config.names.styleRegistrars }).1.map stylesOf).getD []

/-- The facets that the sources of a component give, if all of them are texts. -/
def facetsIn (sources : Sources) : Except Fault Facets := do
  let (props, base?) ← l.propsIn sources.props
  let methods ← l.methodsIn sources.component
  let styles ← l.stylesIn sources.styles
  return {
    props := props
    base? := base?
    methods := methods
    events := l.eventsIn sources.compiled? props
    styles := styles }

end Library

section Facets

variable (l : Library)

theorem gives_componentProps_propsIn (sources : Sources) :
    Gives l (l.componentProps sources) (l.propsIn sources.props) :=
  steady_componentProps l sources

/-- What is read from a source depends on its text, or on there being none. -/
theorem gives_sourceText_bind {α : Type} {source : Recovered} {w : Wide} {nothing : α}
    {reader : String → α} {f : String → Catalog α} (hw : source.content? = some w)
    (hf : ∀ text, Gives l (f text) (.ok (reader text))) :
    Gives l (Library.sourceText w >>= f) (source.read nothing reader) := by
  unfold Library.sourceText Recovered.read
  rw [hw]
  dsimp only
  cases w.toString? with
  | none => exact (Gives.throw _).bind_error
  | some text => exact (Gives.pure text).bind (hf text)

/-- The methods of a component are those of its source. -/
theorem gives_componentMethods (sources : Sources) :
    Gives l (l.componentMethods sources) (l.methodsIn sources.component) := by
  unfold Library.componentMethods Library.methodsIn
  split
  · next hnone =>
    rw [Recovered.read, hnone]
    exact .pure _
  · next w hw =>
    exact gives_sourceText_bind l hw fun text => (Gives.noteAll _).bind (.pure _)

/-- The styles of a component are those of its source. -/
theorem gives_componentStyles (sources : Sources) :
    Gives l (l.componentStyles sources) (l.stylesIn sources.styles) := by
  unfold Library.componentStyles Library.stylesIn
  split
  · next hnone =>
    rw [Recovered.read, hnone]
    exact .pure _
  · next w hw =>
    exact gives_sourceText_bind l hw fun text => (Gives.noteAll _).bind (.pure _)

/-- The events of a component are those of what it is compiled to and of its handlers. -/
theorem gives_componentEvents (sources : Sources) (props : List Property) :
    Gives l (l.componentEvents sources props) (.ok (l.eventsIn sources.compiled? props)) := by
  unfold Library.componentEvents Library.eventsIn
  dsimp only
  cases sources.compiled?.filter fun s => !s.isEmpty with
  | none => exact .pure _
  | some compiled => exact (Gives.noteAll _).bind (.pure _)

end Facets

/-! ## Children -/

/-- There is a directory where a path leads to one. -/
theorem Disk.isDirectory_iff {d : Disk} {p : Path} :
    d.isDirectory p = true ↔ ∃ t, d.find p = .ok t ∧ t.isDirectory = true := by
  unfold Disk.isDirectory Disk.find?
  cases d.find p with
  | ok t => simp [Except.toOption]
  | error f => simp [Except.toOption]

/-- There is a directory exactly where one can be read. -/
theorem Disk.isDirectory_iff_readDirectory {d : Disk} {p : Path} :
    d.isDirectory p = true ↔ ∃ t, d.readDirectory p = .ok t := by
  rw [Disk.isDirectory_iff]
  unfold Disk.readDirectory
  cases d.find p with
  | error f => exact ⟨nofun, nofun⟩
  | ok t =>
    show _ ↔ ∃ u, (if t.isDirectory = true then Except.ok t else .error _) = .ok u
    cases ht : t.isDirectory with
    | false => simp [ht]
    | true => simp [ht]

/-- A directory that can be listed is one that can be read. -/
theorem Disk.readDirectory_of_listing {d : Disk} {p : Path} {t : FileTree}
    (h : d.listing p = .ok t) : d.readDirectory p = .ok t := by
  unfold Disk.listing at h
  split at h
  · cases h
  · split at h
    · cases h
      assumption
    · cases h

/-- A path leads to a directory, or it leads to none, or it is too long to be looked
up. -/
theorem Disk.directory?_cases (d : Disk) (p : Path) :
    (d.isDirectory p = true ∧ ∃ t, d.directory? p = .ok (some t))
      ∨ (d.isDirectory p = false ∧ d.directory? p = .ok none)
      ∨ ∃ f, d.directory? p = .error f := by
  unfold Disk.isDirectory Disk.directory? Disk.find?
  cases d.find p with
  | error f =>
    cases f with
    | nameTooLong => exact .inr (.inr ⟨_, rfl⟩)
    | _ => exact .inr (.inl ⟨rfl, rfl⟩)
  | ok t =>
    cases ht : t.isDirectory with
    | true => exact .inl ⟨ht, t, by simp [ht]⟩
    | false => exact .inr (.inl ⟨ht, by simp [ht]⟩)

namespace Library

variable (l : Library)

/-- The fault that a declared child is, if its path cannot be looked up. -/
def childFault? (dir : Path) (entry : String × String) : Option Fault :=
  match l.disk.directory? (dir.child entry.2) with
  | .error f => some (.badPath f)
  | .ok _ => none

/-- The document of a declared child: there is one if its path leads to a directory that
is not on the lineage, and if a document can be made there. -/
def childIn? (made : Path → Option Component) (lineage : List Path) (dir : Path)
    (entry : String × String) : Option Component :=
  let path := dir.child entry.2
  if l.disk.isDirectory path = true ∧ l.disk.resolve path ∉ lineage then made path else none

/-- The documents of declared children, in the order in which they are declared. -/
def childrenIn (made : Path → Option Component) (lineage : List Path) (dir : Path)
    (declared : List (String × String)) : Except Fault (List Component) :=
  match declared.findSome? (l.childFault? dir) with
  | some f => .error f
  | none => .ok (declared.filterMap (l.childIn? made lineage dir))

end Library

section Children

variable (l : Library)

/-- What comes of the first child and what comes of the others. -/
theorem childrenIn_cons (made : Path → Option Component) (lineage : List Path) (dir : Path)
    (entry : String × String) (rest : List (String × String))
    (h : l.childFault? dir entry = none) :
    l.childrenIn made lineage dir (entry :: rest)
      = (l.childrenIn made lineage dir rest).map
          ((l.childIn? made lineage dir entry).toList ++ ·) := by
  unfold Library.childrenIn
  rw [List.findSome?_cons, h]
  dsimp only
  cases rest.findSome? (l.childFault? dir) with
  | some f => rfl
  | none =>
    rw [List.filterMap_cons]
    cases l.childIn? made lineage dir entry <;> rfl

/-- A declared child that is a directory, and not one on the lineage, has the document made for it.
-/
theorem childIn?_eq_made {made : Path → Option Component} {lineage : List Path} {dir : Path}
    {child relative : String} (hdir : l.disk.isDirectory (dir.child relative) = true)
    (hin : l.disk.resolve (dir.child relative) ∉ lineage) :
    l.childIn? made lineage dir (child, relative) = made (dir.child relative) := by
  unfold Library.childIn?
  exact if_pos ⟨hdir, hin⟩

/-- A child that is left out adds nothing to what comes of the others. -/
theorem childrenIn_skip {made : Path → Option Component} {lineage : List Path} {dir : Path}
    {child relative : String} {rest : List (String × String)}
    (hfault : l.childFault? dir (child, relative) = none)
    (hout : ¬ (l.disk.isDirectory (dir.child relative) = true
      ∧ l.disk.resolve (dir.child relative) ∉ lineage)) :
    l.childrenIn made lineage dir rest
      = l.childrenIn made lineage dir ((child, relative) :: rest) := by
  have hnone : l.childIn? made lineage dir (child, relative) = none := by
    unfold Library.childIn?
    exact if_neg hout
  rw [childrenIn_cons l _ _ _ _ _ hfault, hnone]
  cases l.childrenIn made lineage dir rest <;> rfl

/-- A declared child lies in a directory, or it is missing, or its path cannot be looked
up; only the last is a fault of the parent. -/
theorem childPath_cases (parent : String) (dir : Path) (child relative : String) :
    (l.disk.isDirectory (dir.child relative) = true
        ∧ l.childPath parent dir child relative = .ok (dir.child relative)
        ∧ l.childFault? dir (child, relative) = none)
      ∨ (l.disk.isDirectory (dir.child relative) = false
        ∧ l.childPath parent dir child relative
            = .error (.missingChild parent child (dir.child relative).toString)
        ∧ l.childFault? dir (child, relative) = none)
      ∨ ∃ f, l.childPath parent dir child relative = .error (.badPath f)
        ∧ l.childFault? dir (child, relative) = some (.badPath f) := by
  unfold Library.childPath Library.childFault?
  dsimp only
  obtain ⟨hdir, t, ht⟩ | ⟨hdir, ht⟩ | ⟨f, ht⟩ := l.disk.directory?_cases (dir.child relative)
  · rw [ht]
    exact .inl ⟨hdir, rfl, rfl⟩
  · rw [ht]
    exact .inr (.inl ⟨hdir, rfl, rfl⟩)
  · rw [ht]
    exact .inr (.inr ⟨f, rfl, rfl⟩)

/-- The documents of declared children are made one after the other, whatever the session. -/
theorem gives_childDocuments {make : Path → Catalog (Option Component)}
    {made : Path → Option Component} (hmake : ∀ path, Gives l (make path) (.ok (made path)))
    (parent : String) (lineage : List Path) (dir : Path) (declared : List (String × String)) :
    Gives l
      (l.childDocuments make parent lineage
        (declared.map fun e => (e.1, l.childPath parent dir e.1 e.2)))
      (l.childrenIn made lineage dir declared) := by
  induction declared with
  | nil => exact .pure _
  | cons entry rest ih =>
    obtain ⟨child, relative⟩ := entry
    rw [List.map_cons]
    obtain ⟨hdir, hpath, hfault⟩ | ⟨hdir, hpath, hfault⟩ | ⟨f, hpath, hfault⟩ :=
      childPath_cases l parent dir child relative
    · rw [hpath, Library.childDocuments]
      -- a child that is on the way here already is left out
      by_cases hin : l.disk.resolve (dir.child relative) ∈ lineage
      · rw [if_pos (by simpa using hin)]
        exact ((Gives.note _).bind ih).of_eq (childrenIn_skip l hfault fun h => h.2 hin)
      · rw [if_neg (by simpa using hin), childrenIn_cons l _ _ _ _ _ hfault,
          childIn?_eq_made l hdir hin]
        refine (hmake _).bind ?_
        cases hrest : l.childrenIn made lineage dir rest with
        | error f => exact (ih.of_eq hrest).bind_error
        | ok documents => exact (ih.of_eq hrest).bind (.pure _)
    · rw [hpath, Library.childDocuments]
      dsimp only [Fault.message?]
      refine ((Gives.note _).bind ih).of_eq (childrenIn_skip l hfault fun h => ?_)
      rw [hdir] at h
      cases h.1
    · rw [hpath, Library.childDocuments, Library.childrenIn, List.findSome?_cons, hfault]
      exact .throw _

end Children

/-! ## Whole documents -/

/-- The name under which a component is documented: the one that is given, or that of
its directory. -/
def documentedName (name? : Option String) (dir : Path) : String :=
  (name?.filter fun s => !s.isEmpty).getD dir.name

namespace Library

variable (l : Library)

/-- What putting a document together comes to, given the documents of other directories
under a lineage. -/
def assembled (made : List Path → Path → Option Component) (dir : Path) (category : String)
    (name? : Option String) (ancestry : List Path) : Except Fault (Option Component) := do
  let sources ← (sourcesOf l.disk dir).fresh
  if sources.isEmpty then .ok none
  else
    let name := documentedName name? dir
    let lineage := ancestry ++ [l.disk.resolve dir]
    let facets ← l.facetsIn sources
    let children ← l.childrenIn (made lineage) lineage dir (l.declaredChildren name)
    .ok (some (facets.document name dir category children))

/-- The document that is made with at most so many levels, in whichever session. -/
def built (category : String) (limit : Nat) (name? : Option String) (ancestry : List Path)
    (dir : Path) : Option Component :=
  (l.build category limit name? ancestry dir).fresh.toOption.join

end Library

section Documents

variable (l : Library)

/-- Making a document never fails; it may come to none. -/
theorem gives_build (category : String) (limit : Nat) (name? : Option String)
    (ancestry : List Path) (dir : Path) :
    Gives l (l.build category limit name? ancestry dir)
      (.ok (l.built category limit name? ancestry dir)) := by
  obtain ⟨c?, hc, -⟩ := succeeds_build l category limit name? ancestry dir {}
  refine Gives.of_eq (steady_build l category limit name? ancestry dir) ?_
  have hfresh : (l.build category limit name? ancestry dir).fresh = .ok c? := hc
  rw [Library.built, hfresh]
  rfl

/-- **Putting a document together** gives what its parts come to. -/
theorem gives_assemble {make : List Path → Path → Catalog (Option Component)}
    {made : List Path → Path → Option Component}
    (hmake : ∀ lineage path, Gives l (make lineage path) (.ok (made lineage path)))
    (dir : Path) (category : String) (name? : Option String) (ancestry : List Path) :
    Gives l (l.assemble make dir category name? ancestry)
      (l.assembled made dir category name? ancestry) := by
  unfold Library.assemble Library.assembled
  have hread : Gives l (sourcesOf l.disk dir) _ := steady_sourcesOf l dir
  cases hsources : (sourcesOf l.disk dir).fresh with
  | error f => exact (hread.of_eq hsources).bind_error
  | ok sources =>
    refine (hread.of_eq hsources).bind ?_
    show Gives l _ (if sources.isEmpty then _ else _)
    split
    · exact .note_pure _ _
    · -- the facets come in the order props, methods, events, styles; each may fail
      have hprops := gives_componentProps_propsIn l sources
      have hmethods := gives_componentMethods l sources
      have hstyles := gives_componentStyles l sources
      have hchildren := gives_childDocuments l
        (hmake (ancestry ++ [l.disk.resolve dir])) (documentedName name? dir)
        (ancestry ++ [l.disk.resolve dir]) dir (l.declaredChildren (documentedName name? dir))
      unfold Library.facetsIn
      rcases hp : l.propsIn sources.props with f | ⟨props, base?⟩
      · exact (hprops.of_eq hp).bind_error
      refine (hprops.of_eq hp).bind ?_
      rcases hm : l.methodsIn sources.component with f | methods
      · exact (hmethods.of_eq hm).bind_error
      refine (hmethods.of_eq hm).bind ((gives_componentEvents l sources props).bind ?_)
      rcases hs : l.stylesIn sources.styles with f | styles
      · exact (hstyles.of_eq hs).bind_error
      refine (hstyles.of_eq hs).bind ?_
      rcases hc : l.childrenIn _ _ dir _ with f | children
      · rw [hc] at hchildren
        exact hchildren.bind_error
      · rw [hc] at hchildren
        exact hchildren.bind (.pure _)

theorem toOption_eq_some_iff {ε α : Type} {r : Except ε α} {a : α} :
    r.toOption = some a ↔ r = .ok a := by
  cases r <;> simp [Except.toOption]

/-- There is an answer exactly if nothing fails and one is given. -/
theorem toOption_join_eq_some_iff {α : Type} {r : Except Fault (Option α)} {a : α} :
    r.toOption.join = some a ↔ r = .ok (some a) := by
  cases r with
  | error f => exact ⟨nofun, nofun⟩
  | ok a? => cases a? <;> simp [Except.toOption]

/-- One level more: a document is put together from documents with one level less, and a
fault on the way leaves none. -/
theorem built_succ (category : String) (limit : Nat) (name? : Option String)
    (ancestry : List Path) (dir : Path) :
    l.built category (limit + 1) name? ancestry dir
      = (l.assembled (fun lineage path => l.built category limit (some path.name) lineage path)
          dir category name? ancestry).toOption.join := by
  have hassemble := gives_assemble l
    (fun lineage path => gives_build l category limit (some path.name) lineage path)
    dir category name? ancestry
  suffices h : Gives l (l.build category (limit + 1) name? ancestry dir)
      (.ok (l.assembled (fun lineage path => l.built category limit (some path.name) lineage path)
          dir category name? ancestry).toOption.join) by
    rw [Library.built, h.fresh_eq]
    rfl
  rw [Library.build]
  refine hassemble.attempt.bind ?_
  cases l.assembled _ dir category name? ancestry with
  | ok c? => exact .pure _
  | error f => exact .note_pure _ _

/-- **A document that is put together** has the facets of its sources and the children
that are declared for it. -/
theorem assembled_eq_some_iff {made : List Path → Path → Option Component} {dir : Path}
    {category : String} {name? : Option String} {ancestry : List Path} {c : Component} :
    l.assembled made dir category name? ancestry = .ok (some c)
      ↔ ∃ sources facets children, (sourcesOf l.disk dir).fresh = .ok sources
        ∧ sources.isEmpty = false ∧ l.facetsIn sources = .ok facets
        ∧ l.childrenIn (made (ancestry ++ [l.disk.resolve dir]))
            (ancestry ++ [l.disk.resolve dir]) dir
            (l.declaredChildren (documentedName name? dir)) = .ok children
        ∧ c = facets.document (documentedName name? dir) dir category children := by
  unfold Library.assembled
  constructor
  · intro h
    rcases hsources : (sourcesOf l.disk dir).fresh with f | sources
    · rw [hsources] at h
      cases h
    rw [hsources] at h
    change (if sources.isEmpty then _ else _) = _ at h
    split at h
    · cases h
    · next hne =>
      rcases hfacets : l.facetsIn sources with f | facets
      · rw [hfacets] at h
        cases h
      rcases hchildren : l.childrenIn (made (ancestry ++ [l.disk.resolve dir]))
          (ancestry ++ [l.disk.resolve dir]) dir
          (l.declaredChildren (documentedName name? dir)) with f | children
      · rw [hfacets, hchildren] at h
        cases h
      · rw [hfacets, hchildren] at h
        cases h
        exact ⟨sources, facets, children, rfl, by simpa using hne, hfacets, rfl, rfl⟩
  · rintro ⟨sources, facets, children, hsources, hne, hfacets, hchildren, rfl⟩
    rw [hsources]
    show (if sources.isEmpty then _ else _) = _
    rw [if_neg (by simp [hne]), hfacets, hchildren]
    rfl

end Documents

end ComponentCatalog
