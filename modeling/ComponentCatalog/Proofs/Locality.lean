import ComponentCatalog.Proofs.Assembly

/-!
# What one source does to the rest of a document

A document has facets that come from different sources, and a source may be of no use: it
declares nothing that is looked for, or the files of the types it extends are not there.
Then the facet is empty, or holds less, and everything else in the document is as it would
be without that source (`FacetsLocal`).

This is not so for every source. A few things are no answer but a fault, and a fault on the
way leaves no document at all, not even the facets that have nothing to do with it. Which
these are is `Hindered`; a directory with sources has a document exactly if none of them
occurs.
-/

namespace ComponentCatalog

open Text Syntax Extract

/-- The text of a source, if it has one. -/
def Recovered.text? (source : Recovered) : Option String :=
  source.content?.bind Wide.toString?

/-- **What leaves a component without a document** although there are sources: a source
that is no text, a file on the chain of types that cannot be taken in, a declared child
whose path cannot be looked up. -/
inductive Library.Hindered (l : Library) (name : String) (dir : Path) (sources : Sources) : Prop
  | props (h : sources.props.Garbled)
  | component (h : sources.component.Garbled)
  | styles (h : sources.styles.Garbled)
  | ancestor {bag : PropertyBag} {links : List (String × List Property)} {f : Fault}
      (hbag : l.ownBag sources = .ok (some bag)) (hc : Chain l [] bag.base? links (.failed f))
  | child {entry : String × String} {f : PathFault} (hmem : entry ∈ l.declaredChildren name)
      (h : l.disk.directory? (dir.child entry.2) = .error f)

/-- **Each facet has its own source.** A source that declares nothing leaves its facet
empty and all facets as they are without it; leaving out a source changes no facet but its
own, and the events that come from it. -/
structure FacetsLocal (l : Library) (sources : Sources) (facets : Facets) : Prop where
  /-- The properties are the component's own and those of the chain up to where it ends. -/
  inherited : ∀ bag, l.ownBag sources = .ok (some bag) → ∃ links e,
    Chain l [] bag.base? links e ∧ (∀ f, e ≠ .failed f)
      ∧ facets.props = nearest bag.props links ∧ facets.base? = bag.base?
  no_props : l.ownBag sources = .ok none → facets.props = [] ∧ facets.base? = none
    ∧ l.facetsIn { sources with props := {} } = .ok facets
  no_methods : (∀ text ∈ sources.component.text?,
      methods? (parse (Library.dialectOr .tsx sources.component.file?) text)
        { denylist := l.config.names.internalMethods } = none) →
    facets.methods = [] ∧ l.facetsIn { sources with component := {} } = .ok facets
  no_styles : (∀ text ∈ sources.styles.text?,
      (styleClasses (parse (Library.dialectOr .typescript sources.styles.file?) text)
        { defaultConstant := l.config.names.defaultClassConstant
          registrars := l.config.names.styleRegistrars }).1 = none) →
    facets.styles = [] ∧ l.facetsIn { sources with styles := {} } = .ok facets
  without_props : l.facetsIn { sources with props := {} }
    = .ok { facets with
        props := [], base? := none, events := l.eventsIn sources.compiled? [] }
  without_component : l.facetsIn { sources with component := {} }
    = .ok { facets with methods := [] }
  without_styles : l.facetsIn { sources with styles := {} } = .ok { facets with styles := [] }
  without_compiled : l.facetsIn { sources with compiled? := none }
    = .ok { facets with events := l.eventsIn none facets.props }

/-! ## Facets -/

section Facets

variable (l : Library)

/-- There are facets if there is each of them. -/
theorem facetsIn_eq_ok_iff {sources : Sources} {facets : Facets} :
    l.facetsIn sources = .ok facets
      ↔ l.propsIn sources.props = .ok (facets.props, facets.base?)
        ∧ l.methodsIn sources.component = .ok facets.methods
        ∧ l.stylesIn sources.styles = .ok facets.styles
        ∧ facets.events = l.eventsIn sources.compiled? facets.props := by
  unfold Library.facetsIn
  constructor
  · intro h
    rcases hp : l.propsIn sources.props with f | ⟨props, base?⟩
    · rw [hp] at h
      cases h
    rcases hm : l.methodsIn sources.component with f | methods
    · rw [hp, hm] at h
      cases h
    rcases hs : l.stylesIn sources.styles with f | styles
    · rw [hp, hm, hs] at h
      cases h
    rw [hp, hm, hs] at h
    cases h
    exact ⟨rfl, rfl, rfl, rfl⟩
  · rintro ⟨hp, hm, hs, he⟩
    rw [hp, hm, hs]
    show Except.ok (Facets.mk _ _ _ _ _) = _
    rw [← he]

/-- What a source of properties comes to: it is no text, it declares nothing, or it
declares something, and then there is a chain from there. -/
theorem propsIn_cases (sources : Sources) :
    (sources.props.Garbled ∧ l.propsIn sources.props = .error .unencodable)
      ∨ (¬ sources.props.Garbled ∧ l.ownBag sources = .ok none
        ∧ l.propsIn sources.props = .ok ([], none))
      ∨ ¬ sources.props.Garbled ∧ ∃ bag links e, l.ownBag sources = .ok (some bag)
        ∧ Chain l [] bag.base? links e
        ∧ l.propsIn sources.props = (e.answer links).map fun inherited =>
            (firstOfEachName Property.name [] (bag.props ++ inherited), bag.base?) := by
  have hgives : ∀ r, Gives l (l.componentProps { props := sources.props }) r →
      l.propsIn sources.props = r := fun r h => h.fresh_eq
  cases hcontent : sources.props.content? with
  | none =>
    have hown : l.ownBag sources = .ok none := by
      unfold Library.ownBag
      rw [hcontent]
    have hprops : Gives l (l.componentProps { props := sources.props }) (.ok ([], none)) := by
      unfold Library.componentProps
      rw [hcontent]
      exact .pure _
    refine .inr (.inl ⟨?_, hown, hgives _ hprops⟩)
    rintro ⟨w, hw, -⟩
    cases hcontent.symm.trans hw
  | some w =>
    have hown : l.ownBag sources = Library.bagOfSource
        (Library.dialectOr .typescript sources.props.file?) (l.optionsFor none) w := by
      unfold Library.ownBag
      rw [hcontent]
    have hgarbled : w.toString? ≠ none → ¬ sources.props.Garbled := by
      rintro hw ⟨w', hw', hnone⟩
      cases hcontent.symm.trans hw'
      exact hw hnone
    -- only a source that is no text has this fault
    have hof : w.toString? = none ↔ Library.bagOfSource
        (Library.dialectOr .typescript sources.props.file?) (l.optionsFor none) w
          = .error .unencodable := by
      unfold Library.bagOfSource
      cases w.toString? <;> simp
    obtain ⟨hbag, heq⟩ | ⟨hbag, heq⟩ | ⟨t, found, -, hbag, -⟩ := declaredProperties_cases
      (Library.dialectOr .typescript sources.props.file?) (l.optionsFor none) w
    · refine .inl ⟨⟨w, hcontent, hof.2 hbag⟩, hgives _ ?_⟩
      unfold Library.componentProps
      rw [hcontent]
      dsimp only
      rw [heq]
      exact (Gives.throw _).bind_error
    · refine .inr (.inl ⟨hgarbled fun hw => ?_, hown.trans hbag, hgives _ ?_⟩)
      · cases hbag.symm.trans (hof.1 hw)
      · unfold Library.componentProps
        rw [hcontent]
        dsimp only
        rw [heq]
        exact (Gives.note_pure _ none).bind (.note_pure _ _)
    · obtain ⟨links, e, hc⟩ := exists_chain_from l found.1.base?
      refine .inr (.inr ⟨hgarbled fun hw => ?_, found.1, links, e, hown.trans hbag, hc, ?_⟩)
      · cases hbag.symm.trans (hof.1 hw)
      · exact hgives _ (gives_componentProps (hown.trans hbag) hc)

/-- Without a source there are no properties. -/
theorem propsIn_nothing : l.propsIn {} = .ok ([], none) := by
  have hgives : Gives l (l.componentProps { props := {} }) (.ok ([], none)) := .pure _
  exact hgives.fresh_eq

/-- A source whose text gives nothing comes to what there is without one. -/
theorem Recovered.eq_nothing_of_read {α : Type} {source : Recovered} {nothing a : α}
    {reader : String → α} (h : source.read nothing reader = .ok a)
    (hr : ∀ text ∈ source.text?, reader text = nothing) : a = nothing := by
  unfold Recovered.read at h
  unfold Recovered.text? at hr
  cases hcontent : source.content? with
  | none =>
    rw [hcontent] at h
    exact (Except.ok.inj h).symm
  | some w =>
    rw [hcontent] at h hr
    cases htext : w.toString? with
    | none =>
      simp only [htext] at h
      cases h
    | some text =>
      simp only [htext] at h
      rw [← Except.ok.inj h]
      exact hr text htext

variable {l} {sources : Sources} {facets : Facets}

/-- Without a source of properties the other facets are as they were. -/
theorem without_props_of_facetsIn (h : l.facetsIn sources = .ok facets) :
    l.facetsIn { sources with props := {} } = .ok { facets with
      props := [], base? := none, events := l.eventsIn sources.compiled? [] } := by
  obtain ⟨-, hmethods, hstyles, -⟩ := (facetsIn_eq_ok_iff l).1 h
  exact (facetsIn_eq_ok_iff l).2 ⟨propsIn_nothing l, hmethods, hstyles, rfl⟩

/-- Without a source of the component the others are as they were. -/
theorem without_component_of_facetsIn (h : l.facetsIn sources = .ok facets) :
    l.facetsIn { sources with component := {} } = .ok { facets with methods := [] } := by
  obtain ⟨hprops, -, hstyles, hevents⟩ := (facetsIn_eq_ok_iff l).1 h
  exact (facetsIn_eq_ok_iff l).2 ⟨hprops, rfl, hstyles, hevents⟩

/-- Without a source of styles the others are as they were. -/
theorem without_styles_of_facetsIn (h : l.facetsIn sources = .ok facets) :
    l.facetsIn { sources with styles := {} } = .ok { facets with styles := [] } := by
  obtain ⟨hprops, hmethods, -, hevents⟩ := (facetsIn_eq_ok_iff l).1 h
  exact (facetsIn_eq_ok_iff l).2 ⟨hprops, hmethods, rfl, hevents⟩

/-- The properties that there are, if there are facets: those of the chain, which has not
ended in a fault. -/
theorem props_of_facetsIn (h : l.facetsIn sources = .ok facets) {bag : PropertyBag}
    (hbag : l.ownBag sources = .ok (some bag)) :
    ∃ links e, Chain l [] bag.base? links e ∧ (∀ f, e ≠ .failed f)
      ∧ facets.props = nearest bag.props links ∧ facets.base? = bag.base? := by
  obtain ⟨hprops, -⟩ := (facetsIn_eq_ok_iff l).1 h
  obtain ⟨-, herror⟩ | ⟨-, hnone, -⟩ | ⟨-, bag', links, e, hown, hc, hin⟩ :=
    propsIn_cases l sources
  · cases herror.symm.trans hprops
  · cases hnone.symm.trans hbag
  · cases hown.symm.trans hbag
    rw [hprops] at hin
    refine ⟨links, e, hc, ?_⟩
    cases e with
    | failed f => cases hin
    | _ =>
      obtain ⟨heq, hbase⟩ := Prod.mk.inj (Except.ok.inj hin)
      rw [firstOfEachName_eq_nearest] at heq
      exact ⟨nofun, heq, hbase⟩

/-- **Facets are local**, if there are any. -/
theorem facetsLocal_of_facetsIn (h : l.facetsIn sources = .ok facets) :
    FacetsLocal l sources facets := by
  obtain ⟨hprops, hmethods, hstyles, hevents⟩ := (facetsIn_eq_ok_iff l).1 h
  refine {
    inherited := fun bag hbag => props_of_facetsIn h hbag
    no_props := fun hnone => ?_
    no_methods := fun hnone => ?_
    no_styles := fun hnone => ?_
    without_props := without_props_of_facetsIn h
    without_component := without_component_of_facetsIn h
    without_styles := without_styles_of_facetsIn h
    without_compiled := (facetsIn_eq_ok_iff l).2 ⟨hprops, hmethods, hstyles, rfl⟩ }
  · obtain ⟨-, herror⟩ | ⟨-, -, hin⟩ | ⟨-, bag, links, e, hown, -⟩ := propsIn_cases l sources
    · cases herror.symm.trans hprops
    · obtain ⟨hnil, hbase⟩ := Prod.mk.inj (Except.ok.inj (hprops.symm.trans hin))
      refine ⟨hnil, hbase, ?_⟩
      -- the events that came from the properties are gone in both
      rw [without_props_of_facetsIn h, ← hnil, ← hbase, ← hevents]
    · cases hown.symm.trans hnone
  · have hnil : facets.methods = [] :=
      Recovered.eq_nothing_of_read hmethods fun text htext => by rw [hnone text htext]; rfl
    refine ⟨hnil, ?_⟩
    rw [without_component_of_facetsIn h, ← hnil]
  · have hnil : facets.styles = [] :=
      Recovered.eq_nothing_of_read hstyles fun text htext => by rw [hnone text htext]; rfl
    refine ⟨hnil, ?_⟩
    rw [without_styles_of_facetsIn h, ← hnil]

end Facets

/-! ## Whole documents -/

section Documents

variable (l : Library)

/-- There are facets unless a source is no text or a file on the chain cannot be taken
in. -/
theorem exists_facetsIn_iff (sources : Sources) :
    (∃ facets, l.facetsIn sources = .ok facets)
      ↔ ¬ sources.props.Garbled ∧ ¬ sources.component.Garbled ∧ ¬ sources.styles.Garbled
        ∧ ∀ bag links f, l.ownBag sources = .ok (some bag) →
          ¬ Chain l [] bag.base? links (.failed f) := by
  have hmethods := sources.component.read_eq_ok_or_garbled [] fun text =>
    (methods? (parse (Library.dialectOr .tsx sources.component.file?) text)
      { denylist := l.config.names.internalMethods }).getD []
  have hstyles := sources.styles.read_eq_ok_or_garbled [] fun text =>
    ((styleClasses (parse (Library.dialectOr .typescript sources.styles.file?) text)
      { defaultConstant := l.config.names.defaultClassConstant
        registrars := l.config.names.styleRegistrars }).1.map stylesOf).getD []
  constructor
  · rintro ⟨facets, h⟩
    obtain ⟨hprops, hm, hs, -⟩ := (facetsIn_eq_ok_iff l).1 h
    refine ⟨?_, ?_, ?_, fun bag links f hbag hc => ?_⟩
    · obtain ⟨-, herror⟩ | ⟨hg, -⟩ | ⟨hg, -⟩ := propsIn_cases l sources
      · cases herror.symm.trans hprops
      · exact hg
      · exact hg
    · obtain ⟨-, herror⟩ | ⟨hg, -⟩ := hmethods
      · cases herror.symm.trans hm
      · exact hg
    · obtain ⟨-, herror⟩ | ⟨hg, -⟩ := hstyles
      · cases herror.symm.trans hs
      · exact hg
    · obtain ⟨links', e, hc', hne, -⟩ := props_of_facetsIn h hbag
      exact hne f (hc.unique hc').2
  · rintro ⟨hgp, hgm, hgs, hchain⟩
    obtain ⟨methods, hm⟩ := (hmethods.resolve_left fun h => hgm h.1).2
    obtain ⟨styles, hs⟩ := (hstyles.resolve_left fun h => hgs h.1).2
    -- properties need more than their own source: the chain must not fail
    obtain ⟨⟨props, base?⟩, hp⟩ : ∃ r, l.propsIn sources.props = .ok r := by
      obtain ⟨hg, -⟩ | ⟨-, -, hin⟩ | ⟨-, bag, links, e, hown, hc, hin⟩ :=
        propsIn_cases l sources
      · exact absurd hg hgp
      · exact ⟨_, hin⟩
      · cases e with
        | failed f => exact absurd hc (hchain bag links f hown)
        | _ => exact ⟨_, hin⟩
    exact ⟨⟨props, base?, methods, l.eventsIn sources.compiled? props, styles⟩,
      (facetsIn_eq_ok_iff l).2 ⟨hp, hm, hs, rfl⟩⟩

/-- There are children, if only none, unless the path of a declared one cannot be looked
up. -/
theorem exists_childrenIn_iff (made : Path → Option Component) (lineage : List Path)
    (dir : Path) (declared : List (String × String)) :
    (∃ children, l.childrenIn made lineage dir declared = .ok children)
      ↔ ∀ entry ∈ declared, ∀ f, l.disk.directory? (dir.child entry.2) ≠ .error f := by
  have hfault : ∀ entry, l.childFault? dir entry = none
      ↔ ∀ f, l.disk.directory? (dir.child entry.2) ≠ .error f := by
    intro entry
    unfold Library.childFault?
    cases l.disk.directory? (dir.child entry.2) with
    | error f => simp
    | ok t? => simp
  unfold Library.childrenIn
  cases hfind : declared.findSome? (l.childFault? dir) with
  | some f =>
    obtain ⟨entry, hmem, hentry⟩ := List.exists_of_findSome?_eq_some hfind
    refine ⟨nofun, fun h => ?_⟩
    rw [(hfault entry).2 (h entry hmem)] at hentry
    cases hentry
  | none =>
    refine ⟨fun _ entry hmem => ?_, fun _ => ⟨_, rfl⟩⟩
    exact (hfault entry).1 (List.findSome?_eq_none_iff.1 hfind entry hmem)

/-- There are facets and children exactly if nothing hinders a document. -/
theorem exists_parts_iff (made : Path → Option Component) (lineage : List Path)
    (name : String) (dir : Path) (sources : Sources) :
    ((∃ facets, l.facetsIn sources = .ok facets)
        ∧ ∃ children, l.childrenIn made lineage dir (l.declaredChildren name) = .ok children)
      ↔ ¬ l.Hindered name dir sources := by
  rw [exists_facetsIn_iff, exists_childrenIn_iff]
  constructor
  · rintro ⟨⟨hgp, hgm, hgs, hchain⟩, hchild⟩ hhindered
    cases hhindered with
    | props h => exact hgp h
    | component h => exact hgm h
    | styles h => exact hgs h
    | ancestor hbag hc => exact hchain _ _ _ hbag hc
    | child hmem h => exact hchild _ hmem _ h
  · intro h
    exact ⟨⟨fun hg => h (.props hg), fun hg => h (.component hg), fun hg => h (.styles hg),
      fun _ _ _ hbag hc => h (.ancestor hbag hc)⟩, fun _ hmem _ hf => h (.child hmem hf)⟩

/-- A directory with sources has a document exactly if nothing hinders it. -/
theorem exists_built_iff {category : String} {limit : Nat} {name? : Option String}
    {ancestry : List Path} {dir : Path} {sources : Sources}
    (hsources : (sourcesOf l.disk dir).fresh = .ok sources) (hne : sources.isEmpty = false) :
    (∃ c, l.built category (limit + 1) name? ancestry dir = some c)
      ↔ ¬ l.Hindered (documentedName name? dir) dir sources := by
  rw [built_succ, ← exists_parts_iff l (fun path =>
    l.built category limit (some path.name) (ancestry ++ [l.disk.resolve dir]) path)
    (ancestry ++ [l.disk.resolve dir])]
  simp only [toOption_join_eq_some_iff, assembled_eq_some_iff]
  constructor
  · rintro ⟨c, sources', facets, children, hsources', -, hfacets, hchildren, -⟩
    cases hsources.symm.trans hsources'
    exact ⟨⟨facets, hfacets⟩, children, hchildren⟩
  · rintro ⟨⟨facets, hfacets⟩, children, hchildren⟩
    exact ⟨_, sources, facets, children, hsources, hne, hfacets, hchildren, rfl⟩

end Documents

/-- **What is local and what is not.** Making the document of a directory with sources
always comes to an end with an answer. The answer is a document exactly if nothing hinders
it, whatever else the sources, the compiled component and the files of the types that are
extended may hold; and in a document each facet comes from its own source, empty if that
declares nothing, and the others are as they would be without it. -/
theorem componentDocument_locality (l : Library) (path category : String)
    (name? : Option String) (sources : Sources)
    (hsources : (sourcesOf l.disk (.ofString path)).fresh = .ok sources)
    (hne : sources.isEmpty = false) (s : Session) (hs : s.Agrees l) :
    ∃ c?, (l.componentDocument path category name?).result s = .ok c?
      ∧ (c? = none
          ↔ l.Hindered (documentedName name? (.ofString path)) (.ofString path) sources)
      ∧ ∀ c ∈ c?, ∃ facets children, l.facetsIn sources = .ok facets
        ∧ FacetsLocal l sources facets
        ∧ c = l.config.policy.applyTo (facets.document (documentedName name? (.ofString path))
            (.ofString path) category children) := by
  have hgives : Gives l (l.componentDocument path category name?) _ :=
    (gives_build l category _ name? [] _).bind (.pure _)
  refine ⟨_, (hgives s hs).1, ?_, ?_⟩
  · rw [Option.map_eq_none_iff, ← not_iff_not, ← exists_built_iff l hsources hne]
    exact Option.ne_none_iff_exists'
  · intro c hc
    obtain ⟨c', hc', rfl⟩ := Option.map_eq_some_iff.1 hc
    rw [built_succ, toOption_join_eq_some_iff, assembled_eq_some_iff] at hc'
    obtain ⟨sources', facets, children, hsources', -, hfacets, -, rfl⟩ := hc'
    cases hsources.symm.trans hsources'
    exact ⟨facets, children, hfacets, facetsLocal_of_facetsIn hfacets, rfl⟩

/-- A component with one source, given as it stands between quotes. -/
def lone (source : String) : Library :=
  smallLibrary [("a", .directory [("a.props.js.map", sourceMapFile source)])] {}

/-- A component whose source declares nothing. -/
def undeclared : Library :=
  lone "b"

theorem componentDocument_locality_undeclared :
    Session.Agrees undeclared {}
      ∧ ∃ sources, (sourcesOf undeclared.disk (.ofString "components/a")).fresh = .ok sources
        ∧ sources.isEmpty = false
        ∧ ∃ c?, (undeclared.componentDocument "components/a" "g" (some "a")).result {} = .ok c?
          ∧ c?.isSome = true ∧ ¬ undeclared.Hindered "a" (.ofString "components/a") sources := by
  have hs := Session.agrees_empty undeclared
  have hempty : ((sourcesOf undeclared.disk (.ofString "components/a")).fresh.map
      Sources.isEmpty).toOption = some false := by
    decide +kernel
  have hsome : ((undeclared.componentDocument "components/a" "g" (some "a")).result
      {}).toOption.map Option.isSome = some true := by
    decide +kernel
  cases hsources : (sourcesOf undeclared.disk (.ofString "components/a")).fresh with
  | error f =>
    rw [hsources] at hempty
    cases hempty
  | ok sources =>
    rw [hsources] at hempty
    have hne : sources.isEmpty = false := Option.some.inj hempty
    obtain ⟨c?, hresult, hiff, -⟩ := componentDocument_locality undeclared "components/a" "g"
      (some "a") sources hsources hne {} hs
    rw [hresult] at hsome
    have hc : c?.isSome = true := Option.some.inj hsome
    refine ⟨hs, sources, rfl, hne, c?, hresult, hc, fun hhindered => ?_⟩
    rw [hiff.2 hhindered] at hc
    cases hc

/-- A source that is no text leaves the component without a document. -/
theorem componentDocument_garbled :
    ((sourcesOf (lone "\\ud800").disk (.ofString "components/a")).fresh.map
        Sources.isEmpty).toOption = some false
      ∧ (((lone "\\ud800").componentDocument "components/a" "g" none).result {}).toOption.map
          Option.isSome = some false := by
  decide +kernel

end ComponentCatalog
