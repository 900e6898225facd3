import ComponentCatalog.Generator
import ComponentCatalog.Proofs.Candidates
import ComponentCatalog.Proofs.InheritanceChain

/-!
# Well-formed documents

Every document that a library gives is well formed, and so are the documents of the
children in it, at any depth. The rules come from two places. Those of `Assembled`
hold of what the readers of sources put together; they are shown of the facets one by
one and then, by induction on the number of levels, of a document with its children.
Those that `WellFormed` adds hold because the policy of the configuration has been
applied, which filters each document under its own name and keeps the others, since a
list that is filtered is only thinned out.

None of this depends on what the session remembers.
-/

namespace ComponentCatalog

open Text Syntax Extract

/-! ## The rules -/

namespace Component

mutual

/-- A document with the documents of all children in it, at any depth. -/
def nested : Component → List Component
  | ⟨name, path, category, props, methods, events, styles, base?, children, description?⟩ =>
    ⟨name, path, category, props, methods, events, styles, base?, children, description?⟩ ::
      nestedAll children

/-- As `nested`, for several documents. -/
def nestedAll : List Component → List Component
  | [] => []
  | c :: cs => nested c ++ nestedAll cs

end

/-- A document comes before all that is in it. -/
theorem nested_eq_cons (c : Component) : c.nested = c :: nestedAll c.children := by
  cases c
  rw [nested]

theorem mem_nestedAll {c : Component} {cs : List Component} :
    c ∈ nestedAll cs ↔ ∃ d ∈ cs, c ∈ d.nested := by
  induction cs with
  | nil => simp [nestedAll]
  | cons d cs ih => simp [nestedAll, ih]

end Component

/-- Whether a property has an origin to show. -/
def Property.HasOrigin (p : Property) : Prop :=
  ∃ origin, p.origin? = some origin ∧ origin ≠ ""

/-- The rules for the properties of a component, given the type it extends. -/
structure PropsAssembled (props : List Property) (base? : Option String) : Prop where
  nodup : (props.map Property.name).Nodup
  /-- What a component declares itself comes before what it inherits. -/
  own_first : props.Pairwise fun p q => q.inherited = false → p.inherited = false
  inherited_iff : ∀ p ∈ props, p.inherited = true ↔ p.HasOrigin
  /-- Without a type to inherit from there is nothing inherited. -/
  own_of_no_base : (∀ base ∈ base?, base = "") → ∀ p ∈ props, p.inherited = false

/-- The rules for the methods of a component, given the names that are internal. -/
structure MethodsAssembled (internal : List String) (methods : List Method) : Prop where
  nodup : (methods.map Method.name).Nodup
  exposed : ∀ m ∈ methods, m.name ∉ internal ∧ m.name ≠ "constructor"

/-- The rules for the styles of a component. -/
structure StylesAssembled (styles : List Style) : Prop where
  nodup : (styles.map Style.className).Nodup
  /-- Unless there are no styles, the first one is the only default. -/
  default_first : styles = [] ∨ ∃ d others, styles = d :: others
    ∧ d.description? = some defaultStyleDescription ∧ d.className ≠ ""
    ∧ ∀ s ∈ others, s.description? ≠ some defaultStyleDescription

/-- The rules for a document before the policy is applied. -/
structure Component.Assembled (config : Config) (c : Component) : Prop where
  props : PropsAssembled c.props c.base?
  methods : MethodsAssembled config.names.internalMethods c.methods
  events : (c.events.map Event.name).Nodup
  styles : StylesAssembled c.styles

/-- **The rules for a document**: what it was assembled by, and that nothing is in it
that the policy leaves out under its name. -/
structure Component.WellFormed (config : Config) (c : Component) : Prop
    extends c.Assembled config where
  methods_kept : ∀ m ∈ c.methods, m.name ∉ config.policy.excludeMethods
    ∧ m.name ∉ (config.policy.overrideFor c.name).excludeMethods
  props_kept : ∀ p ∈ c.props, p.name ∉ config.policy.excludeProps
    ∧ p.name ∉ (config.policy.overrideFor c.name).excludeProps
    ∧ (p.inherited = true → p.name ∉ config.policy.excludeInheritedProps)

/-! ## Thinning out -/

namespace PropsAssembled

variable {props props' : List Property} {base? : Option String}

theorem sublist (h : PropsAssembled props base?) (hs : props'.Sublist props) :
    PropsAssembled props' base? where
  nodup := h.nodup.sublist (hs.map _)
  own_first := h.own_first.sublist hs
  inherited_iff p hp := h.inherited_iff p (hs.subset hp)
  own_of_no_base hb p hp := h.own_of_no_base hb p (hs.subset hp)

end PropsAssembled

theorem MethodsAssembled.sublist {internal : List String} {methods methods' : List Method}
    (h : MethodsAssembled internal methods) (hs : methods'.Sublist methods) :
    MethodsAssembled internal methods' where
  nodup := h.nodup.sublist (hs.map _)
  exposed m hm := h.exposed m (hs.subset hm)

/-- The styles may be thinned out as long as the default class stays. -/
theorem StylesAssembled.filter {styles : List Style} (h : StylesAssembled styles)
    {keep : Style → Bool} (hkeep : ∀ s : Style, s.isDefault = true → keep s = true) :
    StylesAssembled (styles.filter keep) where
  nodup := h.nodup.sublist (List.filter_sublist.map _)
  default_first := by
    rcases h.default_first with rfl | ⟨d, others, rfl, hd, hne, hothers⟩
    · exact .inl rfl
    · have hkept : keep d = true := hkeep d (by simp [Style.isDefault, hd])
      refine .inr ⟨d, others.filter keep, List.filter_cons_of_pos hkept, hd, hne, ?_⟩
      exact fun s hs => hothers s (List.mem_of_mem_filter hs)

/-! ## Applying the policy -/

namespace Policy

variable (p : Policy)

mutual

/-- The policy is applied at every depth. -/
theorem nested_applyTo : (c : Component) → (p.applyTo c).nested = c.nested.map p.applyTo
  | ⟨_, _, _, _, _, _, _, _, children, _⟩ => by
    simp only [applyTo, Component.nested, List.map_cons, nestedAll_applyToAll children]

theorem nestedAll_applyToAll : (cs : List Component) →
    Component.nestedAll (p.applyToAll cs) = (Component.nestedAll cs).map p.applyTo
  | [] => rfl
  | c :: cs => by
    rw [applyToAll, Component.nestedAll, Component.nestedAll, List.map_append,
      nested_applyTo c, nestedAll_applyToAll cs]

end

/-- The default style class is never left out. -/
theorem keepsStyle_of_isDefault (component : String) (s : Style) (h : s.isDefault = true) :
    p.keepsStyle component s = true := by
  simp [keepsStyle, h]

end Policy

/-- **What a policy leaves of an assembled document is well formed.** -/
theorem wellFormed_applyTo {config : Config} {c : Component} (h : c.Assembled config) :
    (config.policy.applyTo c).WellFormed config := by
  obtain ⟨name, path, category, props, methods, events, styles, base?, children, description?⟩ := c
  rw [Policy.applyTo]
  exact {
    props := h.props.sublist List.filter_sublist
    methods := h.methods.sublist List.filter_sublist
    events := h.events
    styles := h.styles.filter (config.policy.keepsStyle_of_isDefault name)
    methods_kept := fun m hm => by
      simpa [Policy.keepsMethod] using (List.mem_filter.1 hm).2
    props_kept := fun p hp => by
      simpa [Policy.keepsProperty, and_assoc, or_iff_not_imp_left] using
        (List.mem_filter.1 hp).2 }

/-- What is well put together at every depth is well formed at every depth once the
policy has been applied. -/
theorem wellFormed_of_mem_nested_applyTo {config : Config} {c : Component}
    (h : ∀ d ∈ c.nested, d.Assembled config) :
    ∀ d ∈ (config.policy.applyTo c).nested, d.WellFormed config := by
  intro d hd
  rw [Policy.nested_applyTo] at hd
  obtain ⟨c', hc', rfl⟩ := List.mem_map.1 hd
  exact wellFormed_applyTo (h c' hc')

/-! ## The facets of a component -/

section Facets

variable (l : Library)

/-- A property that is inherited and has an origin to show. -/
def Property.IsInherited (p : Property) : Prop :=
  p.inherited = true ∧ p.HasOrigin

theorem isInherited_inheritedFrom {typeName : String} (hne : typeName ≠ "")
    {props : List Property} :
    ∀ p ∈ props.map fun p => p.inheritedFrom typeName, p.IsInherited := by
  intro p hp
  obtain ⟨q, -, rfl⟩ := List.mem_map.1 hp
  exact ⟨rfl, typeName, rfl, hne⟩

/-- What a link gives is marked as inherited. -/
theorem ensures_linkOf {typeName : String} (hne : typeName ≠ "") :
    Ensures (fun link => ∀ p ∈ link.props, p.IsInherited) (l.linkOf typeName) := by
  unfold Library.linkOf
  dsimp only
  split
  · exact .then_of fun props => .pure (isInherited_inheritedFrom hne)
  · refine .then_of fun found => ?_
    cases found with
    | error f =>
      dsimp only
      cases f.message? with
      | some m => exact .then_of fun _ => .pure nofun
      | none => exact .throw f
    | ok artifact =>
      refine .then_of fun bag => ?_
      rcases bag with _ | _ | bag
      · exact .pure nofun
      · exact .then_of fun _ => .pure nofun
      · exact .pure (isInherited_inheritedFrom hne)

/-- Everything on a chain is inherited. -/
theorem ensures_inheritedFrom (start : String) (visited : List String) (typeName : String)
    (h : typeName ∈ start :: l.disk.bases) :
    Ensures (fun props => ∀ p ∈ props, p.IsInherited)
      (l.inheritedFrom start visited typeName h) := by
  by_cases hne : typeName.isEmpty = true
  · rw [Library.inheritedFrom, if_pos hne]
    exact .pure fun p hp => absurd hp List.not_mem_nil
  by_cases hv : visited.contains typeName = true
  · rw [Library.inheritedFrom, if_neg hne, dif_pos hv]
    exact .then_of fun _ => .pure fun p hp => absurd hp List.not_mem_nil
  obtain ⟨goOn, heq, hlast, hgoOn⟩ :=
    inheritedFrom_step h (by simpa using hne) (by simpa using hv)
  rw [heq]
  refine (ensures_linkOf l (by simpa using hne)).bind fun link hlink => ?_
  cases hn : link.next? with
  | none =>
    rw [hlast link hn]
    exact .pure hlink
  | some next =>
    rw [hgoOn link next hn]
    refine (ensures_inheritedFrom start (typeName :: visited) next _).bind fun rest hrest => ?_
    exact .pure fun p hp => (List.mem_append.1 hp).elim (hlink p) (hrest p)
  termination_by (start :: l.disk.bases).countP fun n => !visited.contains n
  decreasing_by exact countP_unvisited_lt h (by simpa using hv)

/-- All that is inherited is marked, and there is nothing if nothing is extended. -/
theorem ensures_inheritedProperties (base? : Option String) :
    Ensures (fun props => (∀ p ∈ props, p.IsInherited) ∧ ((∀ base ∈ base?, base = "") → props = []))
      (l.inheritedProperties base?) := by
  cases base? with
  | none => exact .pure ⟨nofun, fun _ => rfl⟩
  | some base =>
    show Ensures _ (l.inheritedFrom base [] base _)
    by_cases hne : base = ""
    · rw [Library.inheritedFrom, if_pos (by simpa using hne)]
      exact .pure ⟨nofun, fun _ => rfl⟩
    · intro s props hprops
      exact ⟨ensures_inheritedFrom l base [] base _ s props hprops,
        fun hb => absurd (hb base rfl) hne⟩

/-- What a source declares is put before what is inherited, and of each name the first
is kept. -/
theorem propsAssembled_append {own inherited : List Property} {base? : Option String}
    (hown : ∀ p ∈ own, p.inherited = false ∧ p.origin? = none)
    (hinherited : ∀ p ∈ inherited, p.IsInherited)
    (hbase : (∀ base ∈ base?, base = "") → inherited = []) :
    PropsAssembled (firstOfEachName Property.name [] (own ++ inherited)) base? where
  nodup := nodup_map_firstOfEachName Property.name [] _
  own_first := by
    -- keeping the first of each name does not change the order, so it holds before that
    refine List.Pairwise.sublist (firstOfEachName_sublist Property.name [] _) ?_
    refine List.pairwise_append.2 ⟨?_, ?_, fun p hp q _ _ => (hown p hp).1⟩
    · exact List.pairwise_of_forall_mem_list fun p hp _ _ _ => (hown p hp).1
    · refine List.pairwise_of_forall_mem_list fun p _ q hq h => ?_
      rw [(hinherited q hq).1] at h
      cases h
  inherited_iff p hp := by
    rcases List.mem_append.1 (mem_of_mem_firstOfEachName Property.name hp) with h | h
    · simp [Property.HasOrigin, hown p h]
    · exact iff_of_true (hinherited p h).1 (hinherited p h).2
  own_of_no_base hb p hp := by
    have hmem := mem_of_mem_firstOfEachName Property.name hp
    rw [hbase hb, List.append_nil] at hmem
    exact (hown p hmem).1

/-- What is declared is not marked. -/
theorem ensures_declaredProperties (dialect : Dialect) (o : PropertyOptions) (source : Wide) :
    Ensures (fun bag? => ∀ bag ∈ bag?, ∀ p ∈ bag.1.props, p.inherited = false ∧ p.origin? = none)
      (Library.declaredProperties dialect o source) := by
  obtain ⟨-, heq⟩ | ⟨-, heq⟩ | ⟨t, bag, hbag, -, heq⟩ := declaredProperties_cases dialect o source
  · rw [heq]
    exact .throw _
  · rw [heq]
    exact .then_of fun _ => .pure nofun
  · rw [heq]
    refine .pure fun found hfound p hp => ?_
    cases hfound
    exact own_of_properties? hbag hp

/-- The properties of a component are assembled. -/
theorem ensures_componentProps (sources : Sources) :
    Ensures (fun r => PropsAssembled r.1 r.2) (l.componentProps sources) := by
  have hnone : PropsAssembled [] none := ⟨List.nodup_nil, .nil, nofun, nofun⟩
  unfold Library.componentProps
  split
  · exact .pure hnone
  · refine (ensures_declaredProperties _ _ _).bind fun bag? hown => ?_
    cases bag? with
    | none => exact .then_of fun _ => .pure hnone
    | some bag =>
      refine (ensures_inheritedProperties l bag.1.base?).bind fun inherited hinherited => ?_
      exact .pure (propsAssembled_append (hown bag rfl) hinherited.1 hinherited.2)

/-- The methods of a component are assembled. -/
theorem ensures_componentMethods (sources : Sources) :
    Ensures (MethodsAssembled l.config.names.internalMethods) (l.componentMethods sources) := by
  have hnone : MethodsAssembled l.config.names.internalMethods [] := ⟨List.nodup_nil, nofun⟩
  unfold Library.componentMethods
  split
  · exact .pure hnone
  · refine .then_of fun text => .then_of fun _ => .pure ?_
    cases h : methods? _ _ with
    | none => exact hnone
    | some methods => exact ⟨nodup_name_of_methods? h, fun m hm => exposed_of_methods? h hm⟩

theorem ensures_componentEvents (sources : Sources) (props : List Property) :
    Ensures (fun events => (events.map Event.name).Nodup) (l.componentEvents sources props) := by
  unfold Library.componentEvents
  dsimp only
  split
  · exact .pure (nodup_name_mergeEvents _ _)
  · exact .then_of fun _ => .pure (nodup_name_mergeEvents _ _)

theorem stylesAssembled_styleClasses (t : Tree) (o : StyleOptions) :
    StylesAssembled (((styleClasses t o).1.map stylesOf).getD []) := by
  cases h : (styleClasses t o).1 with
  | none => exact ⟨List.nodup_nil, .inl rfl⟩
  | some classes =>
    obtain ⟨others, heq, hothers⟩ := stylesOf_eq classes
    refine ⟨nodup_className_stylesOf classes, .inr ⟨_, others, heq, rfl,
      default_ne_empty_of_styleClasses h, fun s hs => ?_⟩⟩
    simpa [Style.isDefault] using hothers s hs

/-- The styles of a component are assembled. -/
theorem ensures_componentStyles (sources : Sources) :
    Ensures StylesAssembled (l.componentStyles sources) := by
  unfold Library.componentStyles
  split
  · exact .pure ⟨List.nodup_nil, .inl rfl⟩
  · exact .then_of fun text => .then_of fun _ => .pure (stylesAssembled_styleClasses _ _)

end Facets

/-! ## Whole documents -/

/-- A document whose parts are well put together at every depth. -/
def Component.AssembledThroughout (config : Config) (c : Component) : Prop :=
  ∀ d ∈ c.nested, d.Assembled config

section Documents

variable (l : Library)

theorem ensures_childDocuments {make : Path → Catalog (Option Component)}
    (hmake : ∀ path, Ensures (fun c? => ∀ c ∈ c?, c.AssembledThroughout l.config) (make path))
    (parent : String) (lineage : List Path) (children : List (String × Except Fault Path)) :
    Ensures (fun cs => ∀ c ∈ cs, c.AssembledThroughout l.config)
      (l.childDocuments make parent lineage children) := by
  induction children with
  | nil => exact .pure nofun
  | cons e rest ih =>
    obtain ⟨child, f | path⟩ := e
    · rw [Library.childDocuments]
      cases f.message? with
      | some m => exact .then_of fun _ => ih
      | none => exact .throw f
    · rw [Library.childDocuments]
      split
      · exact .then_of fun _ => ih
      · refine (hmake path).bind fun c? hc => ih.bind fun cs hcs => .pure fun c hm => ?_
        exact (List.mem_append.1 hm).elim (fun h => hc c (Option.mem_toList.1 h)) (hcs c)

/-- One level: a document is well put together if its children are. -/
theorem ensures_assemble {make : List Path → Path → Catalog (Option Component)}
    (hmake : ∀ lineage path,
      Ensures (fun c? => ∀ c ∈ c?, c.AssembledThroughout l.config) (make lineage path))
    (dir : Path) (category : String) (name? : Option String) (ancestry : List Path) :
    Ensures (fun c? => ∀ c ∈ c?, c.AssembledThroughout l.config)
      (l.assemble make dir category name? ancestry) := by
  unfold Library.assemble
  refine .then_of fun sources => ?_
  split
  · exact .then_of fun _ => .pure nofun
  · refine (ensures_componentProps l sources).bind fun r hprops => ?_
    refine (ensures_componentMethods l sources).bind fun methods hmethods => ?_
    refine (ensures_componentEvents l sources r.1).bind fun events hevents => ?_
    refine (ensures_componentStyles l sources).bind fun styles hstyles => ?_
    refine (ensures_childDocuments l (hmake _) _ _ _).bind fun children hchildren => ?_
    refine .pure fun c hc d hd => ?_
    cases hc
    rw [Component.nested_eq_cons] at hd
    rcases List.mem_cons.1 hd with rfl | hd
    · exact ⟨hprops, hmethods, hevents, hstyles⟩
    · obtain ⟨child, hchild, hd⟩ := Component.mem_nestedAll.1 hd
      exact hchildren child hchild d hd

/-- All levels: making a document never fails, and what it makes is well put
together. -/
theorem succeeds_build (category : String) (limit : Nat) (name? : Option String)
    (ancestry : List Path) (dir : Path) :
    Succeeds (fun c? => ∀ c ∈ c?, c.AssembledThroughout l.config)
      (l.build category limit name? ancestry dir) := by
  induction limit generalizing name? ancestry dir with
  | zero => exact .pure nofun
  | succ limit ih =>
    rw [Library.build]
    have hassemble := ensures_assemble l
      (fun lineage path => (ih (some path.name) lineage path).ensures) dir category name? ancestry
    refine hassemble.attempt.bind fun r hr => ?_
    cases r with
    | ok c? => exact .pure (hr c? rfl)
    | error f => exact .note_bind _ (.pure nofun)

/-- Making a document succeeds, and all that is in it is well formed. -/
theorem succeeds_componentDocument (path category : String) (name? : Option String) :
    Succeeds (fun c? => ∀ c ∈ c?, ∀ d ∈ c.nested, d.WellFormed l.config)
      (l.componentDocument path category name?) := by
  refine (succeeds_build l category _ name? [] _).bind fun c? hc => .pure fun c hm => ?_
  obtain ⟨c', hc', rfl⟩ := Option.map_eq_some_iff.1 hm
  exact wellFormed_of_mem_nested_applyTo (hc c' hc')

theorem succeeds_concreteDocuments (cs : List Candidate) :
    Succeeds (fun docs => ∀ e ∈ docs, ∀ d ∈ e.2.nested, d.WellFormed l.config)
      (l.concreteDocuments cs) := by
  induction cs with
  | nil => exact .pure nofun
  | cons c rest ih =>
    rw [Library.concreteDocuments]
    split
    · exact ih
    · refine .note_bind _ ?_
      refine (succeeds_componentDocument l _ _ _).bind fun c? hc => ih.bind fun docs hdocs => ?_
      refine .pure fun e he => ?_
      rcases List.mem_append.1 he with he | he
      · obtain ⟨d, hd, rfl⟩ := Option.map_eq_some_iff.1 (Option.mem_toList.1 he)
        exact hc d hd
      · exact hdocs e he

/-- An alias has the document of the component whose name it stands for. -/
theorem succeeds_aliasDocuments (concrete : List (String × Component)) (cs : List Candidate) :
    Succeeds (fun docs => ∀ d ∈ docs, ∃ c ∈ cs, ∃ e ∈ concrete, c.aliasOf? = some e.1
        ∧ d = Library.aliasDocument c.name e.2)
      (Library.aliasDocuments concrete cs) := by
  induction cs with
  | nil => exact .pure nofun
  | cons c rest ih =>
    have hrest : Succeeds (fun docs => ∀ d ∈ docs, ∃ c' ∈ c :: rest, ∃ e ∈ concrete,
        c'.aliasOf? = some e.1 ∧ d = Library.aliasDocument c'.name e.2)
        (Library.aliasDocuments concrete rest) := by
      refine ih.mono fun docs hdocs d hd => ?_
      obtain ⟨c', hc', hd'⟩ := hdocs d hd
      exact ⟨c', .tail _ hc', hd'⟩
    rw [Library.aliasDocuments]
    cases hsource : c.aliasOf? with
    | none => exact hrest
    | some source =>
      dsimp only
      cases hl : concrete.lookup source with
      | none => exact .note_bind _ hrest
      | some component =>
        refine hrest.bind fun docs hdocs => .pure fun d hd => ?_
        rcases List.mem_cons.1 hd with rfl | hd
        · exact ⟨c, .head _, (source, component), mem_of_lookup_eq_some hl, hsource, rfl⟩
        · exact hdocs d hd

end Documents

/-- **Every document is well formed, at every depth.** Documents are given in any
session, unless the search for components ends with a fault; each is the document of a
component, or stands under a further name for one of those, and then has the same parts,
from which the same has been left out. -/
theorem allDocuments_wellFormed (l : Library) (s : Session) :
    ¬l.Searchable ∧ l.allDocuments.result s = .error (.badPath .nameTooLong) ∨
    ∃ docs, l.allDocuments.result s = .ok docs
      ∧ (∀ d ∈ docs, ∀ c ∈ d.facets.nested, c.WellFormed l.config)
      ∧ ∀ d ∈ docs, (∃ c, d = .component c)
          ∨ ∃ c, .component c ∈ docs ∧ d = .renamed d.name c (aliasDescription d.name c.name) := by
  by_cases hsearch : l.Searchable
  case neg =>
    refine .inl ⟨hsearch, ?_⟩
    unfold Library.allDocuments
    rw [Catalog.result_bind, result_findComponents_of_not_searchable hsearch]
    rfl
  refine .inr ?_
  suffices h : Succeeds (fun docs => (∀ d ∈ docs, ∀ c ∈ d.facets.nested, c.WellFormed l.config)
      ∧ ∀ d ∈ docs, (∃ c, d = .component c)
          ∨ ∃ c, .component c ∈ docs ∧ d = .renamed d.name c (aliasDescription d.name c.name))
      l.allDocuments from h s
  refine (succeeds_findComponents hsearch).bind fun cs _ => .note_bind _ ?_
  refine (succeeds_concreteDocuments l cs).bind fun concrete hconcrete => ?_
  refine (succeeds_aliasDocuments concrete cs).bind fun aliases haliases => .pure ⟨?_, ?_⟩
  · intro d hd
    rcases List.mem_append.1 hd with hd | hd
    · obtain ⟨e, he, rfl⟩ := List.mem_map.1 hd
      exact hconcrete e he
    · obtain ⟨c, -, e, he, -, rfl⟩ := haliases d hd
      exact hconcrete e he
  · intro d hd
    rcases List.mem_append.1 hd with hd | hd
    · obtain ⟨e, -, rfl⟩ := List.mem_map.1 hd
      exact .inl ⟨e.2, rfl⟩
    · obtain ⟨c, -, e, he, -, rfl⟩ := haliases d hd
      exact .inr ⟨e.2, List.mem_append_left _ (List.mem_map.2 ⟨e, he, rfl⟩), rfl⟩

/-- A component that is also listed under the name `z`, for which a property is to be
left out. -/
def overriddenAlias : Library :=
  smallLibrary
    [("g", .directory [("a", .directory
      [("a.props.js.map", sourceMapFile "class AProps\x7bb\x7d")])])]
    { includeComponents := ["a"]
      aliases := [("z", "a")]
      policy := { overrides := [("z", { excludeProps := ["b"] })] } }

/-- What is to be left out under the name of an alias is not. -/
theorem allDocuments_overriddenAlias :
    ((overriddenAlias.allDocuments.result {}).toOption.getD []).map
        (fun d => (d.name, d.facets.props.map Property.name)) = [("a", ["b"]), ("z", ["b"])]
      ∧ "b" ∈ (overriddenAlias.config.policy.overrideFor "z").excludeProps := by
  decide +kernel

end ComponentCatalog
