import ComponentCatalog.Proofs.Locality
import ComponentCatalog.Proofs.Nesting

/-!
# Handlers and the events they are for

The events of a document are made from its properties before any of these is left out, and
from the calls of emitters in the compiled component. So a handler that is shown has its event
beside it, and an event may be there whose handler is not shown. What decides about the
parameters of an event is not the order in which things are found but one lookup: of the calls
of a name the last counts, and the handler of that name only if there is no such call
(`find?_mergeEvents`). Names of properties are distinct, so there is one handler to ask.

The statement is about a document at any depth. Each has been put together from the sources in
its own directory (`Library.Grown`), whatever it lies in.
-/

namespace ComponentCatalog

open Text Syntax Extract

/-! ## Calls -/

/-- **A call emits an event**: one of the emitters is called, and the first argument is a text
that is not empty, the name of the event. -/
structure Emits (t : Tree) (emitters : List String) (call : Node) (e : Event) : Prop where
  emitter : ∃ callee ∈ t.calleeName? call, callee ∈ emitters
  arguments : ∃ first rest,
    ((call.inRole? .arguments).map Node.namedChildren).getD [] = first :: rest
      ∧ t.stringValue? first = some e.name ∧ e.name ≠ ""
      ∧ e.parameters = callParameters t (first :: rest)
  type : e.type = eventType

/-- The event that a call emits. -/
def emitted? (t : Tree) (emitters : List String) (call : Node) : Option Event :=
  match t.calleeName? call with
  | some name =>
    if emitters.contains name then
      match ((call.inRole? .arguments).map Node.namedChildren).getD [] with
      | [] => none
      | first :: rest =>
        ((t.stringValue? first).filter fun s => !s.isEmpty).map fun event =>
          { name := event, parameters := callParameters t (first :: rest) }
    else none
  | none => none

/-- A call emits an event exactly if it is one of an emitter, with a literal name. -/
theorem emitted?_eq_some_iff {t : Tree} {emitters : List String} {call : Node} {e : Event} :
    emitted? t emitters call = some e ↔ Emits t emitters call e := by
  unfold emitted?
  constructor
  · intro h
    cases hcallee : t.calleeName? call with
    | none =>
      rw [hcallee] at h
      cases h
    | some callee =>
      rw [hcallee] at h
      dsimp only at h
      split_ifs at h with hmem
      cases harguments : ((call.inRole? .arguments).map Node.namedChildren).getD [] with
      | nil =>
        rw [harguments] at h
        cases h
      | cons first rest =>
        rw [harguments] at h
        obtain ⟨name, hname, rfl⟩ := Option.map_eq_some_iff.1 h
        obtain ⟨hvalue, hne⟩ := Option.filter_eq_some_iff.1 hname
        exact ⟨⟨callee, hcallee, by simpa using hmem⟩,
          ⟨first, rest, harguments, hvalue, by simpa using hne, rfl⟩, rfl⟩
  · rintro ⟨⟨callee, hcallee, hmem⟩, ⟨first, rest, harguments, hvalue, hne, hparameters⟩, htype⟩
    obtain ⟨name, parameters, type⟩ := e
    cases htype
    cases hparameters
    rw [Option.mem_def.1 hcallee]
    dsimp only
    rw [if_pos (by simpa using hmem), harguments]
    dsimp only at hvalue hne ⊢
    rw [hvalue, Option.filter_some, if_pos (by simpa using hne), Option.map_some]
    rfl

/-- The events of calls, in document order. -/
theorem eventsOfCalls_eq (t : Tree) (emitters : List String) :
    eventsOfCalls t emitters = (t.ofKinds [.callExpression]).filterMap (emitted? t emitters) := by
  unfold eventsOfCalls emitterCalls emitted?
  rw [List.filterMap_filterMap]
  refine List.filterMap_congr fun call _ => ?_
  cases t.calleeName? call with
  | none => rfl
  | some callee =>
    dsimp only
    split_ifs with hmem
    · cases ((call.inRole? .arguments).map Node.namedChildren).getD [] with
      | nil => rfl
      | cons first rest =>
        dsimp only
        cases (t.stringValue? first).filter fun s => !s.isEmpty <;> rfl
    · rfl

/-- **The last call of a name** in a compiled component, and the event that it emits. -/
def LastCall (t : Tree) (emitters : List String) (name : String) (e : Event) : Prop :=
  ∃ before call after, t.ofKinds [.callExpression] = before ++ call :: after
    ∧ Emits t emitters call e ∧ e.name = name
    ∧ ∀ call' ∈ after, ∀ e', Emits t emitters call' e' → e'.name ≠ name

/-- There is no call of a name. -/
def NoCall (t : Tree) (emitters : List String) (name : String) : Prop :=
  ∀ call ∈ t.ofKinds [.callExpression], ∀ e, Emits t emitters call e → e.name ≠ name

/-- Looking for an event of a name from the end finds the last call of the name. -/
theorem lastCall_of_find? {t : Tree} {emitters : List String} {name : String} {e : Event}
    (h : (eventsOfCalls t emitters).reverse.find? (fun x => x.name == name) = some e) :
    LastCall t emitters name e := by
  rw [eventsOfCalls_eq, ← List.filterMap_reverse, List.find?_filterMap] at h
  obtain ⟨call, hcall, hemits⟩ := Option.bind_eq_some_iff.1 h
  obtain ⟨hname, after, before, hsplit, hafter⟩ := List.find?_eq_some_iff_append.1 hcall
  have hcalls : t.ofKinds [.callExpression] = before.reverse ++ call :: after.reverse := by
    rw [← List.reverse_reverse (t.ofKinds _), hsplit]
    simp
  refine ⟨_, call, _, hcalls, emitted?_eq_some_iff.1 hemits, ?_, fun call' hcall' e' he' => ?_⟩
  · simpa [hemits] using hname
  · have hno := hafter call' (List.mem_reverse.1 hcall')
    simpa [emitted?_eq_some_iff.2 he'] using hno

/-- Where no event has a name, there is no call of that name. -/
theorem noCall_of_find? {t : Tree} {emitters : List String} {name : String}
    (h : (eventsOfCalls t emitters).reverse.find? (fun x => x.name == name) = none) :
    NoCall t emitters name := by
  intro call hcall e he heq
  have hmem : e ∈ eventsOfCalls t emitters := by
    rw [eventsOfCalls_eq]
    exact List.mem_filterMap.2 ⟨call, hcall, emitted?_eq_some_iff.2 he⟩
  simpa [heq] using List.find?_eq_none.1 h e (List.mem_reverse.2 hmem)

/-! ## Both kinds of events together -/

section Merging

variable (name : String)

/-- One more event is the one that is found under its name. -/
theorem find?_putEvent (e : Event) (events : List Event) :
    (putEvent e events).find? (fun x => x.name == name)
      = if e.name = name then some e else events.find? fun x => x.name == name := by
  induction events with
  | nil => by_cases hname : e.name = name <;> simp [putEvent, hname]
  | cons x xs ih =>
    rw [putEvent]
    by_cases hx : x.name = e.name
    · rw [if_pos (by simpa using hx)]
      by_cases hname : e.name = name
      · simp [hname]
      · simp [hname, hx]
    · rw [if_neg (by simpa using hx)]
      by_cases hname : e.name = name
      · have hxn : x.name ≠ name := fun h => hx (h.trans hname.symm)
        rw [List.find?_cons_of_neg (by simpa using hxn), ih, if_pos hname, if_pos hname]
      · rw [List.find?_cons, List.find?_cons, ih, if_neg hname, if_neg hname]

/-- **Under a name the last call is found**, and the first property only if there is no
call. -/
theorem find?_mergeEvents (ofProperties ofCalls : List Event) :
    (mergeEvents ofProperties ofCalls).find? (fun x => x.name == name)
      = (ofCalls.reverse.find? fun x => x.name == name).or
          (ofProperties.find? fun x => x.name == name) := by
  unfold mergeEvents
  rw [← find?_firstOfEachName Event.name List.not_mem_nil ofProperties]
  generalize firstOfEachName Event.name [] ofProperties = merged
  induction ofCalls generalizing merged with
  | nil => rfl
  | cons e rest ih =>
    rw [List.foldl_cons, ih, find?_putEvent, List.reverse_cons, List.find?_append, Option.or_assoc]
    by_cases hname : e.name = name
    · simp [hname]
    · simp [hname]

end Merging

/-! ## The events of a document -/

namespace Library

variable (l : Library)

/-- The compiled component as it is read for calls, if it is not empty. -/
def compiledTree? (sources : Sources) : Option Tree :=
  (sources.compiled?.filter fun s => !s.isEmpty).map (parse .tsx)

/-- **The events of a document agree with its properties**, given the sources it comes from.
The properties that are shown are some of those that the sources give with what is inherited.
-/
structure EventsAgree (sources : Sources) (merged : List Property) (c : Component) : Prop where
  shown : c.props = merged.filter (l.config.policy.keepsProperty c.name)
  nodup : (c.events.map Event.name).Nodup
  /-- A handler that is shown has its event, with the parameters of the last call of its name,
  and its own if there is no such call. -/
  handler : ∀ p ∈ c.props, startsWith p.name handlerStart = true →
    ∀ parameters ∈ callableParameters? (trim p.type), ∃ e ∈ c.events, e.name = p.name
      ∧ ((∃ t ∈ compiledTree? sources, LastCall t l.config.names.eventEmitters p.name e)
        ∨ (∀ t ∈ compiledTree? sources, NoCall t l.config.names.eventEmitters p.name)
          ∧ e.parameters = parameters)
  /-- An event is for a handler, shown or not, or for a call. -/
  origin : ∀ e ∈ c.events,
    (∃ p ∈ merged, p.name = e.name ∧ startsWith p.name handlerStart = true
      ∧ (callableParameters? (trim p.type)).isSome = true)
    ∨ ∃ t ∈ compiledTree? sources, ∃ call ∈ t.ofKinds [.callExpression],
        Emits t l.config.names.eventEmitters call e

/-- The events that the calls in a compiled component emit. -/
def calls (sources : Sources) : List Event :=
  ((compiledTree? sources).map fun t => eventsOfCalls t l.config.names.eventEmitters).getD []

/-- The events of a component are those of its handlers, merged with those of its calls. -/
theorem eventsIn_eq (sources : Sources) (props : List Property) :
    l.eventsIn sources.compiled? props
      = mergeEvents (eventsOfProperties props) (l.calls sources) := by
  rw [eventsIn, calls, compiledTree?, Option.map_map]
  rfl

/-- There is a last call of a name or there is none. -/
theorem find?_calls_cases (sources : Sources) (name : String) :
    (∃ e, (l.calls sources).reverse.find? (fun x => x.name == name) = some e
      ∧ ∃ t ∈ compiledTree? sources, LastCall t l.config.names.eventEmitters name e)
    ∨ (l.calls sources).reverse.find? (fun x => x.name == name) = none
      ∧ ∀ t ∈ compiledTree? sources, NoCall t l.config.names.eventEmitters name := by
  unfold calls
  cases compiledTree? sources with
  | none => exact .inr ⟨rfl, nofun⟩
  | some t =>
    rw [Option.map_some, Option.getD_some]
    cases hfound : (eventsOfCalls t l.config.names.eventEmitters).reverse.find?
        (fun x => x.name == name) with
    | some e => exact .inl ⟨e, rfl, t, rfl, lastCall_of_find? hfound⟩
    | none => exact .inr ⟨rfl, fun t' ht' => Option.some.inj ht' ▸ noCall_of_find? hfound⟩

/-- The events of calls have calls that emit them. -/
theorem exists_emits_of_mem_calls {sources : Sources} {e : Event} (h : e ∈ l.calls sources) :
    ∃ t ∈ compiledTree? sources, ∃ call ∈ t.ofKinds [.callExpression],
      Emits t l.config.names.eventEmitters call e := by
  unfold calls at h
  cases htree : compiledTree? sources with
  | none =>
    rw [htree] at h
    cases h
  | some t =>
    rw [htree, Option.map_some, Option.getD_some, eventsOfCalls_eq] at h
    obtain ⟨call, hcall, hemits⟩ := List.mem_filterMap.1 h
    exact ⟨t, rfl, call, hcall, emitted?_eq_some_iff.1 hemits⟩

end Library

/-- Among properties of distinct names, an event is found under the name of its handler. -/
theorem find?_eventsOfProperties {props : List Property}
    (hnodup : (props.map Property.name).Nodup) {p : Property} (hp : p ∈ props)
    (hevent : isEvent p = true) :
    (eventsOfProperties props).find? (fun x => x.name == p.name)
      = some { name := p.name, parameters := eventParameters p.type } := by
  have hfound : props.find? (fun q => decide (isEvent q = true ∧ (q.name == p.name) = true))
      = some p := by
    cases hq : props.find? (fun q => decide (isEvent q = true ∧ (q.name == p.name) = true)) with
    | none => simpa [hevent] using List.find?_eq_none.1 hq p hp
    | some q =>
      have hname : q.name = p.name := by
        have hevents := List.find?_some hq
        simp_all
      rw [List.inj_on_of_nodup_map hnodup (List.mem_of_find?_eq_some hq) hp hname]
  rw [eventsOfProperties, List.find?_map, List.find?_filter]
  exact congrArg _ hfound

/-- Putting an event adds nothing else. -/
theorem mem_of_mem_putEvent {e x : Event} {events : List Event} (h : x ∈ putEvent e events) :
    x = e ∨ x ∈ events := by
  induction events with
  | nil => exact .inl (List.mem_singleton.1 h)
  | cons y ys ih =>
    rw [putEvent] at h
    split at h
    · exact (List.mem_cons.1 h).imp_right (.tail _)
    · rcases List.mem_cons.1 h with rfl | h
      · exact .inr (.head _)
      · exact (ih h).imp_right (.tail _)

/-- Merging adds nothing: an event is that of a handler or of a call. -/
theorem mem_of_mem_mergeEvents {e : Event} {ofProperties ofCalls : List Event}
    (h : e ∈ mergeEvents ofProperties ofCalls) : e ∈ ofProperties ∨ e ∈ ofCalls := by
  unfold mergeEvents at h
  have hstart : ∀ x ∈ firstOfEachName Event.name [] ofProperties, x ∈ ofProperties :=
    fun x hx => mem_of_mem_firstOfEachName Event.name hx
  generalize firstOfEachName Event.name [] ofProperties = merged at h hstart
  suffices hmem : e ∈ merged ∨ e ∈ ofCalls from hmem.imp_left (hstart e)
  clear hstart
  induction ofCalls generalizing merged with
  | nil => exact .inl h
  | cons x rest ih =>
    rcases ih _ h with hput | hrest
    · rcases mem_of_mem_putEvent hput with rfl | hmem
      · exact .inr (.head _)
      · exact .inl hmem
    · exact .inr (.tail _ hrest)

section Documents

variable (l : Library)

/-- The properties of a component have distinct names. -/
theorem nodup_name_of_propsIn {source : Recovered} {props : List Property} {base? : Option String}
    (h : l.propsIn source = .ok (props, base?)) : (props.map Property.name).Nodup :=
  (ensures_componentProps l { props := source } {} _ h).nodup

variable {l}

/-- **The events of a document agree with its properties** if both come from the same sources. -/
theorem eventsAgree_of_facetsIn {sources : Sources} {facets : Facets}
    (h : l.facetsIn sources = .ok facets) (name : String) (dir : Path) (category : String)
    (children : List Component) :
    l.EventsAgree sources facets.props
      (l.config.policy.applyTo (facets.document name dir category children)) := by
  obtain ⟨hprops, -, -, hevents⟩ := (facetsIn_eq_ok_iff l).1 h
  have hnodup := nodup_name_of_propsIn l hprops
  rw [l.eventsIn_eq] at hevents
  constructor
  · rfl
  · show (facets.events.map Event.name).Nodup
    rw [hevents]
    exact nodup_name_mergeEvents _ _
  · intro p hp hstart parameters hparameters
    have hmem : p ∈ facets.props := List.mem_of_mem_filter hp
    have hevent : isEvent p = true := by
      rw [isEvent, hstart, Option.mem_def.1 hparameters]
      rfl
    have hown := find?_eventsOfProperties hnodup hmem hevent
    have hfind := find?_mergeEvents p.name (eventsOfProperties facets.props) (l.calls sources)
    rw [← hevents, hown] at hfind
    -- the last call of the name counts, and what the property states if there is none
    obtain ⟨e, hlast, htree⟩ | ⟨hlast, hno⟩ := l.find?_calls_cases sources p.name
    · rw [hlast, Option.some_or] at hfind
      exact ⟨e, List.mem_of_find?_eq_some hfind, by simpa using List.find?_some hfind, .inl htree⟩
    · rw [hlast, Option.none_or] at hfind
      refine ⟨_, List.mem_of_find?_eq_some hfind, rfl, .inr ⟨hno, ?_⟩⟩
      rw [eventParameters, Option.mem_def.1 hparameters, Option.getD_some]
  · intro e he
    change e ∈ facets.events at he
    rw [hevents] at he
    rcases mem_of_mem_mergeEvents he with he | he
    · obtain ⟨p, hp, rfl⟩ := List.mem_map.1 he
      obtain ⟨hmem, hevent⟩ := List.mem_filter.1 hp
      rw [isEvent, Bool.and_eq_true] at hevent
      exact .inl ⟨p, hmem, rfl, hevent⟩
    · exact .inr (l.exists_emits_of_mem_calls he)

end Documents

/-! ## At every depth -/

namespace Component

/-- What is below a child is below its parent. -/
theorem Descent.under {c d n : Component} {above : List Component} (hd : d ∈ c.children)
    (h : d.Descent above n) : c.Descent (c :: above) n := by
  induction h with
  | here => exact Descent.here.down hd
  | down _ hn ih => exact ih.down hn

/-- To every document in a document there is a way down. -/
theorem exists_descent_of_mem_nested {c d : Component} (h : d ∈ c.nested) :
    ∃ above, c.Descent above d := by
  rw [nested_eq_cons] at h
  rcases List.mem_cons.1 h with rfl | h
  · exact ⟨[], .here⟩
  · obtain ⟨child, hchild, hd⟩ := mem_nestedAll.1 h
    obtain ⟨above, habove⟩ := exists_descent_of_mem_nested hd
    exact ⟨c :: above, habove.under hchild⟩
termination_by c
decreasing_by
  cases c
  have := List.sizeOf_lt_of_mem hchild
  simp_all
  omega

end Component

namespace Library

variable (l : Library)

/-- The events of a document agree with its properties, as its own directory gives both. -/
def HandlersAgree (c : Component) : Prop :=
  ∃ sources merged base?, (sourcesOf l.disk (.ofString c.path)).fresh = .ok sources
    ∧ l.propsIn sources.props = .ok (merged, base?) ∧ l.EventsAgree sources merged c

variable {l}

/-- The events of a document that has grown agree with its properties, as the policy leaves it. -/
theorem Grown.handlersAgree {category : String} {ancestry : List Path} {c : Component}
    (h : l.Grown category ancestry c) : l.HandlersAgree (l.config.policy.applyTo c) := by
  obtain ⟨dir, name?, hplain, hl, hnot, hdocument⟩ := h
  rw [documentIn_eq l hl hnot, toOption_join_eq_some_iff, assembled_eq_some_iff] at hdocument
  obtain ⟨sources, facets, children, hsources, -, hfacets, -, rfl⟩ := hdocument
  have hpath : Path.ofString (l.config.policy.applyTo
      (facets.document (documentedName name? dir) dir category children)).path = dir :=
    hplain.ofString_toString
  refine ⟨sources, facets.props, facets.base?, ?_, ((facetsIn_eq_ok_iff l).1 hfacets).1,
    eventsAgree_of_facetsIn hfacets _ _ _ _⟩
  rw [hpath]
  exact hsources

/-- So do those of all that is in the document of a directory. -/
theorem handlersAgree_of_componentDocument {path category : String} {name? : Option String}
    {c : Component} (h : (l.componentDocument path category name?).fresh = .ok (some c)) :
    ∀ d ∈ c.nested, l.HandlersAgree d := by
  rw [(gives_componentDocument_documentIn l path category name?).fresh_eq, Except.ok.injEq,
    Option.map_eq_some_iff] at h
  obtain ⟨c', hc', rfl⟩ := h
  intro d hd
  obtain ⟨above, hdown⟩ := Component.exists_descent_of_mem_nested hd
  obtain ⟨above', n, hdown', -, rfl⟩ := l.config.policy.exists_descent_of_applyTo hdown
  have hgrown : l.Grown category [] c' :=
    ⟨_, _, Path.plain_ofString path, .nil _, List.not_mem_nil, hc'⟩
  exact (hgrown.descent hdown').handlersAgree

/-- So do those of all that is in the document of a candidate. -/
theorem handlersAgree_of_documentOf {c : Candidate} {doc : Document}
    (h : l.documentOf c = some doc) : ∀ d ∈ doc.facets.nested, l.HandlersAgree d := by
  have hcomponent {name : String} {component : Component}
      (hof : l.componentOf c.path c.category name = some component) :
      ∀ d ∈ component.nested, l.HandlersAgree d :=
    handlersAgree_of_componentDocument (toOption_join_eq_some_iff.1 hof)
  unfold documentOf at h
  split at h
  · obtain ⟨component, hof, rfl⟩ := Option.map_eq_some_iff.1 h
    exact hcomponent hof
  · obtain ⟨component, hof, rfl⟩ := Option.map_eq_some_iff.1 h
    exact hcomponent hof

end Library

/-- **Properties and events agree**, in every document that is made in a session that agrees
with the library, and in the documents of the children in it at any depth: the document of a
directory, that of a candidate, and all documents at once. -/
theorem documents_handlersAgree (l : Library) (s : Session) (hs : s.Agrees l) :
    (∀ path category name? c, (l.componentDocument path category name?).result s = .ok (some c) →
      ∀ d ∈ c.nested, l.HandlersAgree d)
    ∧ (∀ candidate doc, (l.candidateDocument candidate).result s = .ok (some doc) →
      ∀ d ∈ doc.facets.nested, l.HandlersAgree d)
    ∧ ∀ docs, l.allDocuments.result s = .ok docs →
      ∀ doc ∈ docs, ∀ d ∈ doc.facets.nested, l.HandlersAgree d := by
  refine ⟨fun path category name? c h => ?_, fun candidate doc h => ?_, fun docs h doc hdoc => ?_⟩
  · rw [(steady_componentDocument l path category name? s hs).1] at h
    exact Library.handlersAgree_of_componentDocument h
  · rw [(gives_candidateDocument l candidate s hs).1] at h
    exact Library.handlersAgree_of_documentOf (Except.ok.inj h)
  · rcases gives_findComponents l with hf | ⟨cs, hcatalogued, hcs⟩
    · rw [Library.allDocuments, (hf.bind_error s hs).1] at h
      cases h
    · rw [(gives_allDocuments l hcatalogued hcs s hs).1] at h
      cases h
      obtain ⟨c, -, hc⟩ := List.mem_filterMap.1 hdoc
      exact Library.handlersAgree_of_documentOf hc

/-- What a component with three handlers is compiled to: it emits two events, one of them for a
handler. -/
def handlingCompiled : String :=
  "invokeEventCallback('onB',\x7bx:1\x7d);invokeEventCallback('onE')"

/-- The sources of such a component. -/
def handlingSources : Sources where
  props := { content? := some (.ofString
    "class AProps\x7bonA:Function;onB:Function;onC:Function;d\x7d") }
  component := { content? := some (.ofString "1") }
  compiled? := some handlingCompiled

/-- Its directory. -/
def handlingDirectory : FileTree :=
  .directory
    [("a.component.js", .file (encode handlingCompiled)),
    ("a.component.js.map", sourceMapFile "1"),
    ("a.props.js.map", sourceMapFile
      "class AProps\x7bonA:Function;onB:Function;onC:Function;d\x7d")]

/-- The component as a library that leaves out one of its handlers. -/
def handling : Library :=
  smallLibrary [("a", handlingDirectory)] { policy := { excludeProps := ["onA"] } }

/-- The sources in this directory, which are listed in the order of their names. -/
theorem sourcesOf_handling :
    (sourcesOf handling.disk (.ofString "components/a")).fresh = .ok handlingSources := by
  have hlisting : handling.disk.listing (.ofString "components/a") = .ok handlingDirectory := rfl
  have hfiles : handlingDirectory.sortedNames (fun e => !e.isDirectory) =
      ["a.component.js", "a.component.js.map", "a.props.js.map"] :=
    List.mergeSort_of_pairwise (by decide)
  unfold sourcesOf
  rw [hlisting]
  dsimp only
  rw [hfiles]
  decide +kernel

theorem documents_handlersAgree_handling :
    Session.Agrees handling {}
      ∧ ∃ c, (handling.componentDocument "components/a" "g" none).result {} = .ok (some c)
        ∧ c.props.map Property.name = ["onB", "onC", "d"]
        ∧ c.events.map (fun e => (e.name, e.parameters)) =
          [("onA", "()"), ("onB", "(\x7bx:1\x7d)"), ("onC", "()"), ("onE", "()")]
        ∧ ∀ d ∈ c.nested, handling.HandlersAgree d := by
  have hs := Session.agrees_empty handling
  have hmade : (handling.facetsIn handlingSources).toOption.map (fun facets =>
      ((facets.props.filter (handling.config.policy.keepsProperty "a")).map Property.name,
        facets.events.map fun e => (e.name, e.parameters))) = some (["onB", "onC", "d"],
          [("onA", "()"), ("onB", "(\x7bx:1\x7d)"), ("onC", "()"), ("onE", "()")]) := by
    decide +kernel
  obtain ⟨facets, hfacets, hshown⟩ := Option.map_eq_some_iff.1 hmade
  obtain ⟨hprops, hevents⟩ := Prod.mk.inj hshown
  have hdocument : handling.documentIn "g" none [] (.ofString "components/a") =
      some (facets.document "a" (.ofString "components/a") "g" []) := by
    rw [documentIn_eq handling (.nil _) List.not_mem_nil, toOption_join_eq_some_iff,
      assembled_eq_some_iff]
    exact ⟨handlingSources, facets, [], sourcesOf_handling, rfl,
      toOption_eq_some_iff.1 hfacets, rfl, rfl⟩
  have hresult := (gives_componentDocument_documentIn handling "components/a" "g" none {} hs).1
  rw [hdocument] at hresult
  exact ⟨hs, _, hresult, hprops, hevents,
    (documents_handlersAgree handling {} hs).1 _ _ _ _ hresult⟩

end ComponentCatalog
