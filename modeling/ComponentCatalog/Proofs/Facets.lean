import ComponentCatalog.Extract.Events
import ComponentCatalog.Extract.Methods
import ComponentCatalog.Extract.Styles
import ComponentCatalog.Proofs.Names

/-!
# What the readers of sources keep to

A document has four lists: properties, methods, events and style classes. Each is
read from a source by a function of its own, and each function keeps to some rules
whatever the source is like. The names in a list are distinct, since every reader
keeps only the first of each name (events: the place of the first). Besides that, no
declared property is an inherited one, no method is internal to the framework, and
the styles begin with the only default class.
-/

namespace ComponentCatalog.Extract

open Syntax

/-- The members that stand in the body of a declaration, in source order. -/
def membersOf (declaration : Node) : List Node :=
  ((declaration.inRole? .body).map Node.children).getD []

/-! ## Properties -/

section Properties

variable {t : Tree} {o : PropertyOptions} {bag : PropertyBag}

/-- The properties of a declaration have distinct names. -/
theorem nodup_name_of_properties? (h : properties? t o = some bag) :
    (bag.props.map Property.name).Nodup := by
  unfold properties? at h
  obtain ⟨d, -, rfl⟩ := Option.map_eq_some_iff.1 h
  rw [bagOf, List.map_map]
  exact nodup_map_firstOfEachName Prod.fst [] (visibleMembers t d)

/-- What a source declares is its own. -/
theorem own_of_properties? (h : properties? t o = some bag) {p : Property} (hp : p ∈ bag.props) :
    p.inherited = false ∧ p.origin? = none := by
  unfold properties? at h
  obtain ⟨d, -, rfl⟩ := Option.map_eq_some_iff.1 h
  obtain ⟨⟨name, m⟩, -, rfl⟩ := List.mem_map.1 hp
  exact ⟨rfl, rfl⟩

end Properties

/-! ## Methods -/

section Methods

variable {t : Tree} {o : MethodOptions}

/-- The name of a candidate is neither internal nor that of the constructor. -/
theorem exposed_of_methodCandidate? {member function : Node} {name : String}
    (h : methodCandidate? t o member = some (name, function)) :
    name ∉ o.denylist ∧ name ≠ "constructor" := by
  unfold methodCandidate? at h
  obtain ⟨f, -, h⟩ := Option.bind_eq_some_iff.1 h
  split_ifs at h with hexposed
  obtain ⟨n, -, h⟩ := Option.bind_eq_some_iff.1 h
  dsimp only at h
  split_ifs at h with hname
  obtain ⟨rfl, -⟩ := Prod.mk.inj (Option.some.inj h)
  simpa using hname

theorem name_of_methodOf? {name : String} {function : Node} {m : Method}
    (h : methodOf? t name function = some m) : m.name = name := by
  unfold methodOf? at h
  obtain ⟨parameters, -, h⟩ := Option.bind_eq_some_iff.1 h
  obtain ⟨result, -, h⟩ := Option.bind_eq_some_iff.1 h
  cases h
  rfl

/-- The methods that are taken are the first of each name among the candidates that
state their types: one that does not takes no name. -/
theorem taken_eq_firstOfEachName (t : Tree) (seen : List String)
    (candidates : List (String × Node)) :
    (methodOutcomes t seen candidates).filterMap MethodOutcome.method?
      = firstOfEachName Method.name seen
          (candidates.filterMap fun c => methodOf? t c.1 c.2) := by
  induction candidates generalizing seen with
  | nil => rfl
  | cons c rest ih =>
    obtain ⟨name, function⟩ := c
    rw [methodOutcomes, List.filterMap_cons (l := rest)]
    cases hm : methodOf? t name function with
    | none =>
      split
      · exact ih seen
      · exact ih seen
    | some m =>
      have hname := name_of_methodOf? hm
      rw [firstOfEachName, hname]
      split
      · exact ih seen
      · exact congrArg (m :: ·) (ih (name :: seen))

/-- The methods of a class are the first of each name among its candidates. -/
theorem exists_candidates_of_methods? {methods : List Method} (h : methods? t o = some methods) :
    ∃ candidates : List (String × Node),
      (∀ c ∈ candidates, c.1 ∉ o.denylist ∧ c.1 ≠ "constructor") ∧
      methods = firstOfEachName Method.name []
        (candidates.filterMap fun c => methodOf? t c.1 c.2) := by
  unfold methods? at h
  obtain ⟨component, -, rfl⟩ := Option.map_eq_some_iff.1 h
  unfold outcomesOf
  cases component.inRole? .body with
  | none => exact ⟨[], nofun, rfl⟩
  | some body =>
    refine ⟨_, fun c hc => ?_, taken_eq_firstOfEachName t [] _⟩
    obtain ⟨member, -, hmember⟩ := List.mem_filterMap.1 hc
    exact exposed_of_methodCandidate? hmember

/-- The methods of a class have distinct names. -/
theorem nodup_name_of_methods? {methods : List Method} (h : methods? t o = some methods) :
    (methods.map Method.name).Nodup := by
  obtain ⟨candidates, -, rfl⟩ := exists_candidates_of_methods? h
  exact nodup_map_firstOfEachName Method.name [] _

/-- No method is internal to the framework, and none is the constructor. -/
theorem exposed_of_methods? {methods : List Method} (h : methods? t o = some methods)
    {m : Method} (hm : m ∈ methods) : m.name ∉ o.denylist ∧ m.name ≠ "constructor" := by
  obtain ⟨candidates, hexposed, rfl⟩ := exists_candidates_of_methods? h
  have hmem := mem_of_mem_firstOfEachName Method.name hm
  obtain ⟨c, hc, hof⟩ := List.mem_filterMap.1 hmem
  rw [name_of_methodOf? hof]
  exact hexposed c hc

end Methods

/-! ## Events -/

section Events

/-- An event takes the place of the one of its name, or a new one at the end. -/
theorem map_name_putEvent (e : Event) (events : List Event) :
    (putEvent e events).map Event.name
      = if e.name ∈ events.map Event.name then events.map Event.name
        else events.map Event.name ++ [e.name] := by
  induction events with
  | nil => rfl
  | cons x xs ih =>
    rw [putEvent]
    by_cases hx : x.name = e.name
    · simp [hx]
    · rw [if_neg (by simpa using hx), List.map_cons, ih]
      simp only [List.map_cons, List.mem_cons, Ne.symm hx, false_or]
      split_ifs <;> rfl

/-- An event takes the place of one of its name. -/
theorem nodup_name_putEvent (e : Event) {events : List Event}
    (h : (events.map Event.name).Nodup) : ((putEvent e events).map Event.name).Nodup := by
  rw [map_name_putEvent]
  split_ifs with hmem
  · exact h
  · exact h.append (List.nodup_singleton _) (by simpa using hmem)

/-- So the events of a component have distinct names. -/
theorem nodup_name_mergeEvents (ofProperties ofCalls : List Event) :
    ((mergeEvents ofProperties ofCalls).map Event.name).Nodup := by
  unfold mergeEvents
  have hstart := nodup_map_firstOfEachName Event.name [] ofProperties
  generalize firstOfEachName Event.name [] ofProperties = merged at hstart
  induction ofCalls generalizing merged with
  | nil => exact hstart
  | cons e rest ih => exact ih (putEvent e merged) (nodup_name_putEvent e hstart)

end Events

/-! ## Styles -/

section Styles

/-- There are no style classes without a default. -/
theorem default_ne_empty_of_styleClasses {t : Tree} {o : StyleOptions} {classes : StyleClasses}
    (h : (styleClasses t o).1 = some classes) : classes.default ≠ "" := by
  unfold styleClasses at h
  generalize StateT.run (constant t o.defaultConstant) [] = found at h
  obtain ⟨value?, known⟩ := found
  dsimp only at h
  cases hd : value?.filter fun s => !s.isEmpty with
  | none => rw [hd] at h; cases h
  | some default =>
    rw [hd] at h
    cases h
    simpa using (Option.filter_eq_some_iff.1 hd).2

/-- The styles of a source begin with the default class, and no other one is marked as
the default. -/
theorem stylesOf_eq (classes : StyleClasses) :
    ∃ others : List Style, stylesOf classes
        = { className := classes.default, description? := some defaultStyleDescription } :: others
      ∧ ∀ s ∈ others, s.isDefault = false := by
  refine ⟨_, rfl, fun s hs => ?_⟩
  obtain ⟨c, -, rfl⟩ := List.mem_map.1 hs
  rfl

/-- Styles have distinct classes. -/
theorem nodup_className_stylesOf (classes : StyleClasses) :
    ((stylesOf classes).map Style.className).Nodup := by
  unfold stylesOf
  rw [List.map_cons, List.map_map, List.nodup_cons]
  refine ⟨fun h => ?_, nodup_map_firstOfEachName id [classes.default] classes.registered⟩
  obtain ⟨c, hc, hname⟩ := List.mem_map.1 h
  exact not_mem_seen_of_mem_firstOfEachName id hc (by simpa using hname)

end Styles

end ComponentCatalog.Extract
