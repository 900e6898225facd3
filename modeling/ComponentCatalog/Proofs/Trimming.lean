import ComponentCatalog.Proofs.Nesting

/-!
# What a policy leaves of a document

A policy is applied to a document and to the documents of the children in it, however deep
these lie, and each is filtered by itself: which names are left out is decided by the lists for
all components and by those for the name of the very component, never by those for a component
it lies in. The statement is therefore about places. A document and what a policy leaves of it
have the same places (`Component.at?`), and at each of them the one is the other without what
is left out (`Policy.Trims`).

A document of another name for a component is left as it is, since it shows a document that has
been filtered already.
-/

namespace ComponentCatalog

/-- The document at a place in another one: a place is a list of positions among children,
from the top document down. -/
def Component.at? (c : Component) : List Nat → Option Component
  | [] => some c
  | i :: place => c.children[i]?.bind fun d => d.at? place

namespace Policy

/-- **What a policy leaves of one document**, its children apart: the lists that are filtered
keep, in their order, exactly what no list of names excludes, and all else stays. -/
structure Trims (p : Policy) (d d' : Component) : Prop where
  props : d'.props = d.props.filter fun x =>
    x.name ∉ p.excludeProps ∧ x.name ∉ (p.overrideFor d.name).excludeProps
      ∧ ¬(x.inherited = true ∧ x.name ∈ p.excludeInheritedProps)
  methods : d'.methods = d.methods.filter fun m =>
    m.name ∉ p.excludeMethods ∧ m.name ∉ (p.overrideFor d.name).excludeMethods
  styles : d'.styles = d.styles.filter fun s =>
    s.description? = some defaultStyleDescription
      ∨ s.className ∉ p.excludeStyleClasses
        ∧ s.className ∉ (p.overrideFor d.name).excludeStyleClasses
  /-- The default style is never lost. -/
  default_style : ∀ s ∈ d.styles, s.isDefault = true → s ∈ d'.styles
  name : d'.name = d.name
  path : d'.path = d.path
  category : d'.category = d.category
  events : d'.events = d.events
  base : d'.base? = d.base?
  description : d'.description? = d.description?
  children : d'.children.length = d.children.length

variable (p : Policy)

section Keeping

variable (component : String)

/-- A property is kept unless a list for all components, for this one or for inherited ones has it.
-/
theorem keepsProperty_eq_decide (x : Property) :
    p.keepsProperty component x
      = decide (x.name ∉ p.excludeProps ∧ x.name ∉ (p.overrideFor component).excludeProps
        ∧ ¬(x.inherited = true ∧ x.name ∈ p.excludeInheritedProps)) := by
  simp [keepsProperty, Bool.and_assoc]

theorem keepsMethod_eq_decide (m : Method) :
    p.keepsMethod component m
      = decide (m.name ∉ p.excludeMethods
        ∧ m.name ∉ (p.overrideFor component).excludeMethods) := by
  simp [keepsMethod]

/-- The default style is always kept. -/
theorem keepsStyle_eq_decide (s : Style) :
    p.keepsStyle component s
      = decide (s.description? = some defaultStyleDescription
        ∨ s.className ∉ p.excludeStyleClasses
          ∧ s.className ∉ (p.overrideFor component).excludeStyleClasses) := by
  simp [keepsStyle, Style.isDefault, beq_eq_decide]

end Keeping

/-- What `applyTo` makes of a document, its children apart. -/
theorem trims_applyTo (d : Component) : p.Trims d (p.applyTo d) := by
  have hchildren : (p.applyTo d).children.length = d.children.length := by
    rw [children_applyTo, List.length_map]
  have hdefault : ∀ s ∈ d.styles, s.isDefault = true → s ∈ (p.applyTo d).styles := by
    intro s hs hs'
    cases d
    exact List.mem_filter.2 ⟨hs, by rw [keepsStyle, hs', Bool.true_or]⟩
  cases d with
  | mk name path category props methods events styles base? children description? =>
    exact
      { props := List.filter_congr fun x _ => keepsProperty_eq_decide p name x
        methods := List.filter_congr fun m _ => keepsMethod_eq_decide p name m
        styles := List.filter_congr fun s _ => keepsStyle_eq_decide p name s
        default_style := hdefault
        name := rfl
        path := rfl
        category := rfl
        events := rfl
        base := rfl
        description := rfl
        children := hchildren }

/-- What lies at a place is filtered as it would be by itself. -/
theorem at?_applyTo (c : Component) (place : List Nat) :
    (p.applyTo c).at? place = (c.at? place).map p.applyTo := by
  induction place generalizing c with
  | nil => rfl
  | cons i place ih =>
    rw [Component.at?, Component.at?, children_applyTo, List.getElem?_map]
    cases c.children[i]? with
    | none => rfl
    | some d => exact ih d

/-- **A policy trims a document at every place** by the lists for all components and by those
for the name that the document at that place has, and changes nothing else; the places stay the
same ones, in the same order. Another name for a component is left as it is. -/
theorem apply_trims_everywhere (p : Policy) :
    (∀ c : Component, ∃ c', p.apply (.component c) = .component c'
        ∧ ∀ place, Option.Rel p.Trims (c.at? place) (c'.at? place))
      ∧ ∀ name source description,
        p.apply (.renamed name source description) = .renamed name source description := by
  refine ⟨fun c => ⟨p.applyTo c, rfl, fun place => ?_⟩, fun _ _ _ => rfl⟩
  rw [at?_applyTo]
  cases c.at? place with
  | none => exact .none
  | some d => exact .some (trims_applyTo p d)

end Policy

end ComponentCatalog
