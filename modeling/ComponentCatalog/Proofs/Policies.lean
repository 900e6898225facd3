import ComponentCatalog.Filter
import Mathlib.Data.List.Basic

/-!
# Policies one after the other

Filtering a document twice, by one policy and then by another, leaves out what either of
them leaves out. So it is filtering once by a policy that is the union of the two: its lists
of names are the unions of theirs, the lists for single components included. The policies may
name different components in their overrides, and a component that only one of them names is
filtered by that one alone; this is why the union is taken of what applies to a component
(`overrideFor`) and not of the tables.

What a policy looks at in a document, it does not change: the names of components decide about
overrides, and whether a property is inherited or a style class is the default one decides
about exemptions, and all of this stays. That is what makes the second filter see the document
as the first one saw it, down to the children.
-/

namespace ComponentCatalog

/-- What either of two overrides leaves out. -/
def Override.union (a b : Override) : Override where
  excludeProps := a.excludeProps ++ b.excludeProps
  excludeMethods := a.excludeMethods ++ b.excludeMethods
  excludeStyleClasses := a.excludeStyleClasses ++ b.excludeStyleClasses

namespace Policy

/-- **The union of two policies**: every list of names is the union of the lists of the two,
for each component that one of them has an override for. -/
def union (p q : Policy) : Policy where
  excludeProps := p.excludeProps ++ q.excludeProps
  excludeInheritedProps := p.excludeInheritedProps ++ q.excludeInheritedProps
  excludeMethods := p.excludeMethods ++ q.excludeMethods
  excludeStyleClasses := p.excludeStyleClasses ++ q.excludeStyleClasses
  overrides := (p.overrides.map Prod.fst ++ q.overrides.map Prod.fst).map
    fun component => (component, (p.overrideFor component).union (q.overrideFor component))

/-- **A policy is a union of two others** if its lists have the names that one of theirs
has, whatever the order and however often. -/
structure IsUnion (r p q : Policy) : Prop where
  props : ∀ n, n ∈ r.excludeProps ↔ n ∈ p.excludeProps ∨ n ∈ q.excludeProps
  inheritedProps : ∀ n, n ∈ r.excludeInheritedProps
    ↔ n ∈ p.excludeInheritedProps ∨ n ∈ q.excludeInheritedProps
  methods : ∀ n, n ∈ r.excludeMethods ↔ n ∈ p.excludeMethods ∨ n ∈ q.excludeMethods
  styleClasses : ∀ n, n ∈ r.excludeStyleClasses
    ↔ n ∈ p.excludeStyleClasses ∨ n ∈ q.excludeStyleClasses
  overrideProps : ∀ component n, n ∈ (r.overrideFor component).excludeProps
    ↔ n ∈ (p.overrideFor component).excludeProps ∨ n ∈ (q.overrideFor component).excludeProps
  overrideMethods : ∀ component n, n ∈ (r.overrideFor component).excludeMethods
    ↔ n ∈ (p.overrideFor component).excludeMethods ∨ n ∈ (q.overrideFor component).excludeMethods
  overrideStyleClasses : ∀ component n, n ∈ (r.overrideFor component).excludeStyleClasses
    ↔ n ∈ (p.overrideFor component).excludeStyleClasses
      ∨ n ∈ (q.overrideFor component).excludeStyleClasses

section Overrides

variable (p q : Policy)

/-- Without an override nothing more is left out. -/
theorem overrideFor_of_not_mem {component : String}
    (h : component ∉ p.overrides.map Prod.fst) : p.overrideFor component = {} := by
  have hnone : p.overrides.lookup component = none := by
    rw [List.lookup_eq_none_iff]
    intro e he
    exact bne_iff_ne.2 fun heq => h (heq ▸ List.mem_map_of_mem he)
  rw [overrideFor, hnone, Option.getD_none]

/-- What the union leaves out of one component is what either of the two leaves out. -/
theorem overrideFor_union (component : String) :
    (p.union q).overrideFor component
      = (p.overrideFor component).union (q.overrideFor component) := by
  by_cases h : component ∈ p.overrides.map Prod.fst ++ q.overrides.map Prod.fst
  · rw [overrideFor, union, List.lookup_graph _ h, Option.getD_some]
  · have hnot : component ∉ (p.union q).overrides.map Prod.fst := by
      simpa [union, Function.comp_def] using h
    rw [List.mem_append, not_or] at h
    rw [overrideFor_of_not_mem _ hnot, overrideFor_of_not_mem p h.1, overrideFor_of_not_mem q h.2]
    rfl

/-- The union of two policies is one. -/
theorem isUnion_union : (p.union q).IsUnion p q where
  props _ := List.mem_append
  inheritedProps _ := List.mem_append
  methods _ := List.mem_append
  styleClasses _ := List.mem_append
  overrideProps component _ := by
    rw [overrideFor_union]
    exact List.mem_append
  overrideMethods component _ := by
    rw [overrideFor_union]
    exact List.mem_append
  overrideStyleClasses component _ := by
    rw [overrideFor_union]
    exact List.mem_append

/-- A policy is a union of itself with itself. -/
theorem isUnion_self : p.IsUnion p p where
  props _ := (or_self_iff).symm
  inheritedProps _ := (or_self_iff).symm
  methods _ := (or_self_iff).symm
  styleClasses _ := (or_self_iff).symm
  overrideProps _ _ := (or_self_iff).symm
  overrideMethods _ _ := (or_self_iff).symm
  overrideStyleClasses _ _ := (or_self_iff).symm

end Overrides

namespace IsUnion

variable {r p q : Policy}

/-- Which of the two policies comes first does not matter. -/
theorem symm (h : r.IsUnion p q) : r.IsUnion q p where
  props n := (h.props n).trans or_comm
  inheritedProps n := (h.inheritedProps n).trans or_comm
  methods n := (h.methods n).trans or_comm
  styleClasses n := (h.styleClasses n).trans or_comm
  overrideProps component n := (h.overrideProps component n).trans or_comm
  overrideMethods component n := (h.overrideMethods component n).trans or_comm
  overrideStyleClasses component n := (h.overrideStyleClasses component n).trans or_comm

variable (h : r.IsUnion p q) (component : String)

include h

theorem keepsProperty_eq :
    r.keepsProperty component
      = fun x => q.keepsProperty component x && p.keepsProperty component x := by
  funext x
  rw [Bool.eq_iff_iff]
  simp only [keepsProperty, Bool.and_eq_true, Bool.not_eq_true', Bool.and_eq_false_imp,
    List.contains_eq_mem, decide_eq_false_iff_not, h.props, h.inheritedProps, h.overrideProps]
  tauto

theorem keepsMethod_eq :
    r.keepsMethod component = fun m => q.keepsMethod component m && p.keepsMethod component m := by
  funext m
  rw [Bool.eq_iff_iff]
  simp only [keepsMethod, Bool.and_eq_true, Bool.not_eq_true', List.contains_eq_mem,
    decide_eq_false_iff_not, h.methods, h.overrideMethods]
  tauto

theorem keepsStyle_eq :
    r.keepsStyle component = fun s => q.keepsStyle component s && p.keepsStyle component s := by
  funext s
  rw [Bool.eq_iff_iff]
  simp only [keepsStyle, Bool.or_eq_true, Bool.and_eq_true, Bool.not_eq_true',
    List.contains_eq_mem, decide_eq_false_iff_not, h.styleClasses, h.overrideStyleClasses]
  tauto

end IsUnion

mutual

/-- **Two filters are one**, at every depth. -/
theorem applyTo_applyTo {r p q : Policy} (h : r.IsUnion p q) :
    (c : Component) → q.applyTo (p.applyTo c) = r.applyTo c
  | ⟨name, path, category, props, methods, events, styles, base?, children, description?⟩ => by
    rw [applyTo, applyTo, applyTo, applyToAll_applyToAll h children, List.filter_filter,
      List.filter_filter, List.filter_filter, h.keepsProperty_eq, h.keepsMethod_eq,
      h.keepsStyle_eq]

/-- Policies one after the other leave what their union leaves, in all children. -/
theorem applyToAll_applyToAll {r p q : Policy} (h : r.IsUnion p q) :
    (cs : List Component) → q.applyToAll (p.applyToAll cs) = r.applyToAll cs
  | [] => rfl
  | c :: cs => by
    rw [applyToAll, applyToAll, applyToAll, applyTo_applyTo h c, applyToAll_applyToAll h cs]

end

theorem apply_apply_of_isUnion {r p q : Policy} (h : r.IsUnion p q) (d : Document) :
    q.apply (p.apply d) = r.apply d := by
  cases d with
  | component c => exact congrArg Document.component (applyTo_applyTo h c)
  | renamed name source description => rfl

/-- **Filtering by one policy and then by another** is filtering by their union, and by every
policy whose lists are unions of theirs. So filtering twice by one policy is filtering once,
and the order of two policies does not matter. -/
theorem apply_apply_eq_union (p q : Policy) (d : Document) :
    q.apply (p.apply d) = (p.union q).apply d
      ∧ (∀ r : Policy, r.IsUnion p q → q.apply (p.apply d) = r.apply d)
      ∧ p.apply (p.apply d) = p.apply d
      ∧ q.apply (p.apply d) = p.apply (q.apply d) := by
  have hunion := apply_apply_of_isUnion (isUnion_union p q) d
  refine ⟨hunion, fun r hr => apply_apply_of_isUnion hr d,
    apply_apply_of_isUnion (isUnion_self p) d, ?_⟩
  rw [hunion, apply_apply_of_isUnion (isUnion_union p q).symm d]

end Policy

end ComponentCatalog
