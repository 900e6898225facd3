import ComponentCatalog.Config
import ComponentCatalog.Document

/-!
# What is left out of documents

A policy lists the names of properties, methods and style classes that are left out
of every document, of properties that are left out where they are inherited, and
further names for single components. The default style class is never left out.

Every component is filtered under its own name, children included. An alias shares
the document of its source, which has been filtered already.
-/

namespace ComponentCatalog.Policy

/-- Whether a property of a component stays in its document. -/
def keepsProperty (p : Policy) (component : String) (x : Property) : Bool :=
  !p.excludeProps.contains x.name && !(p.overrideFor component).excludeProps.contains x.name &&
    !(x.inherited && p.excludeInheritedProps.contains x.name)

/-- Whether a method of a component stays in its document. -/
def keepsMethod (p : Policy) (component : String) (m : Method) : Bool :=
  !p.excludeMethods.contains m.name && !(p.overrideFor component).excludeMethods.contains m.name

/-- Whether a style class of a component stays in its document. -/
def keepsStyle (p : Policy) (component : String) (s : Style) : Bool :=
  s.isDefault || !p.excludeStyleClasses.contains s.className &&
    !(p.overrideFor component).excludeStyleClasses.contains s.className

mutual

/-- The document of a component without what a policy leaves out. -/
def applyTo (p : Policy) : Component → Component
  | ⟨name, path, category, props, methods, events, styles, base?, children, description?⟩ =>
    { name := name
      path := path
      category := category
      props := props.filter (p.keepsProperty name)
      methods := methods.filter (p.keepsMethod name)
      events := events
      styles := styles.filter (p.keepsStyle name)
      base? := base?
      children := applyToAll p children
      description? := description? }

/-- The documents of several components without what a policy leaves out. -/
def applyToAll (p : Policy) : List Component → List Component
  | [] => []
  | c :: cs => applyTo p c :: applyToAll p cs

end

/-- A document without what a policy leaves out. -/
def apply (p : Policy) : Document → Document
  | .component c => .component (p.applyTo c)
  | .renamed name source description => .renamed name source description

end ComponentCatalog.Policy
