/-!
# Component documents

A document describes one component of a library: its properties, its methods,
the events it emits and the style classes it registers, with the documents of
the child components it is built from. A component may be listed under further
names; such an alias shares the document of its source and has only a name and a
description of its own.

A text that may be missing is an `Option`; the empty text counts as missing
where a document is written out (`Document.Json`), not here.
-/

namespace ComponentCatalog

/-- An attribute that a component can be configured with. -/
structure Property where
  name : String
  type : String
  optional : Bool := false
  /-- The default value, as source text. -/
  default? : Option String := none
  inherited : Bool := false
  /-- The type the property was inherited from. -/
  origin? : Option String := none
  deriving DecidableEq, Repr

/-- A property as the users of a type see it that inherits from `origin`. -/
def Property.inheritedFrom (p : Property) (origin : String) : Property :=
  { p with inherited := true, origin? := some origin }

/-- A parameter of a method. -/
structure Parameter where
  name : String
  type : String
  optional : Bool := false
  deriving DecidableEq, Repr

/-- A method that can be called from outside a component. -/
structure Method where
  name : String
  parameters : List Parameter := []
  returnType : String := "void"
  deriving DecidableEq, Repr

/-- The type of an event, unless another one is given. -/
def eventType : String := "Function"

/-- An event that a component emits. -/
structure Event where
  name : String
  /-- The parameter list, as source text. -/
  parameters : String
  type : String := eventType
  deriving DecidableEq, Repr

/-- The description that marks the default style class. -/
def defaultStyleDescription : String := "Default style class"

/-- A style class that a component registers. -/
structure Style where
  className : String
  description? : Option String := none
  deriving DecidableEq, Repr

/-- Whether a style class is the default one. -/
def Style.isDefault (s : Style) : Bool :=
  s.description? == some defaultStyleDescription

/-- What a declaration says about properties: its own name, the properties
themselves, and the type they extend. -/
structure PropertyBag where
  className : String
  props : List Property := []
  base? : Option String := none
  deriving DecidableEq, Repr

/-- The document of a component that has sources of its own. -/
structure Component where
  name : String
  path : String
  category : String
  props : List Property := []
  methods : List Method := []
  events : List Event := []
  styles : List Style := []
  base? : Option String := none
  children : List Component := []
  description? : Option String := none

namespace Component

mutual

/-- Equality of documents is decided part by part, down to the children. -/
def decEq : (a b : Component) → Decidable (a = b)
  | ⟨n, p, c, ps, ms, es, ss, b, cs, d⟩, ⟨n', p', c', ps', ms', es', ss', b', cs', d'⟩ =>
    match decEqAll cs cs' with
    | isTrue hc =>
      if h : n = n' ∧ p = p' ∧ c = c' ∧ ps = ps' ∧ ms = ms' ∧ es = es' ∧ ss = ss' ∧ b = b' ∧ d = d'
      then isTrue (by simp_all)
      else isFalse (by simp_all)
    | isFalse hc => isFalse (by simp_all)

/-- As `decEq`, for lists of documents. -/
def decEqAll : (as bs : List Component) → Decidable (as = bs)
  | [], [] => isTrue rfl
  | [], _ :: _ => isFalse (by simp)
  | _ :: _, [] => isFalse (by simp)
  | a :: as, b :: bs =>
    match decEq a b, decEqAll as bs with
    | isTrue h, isTrue hs => isTrue (by simp_all)
    | isFalse h, _ => isFalse (by simp_all)
    | _, isFalse hs => isFalse (by simp_all)

end

instance : DecidableEq Component := decEq

end Component

/-- A document: a component, or another name for one. -/
inductive Document where
  | component (c : Component)
  | renamed (name : String) (source : Component) (description : String)
  deriving DecidableEq

namespace Document

/-- The name a document is filed under. -/
def name : Document → String
  | component c => c.name
  | renamed n _ _ => n

/-- The component whose facets a document shows. -/
def facets : Document → Component
  | component c => c
  | renamed _ c _ => c

end Document

/-- Every element whose name no earlier element has, in order. -/
def firstOfEachName {α : Type} (name : α → String) (seen : List String) : List α → List α
  | [] => []
  | a :: as =>
    if seen.contains (name a) then firstOfEachName name seen as
    else a :: firstOfEachName name (name a :: seen) as

end ComponentCatalog
