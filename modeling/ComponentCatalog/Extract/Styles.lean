import ComponentCatalog.Extract.Constants

/-!
# Style classes of a component

A style source declares the default class of its component as a constant and
registers further classes by calling a registrar. The class that a call
registers is its first argument, which must come down to a string; a call whose
first argument does not is noted and passed over. A source whose default class
has no value, or an empty one, describes no styles.

The styles of a component are the default class and then the other registered
classes, each once, in order of registration.
-/

namespace ComponentCatalog.Extract

open Syntax

/-- What to look for in a source. -/
structure StyleOptions where
  /-- The name of the constant that holds the default class. -/
  defaultConstant : String := "DEFAULT_CLASS"
  /-- The names of the functions that register a class. -/
  registrars : List String := ["addStyle"]

/-- The classes of a style source, as registered. -/
structure StyleClasses where
  /-- The default class. -/
  default : String
  /-- The registered classes, in order, with repetitions. -/
  registered : List String
  deriving DecidableEq, Repr

/-- The first arguments of the calls of a registrar, in document order. Calls
without arguments register nothing. -/
def registrations (t : Tree) (registrars : List String) : List Node :=
  (t.ofKinds [.callExpression]).filterMap fun call =>
    match t.calleeName? call with
    | some name =>
      if registrars.contains name then
        (call.inRole? .arguments).bind fun args => args.namedChildren.head?
      else none
    | none => none

/-- What is noted about a registration whose class has no value. -/
def unresolvedNote (t : Tree) (argument : Node) : Log.Record :=
  Log.debug "extraction.styles" ("Skipping unresolved style class expression " ++ t.text argument)

/-- The classes that the registrations of a source name, with what is noted on
the way. -/
def registeredClasses (t : Tree) (arguments : List Node) :
    Resolving (List String × List Log.Record) := do
  match arguments with
  | [] => return ([], [])
  | a :: rest =>
    let v ← expressionValue t a
    let (classes, notes) ← registeredClasses t rest
    match v with
    | some c => return (c :: classes, notes)
    | none => return (classes, unresolvedNote t a :: notes)

/-- The style classes of a source, with what is noted on the way; none if the
default class has no value. -/
def styleClasses (t : Tree) (o : StyleOptions) : Option StyleClasses × List Log.Record :=
  let (default, known) := (constant t o.defaultConstant).run []
  match default.filter fun s => !s.isEmpty with
  | none =>
    (none, [Log.debug "extraction.styles"
      ("No " ++ o.defaultConstant ++ " constant found in style source")])
  | some default =>
    -- constants that the default class needed keep the values they have
    let ((classes, notes), _) := (registeredClasses t (registrations t o.registrars)).run known
    (some ⟨default, classes⟩, notes)

/-- The styles of a component: the default class, marked as such, and then the
other registered classes, each once. -/
def stylesOf (classes : StyleClasses) : List Style :=
  { className := classes.default, description? := some defaultStyleDescription } ::
    (firstOfEachName id [classes.default] classes.registered).map fun c => { className := c }

end ComponentCatalog.Extract
