import ComponentCatalog.Extract.Properties

/-!
# Methods of a component

The methods of a component are those members of its class that can be called
from outside: method definitions, and fields that hold an arrow function, unless
they are static, accessors, private or protected, or on a list of names that are
internal to the framework. A method must state its parameters and its result
type; one that does not is noted and passed over, and a later member of the same
name may take its place.

Which class is the component is decided by `componentClass?`: the first one that
is exported by default, else the first whose name does not end like the name of
an auxiliary class, else the first.
-/

namespace ComponentCatalog.Extract

open Syntax

/-- What to look for in a source. -/
structure MethodOptions where
  /-- The names of methods that are internal. -/
  denylist : List String := []
  /-- The endings of the names of auxiliary classes. -/
  auxiliarySuffixes : List String := ["Props", "State", "Styles"]

/-- Whether a node is a child of a statement that exports it by default. -/
def isDefaultExport (parent : Option Node) : Bool :=
  match parent with
  | some p => p.kind == .exportStatement && p.hasToken "default"
  | none => false

/-- The classes of a tree in document order, each with whether it is the
default export. -/
def classesOf (t : Tree) : List (Node × Bool) :=
  ((Node.walkWithParents [] [(none, t.root)]).filter fun (_, n) => classKinds.contains n.kind).map
    fun (p, n) => (n, isDefaultExport p)

/-- The class that is the component. -/
def componentClass? (t : Tree) (o : MethodOptions) : Option Node :=
  let classes := classesOf t
  let main := classes.find? (·.2)
  let plain := classes.find? fun (c, _) =>
    !(o.auxiliarySuffixes.any fun s => Text.endsWith (nameOrEmpty t c) s)
  (main <|> plain <|> classes.head?).map Prod.fst

/-! ## Members -/

/-- The function that a member of a class stands for, if it stands for one. -/
def callable? (member : Node) : Option Node :=
  match member.kind with
  | .methodDefinition => some member
  | .fieldDefinition => (member.inRole? .value).filter fun v => v.kind == .arrowFunction
  | _ => none

/-- Whether a member can be reached from outside: neither static nor an
accessor, and public by statement or by omission. -/
def isExposed (t : Tree) (member : Node) : Bool :=
  !member.hasToken "static" && !member.hasToken "get" && !member.hasToken "set" &&
    match member.firstOf? [.accessibilityModifier] with
    | some m => t.text m == "public"
    | none => true

/-- The name and the function of a member that could be a method. -/
def methodCandidate? (t : Tree) (o : MethodOptions) (member : Node) : Option (String × Node) := do
  let function ← callable? member
  if !isExposed t member then none
  else
    let name ← (member.inRole? .name).filter fun n => n.kind == .propertyIdentifier
    let text := t.text name
    if o.denylist.contains text || text == "constructor" then none
    else some (text, function)

/-- The parameters of a parameter list. The receiver is not one of them. -/
def parametersOf (t : Tree) (list : Node) : List Parameter :=
  list.namedChildren.filterMap fun p =>
    if p.kind != .requiredParameter && p.kind != .optionalParameter then none
    else
      let name := ((p.inRole? .pattern).map fun n => Text.trim (t.text n)).getD ""
      if name.isEmpty || name == "this" then none
      else
        let type := ((p.inRole? .type).bind t.annotatedType?).filter fun s => !s.isEmpty
        some {
          name := name
          type := type.getD untyped
          optional := p.kind == .optionalParameter || (p.inRole? .value).isSome }

/-- The method that a function is, if it states its parameters and its result
type. -/
def methodOf? (t : Tree) (name : String) (function : Node) : Option Method := do
  let list ← function.inRole? .parameters
  let result ← (function.inRole? .returnType).bind t.annotatedType?
  some { name := name, parameters := parametersOf t list, returnType := result }

/-! ## The whole list -/

/-- What became of a member that could be a method. -/
inductive MethodOutcome where
  /-- The member is a method of the component. -/
  | taken (m : Method)
  /-- The member states no parameters or no result type. -/
  | untyped (name : String)

/-- The method of an outcome. -/
def MethodOutcome.method? : MethodOutcome → Option Method
  | taken m => some m
  | untyped _ => none

/-- What is noted about an outcome. -/
def MethodOutcome.note? : MethodOutcome → Option Log.Record
  | taken _ => none
  | untyped name => some (Log.debug "extraction.methods"
      ("Skipping " ++ name ++ ": missing parameter list or return type"))

/-- What becomes of each candidate in turn; one whose name is taken already is
not looked at. -/
def methodOutcomes (t : Tree) (seen : List String) : List (String × Node) → List MethodOutcome
  | [] => []
  | (name, function) :: rest =>
    if seen.contains name then methodOutcomes t seen rest
    else match methodOf? t name function with
      | some m => .taken m :: methodOutcomes t (name :: seen) rest
      -- the name stays free for a later member
      | none => .untyped name :: methodOutcomes t seen rest

/-- What becomes of the members of a class, in source order. -/
def outcomesOf (t : Tree) (o : MethodOptions) (component : Node) : List MethodOutcome :=
  match component.inRole? .body with
  | none => []
  | some body => methodOutcomes t [] (body.namedChildren.filterMap (methodCandidate? t o))

/-- The methods of the component in a source; none if the source has no class. -/
def methods? (t : Tree) (o : MethodOptions) : Option (List Method) :=
  (componentClass? t o).map fun c => (outcomesOf t o c).filterMap MethodOutcome.method?

/-- What is noted while the methods of a source are collected. -/
def methodNotes (t : Tree) (o : MethodOptions) : List Log.Record :=
  match componentClass? t o with
  | none => [Log.debug "extraction.methods" "No component class declaration found"]
  | some c => (outcomesOf t o c).filterMap MethodOutcome.note?

end ComponentCatalog.Extract
