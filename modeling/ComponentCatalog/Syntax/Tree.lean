import ComponentCatalog.Syntax.Node
import ComponentCatalog.Text.Blank

/-!
# A source and its tree

A `Tree` is a root node together with the characters it was read from. Every
text that the catalogue shows is a verbatim slice of those characters, taken at
the span of some node, so the layout a component's author chose is kept.

The functions here read the small facts that several extractors need: the name
of a declaration, the text of a type annotation, the value of a string literal,
the name of the function a call invokes.
-/

namespace ComponentCatalog.Syntax

/-- A source text with its syntax tree. -/
structure Tree where
  /-- The characters of the source. -/
  source : Array Char
  /-- The root of the tree. -/
  root : Node
  /-- Whether some characters fit no rule of the grammar. -/
  flawed : Bool

namespace Tree

/-- The characters from one position up to another. -/
def slice (t : Tree) (start stop : Nat) : String :=
  String.ofList (t.source.extract start stop).toList

/-- The text a node covers. -/
def text (t : Tree) (n : Node) : String :=
  t.slice n.start n.stop

/-- The type written in a type annotation, without the colon before it.
Annotations of another kind, such as predicates, state no type. -/
def annotatedType? (t : Tree) (clause : Node) : Option String :=
  if clause.kind == .typeClause && 2 ≤ clause.children.length then
    clause.children.getLast?.map fun n => Text.trim (t.text n)
  else none

/-- The name of a declaration, if it has one. -/
def declaredName? (t : Tree) (declaration : Node) : Option String :=
  let named := declaration.inRole? .name <|> declaration.firstOf?
    [.typeIdentifier, .identifier, .propertyIdentifier, .privateIdentifier]
  named.map t.text

/-- The characters between the quotes of a string literal, as written. -/
def stringValue? (t : Tree) (n : Node) : Option String :=
  if n.kind != .string then none
  else
    let raw := (t.text n).toList
    match raw.head?, raw.getLast? with
    | some first, some last =>
      if 2 ≤ raw.length && first == last && (first == '\'' || first == '"') then
        some (String.ofList (raw.drop 1).dropLast)
      else none
    | _, _ => none

/-- The name of the function that a call invokes: the function itself when it
is a plain name, the property when it is reached through an object. -/
def calleeName? (t : Tree) (call : Node) : Option String := do
  let function ← call.inRole? .function
  match function.kind with
  | .identifier => some (t.text function)
  | .memberExpression => (function.inRole? .property).map t.text
  | _ => none

/-- The nodes of the tree of the given kinds, in document order. -/
def ofKinds (t : Tree) (kinds : List Kind) : List Node :=
  t.root.ofKinds kinds

end Tree

end ComponentCatalog.Syntax
