import ComponentCatalog.Document
import ComponentCatalog.Syntax.Parse
import ComponentCatalog.Text.Affix

/-!
# Callable types

A property whose name begins like a handler is an event when its type can be
called. A type can be called when, apart from brackets and from `null` and
`undefined` among the members of a union, it is a function type or the type
`Function`. The event's parameters are then the parameter list of that function
type, as written.

A type is given as text. It is read as the right side of a type declaration, and
a text that does not parse there is not callable.
-/

namespace ComponentCatalog.Extract

open Syntax

/-- The texts of the types that stand for the absence of a value. -/
def nullishTypes : List String := ["undefined", "null"]

mutual

/-- The members of a union, with the unions directly inside it taken apart. -/
def unionMembers : Node → List Node
  | .mk k r s e cs =>
    if k == .unionType then unionMembersOfAll cs else [.mk k r s e cs]

/-- The union members of the named nodes among several. -/
def unionMembersOfAll : List Node → List Node
  | [] => []
  | n :: ns => if n.isNamed then unionMembers n ++ unionMembersOfAll ns else unionMembersOfAll ns

end

/-- Whether a type stands for the absence of a value. -/
def isNullish (t : Tree) (n : Node) : Bool :=
  nullishTypes.contains (Text.trim (t.text n))

/-- A type without the brackets around it. -/
def withoutBrackets (n : Node) : (limit : Nat) → Node
  | 0 => n
  | limit + 1 =>
    if n.kind == .parenthesizedType then
      match n.namedChildren with
      | m :: _ => withoutBrackets m limit
      | [] => n
    else n

/-- The single type that is left of a type without its brackets and without the
nullish members of its unions, if exactly one is left. -/
def shape? (t : Tree) (n : Node) : (limit : Nat) → Option Node
  | 0 => none
  | limit + 1 =>
    let n := withoutBrackets n n.count
    if n.kind != .unionType then
      if isNullish t n then none else some n
    else
      -- a member may be a union in brackets, so what is left is looked at again
      match (unionMembers n).filter fun m => !isNullish t m with
      | [m] => shape? t m limit
      | _ => none

/-- The parameter list of a type that can be called. -/
def parametersOfShape? (t : Tree) (n : Node) : Option String :=
  if n.kind == .typeIdentifier && t.text n == "Function" then some "()"
  else if n.kind == .functionType then
    (n.inRole? .parameters <|> n.firstOf? [.formalParameters]).map t.text
  else none

/-- The parameter list of the first type that a tree declares, if it can be
called. -/
def declaredParameters? (t : Tree) : Option String := do
  if t.flawed then none
  else
    let declared ← (t.ofKinds [.typeAliasDeclaration]).head?
    let value ← declared.inRole? .value
    let shape ← shape? t value value.count
    parametersOfShape? t shape

/-- The parameter list of a type that can be called. -/
def callableParameters? (type : String) : Option String :=
  declaredParameters? (parse .typescript ("type EventType = " ++ type ++ ";"))

end ComponentCatalog.Extract
