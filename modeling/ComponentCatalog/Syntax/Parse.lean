import ComponentCatalog.Syntax.Grammar.Types
import ComponentCatalog.Syntax.Grammar.Expressions
import ComponentCatalog.Syntax.Grammar.Elements
import ComponentCatalog.Syntax.Grammar.Statements

/-!
# From a source to its tree

Here the recursion among the phrases is tied. Every phrase that contains another
one of the same source is read with less fuel, and the fuel grows with the length
of the source, so that it never runs out before the characters do.

Comments are no part of the grammar: a reader of tokens passes over them. They
are put into the tree afterwards. A comment belongs to the innermost node that
has a child on both sides of it, because that is where a reader of the source
finds it: between two arguments it is an argument's neighbour, and after the last
token of a type it is outside the type.

Characters that fit no rule are kept as nodes of their own, and the tree that
holds them is flawed.
-/

namespace ComponentCatalog.Syntax

/-- The readers of all phrases, given readers for the phrases inside them. -/
def grammar (g : Grammar) : Grammar
  | .statement => Parse.statementRule g
  | .block => Parse.blockRule g
  | .expression c => Parse.expressionRule g c
  | .sequence c => Parse.sequenceRule g c
  | .operand c => Parse.operandRule g c
  | .type c => Parse.typeRule g c
  | .typeOperand c => Parse.typeOperandRule g c
  | .typeArguments => Parse.typeArgumentsRule g
  | .typeParameters => Parse.typeParametersRule g
  | .pattern => Parse.patternRule g
  | .parameters => Parse.parametersRule g
  | .classBody => Parse.classBodyRule g
  | .interfaceBody => Parse.interfaceBodyRule g
  | .classTail statement => Parse.classTailRule g statement
  | .decorator => Parse.decoratorRule g
  | .template => Parse.templateRule g
  | .element => Parse.elementRule g

/-- The readers of all phrases up to a depth of nesting. -/
def grammarUpTo : (fuel : Nat) → Grammar
  | 0 => fun _ => Parse.fail
  | fuel + 1 => grammar (grammarUpTo fuel)

namespace Parse

/-- Reads the first line of a script that names its interpreter. -/
def interpreterLine : Parse (List Node) :=
  maybe do
    let start ← here
    let chars := (← read).chars
    guard (start == 0 && spells chars 0 ['#', '!'])
    goTo (skipWhile chars (fun c => c != '\n') 2 chars.size)
    leafFrom .clause start

/-- Reads the statements of a source, and tells whether all of it was
accounted for. Where no statement begins, one token is set aside. -/
def statements (g : Grammar) (done : List Node) (flawed : Bool) :
    (limit : Nat) → Parse (List Node × Bool)
  | 0 => return (done.reverse, true)
  | limit + 1 => do
    if ← atEnd then return (done.reverse, flawed)
    else
      match ← option (g .statement) with
      | some s => statements g (s :: done) flawed limit
      | none =>
        let t ← anyToken
        statements g (t :: done) true limit

/-- Reads a source from its first line to its end. -/
def source : Parse (List Node × Bool) := do
  let size := (← read).chars.size
  let first ← interpreterLine
  let (rest, flawed) ← statements (grammarUpTo (24 * size + 64)) [] false (size + 1)
  return (first ++ rest, flawed)

end Parse

/-- The phrases of a source, and whether some characters of it fit no rule. -/
def topNodes (i : Input) : List Node × Bool :=
  match Parse.source.run i |>.run { pos := 0 } with
  | .ok result _ => result
  | .error _ _ => ([], true)

/-! ## Comments -/

/-- The comments between two positions, where nothing but spaces and comments
stands. -/
def commentsBetween (chars : Array Char) (p stop : Nat) : (limit : Nat) → List Node
  | 0 => []
  | limit + 1 =>
    if p < stop then
      match Parse.commentEnd? chars p with
      | some e => .mk .comment none p e [] :: commentsBetween chars e stop limit
      | none => commentsBetween chars (p + 1) stop limit
    else []

mutual

/-- The tree with the comments between the children of its nodes. -/
def withComments (chars : Array Char) : Node → Node
  | .mk k r s e cs => .mk k r s e (childrenWithComments chars s cs)

/-- Children with the comments before each of them. -/
def childrenWithComments (chars : Array Char) (p : Nat) : List Node → List Node
  | [] => []
  | c :: cs =>
    commentsBetween chars p c.start (c.start - p) ++
      withComments chars c :: childrenWithComments chars c.stop cs

end

/-- The tree of a source. -/
def parse (dialect : Dialect) (source : String) : Tree :=
  let chars := source.toList.toArray
  let top := topNodes ⟨chars, dialect⟩
  let last := (top.1.getLast?.map Node.stop).getD 0
  let children := childrenWithComments chars 0 top.1 ++
    commentsBetween chars last chars.size (chars.size - last)
  { source := chars
    root := .mk .program none 0 chars.size children
    flawed := top.2 }

end ComponentCatalog.Syntax
