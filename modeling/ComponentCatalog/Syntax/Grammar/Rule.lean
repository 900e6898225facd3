import ComponentCatalog.Syntax.Lexeme

/-!
# The phrases of the grammar

Types, patterns, expressions, classes and statements contain one another. Each
of their modules is written against a `Grammar`, a reader for every phrase,
instead of calling the other modules: the recursion is tied once, over the
length of the source, when all the phrases are there.

A phrase is read in a context. Two facts matter for an expression besides the
dialect: whether a line end may close it, which it may in a statement but not
between brackets, and whether an arrow function in it may state its result
type, which is undecided between the two marks of a conditional. In the head
of a loop, `in` is not an operator. For a type, a line end may close it too, and
where the type stands inside an expression, `||` and `&&` belong to the
expression and are not doubled type operators.
-/

namespace ComponentCatalog.Syntax

/-- Where an expression is read. -/
structure Context where
  /-- A line end may close the expression. -/
  line : Bool
  /-- The word `in` is an operator. -/
  membership : Bool
  /-- An arrow function may state its result type. -/
  arrowType : Bool

/-- Between brackets, where nothing but the closing bracket ends an
expression. -/
def Context.bracketed : Context := ⟨false, true, true⟩

/-- In a statement or a member, which a line end may close. -/
def Context.open : Context := ⟨true, true, true⟩

/-- Where a type is read. -/
structure TypeContext where
  /-- A line end may close the type. -/
  line : Bool
  /-- The type is followed by the operators of an expression. -/
  operand : Bool

/-- Between brackets, where a line end closes no type. -/
def TypeContext.bracketed : TypeContext := ⟨false, false⟩

/-- In a declaration or a member, which a line end may close. -/
def TypeContext.open : TypeContext := ⟨true, false⟩

/-- The phrases that contain one another. -/
inductive Rule where
  | statement
  /-- A block of statements in braces. -/
  | block
  /-- One expression, without a comma. -/
  | expression (c : Context)
  /-- One or more expressions with commas between them. -/
  | sequence (c : Context)
  /-- An operand of an operator. -/
  | operand (c : Context)
  /-- A type. -/
  | type (c : TypeContext)
  /-- A type that is neither a function type nor a union. -/
  | typeOperand (c : TypeContext)
  | typeArguments
  | typeParameters
  /-- The binding pattern of a variable or parameter. -/
  | pattern
  /-- A parameter list in round brackets. -/
  | parameters
  /-- The members of a class, in braces. -/
  | classBody
  /-- The members of an interface or of an object type, in braces. -/
  | interfaceBody
  /-- A class, with its decorators read already. -/
  | classTail (statement : Bool)
  | decorator
  | template
  /-- An element literal. -/
  | element

/-- A reader for every phrase. -/
abbrev Grammar := Rule → Parse Node

namespace Parse

/-- Reads the pieces of a template after its opening back-quote: runs of plain
characters, escape sequences, and substitutions read by the given reader. -/
def templatePieces (substitution : Parse Node) (done : List Node) :
    (limit : Nat) → Parse (List Node)
  | 0 => fail
  | limit + 1 => do
    let start ← here
    let chars := (← read).chars
    match chars[start]? with
    | none => fail
    | some '`' =>
      goTo (start + 1)
      let close ← leafFrom (.token "`") start
      return (close :: done).reverse
    | some '\\' =>
      -- the character after a backslash is taken along, whichever it is
      guard (start + 1 < chars.size)
      goTo (start + 2)
      let escape ← leafFrom .templateEscape start
      templatePieces substitution (escape :: done) limit
    | some c =>
      if c == '$' && chars[start + 1]? == some '\x7b' then
        let piece ← substitution
        templatePieces substitution (piece :: done) limit
      else
        goTo (textEnd chars (start + 1) chars.size)
        let piece ← leafFrom .templateText start
        templatePieces substitution (piece :: done) limit
where
  /-- The end of a run of plain characters. -/
  textEnd (chars : Array Char) (p : Nat) : (limit : Nat) → Nat
    | 0 => p
    | limit + 1 =>
      match chars[p]? with
      | none => p
      | some c =>
        if c == '`' || c == '\\' || (c == '$' && chars[p + 1]? == some '\x7b') then p
        else textEnd chars (p + 1) limit

/-- Reads a template whose substitutions hold a given phrase. -/
def templateOf (kind : Kind) (inner : Parse Node) : Parse Node := do
  let quote ← mark "`"
  let pieces ← templatePieces (do
    let l ← mark "$\x7b"
    let e ← inner
    let r ← mark "\x7d"
    return branch .templateSubstitution [l, e, r]) [] ((← read).chars.size + 1)
  return branch kind (quote :: pieces)

/-- Reads a type annotation. -/
def typeClause (g : Grammar) (c : TypeContext) : Parse Node := do
  let colon ← mark ":"
  let t ← g (.type c)
  return branch .typeClause [colon, t]

/-- Reads what a function tests or asserts of one of its arguments. -/
def predicate (g : Grammar) (c : TypeContext) : Parse (List Node) :=
  asserting <|> testing
where
  /-- A test, `x is T`. -/
  testing : Parse (List Node) := do
    let x ← name .identifier
    let is ← word "is"
    let t ← g (.type c)
    return [x, is, t]
  /-- An assertion, `asserts x` or `asserts x is T`. -/
  asserting : Parse (List Node) := do
    let a ← word "asserts"
    guard (!(← lineEndAhead))
    guard ((← wordAhead) != "is")
    (do return a :: (← testing)) <|> (do return [a, ← name .identifier])

/-- Reads the result type of a function: a plain type, or a predicate, which is
an annotation of another kind. -/
def resultClause (g : Grammar) (c : TypeContext) : Parse Node :=
  (do
    let colon ← mark ":"
    let p ← predicate g c
    return branch .predicateClause (colon :: p))
  <|> typeClause g c

/-- Reads the signature of a function: type parameters, parameters and result
type, of which only the parameters must be there. -/
def signature (g : Grammar) (c : TypeContext) : Parse (List Node) := do
  let tps ← if ← looksAt "<" then maybe (g .typeParameters) else pure []
  let ps ← g .parameters
  let result ← if ← looksAt ":" then
      pure [(← resultClause g c).withRole .returnType]
    else pure []
  return tps ++ [ps.withRole .parameters] ++ result

/-- Reads a computed name, an expression in square brackets. -/
def computedName (g : Grammar) : Parse Node := do
  let l ← mark "["
  let e ← g (.expression .bracketed)
  let r ← mark "]"
  return branch .computedName [l, e, r]

/-- Reads the name of a property, in any of its spellings. -/
def propertyName (g : Grammar) : Parse Node := do
  match ← peek with
  | none => fail
  | some c =>
    if c == '\'' || c == '"' then stringLiteral
    else if c == '[' then computedName g
    else if c == '#' then privateName
    else if c.isDigit || c == '.' then number
    else name .propertyIdentifier

/-- Reads the value after an equals sign. -/
def initializer (g : Grammar) (c : Context) : Parse (List Node) := do
  let eq ← markNotBefore "=" ['=', '>']
  let v ← g (.expression c)
  return [eq, v.withRole .value]

end Parse

end ComponentCatalog.Syntax
