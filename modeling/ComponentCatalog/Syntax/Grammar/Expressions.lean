import ComponentCatalog.Syntax.Grammar.Rule

/-!
# Expressions

An operand is a primary expression followed by properties, indices, calls and
the like; unary operators stand in front of operands and binary operators
between them. Binary operators are read with a stack of the operators that
still wait for their right side, so that a long chain needs no deep recursion.

Two operators do not fit that order. `as` and `satisfies` take everything on
their left that is not the right side of a power, and their right side is a
type. An assignment takes the single operand on its left, wherever that stands,
and everything on its right.

An arrow function is tried before anything else that begins with a bracket or
a name, because its parameter list reads like a bracketed expression up to the
arrow.
-/

namespace ComponentCatalog.Syntax.Parse

/-! ## Bracketed lists -/

/-- Reads a spread or an expression. -/
def spreadOrExpression (g : Grammar) : Parse Node := do
  if ← looksAt "..." then
    let dots ← mark "..."
    return branch .expression [dots, ← g (.expression .bracketed)]
  else g (.expression .bracketed)

/-- Reads expressions with commas up to a closing bracket; places between two
commas may be empty. -/
def expressionList (g : Grammar) (close : String) : Parse (List Node) :=
  manyUntil (looksAt close) do
    if ← looksAt "," then return [← mark ","]
    else
      let e ← spreadOrExpression g
      let comma ← if ← looksAt close then pure [] else pure [← mark ","]
      return e :: comma

/-- Reads the arguments of a call. -/
def callArguments (g : Grammar) : Parse Node := do
  let l ← mark "("
  let es ← expressionList g ")"
  let r ← mark ")"
  return (branch .arguments (l :: es ++ [r])).withRole .arguments

/-- Reads an array literal. -/
def arrayLiteral (g : Grammar) : Parse Node := do
  let l ← mark "["
  let es ← expressionList g "]"
  let r ← mark "]"
  return branch .array (l :: es ++ [r])

/-- Reads an expression in round brackets. -/
def parenthesized (g : Grammar) : Parse Node := do
  let l ← mark "("
  let e ← g (.sequence .bracketed)
  let t ← if ← looksAt ":" then pure [← typeClause g .bracketed] else pure []
  let r ← mark ")"
  return branch .parenthesizedExpression ([l, e] ++ t ++ [r])

/-! ## Objects -/

/-- Whether the next token can begin the name of a property. -/
def propertyNameAhead : Parse Bool := do
  match ← peek with
  | none => return false
  | some c =>
    if "'\"[#".toList.contains c || c.isDigit then return true
    else return (← wordAhead) != ""

/-- Reads a method of an object. -/
def objectMethod (g : Grammar) : Parse Node := do
  let ms ← many do
    let w ← wordAhead
    guard (["async", "get", "set", "static", "public", "private", "protected",
      "readonly", "override"].contains w)
    let m ← word w
    guard ((← propertyNameAhead) || (← looksAt "*"))
    return [m]
  let star ← maybe (mark "*")
  let x ← propertyName g
  let q ← maybe (mark "?")
  guard ((← looksAt "(") || (← looksAt "<"))
  let sig ← signature g .bracketed
  let b ← g .block
  return branch .methodDefinition
    (ms ++ star ++ [x.withRole .name] ++ q ++ sig ++ [b.withRole .body])

/-- Reads a property of an object with its value. -/
def objectPair (g : Grammar) : Parse Node := do
  let k ← propertyName g
  let colon ← mark ":"
  let v ← g (.expression .bracketed)
  return branch .pair [k.withRole .key, colon, v.withRole .value]

/-- Reads a property that is named like the variable it takes its value from.
A default value makes it a pattern. -/
def objectShorthand (g : Grammar) : Parse Node := do
  let x ← name .shorthandProperty
  match ← maybeAll (initializer g .bracketed) with
  | [] => return x
  | v => return branch .bindingPattern (x :: v)

/-- Reads a member of an object, deciding by what follows its name. -/
def objectMember (g : Grammar) : Parse Node := do
  if ← looksAt "..." then spreadOrExpression g
  else if ← succeeds (do let _ ← propertyName g; mark ":") then objectPair g
  else objectMethod g <|> objectShorthand g

/-- Reads an object literal. -/
def objectLiteral (g : Grammar) : Parse Node := do
  let l ← mark "\x7b"
  let ms ← manyUntil (looksAt "\x7d") do
    if ← looksAt "," then return [← mark ","]
    else
      let m ← objectMember g
      let comma ← if ← looksAt "\x7d" then pure [] else pure [← mark ","]
      return m :: comma
  let r ← mark "\x7d"
  return branch .object (l :: ms ++ [r])

/-! ## Functions -/

/-- Reads a function, with or without a name. -/
def functionPhrase (g : Grammar) (kind : Kind) (c : TypeContext) : Parse Node := do
  let a ← maybe (word "async")
  let f ← word "function"
  let star ← maybe (mark "*")
  let x ← if ← looksAt "(" then pure []
    else if ← looksAt "<" then pure []
    else pure [(← name .identifier).withRole .name]
  let sig ← signature g c
  let b ← g .block
  return branch kind (a ++ [f] ++ star ++ x ++ sig ++ [b.withRole .body])

/-- Reads an arrow function up to its arrow. -/
def arrowHead (g : Grammar) (c : Context) : Parse (List Node) :=
  speculate (if c.arrowType then .typedArrow else .arrow) do
    asynchronous <|> plain
where
  /-- The parameters and the arrow. -/
  plain : Parse (List Node) :=
    if c.arrowType then single <|> full (do
      if ← looksAt ":" then
        return [(← resultClause g .bracketed).withRole .returnType]
      else return [])
    else single <|> full (return [])
  /-- One parameter without brackets. -/
  single : Parse (List Node) := do
    let x ← name .identifier
    return [x, ← mark "=>"]
  /-- A parameter list, with type parameters before it and a result after. -/
  full (result : Parse (List Node)) : Parse (List Node) := do
    let tps ← if ← looksAt "<" then pure [← g .typeParameters] else pure []
    let ps ← g .parameters
    let t ← result
    return tps ++ [ps.withRole .parameters] ++ t ++ [← mark "=>"]
  /-- A head after the word `async`. -/
  asynchronous : Parse (List Node) := do
    let a ← word "async"
    return a :: (← plain)

/-- Whether an arrow function can begin at the next token. -/
def arrowAhead : Parse Bool := do
  match ← peek with
  | some '(' => return true
  | some '<' => return true
  | _ =>
    let w ← wordAhead
    if w == "" then return false
    else if w == "async" then return true
    else succeeds (do let _ ← name .identifier; mark "=>")

/-! ## Primary expressions -/

/-- The words that cannot be variables. -/
def reservedWords : List String :=
  ["in", "instanceof", "case", "default", "else", "catch", "finally", "extends", "if", "for",
    "while", "do", "switch", "try", "return", "throw", "break", "continue", "var", "const",
    "export", "enum", "with", "debugger"]

/-- Reads a class in an expression, with its decorators. -/
def classPhrase (g : Grammar) : Parse Node := do
  let ds ← many do
    guard (← looksAt "@")
    return [← g .decorator]
  let c ← g (.classTail false)
  if ds.isEmpty then return c else return branch c.kind (ds ++ c.children)

/-- Reads an expression that begins with a word. -/
def wordPrimary (g : Grammar) (w : String) : Parse Node := do
  match w with
  | "function" => functionPhrase g .expression .bracketed
  | "class" => classPhrase g
  | "async" =>
    (do
      guard (← succeeds (do
        let _ ← word "async"
        guard (!(← lineEndAhead))
        word "function"))
      functionPhrase g .expression .bracketed)
    <|> name .identifier
  | w =>
    if ["this", "super", "true", "false", "null", "undefined", "import"].contains w then
      return branch .expression [← name (.token w)]
    else if reservedWords.contains w then fail
    else name .identifier

/-- Reads an opening angle bracket at the start of an operand: an element
literal or a type assertion, by the dialect. -/
def anglePrimary (g : Grammar) (c : Context) : Parse Node := do
  match (← read).dialect with
  | .tsx => g .element
  | .typescript =>
    let ts ← g .typeArguments
    return branch .expression [ts, ← g (.operand c)]

/-- Reads a primary expression. -/
def primary (g : Grammar) (c : Context) : Parse Node := do
  let w ← wordAhead
  if w != "" then wordPrimary g w
  else
    match ← peek with
    | none => fail
    | some '(' => parenthesized g
    | some '[' => arrayLiteral g
    | some '\x7b' => objectLiteral g
    | some '`' => g .template
    | some '\'' => stringLiteral
    | some '"' => stringLiteral
    | some '/' => regexLiteral
    | some '<' => anglePrimary g c
    | some '@' => classPhrase g
    | some '#' => privateName
    | some _ => number

/-! ## What follows a primary expression -/

/-- A property of an object. -/
def memberOf (object : Node) (marks : List Node) (property : Node) : Node :=
  branch .memberExpression (object :: marks ++ [property.withRole .property])

/-- Reads the name of a property after a dot. -/
def dottedName : Parse Node :=
  privateName <|> name .propertyIdentifier

/-- Reads an index in square brackets. -/
def indexOf (g : Grammar) (object : Node) (marks : List Node) : Parse Node := do
  let l ← mark "["
  let e ← g (.sequence .bracketed)
  let r ← mark "]"
  return branch .expression (object :: marks ++ [l, e, r])

/-- Reads the arguments of a call of `f`. -/
def callOf (g : Grammar) (f : Node) (marks : List Node) : Parse Node := do
  let args ← callArguments g
  return branch .callExpression (f.withRole .function :: marks ++ [args])

/-- Reads a template that `f` is called with. -/
def templateCall (g : Grammar) (f : Node) : Parse Node := do
  let t ← g .template
  return branch .callExpression [f.withRole .function, t.withRole .arguments]

/-- Reads what follows an optional dot. -/
def optionalChain (g : Grammar) (e : Node) : Parse Node := do
  let dot ← mark "?."
  match ← peek with
  | some '(' => callOf g e [dot]
  | some '[' => indexOf g e [dot]
  | some '<' =>
    let ts ← g .typeArguments
    callOf g e [dot, ts]
  | some '`' =>
    let t ← g .template
    return branch .callExpression [e.withRole .function, dot, t.withRole .arguments]
  | _ => return memberOf e [dot] (← dottedName)

/-- Reads type arguments in an expression. They are type arguments only if a
call, a template, or the end of the operand follows. -/
def genericSuffix (g : Grammar) (f : Node) : Parse Node := do
  let (ts, next) ← speculate .generic do
    let ts ← g .typeArguments
    let next ← peek
    match next with
    | none => pure ()
    | some c => guard ("(`)],;:\x7d.?".toList.contains c || (← lineEndAhead))
    return (ts, next)
  match next with
  | some '(' => callOf g f [ts]
  | some '`' =>
    let t ← g .template
    return branch .callExpression [f.withRole .function, ts, t.withRole .arguments]
  | _ => return branch .expression [f, ts]

/-- Reads one step of what may follow an expression, if there is one. -/
def suffixStep (g : Grammar) (c : Context) (e : Node) : Parse (Option Node) := do
  let (p, crossed) ← ahead
  let chars := (← read).chars
  let next := chars[p + 1]?
  match chars[p]? with
  | some '.' =>
    -- three dots begin a spread
    if next == some '.' then return none
    else
      let dot ← mark "."
      return some (memberOf e [dot] (← dottedName))
  | some '?' =>
    -- `a?.5:b` is a conditional
    if next == some '.' && !((chars[p + 2]?.map Char.isDigit).getD false) then
      return some (← optionalChain g e)
    else return none
  | some '[' => return some (← indexOf g e [])
  | some '(' => return some (← callOf g e [])
  | some '`' => return some (← templateCall g e)
  | some '!' =>
    if next == some '=' || (c.line && crossed) then return none
    else return some (branch .expression [e, ← mark "!"])
  | some '<' =>
    if next == some '<' || next == some '=' then return none
    else option (genericSuffix g e)
  | some '+' =>
    if next == some '+' && !(c.line && crossed) then
      return some (branch .expression [e, ← mark "++"])
    else return none
  | some '-' =>
    if next == some '-' && !(c.line && crossed) then
      return some (branch .expression [e, ← mark "--"])
    else return none
  | _ => return none

/-- Reads everything that follows an expression as part of the same operand. -/
def suffixes (g : Grammar) (c : Context) (e : Node) : (limit : Nat) → Parse Node
  | 0 => return e
  | limit + 1 => do
    match ← suffixStep g c e with
    | some e => suffixes g c e limit
    | none => return e

/-- Reads the properties and indices after the class of a `new` expression. -/
def constructorSuffixes (g : Grammar) (e : Node) : (limit : Nat) → Parse Node
  | 0 => return e
  | limit + 1 => do
    let p := (← ahead).1
    let chars := (← read).chars
    match chars[p]? with
    | some '.' =>
      let dot ← mark "."
      constructorSuffixes g (memberOf e [dot] (← dottedName)) limit
    | some '[' => constructorSuffixes g (← indexOf g e []) limit
    | some '`' => constructorSuffixes g (← templateCall g e) limit
    | some '!' =>
      if chars[p + 1]? == some '=' then return e
      else constructorSuffixes g (branch .expression [e, ← mark "!"]) limit
    | _ => return e

/-- Reads a `new` expression. Its class is reached through properties and
indices only, and its arguments may be left out. -/
def newPhrase (g : Grammar) (c : Context) : (limit : Nat) → Parse Node
  | 0 => fail
  | limit + 1 => do
    let n ← word "new"
    if ← looksAt "." then
      let dot ← mark "."
      return branch .expression [n, dot, ← name .propertyIdentifier]
    else
      let f ← if ← atWord "new" then newPhrase g c limit else primary g c
      let f ← constructorSuffixes g f limit
      let ts ← if ← looksAt "<" then
          maybe do
            let ts ← g .typeArguments
            match ← peek with
            | none => pure ()
            | some c => guard ("()],;:\x7d.?".toList.contains c || (← lineEndAhead))
            return ts
        else pure []
      let args ← if ← looksAt "(" then pure [← callArguments g] else pure []
      return branch .expression ([n, f] ++ ts ++ args)

/-! ## Operands -/

/-- The operators that assign and compute at once, longest first. -/
def assigningOperators : List String :=
  [">>>=", "**=", "<<=", ">>=", "&&=", "||=", "??=", "+=", "-=", "*=", "/=", "%=", "&=", "^=",
    "|="]

/-- The first of the given operators that is the next token. -/
def firstMark (ops : List String) : Parse (Option String) := do
  let p := (← ahead).1
  let chars := (← read).chars
  return ops.find? fun op => spells chars p op.toList

/-- Reads an assignment to an operand, if one follows. -/
def assignmentTo (g : Grammar) (c : Context) (left : Node) : Parse Node := do
  if (← looksAt "=") && !(← looksAt "==") && !(← looksAt "=>") then
    let eq ← mark "="
    let right ← g (.expression c)
    return branch .assignmentExpression [left.withRole .left, eq, right.withRole .right]
  else
    match ← firstMark assigningOperators with
    | some op =>
      let m ← mark op
      return branch .expression [left, m, ← g (.expression c)]
    | none => return left

/-- Reads the type after `as` or `satisfies`. -/
def assertedType (g : Grammar) (c : Context) : Parse Node := do
  if ← atWord "const" then name (.token "const")
  else g (.type ⟨c.line, true⟩)

/-- Whether `as` or `satisfies` follows as an operator. -/
def assertionAhead (c : Context) : Parse Bool := do
  let w ← wordAhead
  return (w == "as" || w == "satisfies") && !(c.line && (← lineEndAhead))

/-- Reads one assertion of the type of an expression. -/
def assertionOf (g : Grammar) (c : Context) (e : Node) : Parse Node := do
  if ← atWord "as" then
    let a ← word "as"
    return branch .asExpression [e, a, ← assertedType g c]
  else
    let a ← word "satisfies"
    return branch .satisfiesExpression [e, a, ← assertedType g c]

/-- Reads the assertions after an expression. -/
def assertions (g : Grammar) (c : Context) (e : Node) : (limit : Nat) → Parse Node
  | 0 => return e
  | limit + 1 => do
    if ← assertionAhead c then assertions g c (← assertionOf g c e) limit
    else return e

/-- Whether the rest of a phrase is empty: nothing that begins an expression
follows on the same line. -/
def phraseEnds (c : Context) : Parse Bool := do
  match ← peek with
  | none => return true
  | some ch => return ")]\x7d,;:".toList.contains ch || (c.line && (← lineEndAhead))

/-- Reads a prefix operator and its operand. -/
def unary (g : Grammar) (c : Context) (op : Parse Node) : Parse Node := do
  let m ← op
  return branch .expression [m, ← g (.operand c)]

/-- Reads the body of an arrow function whose head has been read. With a block
for its body the function is an operand like any other; an expression after the
arrow reaches as far as it can. -/
def arrowBody (g : Grammar) (c : Context) (head : List Node) : Parse Node := do
  if ← looksAt "\x7b" then
    let b ← g .block
    suffixes g c (branch .arrowFunction (head ++ [b.withRole .body])) ((← read).chars.size + 1)
  else
    let b ← g (.expression c)
    return branch .arrowFunction (head ++ [b.withRole .body])

/-- Reads an operand of an operator. -/
def operandRule (g : Grammar) (c : Context) : Parse Node := do
  match ← wordAhead with
  | "typeof" => unary g c (word "typeof")
  | "void" => unary g c (word "void")
  | "delete" => unary g c (word "delete")
  | "await" =>
    -- `await` is a name where nothing follows that could be waited for
    if ← succeeds (do
        let _ ← word "await"
        guard (!(← looksAt "=>") && !(← phraseEnds c)) ) then
      let a ← word "await"
      let e ← g (.operand c)
      return branch .expression [a, ← assertions g c e ((← read).chars.size + 1)]
    else plain
  | "yield" =>
    let y ← word "yield"
    if ← looksAt "*" then
      let star ← mark "*"
      return branch .expression [y, star, ← g (.expression c)]
    else if ← phraseEnds c then return branch .expression [y]
    else return branch .expression [y, ← g (.expression c)]
  | "new" =>
    let n ← newPhrase g c ((← read).chars.size + 1)
    assignmentTo g c (← suffixes g c n ((← read).chars.size + 1))
  | _ =>
    match ← peek with
    | some '!' => unary g c (mark "!")
    | some '~' => unary g c (mark "~")
    | some '-' => if ← looksAt "--" then unary g c (mark "--") else unary g c (mark "-")
    | some '+' => if ← looksAt "++" then unary g c (mark "++") else unary g c (mark "+")
    | _ =>
      match ← if ← arrowAhead then option (arrowHead g c) else pure none with
      | some head => arrowBody g c head
      | none => plain
where
  /-- A primary expression with all that follows it. -/
  plain : Parse Node := do
    let e ← primary g c
    assignmentTo g c (← suffixes g c e ((← read).chars.size + 1))

/-! ## Binary operators -/

/-- The binary operators with their ranks, longest spelling first. An operator
of a higher rank binds more tightly. -/
def binaryOperators : List (String × Nat) :=
  [(">>>", 9), ("===", 7), ("!==", 7), ("**", 12), ("&&", 3), ("||", 2), ("??", 1), ("<<", 9),
    (">>", 9), ("<=", 8), (">=", 8), ("==", 7), ("!=", 7), ("<", 8), (">", 8), ("+", 10),
    ("-", 10), ("*", 11), ("/", 11), ("%", 11), ("&", 6), ("^", 5), ("|", 4)]

/-- The operators that compare; an equals sign after another operator makes an
assignment of it. -/
def comparisons : List String :=
  ["===", "!==", "<=", ">=", "==", "!="]

/-- The binary operator that is the next token, with its rank. -/
def binaryOperatorAhead (c : Context) : Parse (Option (String × Nat)) := do
  match ← wordAhead with
  | "instanceof" => return some ("instanceof", 8)
  | "in" => return if c.membership then some ("in", 8) else none
  | _ =>
    let p := (← ahead).1
    let chars := (← read).chars
    match binaryOperators.find? fun (op, _) => spells chars p op.toList with
    | none => return none
    | some (op, rank) =>
      let next := chars[p + op.length]?
      if next == some '=' && !comparisons.contains op then return none
      else if (op == "+" || op == "-") && next == op.toList.head? then return none
      else return some (op, rank)

/-- An operator with its left side, waiting for its right side. -/
structure Pending where
  left : Node
  operator : Node
  rank : Nat

/-- The expression an operator makes with its right side. -/
def Pending.close (p : Pending) (right : Node) : Node :=
  branch .binaryExpression
    [p.left.withRole .left, p.operator.withRole .operator, right.withRole .right]

/-- Gives a right side to the waiting operators that satisfy a test, from the
latest on. -/
def closeWhile (test : Pending → Bool) : List Pending → Node → List Pending × Node
  | [], e => ([], e)
  | p :: ps, e => if test p then closeWhile test ps (p.close e) else (p :: ps, e)

/-- The rank of the power operator, the only one that groups to the right. -/
def powerRank : Nat := 12

/-- Reads the operators and operands after an operand. -/
def binaryFrom (g : Grammar) (c : Context) (waiting : List Pending) (e : Node) :
    (limit : Nat) → Parse Node
  | 0 => fail
  | limit + 1 => do
    if ← assertionAhead c then
      -- everything on the left is asserted, up to a power
      let (waiting, e) := closeWhile (fun p => p.rank != powerRank) waiting e
      binaryFrom g c waiting (← assertionOf g c e) limit
    else
      match ← binaryOperatorAhead c with
      | none => return (closeWhile (fun _ => true) waiting e).2
      | some (op, rank) =>
        let (waiting, e) := closeWhile
          (fun p => rank < p.rank || (rank == p.rank && rank != powerRank)) waiting e
        let m ← if op == "in" || op == "instanceof" then word op else mark op
        let right ← g (.operand c)
        binaryFrom g c (⟨e, m, rank⟩ :: waiting) right limit

/-- Whether the question mark of a conditional follows. -/
def conditionalAhead : Parse Bool := do
  let p := (← ahead).1
  let chars := (← read).chars
  return chars[p]? == some '?' && chars[p + 1]? != some '?' &&
    !(chars[p + 1]? == some '.' && !((chars[p + 2]?.map Char.isDigit).getD false))

/-- Reads one expression. Between the marks of a conditional, an arrow function
with a result type is given up when its colon turns out to be the second mark. -/
def expressionRule (g : Grammar) (c : Context) : Parse Node := do
  let first ← g (.operand c)
  let e ← binaryFrom g c [] first ((← read).chars.size + 1)
  if ← conditionalAhead then
    let q ← mark "?"
    let (yes, colon) ← branchOf true <|> branchOf false
    let no ← g (.expression c)
    return branch .expression [e, q, yes, colon, no]
  else return e
where
  /-- The first branch of a conditional and the mark after it. -/
  branchOf (arrowType : Bool) : Parse (Node × Node) := do
    let yes ← g (.expression ⟨false, true, arrowType⟩)
    let colon ← mark ":"
    return (yes, colon)

/-- Reads one or more expressions with commas between them. -/
def sequenceRule (g : Grammar) (c : Context) : Parse Node := do
  match ← separated (do return [← g (.expression c)]) (mark ",") with
  | [e] => return e
  | es => return branch .expression es

/-- Reads a template. -/
def templateRule (g : Grammar) : Parse Node :=
  templateOf .templateString (g (.sequence .bracketed))

end ComponentCatalog.Syntax.Parse
