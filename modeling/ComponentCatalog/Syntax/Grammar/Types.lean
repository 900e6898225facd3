import ComponentCatalog.Syntax.Grammar.Rule

/-!
# Types

A type is a conditional over unions over intersections over operands. Operators
may be written before the first operand as well as between two, and, outside an
expression, also twice in a row, since `||` is then nothing but two bars. A
function type is an operand whose result reaches as far to the right as it can:
`() => A | B` returns a union.

Unions nest to the left, one node for each bar.
-/

namespace ComponentCatalog.Syntax.Parse

/-- Whether a bar or an ampersand that is a type operator is the next token.
Inside an expression, a doubled or an assigning operator is not one. -/
def typeOperatorAhead (c : TypeContext) (op : Char) : Parse Bool := do
  let p := (← ahead).1
  let chars := (← read).chars
  if chars[p]? != some op then return false
  else if c.operand then
    return chars[p + 1]? != some op && chars[p + 1]? != some '='
  else return true

/-- Reads operands joined by an operator into a node that nests to the left;
an operator may come before the first operand. -/
def operatorType (g : Grammar) (c : TypeContext) (kind : Kind) (op : Char)
    (operand : Parse Node) : Parse Node := do
  let first ← if ← typeOperatorAhead c op then pure [] else pure [← operand]
  let rec loop (left : List Node) : (limit : Nat) → Parse (List Node)
    | 0 => return left
    | limit + 1 => do
      if ← typeOperatorAhead c op then
        let m ← mark (String.singleton op)
        let right ← repeated m limit
        loop [branch kind (left ++ right)] limit
      else return left
  match ← loop first ((← read).chars.size + 1) with
  | [t] => return t
  | _ => fail
where
  /-- What follows an operator: an operand, or the operator again. -/
  repeated (m : Node) : (limit : Nat) → Parse (List Node)
    | 0 => fail
    | limit + 1 => do
      if ← typeOperatorAhead c op then
        let again ← mark (String.singleton op)
        let right ← repeated again limit
        return [m, branch kind right]
      else if ← typeOperatorAhead c '|' then return [m, ← g (.type c)]
      else return [m, ← operand]

/-- Reads a type. -/
def typeRule (g : Grammar) (c : TypeContext) : Parse Node := do
  let t ← operatorType g c .unionType '|' <|
    operatorType g c .typeExpression '&' (g (.typeOperand c))
  if (← atWord "extends") && !(c.line && (← lineEndAhead)) then
    let inner := { c with line := false }
    let e ← word "extends"
    let right ← g (.type inner)
    let q ← mark "?"
    let yes ← g (.type inner)
    let colon ← mark ":"
    let no ← g (.type c)
    return branch .typeExpression [t, e, right, q, yes, colon, no]
  else return t

/-- Reads the arguments of a generic type. -/
def typeArgumentsRule (g : Grammar) : Parse Node := do
  let l ← mark "<"
  let ts ← separated (do return [← g (.type .bracketed)]) (mark ",")
  let comma ← maybe (mark ",")
  let r ← mark ">"
  return branch .typeArguments (l :: ts ++ comma ++ [r])

/-- Reads the parameters of a generic declaration. -/
def typeParametersRule (g : Grammar) : Parse Node := do
  let l ← mark "<"
  let ps ← separated (do return [← parameter]) (mark ",")
  let comma ← maybe (mark ",")
  let r ← mark ">"
  return branch .typeParameters (l :: ps ++ comma ++ [r])
where
  /-- One parameter, with its bound and its default. -/
  parameter : Parse Node := do
    let const ← modifier "const"
    let ins ← modifier "in"
    let outs ← modifier "out"
    let x ← name .typeIdentifier
    let bound ← maybeAll do
      let e ← word "extends" <|> mark ":"
      return [e, ← g (.type .bracketed)]
    let default ← maybeAll do
      let eq ← mark "="
      return [eq, ← g (.type .bracketed)]
    return branch .clause (const ++ ins ++ outs ++ [x.withRole .name] ++ bound ++ default)
  /-- A word in front of a name. -/
  modifier (w : String) : Parse (List Node) :=
    maybe do
      let m ← word w
      guard ((← wordAhead) != "" && (← wordAhead) != "extends")
      return m

/-- Reads the result of a function type. -/
def functionResult (g : Grammar) (c : TypeContext) : Parse (List Node) :=
  predicate g c <|> (do return [← g (.type c)])

/-- Reads a function type. -/
def functionType (g : Grammar) (c : TypeContext) : Parse Node := do
  let (tps, ps, arrow) ← speculate .functionType do
    let tps ← if ← looksAt "<" then pure [← g .typeParameters] else pure []
    let ps ← g .parameters
    let arrow ← mark "=>"
    return (tps, ps, arrow)
  let result ← functionResult g c
  return branch .functionType (tps ++ [ps.withRole .parameters, arrow] ++ result)

/-- Reads the type of a constructor. -/
def constructorType (g : Grammar) (c : TypeContext) : Parse Node := do
  let abs ← if ← atWord "abstract" then pure [← word "abstract"] else pure []
  let new ← word "new"
  let tps ← if ← looksAt "<" then pure [← g .typeParameters] else pure []
  let ps ← g .parameters
  let arrow ← mark "=>"
  let t ← g (.type c)
  return branch .typeExpression (abs ++ [new] ++ tps ++ [ps, arrow, t])

/-- Reads a type in round brackets. -/
def parenthesizedType (g : Grammar) : Parse Node := do
  let l ← mark "("
  let t ← g (.type .bracketed)
  let r ← mark ")"
  return branch .parenthesizedType [l, t, r]

/-- Reads a tuple type, whose members may be labelled, optional or spread. -/
def tupleType (g : Grammar) : Parse Node := do
  let l ← mark "["
  let ms ← manyUntil (looksAt "]") do
    if ← looksAt "," then return [← mark ","]
    else
      let m ← labelled <|> plain
      let comma ← if ← looksAt "]" then pure [] else pure [← mark ","]
      return m :: comma
  let r ← mark "]"
  return branch .typeExpression (l :: ms ++ [r])
where
  /-- A member with a label. -/
  labelled : Parse Node := do
    let dots ← maybe (mark "...")
    let x ← name .identifier
    let q ← maybe (mark "?")
    let t ← typeClause g .bracketed
    return branch .clause (dots ++ [x] ++ q ++ [t])
  /-- A member without a label. -/
  plain : Parse Node := do
    let dots ← maybe (mark "...")
    let t ← g (.type .bracketed)
    let q ← maybe (mark "?")
    return branch .clause (dots ++ [t] ++ q)

/-- Reads what `typeof` asks about: a name reached through properties, or an
import. -/
def typeQuery (g : Grammar) : Parse Node := do
  let t ← word "typeof"
  let x ← if ← atWord "import" then importType g else pure [← name .identifier]
  let path ← many do
    let dot ← mark "." <|> mark "?."
    let x ← privateName <|> name .propertyIdentifier
    return [dot, x]
  let args ← if ← looksAt "<" then maybe (g .typeArguments) else pure []
  return branch .typeExpression (t :: x ++ path ++ args)
where
  /-- The module of an import. -/
  importType (g : Grammar) : Parse (List Node) := do
    let i ← word "import"
    let l ← mark "("
    let s ← g (.expression .bracketed)
    let r ← mark ")"
    return [i, l, s, r]

/-- Reads a name, a name in a namespace, or either with type arguments. -/
def namedType (g : Grammar) (first : Parse (List Node)) : Parse Node := do
  let head ← first
  let path ← many do
    let dot ← mark "."
    let x ← name .typeIdentifier
    return [dot, x]
  let t := match head, path with
    | [x], [] => x
    | _, _ => branch .typeExpression (head ++ path)
  if ← looksAt "<" then
    match ← maybe (g .typeArguments) with
    | [] => return t
    | args => return branch .genericType (t.withRole .name :: args)
  else return t

/-- The words that are types by themselves. -/
def plainTypes : List String :=
  ["any", "number", "boolean", "string", "symbol", "void", "unknown", "never", "object",
    "this", "null", "undefined", "true", "false", "const"]

/-- Reads a type that begins with a word. -/
def wordType (g : Grammar) (c : TypeContext) (w : String) : Parse Node := do
  match w with
  | "new" => constructorType g c
  | "abstract" => constructorType g c
  | "keyof" =>
    let k ← word "keyof"
    return branch .typeExpression [k, ← g (.typeOperand c)]
  | "readonly" =>
    let k ← word "readonly"
    return branch .typeExpression [k, ← g (.typeOperand c)]
  | "unique" =>
    let k ← word "unique"
    return branch .typeExpression [k, ← word "symbol"]
  | "infer" =>
    let k ← word "infer"
    let x ← name .typeIdentifier
    let bound ← maybeAll do
      let e ← word "extends"
      return [e, ← g (.type { c with line := false })]
    return branch .typeExpression ([k, x] ++ bound)
  | "typeof" => typeQuery g
  | "import" => namedType g do
    let i ← word "import"
    let l ← mark "("
    let s ← g (.expression .bracketed)
    let r ← mark ")"
    return [i, l, s, r]
  | w =>
    if plainTypes.contains w then
      let t ← name (.token w)
      return branch .typeExpression [t]
    else namedType g do return [← name .typeIdentifier]

/-- Reads the brackets after a type: array types and look-ups. -/
def typeSuffixes (g : Grammar) (c : TypeContext) (t : Node) : (limit : Nat) → Parse Node
  | 0 => return t
  | limit + 1 => do
    if (← looksAt "[") && !(c.line && !c.operand && (← lineEndAhead)) then
      let l ← mark "["
      let index ← if ← looksAt "]" then pure [] else pure [← g (.type .bracketed)]
      let r ← mark "]"
      typeSuffixes g c (branch .typeExpression (t :: l :: index ++ [r])) limit
    else return t

/-- Reads a type that is neither a function type nor a union. -/
def typeOperandRule (g : Grammar) (c : TypeContext) : Parse Node := do
  let w ← wordAhead
  if w != "" then
    let t ← wordType g c w
    if w == "new" || w == "abstract" then return t
    else typeSuffixes g c t ((← read).chars.size + 1)
  else
    match ← peek with
    | none => fail
    | some '(' =>
      -- a parameter list reads like a bracketed type up to the arrow
      functionType g c <|> suffixed (parenthesizedType g)
    | some '<' => functionType g c
    | some '[' => suffixed (tupleType g)
    | some '\x7b' => suffixed (g .interfaceBody)
    | some '`' => suffixed (templateOf .typeExpression (g (.type .bracketed)))
    | some '\'' => suffixed literal
    | some '"' => suffixed literal
    | some '?' =>
      let q ← mark "?"
      return branch .typeExpression [q, ← g (.typeOperand c)]
    | some '*' => suffixed (do return branch .typeExpression [← mark "*"])
    | some '-' =>
      let m ← mark "-"
      suffixed (do return branch .typeExpression [m, ← number])
    | some '+' =>
      let m ← mark "+"
      suffixed (do return branch .typeExpression [m, ← number])
    | some _ => suffixed (do return branch .typeExpression [← number])
where
  /-- A string as a type. -/
  literal : Parse Node := do
    return branch .typeExpression [← stringLiteral]
  /-- A type with the brackets after it. -/
  suffixed (p : Parse Node) : Parse Node := do
    let t ← p
    typeSuffixes g c t ((← read).chars.size + 1)

end ComponentCatalog.Syntax.Parse
