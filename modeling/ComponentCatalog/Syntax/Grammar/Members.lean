import ComponentCatalog.Syntax.Grammar.Rule

/-!
# Classes, interfaces and their members

The members of a class are told apart by what follows their name: a parameter
list makes a method, and a body after it a method definition rather than a
signature; anything else makes a field. The words `static`, `get`, `readonly`
and the like are modifiers in front of a name, and names themselves when no name
follows them on the same line.

Members are separated by semicolons, by line ends, or by commas. In an
interface the same holds, except that nothing has a body.
-/

namespace ComponentCatalog.Syntax.Parse

/-- Whether the next token can begin the name of a member. -/
def memberNameAhead : Parse Bool := do
  match ← peek with
  | none => return false
  | some c =>
    if "'\"[#".toList.contains c || c.isDigit then return true
    else return (← wordAhead) != ""

/-- Reads a modifier of a member. A modifier that is also a name must have the
rest of the member on its own line. -/
def memberModifier : Parse Node := do
  let w ← wordAhead
  guard (["public", "private", "protected", "declare", "static", "override", "readonly",
    "abstract", "accessor", "async", "get", "set"].contains w)
  let m ← word w
  guard (w == "abstract" || w == "accessor" || !(← lineEndAhead))
  guard ((← memberNameAhead) || (← looksAt "*"))
  match w with
  | "public" => return branch .accessibilityModifier [m]
  | "private" => return branch .accessibilityModifier [m]
  | "protected" => return branch .accessibilityModifier [m]
  | "override" => return branch .overrideModifier [m]
  | _ => return m

/-- Reads the modifiers in front of a member's name. -/
def memberModifiers : Parse (List Node) := do
  let ms ← many do return [← memberModifier]
  let star ← maybe (mark "*")
  return ms ++ star

/-- Reads an index signature or the clause of a mapped type. -/
def indexSignature (g : Grammar) : Parse Node := do
  let sign ← maybe (mark "-" <|> mark "+")
  let ro ← maybe do
    let m ← word "readonly"
    guard (← looksAt "[")
    return m
  let l ← mark "["
  let x ← name .identifier
  let key ← keyType <|> mapped
  let r ← mark "]"
  let removed ← maybe (mark "-?" <|> mark "+?" <|> mark "?")
  let t ← if ← looksAt ":" then pure [← resultClause g .open] else pure []
  return branch .member (sign ++ ro ++ [l, x] ++ key ++ [r] ++ removed ++ t)
where
  /-- The type of the keys. -/
  keyType : Parse (List Node) := do
    let colon ← mark ":"
    return [colon, ← g (.type .bracketed)]
  /-- The keys of a mapped type, and how they are renamed. -/
  mapped : Parse (List Node) := do
    let i ← word "in"
    let t ← g (.type .bracketed)
    let renamed ← maybeAll do
      let a ← word "as"
      return [a, ← g (.type .bracketed)]
    return [i, t] ++ renamed

/-- Whether the next token begins the signature of a method. -/
def signatureAhead : Parse Bool := do
  return (← looksAt "(") || (← looksAt "<")

/-- Reads the end of a member. -/
def memberEnd : Parse (List Node) := do
  if ← looksAt "," then return [← mark ","] else statementEnd

/-- Reads a static block of a class. -/
def staticBlock (g : Grammar) : Parse Node := do
  let s ← word "static"
  let b ← g .block
  return branch .member [s, b]

/-- Reads a field, a method definition or a method signature, from its
modifiers on. Decorators belong to a field, and stand beside a method. -/
def classMember (g : Grammar) (decorators : List Node) : Parse (List Node) := do
  let ms ← memberModifiers
  let x ← propertyName g
  let sign ← maybe (mark "?" <|> markNotBefore "!" ['='])
  let named := ms ++ [x.withRole .name] ++ sign
  if ← signatureAhead then
    let sig ← signature g .open
    if ← looksAt "\x7b" then
      let b ← g .block
      let semi ← maybe (mark ";")
      return decorators ++ [branch .methodDefinition (named ++ sig ++ [b.withRole .body])] ++ semi
    else
      let kind := if ms.any (fun m => m.kind == .token "abstract") then Kind.member
        else .methodSignature
      let e ← memberEnd
      return decorators ++ [branch kind (named ++ sig)] ++ e
  else
    let t ← if ← looksAt ":" then
        pure [(← typeClause g .open).withRole .type]
      else pure []
    let v ← maybeAll (initializer g .open)
    let e ← memberEnd
    return branch .fieldDefinition (decorators ++ named ++ t ++ v) :: e

/-- Reads the members of a class. -/
def classBodyRule (g : Grammar) : Parse Node := do
  let l ← mark "\x7b"
  let ms ← manyUntil (looksAt "\x7d") do
    if ← looksAt ";" then return [← mark ";"]
    else
      let ds ← many do
        guard (← looksAt "@")
        return [← g .decorator]
      if (← atWord "static") && (← succeeds (do let _ ← word "static"; mark "\x7b")) then
        return ds ++ [← staticBlock g]
      else
        (do
          let ms ← memberModifiers
          let i ← indexSignature g
          let e ← memberEnd
          return ds ++ ms ++ [i] ++ e)
        <|> classMember g ds
  let r ← mark "\x7d"
  return branch .classBody (l :: ms ++ [r])

/-- Reads the clause that names what a class extends. The type arguments of
the base stand beside it, unless the base is a call with type arguments. -/
def extendsClause (g : Grammar) : Parse Node := do
  let e ← word "extends"
  let bases ← separated (do
    let v ← g (.operand ⟨false, true, false⟩)
    let args ← if ← looksAt "<" then maybe (g .typeArguments) else pure []
    return v.withRole .value :: args) (mark ",")
  return branch .extendsClause (e :: bases)

/-- Reads the clause that names what a class implements. -/
def implementsClause (g : Grammar) : Parse Node := do
  let i ← word "implements"
  let ts ← separated (do return [← g (.type .bracketed)]) (mark ",")
  return branch .clause (i :: ts)

/-- Reads a class from the word `class` on, or from `abstract`. -/
def classTailRule (g : Grammar) (statement : Bool) : Parse Node := do
  let abs ← if ← atWord "abstract" then pure [← word "abstract"] else pure []
  let c ← word "class"
  let x ← maybe do
    guard (!(["extends", "implements"].contains (← wordAhead)))
    return (← name .typeIdentifier).withRole .name
  let tps ← if ← looksAt "<" then pure [← g .typeParameters] else pure []
  let ext ← if ← atWord "extends" then pure [← extendsClause g] else pure []
  let impl ← if ← atWord "implements" then pure [← implementsClause g] else pure []
  let heritage := if ext.isEmpty && impl.isEmpty then []
    else [branch .classHeritage (ext ++ impl)]
  let b ← g .classBody
  let kind := if !statement then Kind.classExpression
    else if abs.isEmpty then .classDeclaration
    else .abstractClassDeclaration
  return branch kind (abs ++ [c] ++ x ++ tps ++ heritage ++ [b.withRole .body])

/-- Reads a decorator: a name or property, possibly called, or an expression
in brackets. -/
def decoratorRule (g : Grammar) : Parse Node := do
  let a ← mark "@"
  let e ← if ← looksAt "(" then do
      let l ← mark "("
      let e ← g (.sequence .bracketed)
      let r ← mark ")"
      pure (branch .parenthesizedExpression [l, e, r])
    else do
      let x ← name .identifier
      suffixes x ((← read).chars.size + 1)
  return branch .decorator [a, e]
where
  /-- The properties and calls after a decorator's name. -/
  suffixes (f : Node) : (limit : Nat) → Parse Node
    | 0 => return f
    | limit + 1 => do
      if ← looksAt "." then
        let dot ← mark "."
        let x ← privateName <|> name .propertyIdentifier
        suffixes (branch .memberExpression [f, dot, x.withRole .property]) limit
      else if ← looksAt "(" then call f [] limit
      else if ← looksAt "<" then
        match ← maybe (g .typeArguments) with
        | [] => return f
        | args => call f args limit
      else return f
  /-- A call of a decorator. -/
  call (f : Node) (types : List Node) (limit : Nat) : Parse Node := do
    let l ← mark "("
    let args ← manyUntil (looksAt ")") do
      let dots ← maybe (mark "...")
      let e ← g (.expression .bracketed)
      let arg := if dots.isEmpty then e else branch .expression (dots ++ [e])
      let comma ← if ← looksAt ")" then pure [] else pure [← mark ","]
      return arg :: comma
    let r ← mark ")"
    let list := (branch .arguments (l :: args ++ [r])).withRole .arguments
    suffixes (branch .callExpression (f.withRole .function :: types ++ [list])) limit

/-! ## Interfaces -/

/-- Reads a member of an interface or of an object type, without its end. -/
def interfaceMember (g : Grammar) : Parse Node :=
  indexSignature g <|> construct <|> call <|> named
where
  /-- The signature of a constructor. -/
  construct : Parse Node := do
    let abs ← maybe (word "abstract")
    let new ← word "new"
    guard (← signatureAhead)
    return branch .member (abs ++ [new] ++ (← signature g .open))
  /-- The signature of a call of the object itself. -/
  call : Parse Node := do
    guard (← signatureAhead)
    return branch .member (← signature g .open)
  /-- A property or a method. -/
  named : Parse Node := do
    let ms ← memberModifiers
    let x ← propertyName g
    let q ← maybe (mark "?")
    let pieces := ms ++ [x.withRole .name] ++ q
    if ← signatureAhead then
      return branch .methodSignature (pieces ++ (← signature g .open))
    else
      let t ← if ← looksAt ":" then
          pure [(← typeClause g .open).withRole .type]
        else pure []
      return branch .propertySignature (pieces ++ t)

/-- Reads the members of an interface or of an object type. -/
def interfaceBodyRule (g : Grammar) : Parse Node := do
  let l ← mark "\x7b"
  let lead ← maybe (mark "," <|> mark ";")
  let ms ← manyUntil (looksAt "\x7d") do
    let m ← interfaceMember g
    return m :: (← memberEnd)
  let r ← mark "\x7d"
  return branch .interfaceBody (l :: lead ++ ms ++ [r])

/-- Reads an interface declaration. -/
def interfaceDeclaration (g : Grammar) : Parse Node := do
  let i ← word "interface"
  let x ← name .typeIdentifier
  let tps ← if ← looksAt "<" then pure [← g .typeParameters] else pure []
  let ext ← if ← atWord "extends" then do
      let e ← word "extends"
      let ts ← separated (do return [← g (.typeOperand .bracketed)]) (mark ",")
      pure [branch .extendsTypeClause (e :: ts)]
    else pure []
  let b ← g .interfaceBody
  return branch .interfaceDeclaration
    ([i, x.withRole .name] ++ tps ++ ext ++ [b.withRole .body])

end ComponentCatalog.Syntax.Parse
