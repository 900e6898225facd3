import ComponentCatalog.Syntax.Grammar.Rule

/-!
# Binding patterns and parameters

A variable or parameter is bound to a name or to a pattern that takes an array
or an object apart. Only a plain name is told apart from the rest: it is the
only pattern that a constant can be looked up by.

A parameter is optional when a question mark follows its pattern. Both kinds
may have a type and a default value, even together.
-/

namespace ComponentCatalog.Syntax.Parse

/-- Reads a pattern with an optional default value. -/
def patternWithDefault (g : Grammar) : Parse Node := do
  let p ← g .pattern
  match ← maybeAll (initializer g .bracketed) with
  | [] => return p
  | v => return branch .bindingPattern (p :: v)

/-- Reads the pattern that takes an object apart. -/
def objectPattern (g : Grammar) : Parse Node := do
  let l ← mark "\x7b"
  let ms ← manyUntil (looksAt "\x7d") do
    if ← looksAt "," then return [← mark ","]
    else
      let m ← rest <|> keyed <|> shorthand
      let comma ← if ← looksAt "\x7d" then pure [] else pure [← mark ","]
      return m :: comma
  let r ← mark "\x7d"
  return branch .bindingPattern (l :: ms ++ [r])
where
  /-- The remaining properties. -/
  rest : Parse Node := do
    let dots ← mark "..."
    return branch .bindingPattern [dots, ← g .pattern]
  /-- A property bound to a pattern. -/
  keyed : Parse Node := do
    let k ← propertyName g
    let colon ← mark ":"
    let p ← patternWithDefault g
    return branch .clause [k, colon, p]
  /-- A property bound to a variable of its own name. -/
  shorthand : Parse Node := do
    let x ← name .bindingPattern
    let v ← maybeAll (initializer g .bracketed)
    return branch .bindingPattern (x :: v)

/-- Reads the pattern that takes an array apart. -/
def arrayPattern (g : Grammar) : Parse Node := do
  let l ← mark "["
  let ms ← manyUntil (looksAt "]") do
    if ← looksAt "," then return [← mark ","]
    else
      let m ← patternWithDefault g
      let comma ← if ← looksAt "]" then pure [] else pure [← mark ","]
      return m :: comma
  let r ← mark "]"
  return branch .bindingPattern (l :: ms ++ [r])

/-- Reads the name or pattern that a variable declaration binds. -/
def bindingRule (g : Grammar) : Parse Node := do
  match ← peek with
  | none => fail
  | some '\x7b' => objectPattern g
  | some '[' => arrayPattern g
  | some _ => name .identifier

/-- Reads the properties after a name, for a pattern that assigns to a part of
an object. -/
def placeSuffixes (g : Grammar) (place : Node) : (limit : Nat) → Parse Node
  | 0 => return place
  | limit + 1 => do
    if (← looksAt ".") && !(← looksAt "...") then
      let dot ← mark "."
      let x ← privateName <|> name .propertyIdentifier
      placeSuffixes g (branch .bindingPattern [place, dot, x]) limit
    else if ← looksAt "[" then
      let l ← mark "["
      let e ← g (.sequence .bracketed)
      let r ← mark "]"
      placeSuffixes g (branch .bindingPattern [place, l, e, r]) limit
    else return place

/-- Reads a pattern of a parameter or inside another pattern. -/
def patternRule (g : Grammar) : Parse Node := do
  match ← peek with
  | some '.' =>
    let dots ← mark "..."
    return branch .bindingPattern [dots, ← g .pattern]
  | _ =>
    let p ← bindingRule g
    if p.kind == .identifier then placeSuffixes g p ((← read).chars.size + 1) else return p

/-- Whether a pattern begins at the next token. -/
def patternAhead : Parse Bool := do
  match ← peek with
  | none => return false
  | some c =>
    if c == '\x7b' || c == '[' then return true
    else if c == '.' then looksAt "..."
    else return (← wordAhead) != ""

/-- Reads a word in front of a pattern, as a modifier of the parameter. -/
def parameterModifier (w : String) (kind : Kind) : Parse (List Node) :=
  maybe do
    let m ← word w
    guard (← patternAhead)
    return .mk kind none m.start m.stop [m]

/-- Reads one parameter of a function. -/
def parameter (g : Grammar) : Parse Node := do
  let ds ← many do
    guard (← looksAt "@")
    return [← g .decorator]
  let access ← many do
    match ← wordAhead with
    | "public" => parameterModifier "public" .accessibilityModifier
    | "private" => parameterModifier "private" .accessibilityModifier
    | "protected" => parameterModifier "protected" .accessibilityModifier
    | "override" => parameterModifier "override" .overrideModifier
    | "readonly" => parameterModifier "readonly" (.token "readonly")
    | _ => fail
  let p ← g .pattern
  let q ← maybe (mark "?")
  let t ← if ← looksAt ":" then
      pure [(← typeClause g .bracketed).withRole .type]
    else pure []
  let v ← maybeAll (initializer g .bracketed)
  let kind := if q.isEmpty then Kind.requiredParameter else .optionalParameter
  return branch kind (ds ++ access ++ [p.withRole .pattern] ++ q ++ t ++ v)

/-- Reads a parameter list. -/
def parametersRule (g : Grammar) : Parse Node := do
  let l ← mark "("
  let ps ← manyUntil (looksAt ")") do
    let p ← parameter g
    let comma ← if ← looksAt ")" then pure [] else pure [← mark ","]
    return p :: comma
  let r ← mark ")"
  return branch .formalParameters (l :: ps ++ [r])

end ComponentCatalog.Syntax.Parse
