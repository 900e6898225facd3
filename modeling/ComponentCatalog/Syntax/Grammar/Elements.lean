import ComponentCatalog.Syntax.Grammar.Rule

/-!
# Element literals

An element literal is a tag with attributes, its children, and the closing tag.
Between the tags stands plain text, in which nothing is a comment and nothing
is a string, with expressions in braces and further elements.
-/

namespace ComponentCatalog.Syntax.Parse

/-- Reads the name of a tag or of an attribute, which may contain hyphens. -/
def hyphenatedName : Parse Node := do
  skipGap
  let start ← here
  let chars := (← read).chars
  guard (nameBegins chars start)
  goTo (skipWhile chars (fun c => isNameChar c || c == '-') start chars.size)
  leafFrom .element start

/-- Reads the name of a tag: hyphenated, reached through properties, or in a
name space. -/
def tagName : Parse (List Node) := do
  let x ← hyphenatedName
  let rest ← many do
    let m ← mark "." <|> mark ":"
    return [m, ← hyphenatedName]
  return x :: rest

/-- Reads an expression in braces; there may be none. -/
def bracedExpression (g : Grammar) : Parse Node := do
  let l ← mark "\x7b"
  let e ← if ← looksAt "\x7d" then pure []
    else if ← looksAt "..." then do
      let dots ← mark "..."
      pure [dots, ← g (.expression .bracketed)]
    else pure [← g (.sequence .bracketed)]
  let r ← mark "\x7d"
  return branch .element (l :: e ++ [r])

/-- Reads the quoted value of an attribute, which has no escapes. -/
def attributeText : Parse Node := do
  skipGap
  let start ← here
  let chars := (← read).chars
  match chars[start]? with
  | none => fail
  | some q =>
    guard (q == '"' || q == '\'')
    let e := skipWhile chars (fun c => c != q) (start + 1) chars.size
    guard (e < chars.size)
    goTo (e + 1)
    leafFrom .string start

/-- Reads an attribute of a tag. -/
def tagAttribute (g : Grammar) : Parse Node := do
  if ← looksAt "\x7b" then bracedExpression g
  else
    let x ← hyphenatedName
    let space ← maybeAll do
      let colon ← mark ":"
      return [colon, ← hyphenatedName]
    let v ← maybeAll do
      let eq ← mark "="
      match ← peek with
      | some '\x7b' => return [eq, ← bracedExpression g]
      | some '<' => return [eq, ← g .element]
      | _ => return [eq, ← attributeText]
    return branch .element (x :: space ++ v)

/-- Reads the children of an element and its closing tag. -/
def elementRest (g : Grammar) (done : List Node) : (limit : Nat) → Parse (List Node)
  | 0 => fail
  | limit + 1 => do
    let start ← here
    let chars := (← read).chars
    match chars[start]? with
    | none => fail
    | some '\x7b' => elementRest g ((← bracedExpression g) :: done) limit
    | some '<' =>
      if ← succeeds (do let _ ← mark "<"; mark "/") then
        let l ← mark "<"
        let slash ← mark "/"
        let x ← maybeAll tagName
        let r ← mark ">"
        return done.reverse ++ [branch .element ([l, slash] ++ x ++ [r])]
      else elementRest g ((← g .element) :: done) limit
    | some _ =>
      goTo (skipWhile chars (fun c => c != '<' && c != '\x7b') start chars.size)
      let text ← leafFrom .element start
      elementRest g (text :: done) limit

/-- Reads an element literal. -/
def elementRule (g : Grammar) : Parse Node := do
  let l ← mark "<"
  if ← looksAt ">" then
    let r ← mark ">"
    let rest ← elementRest g [] ((← read).chars.size + 1)
    return branch .element (l :: r :: rest)
  else
    let x ← tagName
    let ts ← if ← looksAt "<" then pure [← g .typeArguments] else pure []
    let attrs ← manyUntil (do return (← looksAt ">") || (← looksAt "/")) do
      return [← tagAttribute g]
    if ← looksAt "/" then
      let slash ← mark "/"
      let r ← mark ">"
      return branch .element (l :: x ++ ts ++ attrs ++ [slash, r])
    else
      let r ← mark ">"
      let rest ← elementRest g [] ((← read).chars.size + 1)
      return branch .element (l :: x ++ ts ++ attrs ++ [r] ++ rest)

end ComponentCatalog.Syntax.Parse
