import ComponentCatalog.Syntax.Grammar.Patterns
import ComponentCatalog.Syntax.Grammar.Members

/-!
# Statements and declarations

A statement is known by its first word, except that many of those words are
also names: `type`, `interface`, `declare`, `namespace` and their like begin a
declaration only when what follows them fits one. Everything else is an
expression statement.

A block and an object literal begin alike; at the start of a statement a brace
opens a block, unless no block can be read there.
-/

namespace ComponentCatalog.Syntax.Parse

/-! ## Variables -/

/-- Reads one variable of a declaration. -/
def declarator (g : Grammar) (c : Context) : Parse Node := do
  let x ← bindingRule g
  let sure ← maybe (markNotBefore "!" ['='])
  let t ← if ← looksAt ":" then
      pure [(← typeClause g ⟨c.line, false⟩).withRole .type]
    else pure []
  let v ← maybeAll (initializer g c)
  return branch .variableDeclarator (x.withRole .name :: sure ++ t ++ v)

/-- Reads the variables of a declaration, without its end. -/
def variableList (g : Grammar) (c : Context) (keyword : String) : Parse (List Node) := do
  let k ← word keyword
  let ds ← separated (do return [← declarator g c]) (mark ",")
  return k :: ds

/-- Reads a declaration of variables. -/
def variableStatement (g : Grammar) (keyword : String) : Parse Node := do
  let ds ← variableList g .open keyword
  return branch .declaration (ds ++ (← statementEnd))

/-! ## Control flow -/

/-- Reads a condition in round brackets. -/
def condition (g : Grammar) : Parse Node := do
  let l ← mark "("
  let e ← g (.sequence .bracketed)
  let r ← mark ")"
  return branch .parenthesizedExpression [l, e, r]

/-- Reads a conditional statement. -/
def ifStatement (g : Grammar) : Parse Node := do
  let i ← word "if"
  let c ← condition g
  let yes ← g .statement
  let no ← if ← atWord "else" then do
      let e ← word "else"
      pure [e, ← g .statement]
    else pure []
  return branch .statement ([i, c, yes] ++ no)

/-- Reads the head of a loop over the elements or keys of something. -/
def iterationHead (g : Grammar) : Parse (List Node) := do
  let target ← declared <|> assigned
  let w ← wordAhead
  guard (w == "of" || w == "in")
  let m ← word w
  let e ← g (.sequence .bracketed)
  return target ++ [m, e]
where
  /-- A variable declared by the loop. -/
  declared : Parse (List Node) := do
    let w ← wordAhead
    guard (["var", "let", "const"].contains w)
    let k ← word w
    let x ← bindingRule g
    let v ← maybeAll (initializer g ⟨false, false, true⟩)
    return [k, x] ++ v
  /-- A place that is assigned to. -/
  assigned : Parse (List Node) := do
    return [← g (.operand ⟨false, false, true⟩)]

/-- Reads the head of a counting loop. -/
def countingHead (g : Grammar) : Parse (List Node) := do
  let c : Context := ⟨false, false, true⟩
  let w ← wordAhead
  let start ← if ["var", "let", "const"].contains w then
      pure [branch .declaration (← variableList g c w)]
    else if ← looksAt ";" then pure []
    else pure [← g (.sequence c)]
  let s1 ← mark ";"
  let test ← if ← looksAt ";" then pure [] else pure [← g (.sequence .bracketed)]
  let s2 ← mark ";"
  let step ← if ← looksAt ")" then pure [] else pure [← g (.sequence .bracketed)]
  return start ++ [s1] ++ test ++ [s2] ++ step

/-- Reads a loop with a head. -/
def forStatement (g : Grammar) : Parse Node := do
  let f ← word "for"
  let a ← maybe (word "await")
  let l ← mark "("
  let head ← iterationHead g <|> countingHead g
  let r ← mark ")"
  let b ← g .statement
  return branch .statement ([f] ++ a ++ [l] ++ head ++ [r, b])

/-- Reads a loop that tests before each round. -/
def whileStatement (g : Grammar) : Parse Node := do
  let w ← word "while"
  let c ← condition g
  return branch .statement [w, c, ← g .statement]

/-- Reads a loop that tests after each round. -/
def doStatement (g : Grammar) : Parse Node := do
  let d ← word "do"
  let b ← g .statement
  let w ← word "while"
  let c ← condition g
  let semi ← maybe (mark ";")
  return branch .statement ([d, b, w, c] ++ semi)

/-- Reads a statement that chooses among cases. -/
def switchStatement (g : Grammar) : Parse Node := do
  let s ← word "switch"
  let c ← condition g
  let l ← mark "\x7b"
  let cases ← manyUntil (looksAt "\x7d") do
    let head ← if ← atWord "case" then do
        let k ← word "case"
        pure [k, ← g (.sequence .bracketed)]
      else pure [← word "default"]
    let colon ← mark ":"
    let body ← manyUntil (do
      return (← looksAt "\x7d") || (← caseAhead)) (do return [← g .statement])
    return [branch .clause (head ++ [colon] ++ body)]
  let r ← mark "\x7d"
  return branch .statement ([s, c, l] ++ cases ++ [r])
where
  /-- Whether the next case begins. -/
  caseAhead : Parse Bool := do
    match ← wordAhead with
    | "case" => return true
    | "default" => succeeds (do let _ ← word "default"; mark ":")
    | _ => return false

/-- Reads a block with its handlers. -/
def tryStatement (g : Grammar) : Parse Node := do
  let t ← word "try"
  let b ← g .block
  let handler ← if ← atWord "catch" then do
      let c ← word "catch"
      let bound ← if ← looksAt "(" then do
          let l ← mark "("
          let x ← g .pattern
          let ty ← if ← looksAt ":" then pure [← typeClause g .bracketed] else pure []
          let r ← mark ")"
          pure ([l, x] ++ ty ++ [r])
        else pure []
      pure (c :: bound ++ [← g .block])
    else pure []
  let last ← if ← atWord "finally" then do
      let f ← word "finally"
      pure [f, ← g .block]
    else pure []
  return branch .statement ([t, b] ++ handler ++ last)

/-- Reads a statement that leaves a function, possibly with a value. -/
def leavingStatement (g : Grammar) (keyword : String) : Parse Node := do
  let k ← word keyword
  let e ← if (← lineEndAhead) || (← looksAt ";") || (← looksAt "\x7d") || (← atEnd) then pure []
    else pure [← g (.sequence .open)]
  return branch .statement (k :: e ++ (← statementEnd))

/-- Reads a statement that leaves a loop, possibly a labelled one. -/
def jumpStatement (keyword : String) : Parse Node := do
  let k ← word keyword
  let x ← if (← lineEndAhead) || (← wordAhead) == "" then pure []
    else pure [← name .statement]
  return branch .statement (k :: x ++ (← statementEnd))

/-! ## Declarations -/

/-- Reads a function declaration, or the signature of one without a body. -/
def functionDeclaration (g : Grammar) : Parse Node := do
  let a ← maybe (word "async")
  let f ← word "function"
  let star ← maybe (mark "*")
  let x ← maybe do return (← name .identifier).withRole .name
  let sig ← signature g .open
  if ← looksAt "\x7b" then
    let b ← g .block
    return branch .declaration (a ++ [f] ++ star ++ x ++ sig ++ [b.withRole .body])
  else return branch .declaration (a ++ [f] ++ star ++ x ++ sig ++ (← statementEnd))

/-- Reads a declaration of a name for a type. -/
def typeAlias (g : Grammar) : Parse Node := do
  let k ← word "type"
  let x ← name .typeIdentifier
  let tps ← if ← looksAt "<" then pure [← g .typeParameters] else pure []
  let eq ← mark "="
  let t ← g (.type .open)
  let e ← statementEnd
  return branch .typeAliasDeclaration
    ([k, x.withRole .name] ++ tps ++ [eq, t.withRole .value] ++ e)

/-- Reads a declaration of an enumeration. -/
def enumDeclaration (g : Grammar) : Parse Node := do
  let c ← maybe (word "const")
  let k ← word "enum"
  let x ← name .identifier
  let l ← mark "\x7b"
  let ms ← manyUntil (looksAt "\x7d") do
    if ← looksAt "," then return [← mark ","]
    else
      let m ← propertyName g
      let v ← maybeAll (initializer g .bracketed)
      let comma ← if ← looksAt "\x7d" then pure [] else pure [← mark ","]
      return branch .clause (m :: v) :: comma
  let r ← mark "\x7d"
  return branch .declaration (c ++ [k, x, l] ++ ms ++ [r])

/-- Reads a declaration of a module or name space. -/
def moduleDeclaration (g : Grammar) (keyword : String) : Parse Node := do
  let k ← word keyword
  let x ← if (← looksAt "'") || (← looksAt "\"") then pure [← stringLiteral]
    else separated (do return [← name .identifier]) (mark ".")
  let b ← if ← looksAt "\x7b" then pure [← g .block] else statementEnd
  return branch .declaration (k :: x ++ b)

/-- Reads the names in the braces of an import or export. -/
def specifiers : Parse (List Node) := do
  let l ← mark "\x7b"
  let xs ← manyUntil (looksAt "\x7d") do
    return [← mark "," <|> stringLiteral <|> name .clause]
  let r ← mark "\x7d"
  return l :: xs ++ [r]

/-- Reads the module that something is imported from, and its attributes. -/
def importSource (g : Grammar) : Parse (List Node) := do
  let s ← stringLiteral
  let attrs ← if ((← atWord "with") || (← atWord "assert")) && !(← lineEndAhead) then do
      let w ← name .clause
      pure [w, ← g (.expression .open)]
    else pure []
  return s :: attrs

/-- Reads an import. -/
def importStatement (g : Grammar) : Parse Node := do
  let i ← word "import"
  let rest ← importSource g <|> assigned <|> named
  return branch .statement (i :: rest ++ (← statementEnd))
where
  /-- A name for a module or for a part of a name space. -/
  assigned : Parse (List Node) := do
    let t ← maybe do
      let t ← word "type"
      guard ((← wordAhead) != "")
      return t
    let x ← name .clause
    let eq ← mark "="
    let path ← separated (do return [← name .clause]) (mark ".")
    let source ← if ← looksAt "(" then do
        let l ← mark "("
        let s ← stringLiteral
        pure [l, s, ← mark ")"]
      else pure []
    return t ++ [x, eq] ++ path ++ source
  /-- Names from a module. -/
  named : Parse (List Node) := do
    let items ← many do
      if ← looksAt "\x7b" then specifiers
      else return [← mark "," <|> mark "*" <|> (do
        guard (!(← succeeds (do let _ ← word "from"; stringLiteral)))
        name .clause)]
    let f ← word "from"
    return items ++ [f] ++ (← importSource g)

/-- Reads a class with the decorators before it. -/
def classDeclaration (g : Grammar) (decorators : List Node) : Parse Node := do
  let c ← g (.classTail true)
  if decorators.isEmpty then return c else return branch c.kind (decorators ++ c.children)

/-- Reads the decorators before a class or an export. -/
def decorators (g : Grammar) : Parse (List Node) :=
  many do
    guard (← looksAt "@")
    return [← g .decorator]

/-- Whether the word after the next one begins a declaration that the next word
can introduce. -/
def wordsAhead (first : String) (seconds : List String) : Parse Bool :=
  succeeds do
    let _ ← word first
    guard (seconds.contains (← wordAhead))

/-- Whether the next words declare something. Words that are also names begin a
declaration only when what follows them fits. -/
def declarationAhead : Parse Bool := do
  match ← wordAhead with
  | "var" | "const" | "function" | "class" | "enum" => return true
  | "let" => succeeds (do
      let _ ← word "let"
      guard ((← looksAt "[") || (← looksAt "\x7b") ||
        ((← wordAhead) != "" && !(["in", "of", "instanceof", "as"].contains (← wordAhead)))))
  | "async" => succeeds (do
      let _ ← word "async"
      guard (!(← lineEndAhead))
      word "function")
  | "abstract" => wordsAhead "abstract" ["class"]
  | "interface" => succeeds (do
      let _ ← word "interface"
      let _ ← name .typeIdentifier
      guard ((← looksAt "\x7b") || (← looksAt "<") || (← atWord "extends")))
  | "type" => succeeds (do
      let _ ← word "type"
      let _ ← name .typeIdentifier
      guard (((← looksAt "=") && !(← looksAt "==")) || (← looksAt "<")))
  | "namespace" => succeeds (do
      let _ ← word "namespace"
      let _ ← separated (do return [← name .identifier]) (mark ".")
      mark "\x7b")
  | "module" => succeeds (do
      let _ ← word "module"
      (do let _ ← stringLiteral) <|> (do
        let _ ← separated (do return [← name .identifier]) (mark ".")
        let _ ← mark "\x7b"))
  | "declare" => wordsAhead "declare" ["var", "let", "const", "function", "class", "abstract",
      "enum", "interface", "type", "namespace", "module", "global", "async", "import"]
  | _ => return false

/-- Reads a declaration, given the decorators before it. -/
def declarationAfter (g : Grammar) (ds : List Node) : (limit : Nat) → Parse Node
  | 0 => fail
  | limit + 1 => do
    match ← wordAhead with
    | "var" => variableStatement g "var"
    | "let" => variableStatement g "let"
    | "const" =>
      if ← wordsAhead "const" ["enum"] then enumDeclaration g else variableStatement g "const"
    | "class" => classDeclaration g ds
    | "abstract" => classDeclaration g ds
    | "enum" => enumDeclaration g
    | "interface" => interfaceDeclaration g
    | "type" => typeAlias g
    | "namespace" => moduleDeclaration g "namespace"
    | "module" => moduleDeclaration g "module"
    | "import" => importStatement g
    | "declare" =>
      let d ← word "declare"
      if ← atWord "global" then
        let k ← word "global"
        return branch .declaration [d, k, ← g .block]
      else return branch .declaration [d, ← declarationAfter g ds limit]
    | _ => functionDeclaration g

/-- Reads a declaration. -/
def declaration (g : Grammar) (ds : List Node) : Parse Node := do
  declarationAfter g ds ((← read).chars.size + 1)

/-- Reads an export. -/
def exportStatement (g : Grammar) (ds : List Node) : Parse Node := do
  let e ← word "export"
  let rest ← defaulted <|> declared <|> listed <|> everything <|> assigned <|> namespaced
  return branch .exportStatement (ds ++ [e] ++ rest)
where
  /-- The default export. -/
  defaulted : Parse (List Node) := do
    let d ← word "default"
    let inner ← decorators g
    if (← atWord "class") || (← declarationAhead) then
      return [d, ← declaration g inner]
    else
      let v ← g (.expression .open)
      return [d, v.withRole .value] ++ (← statementEnd)
  /-- An exported declaration. -/
  declared : Parse (List Node) := do
    let inner ← decorators g
    guard ((← declarationAhead) || (← atWord "import"))
    return [← declaration g inner]
  /-- A list of names. -/
  listed : Parse (List Node) := do
    let t ← maybe (word "type")
    let xs ← specifiers
    let source ← maybeAll do
      let f ← word "from"
      return f :: (← importSource g)
    return t ++ xs ++ source ++ (← statementEnd)
  /-- All names of another module. -/
  everything : Parse (List Node) := do
    let t ← maybe (word "type")
    let star ← mark "*"
    let renamed ← maybeAll do
      let a ← word "as"
      return [a, ← stringLiteral <|> name .clause]
    let f ← word "from"
    return t ++ [star] ++ renamed ++ [f] ++ (← importSource g) ++ (← statementEnd)
  /-- The value a module stands for. -/
  assigned : Parse (List Node) := do
    let eq ← mark "="
    let v ← g (.expression .open)
    return [eq, v] ++ (← statementEnd)
  /-- The global name of a module. -/
  namespaced : Parse (List Node) := do
    let a ← word "as"
    let n ← word "namespace"
    let x ← name .identifier
    return [a, n, x] ++ (← statementEnd)

/-! ## Statements -/

/-- Reads an expression as a statement. -/
def expressionStatement (g : Grammar) : Parse Node := do
  let e ← g (.sequence .open)
  return branch .statement (e :: (← statementEnd))

/-- Reads a block of statements. -/
def blockRule (g : Grammar) : Parse Node := do
  let l ← mark "\x7b"
  let ss ← manyUntil (looksAt "\x7d") (do return [← g .statement])
  let r ← mark "\x7d"
  return branch .statement (l :: ss ++ [r])

/-- Reads a statement that begins with a word and declares nothing. -/
def wordStatement (g : Grammar) (w : String) : Parse Node := do
  match w with
  | "if" => ifStatement g
  | "for" => forStatement g
  | "while" => whileStatement g
  | "do" => doStatement g
  | "switch" => switchStatement g
  | "try" => tryStatement g
  | "return" => leavingStatement g "return"
  | "throw" => leavingStatement g "throw"
  | "break" => jumpStatement "break"
  | "continue" => jumpStatement "continue"
  | "debugger" => jumpStatement "debugger"
  | "with" =>
    let k ← word "with"
    let c ← condition g
    return branch .statement [k, c, ← g .statement]
  | "export" => exportStatement g []
  | "import" =>
    if ← succeeds (do
        let _ ← word "import"
        guard (!(← looksAt "(") && !(← looksAt "."))) then importStatement g
    else expressionStatement g
  | _ =>
    if ← succeeds (do let _ ← name .identifier; mark ":") then
      let x ← name .statement
      let colon ← mark ":"
      return branch .statement [x, colon, ← g .statement]
    else expressionStatement g

/-- Reads a statement. -/
def statementRule (g : Grammar) : Parse Node := do
  match ← peek with
  | none => fail
  | some '\x7b' => speculate .block (g .block) <|> expressionStatement g
  | some ';' => return branch .statement [← mark ";"]
  | some '@' =>
    let ds ← decorators g
    if ← atWord "export" then exportStatement g ds else declaration g ds
  | some _ =>
    if ← declarationAhead then declaration g []
    else wordStatement g (← wordAhead)

end ComponentCatalog.Syntax.Parse
