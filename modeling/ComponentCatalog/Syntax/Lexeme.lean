import ComponentCatalog.Syntax.Cursor

/-!
# Literals without inner structure

Numbers, string literals and regular expressions are leaves: their text is kept
as written and is never evaluated. Each reader finds the end of the literal and
fails if the literal is not closed.
-/

namespace ComponentCatalog.Syntax.Parse

/-- Whether a character is a digit of some base or a digit separator. -/
def isAlnumDigit (c : Char) : Bool :=
  c.isAlphanum || c == '_'

/-- The end of a run of decimal digits and separators. -/
def digitsEnd (chars : Array Char) (p : Nat) : Nat :=
  skipWhile chars (fun c => c.isDigit || c == '_') p chars.size

/-- The end of an exponent that begins at `p`, or `p` if there is none. -/
def exponentEnd (chars : Array Char) (p : Nat) : Nat :=
  match chars[p]? with
  | some c =>
    if c == 'e' || c == 'E' then
      let q := match chars[p + 1]? with
        | some s => if s == '+' || s == '-' then p + 2 else p + 1
        | none => p + 1
      let e := digitsEnd chars q
      if q < e then e else p
    else p
  | none => p

/-- The end of the number that begins at `p`, if one does: a number in base
two, eight or sixteen, or a decimal with an optional fraction and exponent. -/
def numberEnd? (chars : Array Char) (p : Nat) : Option Nat :=
  let base := match chars[p + 1]? with
    | some c => "xXoObB".toList.contains c
    | none => false
  if chars[p]? == some '0' && base then
    let e := skipWhile chars isAlnumDigit (p + 2) chars.size
    if p + 2 < e then some e else none
  else
    let whole := digitsEnd chars p
    let fraction := if chars[whole]? == some '.' then digitsEnd chars (whole + 1) else whole
    -- neither nothing nor a single dot is a number
    if fraction == p || fraction == p + 1 && whole == p then none
    else
      let e := exponentEnd chars fraction
      some (if chars[e]? == some 'n' then e + 1 else e)

/-- Reads a number. -/
def number : Parse Node := do
  skipGap
  let start ← here
  match numberEnd? (← read).chars start with
  | some e =>
    goTo e
    leafFrom .number start
  | none => fail

/-- The end of a string literal whose next character is at `p`; a backslash
takes the character after it along, and a bare line end closes nothing. -/
def stringEnd? (chars : Array Char) (quote : Char) (p : Nat) : (limit : Nat) → Option Nat
  | 0 => none
  | limit + 1 =>
    match chars[p]? with
    | none => none
    | some c =>
      if c == quote then some (p + 1)
      else if c == '\\' then stringEnd? chars quote (p + 2) limit
      else if c == '\n' || c == '\r' then none
      else stringEnd? chars quote (p + 1) limit

/-- Reads a string literal. -/
def stringLiteral : Parse Node := do
  skipGap
  let start ← here
  let chars := (← read).chars
  match chars[start]? with
  | some q =>
    guard (q == '\'' || q == '"')
    match stringEnd? chars q (start + 1) chars.size with
    | some e =>
      goTo e
      leafFrom .string start
    | none => fail
  | none => fail

/-- The end of the pattern of a regular expression; inside square brackets a
slash is an ordinary character. -/
def regexEnd? (chars : Array Char) (p : Nat) (bracketed : Bool) : (limit : Nat) → Option Nat
  | 0 => none
  | limit + 1 =>
    match chars[p]? with
    | none => none
    | some c =>
      if c == '\n' then none
      else if c == '\\' then regexEnd? chars (p + 2) bracketed limit
      else if c == '[' then regexEnd? chars (p + 1) true limit
      else if c == ']' then regexEnd? chars (p + 1) false limit
      else if c == '/' && !bracketed then some (p + 1)
      else regexEnd? chars (p + 1) bracketed limit

/-- Reads a regular expression with its flags. -/
def regexLiteral : Parse Node := do
  skipGap
  let start ← here
  let chars := (← read).chars
  guard (chars[start]? == some '/')
  match regexEnd? chars (start + 1) false chars.size with
  | some e =>
    goTo (skipWhile chars (fun c => 'a' ≤ c && c ≤ 'z') e chars.size)
    leafFrom .regex start
  | none => fail

/-- Reads a private name, a name after a hash. -/
def privateName : Parse Node := do
  skipGap
  let start ← here
  let chars := (← read).chars
  guard (chars[start]? == some '#' && nameBegins chars (start + 1))
  goTo (nameEnd chars (start + 1) chars.size)
  leafFrom .privateIdentifier start

/-- Reads one punctuation mark or word, whatever it is, as unaccounted for. -/
def anyToken : Parse Node := do
  skipGap
  let start ← here
  let chars := (← read).chars
  guard (start < chars.size)
  goTo (max (start + 1) (nameEnd chars start chars.size))
  leafFrom .error start

end ComponentCatalog.Syntax.Parse
