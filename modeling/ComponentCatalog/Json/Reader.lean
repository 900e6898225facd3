import ComponentCatalog.Json.Value

/-!
# Reading JSON

The reader takes a text apart from left to right and yields a value and what is
left. It accepts the JSON grammar, and besides it the words `NaN`, `Infinity` and
`-Infinity` as numbers. It refuses raw control characters in strings, a byte order
mark, and commas before a closing bracket.

An escaped surrogate pair is one code point, and a lone surrogate is kept. Values
are read with fuel for the depth of nesting, which is never deeper than the text
is long. An integer of more than 4300 digits is refused by an error of its own,
since it is well-formed and merely too long.
-/

namespace ComponentCatalog.Json

open Text

/-- Why a text is not read. -/
inductive ReadError where
  /-- The text is not JSON. -/
  | malformed
  /-- The text has an integer with too many digits. -/
  | tooManyDigits
  deriving DecidableEq, Repr

/-- The largest number of digits of an integer. -/
def digitLimit : Nat := 4300

/-- What a reader yields: a value and the rest of the text. -/
abbrev Read (α : Type) := Except ReadError (α × List Char)

/-- The text after the blanks at its start. -/
def skipBlanks (cs : List Char) : List Char :=
  cs.dropWhile fun c => c == ' ' || c == '\t' || c == '\n' || c == '\r'

/-! ## Strings -/

/-- The value of a hexadecimal digit. -/
def hexDigit? (c : Char) : Option Nat :=
  if c.isDigit then some (c.toNat - '0'.toNat)
  else if 'a' ≤ c && c ≤ 'f' then some (c.toNat - 'a'.toNat + 10)
  else if 'A' ≤ c && c ≤ 'F' then some (c.toNat - 'A'.toNat + 10)
  else none

/-- The unit that four hexadecimal digits spell. -/
def hexUnit? (a b c d : Char) : Option Nat := do
  some ((((← hexDigit? a) * 16 + (← hexDigit? b)) * 16 + (← hexDigit? c)) * 16 + (← hexDigit? d))

/-- The code points read so far, last first, after one more escaped unit. A low
surrogate right after a high one makes a single code point with it. Surrogates
come from escapes only, so the two were escaped one after the other. -/
def pushUnit (n : Nat) (done : List CodePoint) : List CodePoint :=
  match done with
  | p :: before =>
    if 0xD800 ≤ p.val && p.val ≤ 0xDBFF && 0xDC00 ≤ n && n ≤ 0xDFFF then
      .ofNat (joinSurrogates p.val n) :: before
    else .ofNat n :: done
  | [] => [.ofNat n]

/-- The character that a one-letter escape stands for. -/
def shortEscape? : Char → Option Char
  | '"' => some '"'
  | '\\' => some '\\'
  | '/' => some '/'
  | 'b' => some '\x08'
  | 'f' => some '\x0c'
  | 'n' => some '\n'
  | 'r' => some '\r'
  | 't' => some '\t'
  | _ => none

/-- Reads the rest of a string; `done` is what has been read, last point first. -/
def readString (done : List CodePoint) : List Char → Read Wide
  | [] => .error .malformed
  | '"' :: rest => .ok (⟨done.reverse⟩, rest)
  | '\\' :: 'u' :: a :: b :: c :: d :: rest =>
    match hexUnit? a b c d with
    | some n => readString (pushUnit n done) rest
    | none => .error .malformed
  -- a `u` with fewer than four characters after it comes here too, and is no short escape
  | '\\' :: e :: rest =>
    match shortEscape? e with
    | some x => readString (CodePoint.ofChar x :: done) rest
    | none => .error .malformed
  | c :: rest =>
    if c.toNat < 0x20 || c == '\\' then .error .malformed
    else readString (CodePoint.ofChar c :: done) rest

/-! ## Numbers -/

/-- The digits at the start of a text, and the rest. -/
def digits (cs : List Char) : List Char × List Char :=
  (cs.takeWhile Char.isDigit, cs.dropWhile Char.isDigit)

/-- The whole part of a number: a single zero, or digits that begin with none. -/
def wholePart? : List Char → Option (List Char × List Char)
  | '0' :: rest => some (['0'], rest)
  | cs =>
    match digits cs with
    | ([], _) => none
    | (ds, rest) => some (ds, rest)

/-- The fraction of a number, empty if there is none. -/
def fraction : List Char → List Char × List Char
  | '.' :: rest =>
    match digits rest with
    | ([], _) => ([], '.' :: rest)
    | (ds, rest) => ('.' :: ds, rest)
  | cs => ([], cs)

/-- The exponent of a number, empty if there is none. -/
def exponent (cs : List Char) : List Char × List Char :=
  match cs with
  | e :: rest =>
    if e == 'e' || e == 'E' then
      let (sign, rest) := match rest with
        | s :: r => if s == '+' || s == '-' then ([s], r) else ([], rest)
        | [] => ([], rest)
      match digits rest with
      | ([], _) => ([], cs)
      | (ds, rest) => (e :: sign ++ ds, rest)
    else ([], cs)
  | [] => ([], [])

/-- Reads a number. -/
def readNumber (cs : List Char) : Read Json :=
  let (sign, body) := match cs with
    | '-' :: rest => (['-'], rest)
    | _ => ([], cs)
  match wholePart? body with
  | none => .error .malformed
  | some (whole, rest) =>
    let (frac, rest) := fraction rest
    let (exp, rest) := exponent rest
    if frac.isEmpty && exp.isEmpty && digitLimit < whole.length then .error .tooManyDigits
    else .ok (.number (String.ofList (sign ++ whole ++ frac ++ exp)), rest)

/-- The text after a given word, if it begins with it. -/
def after? (word : String) (cs : List Char) : Option (List Char) :=
  if word.toList.isPrefixOf cs then some (cs.drop word.length) else none

/-- The words that are values, in the order in which they are tried. -/
def words : List (String × Json) :=
  [("null", .null), ("true", .bool true), ("false", .bool false), ("NaN", .number "NaN"),
    ("Infinity", .number "Infinity"), ("-Infinity", .number "-Infinity")]

/-- Reads a word or a number. -/
def readAtom (cs : List Char) : Read Json :=
  match words.findSome? fun (w, v) => (after? w cs).map fun rest => (v, rest) with
  | some r => .ok r
  | none => readNumber cs

/-! ## Values -/

mutual

/-- Reads a value that begins at the first character. -/
def readValue : (depth : Nat) → List Char → Read Json
  | 0, _ => .error .malformed
  | depth + 1, cs =>
    match cs with
    | '"' :: rest =>
      match readString [] rest with
      | .ok (s, rest) => .ok (.string s, rest)
      | .error e => .error e
    | '[' :: rest =>
      match skipBlanks rest with
      | ']' :: rest => .ok (.array [], rest)
      | rest =>
        match readItems depth [] rest with
        | .ok (items, rest) => .ok (.array items, rest)
        | .error e => .error e
    | '\x7b' :: rest =>
      match skipBlanks rest with
      | '\x7d' :: rest => .ok (.object [], rest)
      | rest =>
        match readFields depth [] rest with
        | .ok (fields, rest) => .ok (.object fields, rest)
        | .error e => .error e
    | cs => readAtom cs

/-- Reads the items of an array up to its closing bracket. -/
def readItems : (depth : Nat) → List Json → List Char → Read (List Json)
  | 0, _, _ => .error .malformed
  | depth + 1, done, cs =>
    match readValue depth cs with
    | .error e => .error e
    | .ok (v, rest) =>
      match skipBlanks rest with
      | ',' :: rest => readItems depth (v :: done) (skipBlanks rest)
      | ']' :: rest => .ok ((v :: done).reverse, rest)
      | _ => .error .malformed

/-- Reads the fields of an object up to its closing bracket. -/
def readFields : (depth : Nat) → List (Wide × Json) → List Char → Read (List (Wide × Json))
  | 0, _, _ => .error .malformed
  | depth + 1, done, cs =>
    match cs with
    | '"' :: rest =>
      match readString [] rest with
      | .error e => .error e
      | .ok (k, rest) =>
        match skipBlanks rest with
        | ':' :: rest =>
          match readValue depth (skipBlanks rest) with
          | .error e => .error e
          | .ok (v, rest) =>
            match skipBlanks rest with
            | ',' :: rest => readFields depth (putField k v done) (skipBlanks rest)
            | '\x7d' :: rest => .ok (putField k v done, rest)
            | _ => .error .malformed
        | _ => .error .malformed
    | _ => .error .malformed

end

/-- Reads a text that holds one value and nothing else. -/
def read (s : String) : Except ReadError Json :=
  let cs := s.toList
  -- a level takes two units of depth and a further item one, and each of them a character
  match readValue (2 * cs.length + 2) (skipBlanks cs) with
  | .error e => .error e
  | .ok (v, rest) => if (skipBlanks rest).isEmpty then .ok v else .error .malformed

end ComponentCatalog.Json
