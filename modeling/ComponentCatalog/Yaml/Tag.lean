import ComponentCatalog.Text.Wide

/-!
# Tags

The tag of a node says what kind of value it is. A plain scalar without a tag gets
one from its text: `resolve` knows the words for truth values and nothing, the ways
to write numbers and times, and the two keys with a meaning of their own. Every other
text is a text.
-/

namespace ComponentCatalog.Yaml

open Text

/-- A kind of value. -/
inductive Tag where
  | null
  | bool
  | int
  | float
  | binary
  | time
  | text
  | sequence
  | mapping
  | set
  | orderedMapping
  | pairs
  /-- A key whose value is merged into its mapping. -/
  | merge
  /-- A key whose value stands for its mapping. -/
  | value
  | unknown
  deriving DecidableEq, Repr

/-- The tag of a full name. -/
def Tag.ofName : String → Tag
  | "tag:yaml.org,2002:null" => null
  | "tag:yaml.org,2002:bool" => bool
  | "tag:yaml.org,2002:int" => int
  | "tag:yaml.org,2002:float" => float
  | "tag:yaml.org,2002:binary" => binary
  | "tag:yaml.org,2002:timestamp" => time
  | "tag:yaml.org,2002:str" => text
  | "tag:yaml.org,2002:seq" => sequence
  | "tag:yaml.org,2002:map" => mapping
  | "tag:yaml.org,2002:set" => set
  | "tag:yaml.org,2002:omap" => orderedMapping
  | "tag:yaml.org,2002:pairs" => pairs
  | "tag:yaml.org,2002:merge" => merge
  | "tag:yaml.org,2002:value" => value
  | _ => unknown

/-- Whether a tag asks for a collection. -/
def Tag.isCollection (tag : Tag) : Bool :=
  [sequence, mapping, set, orderedMapping, pairs].contains tag

/-- Whether a tag asks for a value that a text spells. -/
def Tag.isSpelt (tag : Tag) : Bool :=
  [null, bool, int, float, binary, time, text].contains tag

/-! ## Times -/

/-- A date, or a time of a day with its distance from universal time in minutes. -/
inductive Time where
  | date (year month day : Nat)
  | moment (year month day hour minute second micro : Nat) (offset? : Option Int)
  deriving DecidableEq, Repr

/-- A number of between `least` and `most` digits, and what follows. -/
def digitsOf (least most : Nat) (cs : List Char) : Option (Nat × List Char) :=
  let ds := (cs.take most).takeWhile Char.isDigit
  if ds.length < least then none
  else some (ds.foldl (fun n d => 10 * n + (d.toNat - 48)) 0, cs.drop ds.length)

/-- What follows a given character. -/
def after (c : Char) : List Char → Option (List Char)
  | d :: cs => if d == c then some cs else none
  | [] => none

/-- The fraction of a second, in millionths, and what follows. -/
def fractionOf : List Char → Nat × List Char
  | '.' :: cs =>
    let ds := cs.takeWhile Char.isDigit
    let six := (ds ++ List.replicate 6 '0').take 6
    (six.foldl (fun n d => 10 * n + (d.toNat - 48)) 0, cs.drop ds.length)
  | cs => (0, cs)

/-- The distance from universal time that ends a time. -/
def offsetOf (cs : List Char) : Option (Option Int) :=
  match cs.dropWhile fun c => c == ' ' || c == '\t' with
  | [] => if cs.isEmpty then some none else none
  | 'Z' :: rest => if rest.isEmpty then some (some 0) else none
  | sign :: rest => do
    if !(sign == '+' || sign == '-') then none
    let (hours, rest) ← digitsOf 1 2 rest
    let (minutes, rest) ← match rest with
      | [] => some (0, [])
      | rest => (after ':' rest).bind (digitsOf 2 2)
    if !rest.isEmpty then none
    let offset : Int := hours * 60 + minutes
    return some (if sign == '-' then -offset else offset)

/-- What separates a date from a time of the day. -/
def dropTimeMark : List Char → Option (List Char)
  | [] => none
  | c :: cs =>
    if c == 'T' || c == 't' then some cs
    else if c == ' ' || c == '\t' then some (cs.dropWhile fun c => c == ' ' || c == '\t')
    else none

/-- The time that a text is written as; the numbers may be out of range. -/
def Time.ofString? (s : String) : Option Time := do
  let (year, cs) ← digitsOf 4 4 s.toList
  let (month, cs) ← (after '-' cs).bind (digitsOf 1 2)
  let (day, cs) ← (after '-' cs).bind (digitsOf 1 2)
  if cs.isEmpty then return .date year month day
  let (hour, cs) ← (dropTimeMark cs).bind (digitsOf 1 2)
  let (minute, cs) ← (after ':' cs).bind (digitsOf 2 2)
  let (second, cs) ← (after ':' cs).bind (digitsOf 2 2)
  let (micro, cs) := fractionOf cs
  return .moment year month day hour minute second micro (← offsetOf cs)

/-! ## Plain scalars -/

/-- The words for truth values. -/
def truthWords : List String :=
  ["yes", "Yes", "YES", "no", "No", "NO", "true", "True", "TRUE", "false", "False", "FALSE",
    "on", "On", "ON", "off", "Off", "OFF"]

/-- The words for nothing. -/
def nullWords : List String :=
  ["", "~", "null", "Null", "NULL"]

/-- What follows a sign, if there is one. -/
def dropSign : List Char → List Char
  | '+' :: cs => cs
  | '-' :: cs => cs
  | cs => cs

/-- What follows digits and underscores. -/
def dropDigits (cs : List Char) : List Char :=
  cs.dropWhile fun c => c.isDigit || c == '_'

/-- Whether a text is empty or a power of ten with its sign. -/
def isExponent : List Char → Bool
  | [] => true
  | e :: sign :: ds =>
    (e == 'e' || e == 'E') && (sign == '+' || sign == '-') && !ds.isEmpty && ds.all Char.isDigit
  | _ => false

/-- What follows numbers below sixty with colons before them; there has to be one. -/
def dropSixties (found : Bool) : (limit : Nat) → List Char → Option (List Char)
  | limit + 1, ':' :: cs =>
    match cs.takeWhile Char.isDigit with
    | [_] => dropSixties true limit (cs.drop 1)
    | [tens, _] => if tens ≤ '5' then dropSixties true limit (cs.drop 2) else none
    | _ => none
  | _, cs => if found then some cs else none

/-- Whether a text starts with a digit. -/
def digitFirst : List Char → Bool
  | c :: _ => c.isDigit
  | [] => false

/-- Whether a text is written as a number with a point. -/
def isFloatText (s : String) : Bool :=
  let all := s.toList
  let cs := dropSign all
  let withPoint := digitFirst cs && match dropDigits cs with
    | '.' :: rest => isExponent (dropDigits rest)
    | _ => false
  let pointFirst := match all with
    | '.' :: rest => digitFirst rest && isExponent (dropDigits rest)
    | _ => false
  let sixties := digitFirst cs && match dropSixties false cs.length (dropDigits cs) with
    | some ('.' :: rest) => (dropDigits rest).isEmpty
    | _ => false
  withPoint || pointFirst || sixties ||
    [".inf", ".Inf", ".INF"].contains (String.ofList cs) || [".nan", ".NaN", ".NAN"].contains s

/-- Whether a text is written as a whole number. -/
def isIntText (s : String) : Bool :=
  match dropSign s.toList with
  | ['0'] => true
  | '0' :: 'b' :: ds => !ds.isEmpty && ds.all fun c => c == '0' || c == '1' || c == '_'
  | '0' :: 'x' :: ds => !ds.isEmpty && ds.all fun c =>
      c.isDigit || ('a' ≤ c && c ≤ 'f') || ('A' ≤ c && c ≤ 'F') || c == '_'
  | '0' :: ds => ds.all fun c => ('0' ≤ c && c ≤ '7') || c == '_'
  | cs =>
    digitFirst cs && match dropDigits cs with
      | [] => true
      | rest => dropSixties false rest.length rest == some []

/-- Whether a text is written as a time. A date alone has two digits for the month
and the day. -/
def isTimeText (s : String) : Bool :=
  match Time.ofString? s with
  | some (.date ..) => s.length == 10
  | some (.moment ..) => true
  | none => false

/-- A text without the line feed at its end. -/
def dropFeed (s : String) : String :=
  if s.toList.getLast? == some '\n' then String.ofList s.toList.dropLast else s

/-- The tag that a text has by the way it is written. The marks that stand before nodes
have no meaning alone. -/
def Tag.ofSpelling (s : String) : Tag :=
  if truthWords.contains s then .bool
  else if isFloatText s then .float
  else if isIntText s then .int
  else if s == "<<" then .merge
  else if nullWords.contains s then .null
  else if isTimeText s then .time
  else if s == "=" then .value
  else if ["!", "&", "*"].contains s then .unknown
  else .text

/-- The tag of a scalar that has none. A line feed at its end does not count, but a line
feed alone is a text. -/
def Tag.resolve (w : Wide) : Tag :=
  match w.toString? with
  | some s => if s == "\n" then .text else ofSpelling (dropFeed s)
  | none => .text

end ComponentCatalog.Yaml
