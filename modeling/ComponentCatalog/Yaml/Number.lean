import ComponentCatalog.Decimal.Shortest
import ComponentCatalog.Text.Numeral
import ComponentCatalog.Yaml.Token

/-!
# Numbers

Whole numbers are written in base ten, or in base two, eight or sixteen when they
start with `0b`, `0` or `0x`, or as numbers in base sixty with colons between the
digits. Numbers with a point are written in base ten or sixty. Underscores may stand
anywhere. A tag can ask for a number where the text is none; that is a fault, as are a
whole number of too many decimal digits and a power of sixty that is too large.

A number with a point is shown with the fewest digits that read back, with a power of
ten when the first digit stands for `10 ^ 16` or more or for less than `10 ^ -4`.
-/

namespace ComponentCatalog.Yaml

open Text

/-- The number that a digit of a base stands for. -/
def digitIn? (base : Nat) (c : Char) : Option Nat :=
  let n? := if c.isDigit then some (c.toNat - 48)
    else if 'a' ≤ c && c ≤ 'z' then some (c.toNat - 87)
    else if 'A' ≤ c && c ≤ 'Z' then some (c.toNat - 55)
    else none
  n?.filter (· < base)

/-- The number that digits of a base spell; there has to be one. -/
def digits? (base : Nat) (ds : List Char) : Option Nat :=
  if ds.isEmpty then none
  else ds.foldl (fun n d => n.bind fun n => (digitIn? base d).map (base * n + ·)) (some 0)

/-- The digits behind the mark of a base, if it is there. -/
def dropBaseMark (base : Nat) : List Char → List Char
  | '0' :: m :: ds =>
    let isMark := (base == 2 && (m == 'b' || m == 'B')) || (base == 8 && (m == 'o' || m == 'O')) ||
      (base == 16 && (m == 'x' || m == 'X'))
    if isMark then ds else '0' :: m :: ds
  | ds => ds

/-- The sign at the start of a text, and the rest. -/
def splitSign : List Char → Int × List Char
  | '-' :: cs => (-1, cs)
  | '+' :: cs => (1, cs)
  | cs => (1, cs)

/-- The whole number that a text spells in a base, with blanks around it. -/
def wholeIn (base : Nat) (cs : List Char) : Except Fault Int :=
  let (sign, ds) := splitSign (numerals cs)
  let ds := dropBaseMark base ds
  if base == 10 && ds.length > digitLimit then .error .outOfRange
  else match digits? base ds with
    | some n => .ok (sign * n)
    | none => .error .outOfRange

/-- A text cut at every colon. -/
def colonParts (part : List Char) : List Char → List (List Char)
  | [] => [part.reverse]
  | ':' :: cs => part.reverse :: colonParts [] cs
  | c :: cs => colonParts (c :: part) cs

/-- The whole number that a text spells. -/
def readInt (s : String) : Except Fault Int := do
  let cs := s.toList.filter (· != '_')
  if cs.isEmpty then throw .emptyNumber
  let (sign, cs) := splitSign cs
  match cs with
  | ['0'] => return 0
  | '0' :: 'b' :: ds => return sign * (← wholeIn 2 ds)
  | '0' :: 'x' :: ds => return sign * (← wholeIn 16 ds)
  | '0' :: _ => return sign * (← wholeIn 8 cs)
  | [] => throw .emptyNumber
  | _ =>
    let parts ← (colonParts [] cs).mapM (wholeIn 10)
    return sign * parts.foldl (fun n d => 60 * n + d) 0

/-- The power of ten at the end of a number. -/
def readExponent : List Char → Except Fault Int
  | [] => .ok 0
  | e :: cs =>
    let (sign, ds) := splitSign cs
    match digits? 10 ds with
    | some n => if e == 'e' then .ok (sign * n) else .error .outOfRange
    | none => .error .outOfRange

/-- The number with a point that a text in small letters spells in base ten, with
blanks around it. -/
def decimalOf (cs : List Char) : Except Fault Float := do
  let (sign, cs) := splitSign (numerals cs)
  let factor : Float := if sign < 0 then -1.0 else 1.0
  if ["inf", "infinity"].contains (String.ofList cs) then return factor * (1.0 / 0.0)
  if cs == ['n', 'a', 'n'] then return 0.0 / 0.0
  let before := cs.takeWhile Char.isDigit
  let rest := cs.drop before.length
  let (behind, rest) := match rest with
    | '.' :: ds => (ds.takeWhile Char.isDigit, ds.dropWhile Char.isDigit)
    | _ => ([], rest)
  let exponent ← readExponent rest
  match digits? 10 (before ++ behind) with
  | some n => return factor * Decimal.nearest n (exponent - behind.length)
  | none => throw .outOfRange

/-- The power of sixty of a place. -/
def sixtyTo (place : Nat) : Except Fault Float :=
  if place < 174 then .ok (Decimal.nearest (Nat.pow 60 place) 0) else .error .tooLarge

/-- The number that digits of base sixty from a place on add up to, the last digit
first. -/
def sumSixties (place : Nat) (sum : Float) : List Float → Except Fault Float
  | [] => .ok sum
  | d :: ds => do sumSixties (place + 1) (sum + d * (← sixtyTo place)) ds

/-- The sign of a number with a point and what follows it, in small letters. -/
def signedParts (s : String) : Int × List Char :=
  splitSign ((s.toList.filter (· != '_')).map Char.toLower)

/-- Whether a text is the word for what is no number. -/
def isNanWord (s : String) : Bool :=
  (signedParts s).2 == ".nan".toList

/-- The number with a point that a text spells. -/
def readFloat (s : String) : Except Fault Float := do
  if (s.toList.filter (· != '_')).isEmpty then throw .emptyNumber
  let (sign, cs) := signedParts s
  let factor : Float := if sign < 0 then -1.0 else 1.0
  if cs == ".inf".toList then return factor * (1.0 / 0.0)
  if isNanWord s then return 0.0 / 0.0
  match (← (colonParts [] cs).mapM decimalOf).reverse with
  | [x] => return factor * x
  | parts => return factor * (← sumSixties 0 0.0 parts)

/-- Digits with the point where the power of ten puts it. -/
def positional (digits : List Char) (lead : Int) : List Char :=
  if lead < 0 then '0' :: '.' :: List.replicate (-lead - 1).toNat '0' ++ digits
  else
    let whole := lead.toNat + 1
    if digits.length ≤ whole then
      digits ++ List.replicate (whole - digits.length) '0' ++ ['.', '0']
    else digits.take whole ++ '.' :: digits.drop whole

/-- Digits with a power of ten of at least two digits behind them. -/
def scientific (digits : List Char) (lead : Int) : List Char :=
  let power := Nat.toDigits 10 lead.natAbs
  let mantissa := match digits with
    | d :: [] => [d]
    | d :: ds => d :: '.' :: ds
    | [] => []
  let sign := if lead < 0 then '-' else '+'
  mantissa ++ 'e' :: sign :: List.replicate (2 - power.length) '0' ++ power

/-- The text of a number with a point. -/
def floatText (x : Float) : String :=
  let (negative, exponent, fraction) := Decimal.bits x
  let sign := if negative then "-" else ""
  if exponent == 2047 then
    if fraction == 0 then sign ++ "inf" else "nan"
  else if exponent == 0 && fraction == 0 then sign ++ "0.0"
  else
    let d := Decimal.shortest (Decimal.ofBits exponent fraction)
    let digits := Nat.toDigits 10 d.digits
    let lead := d.exponent + digits.length - 1
    sign ++ String.ofList
      (if -4 ≤ lead && lead < 16 then positional digits lead else scientific digits lead)

end ComponentCatalog.Yaml
