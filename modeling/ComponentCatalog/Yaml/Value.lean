import ComponentCatalog.Text.Base64
import ComponentCatalog.Yaml.Number
import ComponentCatalog.Yaml.Tag

/-!
# YAML values

The keys of a mapping are scalars. Numbers and truth values that are equal as numbers are
one key, and so are times at one instant; a key keeps the spelling it had first, and the
last value that is given for it counts.

`ofScalar` is the value that a text has under a tag.
-/

namespace ComponentCatalog.Yaml

open Text

/-- A YAML value. -/
inductive Value where
  | null
  | bool (b : Bool)
  | int (n : Int)
  | float (x : Float)
  /-- What is no number; unless the word for it is given, it is that of one node. -/
  | nan (node? : Option Nat)
  | text (w : Wide)
  | binary (bytes : List UInt8)
  | time (t : Time)
  | list (items : List Value)
  /-- An entry of an ordered mapping. -/
  | pair (key value : Value)
  | mapping (pairs : List (Value × Value))
  | set (members : List Value)

namespace Value

/-! ## Times -/

/-- Whether a year has a day more. -/
def isLeapYear (year : Nat) : Bool :=
  year % 4 == 0 && (year % 100 != 0 || year % 400 == 0)

/-- The number of days of a month. -/
def daysIn (year month : Nat) : Nat :=
  if month == 2 then (if isLeapYear year then 29 else 28)
  else if [4, 6, 9, 11].contains month then 30
  else 31

/-- Whether there is such a date. -/
def isDate (year month day : Nat) : Bool :=
  1 ≤ year && year ≤ 9999 && 1 ≤ month && month ≤ 12 && 1 ≤ day && day ≤ daysIn year month

/-- Whether there is such a time. -/
def isTime : Time → Bool
  | .date year month day => isDate year month day
  | .moment year month day hour minute second _ offset? =>
    isDate year month day && hour < 24 && minute < 60 && second < 60 &&
      offset?.all fun o => o.natAbs < 24 * 60

/-- The number of days before a date, from the year one on. -/
def daysBefore (year month day : Nat) : Nat :=
  let years := year - 1
  let inMonths := (List.range (month - 1)).foldr (fun m days => daysIn year (m + 1) + days) 0
  years * 365 + years / 4 - years / 100 + years / 400 + inMonths + (day - 1)

/-- The instant of a time whose distance from universal time is known, in millionths of a
second. -/
def instant? : Time → Option Int
  | .moment year month day hour minute second micro (some offset) =>
    let minutes : Int := daysBefore year month day * (24 * 60) + hour * 60 + minute - offset
    some ((minutes * 60 + second) * 1000000 + micro)
  | _ => none

/-! ## Keys -/

/-- The number that a value is, if it is a whole one. -/
def whole? : Value → Option Int
  | bool b => some (if b then 1 else 0)
  | int n => some n
  | float x => Decimal.whole? x
  | _ => none

/-- Whether two values are one key. -/
def sameKey (a b : Value) : Bool :=
  match a, b with
  | null, null => true
  | text v, text w => v == w
  | binary s, binary t => s == t
  | time s, time t =>
    match instant? s, instant? t with
    | some m, some n => m == n
    | _, _ => s == t
  | float x, float y => x == y
  | nan m, nan n => m == n
  | a, b =>
    match a.whole?, b.whole? with
    | some m, some n => m == n
    | _, _ => false

/-- The pairs of a mapping with one more, or with a new value for its key. -/
def putPair (key value : Value) : List (Value × Value) → List (Value × Value)
  | [] => [(key, value)]
  | (k, v) :: ps =>
    if k.sameKey key then (k, value) :: ps else (k, v) :: putPair key value ps

/-- The pairs of a mapping from those that were written. -/
def mappingOf (pairs : List (Value × Value)) : List (Value × Value) :=
  pairs.foldl (fun ps (k, v) => putPair k v ps) []

/-! ## Values of scalars -/

/-- The truth value of a word. -/
def truth? (s : String) : Option Bool :=
  if ["yes", "true", "on"].contains (s.map Char.toLower) then some true
  else if ["no", "false", "off"].contains (s.map Char.toLower) then some false
  else none

/-- The value of a number that the text of a node spells. -/
def ofFloat (node : Nat) (s : String) (x : Float) : Value :=
  if x.isNaN then .nan (if isNanWord s then none else some node) else .float x

/-- The value that the text of a node has under a tag. -/
def ofScalar (node : Nat) (tag : Tag) (w : Wide) : Except Fault Value :=
  match tag with
  | .null => .ok .null
  | .bool =>
    match truth? w.display with
    | some b => .ok (.bool b)
    | none => .error .unknownTruth
  | .int => (readInt w.display).map .int
  | .float => (readFloat w.display).map (ofFloat node w.display)
  | .binary =>
    match decodeBase64? w.display with
    | some bytes => .ok (.binary bytes)
    | none => .error .malformed
  | .time =>
    match Time.ofString? (dropFeed w.display) with
    | some t => if isTime t then .ok (.time t) else .error .outOfRange
    | none => .error .notTime
  | .text => .ok (.text w)
  | _ => .error .malformed

/-! ## Texts of values -/

/-- A number with zeros in front of it. -/
def padded (width n : Nat) : String :=
  let ds := Nat.toDigits 10 n
  String.ofList (List.replicate (width - ds.length) '0' ++ ds)

/-- The text of a date. -/
def dateText (year month day : Nat) : String :=
  padded 4 year ++ "-" ++ padded 2 month ++ "-" ++ padded 2 day

/-- The text of a time. -/
def timeText : Time → String
  | .date year month day => dateText year month day
  | .moment year month day hour minute second micro offset? =>
    let fraction := if micro == 0 then "" else "." ++ padded 6 micro
    let offset := match offset? with
      | none => ""
      | some o => (if o < 0 then "-" else "+") ++ padded 2 (o.natAbs / 60) ++ ":" ++
          padded 2 (o.natAbs % 60)
    dateText year month day ++ " " ++ padded 2 hour ++ ":" ++ padded 2 minute ++ ":" ++
      padded 2 second ++ fraction ++ offset

/-- A byte as it stands between quotes. -/
def byteText (quote : Char) (b : UInt8) : List Char :=
  let c := Char.ofNat b.toNat
  let hex := fun n => (Nat.toDigits 16 n).headD '0'
  if c == quote || c == '\\' then ['\\', c]
  else if c == '\t' then ['\\', 't']
  else if c == '\n' then ['\\', 'n']
  else if c == '\r' then ['\\', 'r']
  else if 32 ≤ b && b < 127 then [c]
  else ['\\', 'x', hex (b.toNat / 16), hex (b.toNat % 16)]

/-- The text of bytes. -/
def bytesText (bytes : List UInt8) : String :=
  let quote := if bytes.contains 39 && !bytes.contains 34 then '"' else '\''
  String.ofList ('b' :: quote :: bytes.flatMap (byteText quote) ++ [quote])

/-- The text of a truth value. -/
def truthText (b : Bool) : String :=
  if b then "True" else "False"

/-- The text of a whole number; it must not have too many digits. -/
def intText (n : Int) : Except Fault String :=
  if digitLimit < (Nat.toDigits 10 n.natAbs).length then .error .outOfRange else .ok n.repr

/-- A text of code points as it is shown. -/
def shown (w : Wide) : String :=
  Wide.display ⟨joinPairs w.points⟩

/-- The text of a value that is a text, a number or a truth value. -/
def plainText? : Value → Except Fault (Option String)
  | text w => .ok (some (shown w))
  | int n => (intText n).map some
  | float x => .ok (some (floatText x))
  | nan _ => .ok (some "nan")
  | bool b => .ok (some (truthText b))
  | _ => .ok none

/-- The text of a key. -/
def keyText : Value → Except Fault String
  | null => .ok "None"
  | binary bytes => .ok (bytesText bytes)
  | time t => .ok (timeText t)
  | v => v.plainText?.map (·.getD "")

/-! ## Parts of values -/

/-- Whether a value counts as nothing at the root of a document. -/
def isNothing : Value → Bool
  | null => true
  | bool b => !b
  | int n => n == 0
  | float x => x == 0.0
  | text w => w.isEmpty
  | binary bytes => bytes.isEmpty
  | list items => items.isEmpty
  | mapping pairs => pairs.isEmpty
  | set members => members.isEmpty
  | _ => false

/-- The pairs of a mapping; none of any other value. -/
def pairs : Value → List (Value × Value)
  | mapping ps => ps
  | _ => []

/-- The value of a key that is a text. -/
def get? (v : Value) (key : String) : Option Value :=
  (v.pairs.find? fun (k, _) => k.sameKey (.text (.ofString key))).map Prod.snd

/-- The texts of a list: those of its items that have one; those of the numbers of its
bytes; a text alone; nothing of any other value. -/
def texts : Value → Except Fault (List String)
  | text w => .ok [shown w]
  | list items => (items.mapM plainText?).map (·.filterMap id)
  | binary bytes => .ok (bytes.map fun b => b.toNat.repr)
  | _ => .ok []

end Value

end ComponentCatalog.Yaml
