import ComponentCatalog.Text.Wide

/-!
# JSON values

Objects are lists of pairs, because the order of their keys is kept when they are
read and when they are written. A key occurs once: reading a key again replaces
its value and leaves it in its place.

A number is its literal. Nothing in the catalogue computes with numbers; they are
only told apart from everything else.
-/

namespace ComponentCatalog

open Text

/-- A JSON value. -/
inductive Json where
  | null
  | bool (b : Bool)
  /-- A number, by its literal. -/
  | number (literal : String)
  | string (s : Wide)
  | array (items : List Json)
  | object (fields : List (Wide × Json))

namespace Json

/-- A string value. -/
def text (s : String) : Json :=
  .string (.ofString s)

/-- An object with the given fields, whose keys are distinct. -/
def ofFields (fields : List (String × Json)) : Json :=
  .object (fields.map fun (k, v) => (.ofString k, v))

/-- A list of fields with one more: a field of the same key is replaced in its
place, and a new one comes last. -/
def putField (k : Wide) (v : Json) : List (Wide × Json) → List (Wide × Json)
  | [] => [(k, v)]
  | (k', v') :: fs => if k' = k then (k', v) :: fs else (k', v') :: putField k v fs

/-- The value of a key of an object. -/
def field? (j : Json) (key : String) : Option Json :=
  match j with
  | .object fields => (fields.find? fun f => f.1 = .ofString key).map Prod.snd
  | _ => none

end Json

end ComponentCatalog
