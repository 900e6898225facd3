import ComponentCatalog.Text.Wide

/-!
# YAML tokens

A YAML text is a sequence of tokens: scalars with their texts, the marks of flow
collections, and the beginnings and ends of block collections, which the indentation
spells. `Token.Reader` reads them off a text and `Node` builds nodes from them. Where a
text cannot be read any further, its last token says why; the fault counts once that
token is asked for.
-/

namespace ComponentCatalog.Yaml

open Text

/-- Why a text has no value. -/
inductive Fault where
  /-- The text is not YAML, or a part of it has no meaning. -/
  | malformed
  /-- A number, date or code point is not one there is. -/
  | outOfRange
  /-- A number has no digits. -/
  | emptyNumber
  /-- A truth value has an unknown name. -/
  | unknownTruth
  /-- A time is not written as one. -/
  | notTime
  /-- A number is larger than those that are computed with. -/
  | tooLarge
  /-- A mapping stands where a text is needed. -/
  | notText
  /-- A mapping stands for a text that leads back to it. -/
  | endless
  deriving DecidableEq, Repr

/-- The largest number of decimal digits of a whole number that is read or shown. -/
def digitLimit : Nat := 4300

/-- A line that is addressed to the reader of a document. -/
inductive Directive where
  | version (major : Nat)
  | tagHandle (handle start : String)
  | other
  deriving DecidableEq, Repr

/-- A token of a YAML text. -/
inductive Token where
  | directive (d : Directive)
  | documentStart
  | documentEnd
  | streamEnd
  | blockSequenceStart
  | blockMappingStart
  | blockEnd
  | flowSequenceStart
  | flowSequenceEnd
  | flowMappingStart
  | flowMappingEnd
  | key
  | value
  | blockEntry
  | flowEntry
  | aliasTo (name : String)
  | anchor (name : String)
  /-- A tag as it is written; a verbatim tag has no handle. -/
  | tag (handle? : Option String) (suffix : String)
  | scalar (text : Wide) (plain : Bool)
  /-- The place from which on a text cannot be read. -/
  | broken (f : Fault)
  deriving DecidableEq, Repr

end ComponentCatalog.Yaml
