import ComponentCatalog.Text.Affix
import ComponentCatalog.Text.Lowercase

/-!
# Dialects of component sources

Component sources come in two dialects, and the name of the file a source was
written in tells which one it is.
-/

namespace ComponentCatalog.Syntax

/-- The two dialects of component sources. They differ in one bracket: an
opening `<` begins a type assertion in the first and an element literal in the
second. -/
inductive Dialect where
  | typescript
  | tsx
  deriving DecidableEq, Repr

/-- The endings of the names of files that may hold element literals. -/
def elementEndings : List String :=
  [".tsx", ".jsx", ".js", ".mjs", ".cjs"]

/-- The dialect of a source by the name of its file; a source whose file is not
known has no element literals. -/
def Dialect.ofFileName (name? : Option String) : Dialect :=
  match name? with
  | some name =>
    if elementEndings.any (Text.endsWith (Text.lower name)) then .tsx else .typescript
  | none => .typescript

end ComponentCatalog.Syntax
