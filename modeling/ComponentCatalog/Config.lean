import ComponentCatalog.Manual.Pages

/-!
# Configuration

A configuration says which components are documented, what is left out of their
documents, how the types that properties are inherited from are found, and which
names a reader of sources recognises. Every part has a default that fits a
library built in the usual way; `Config.Load` reads what differs from a file.

Tables are lists of pairs, in the order in which they were written.
-/

namespace ComponentCatalog

/-- What is left out of the document of one component, besides what is left out
of all. -/
structure Override where
  excludeProps : List String := []
  excludeMethods : List String := []
  excludeStyleClasses : List String := []
  deriving DecidableEq, Repr

/-- What is left out of documents. -/
structure Policy where
  excludeProps : List String := []
  excludeInheritedProps : List String :=
    ["listener", "showskeletonchildren", "deferload", "isdefault", "key"]
  excludeMethods : List String :=
    ["renderWidget", "renderSkeleton", "prepareIcon", "prepareBadge", "updateState",
      "componentDidMount", "componentWillUnmount", "componentDidUpdate"]
  excludeStyleClasses : List String := []
  /-- What is left out of single components, by their names. -/
  overrides : List (String × Override) := []
  deriving DecidableEq, Repr

/-- What is left out of one component besides what is left out of all. -/
def Policy.overrideFor (p : Policy) (component : String) : Override :=
  (p.overrides.lookup component).getD {}

/-- Where and how the types that properties are inherited from are found. -/
structure InheritanceRules where
  /-- The type at which every chain ends. -/
  rootType : String := "BaseProps"
  /-- The file that declares it, seen from the library. -/
  rootArtifact : String := "core/base.component.js.map"
  /-- The directories that are searched, seen from the library. -/
  searchRoots : List String := ["components", "core"]
  /-- The beginnings of type names that file names leave out. -/
  typePrefixes : List String := ["Wm"]
  /-- The ending of type names that file names leave out. -/
  typeSuffix : String := "Props"
  deriving DecidableEq, Repr

/-- The names that a reader of sources recognises. -/
structure SourceNames where
  internalMethods : List String :=
    ["constructor", "render", "renderWidget", "renderSkeleton", "componentDidMount",
      "componentWillUnmount", "componentDidUpdate", "shouldComponentUpdate",
      "getSnapshotBeforeUpdate", "componentDidCatch", "onPropertyChange", "prepareIcon",
      "prepareBadge", "updateState"]
  styleRegistrars : List String := ["addStyle"]
  defaultClassConstant : String := "DEFAULT_CLASS"
  eventEmitters : List String := ["invokeEventCallback"]
  defaultPropsNames : List String := ["defaultProps", "DEFAULT_PROPS"]
  deriving DecidableEq, Repr

/-- Where the manual is kept and which pages describe which component. -/
structure ManualSettings where
  baseUrl : String := Manual.defaultBaseUrl
  /-- The pages of components, by their names in small letters. -/
  pages : List (String × List String) := Manual.defaultPages
  deriving DecidableEq, Repr

/-- A configuration. -/
structure Config where
  /-- The components that are documented. -/
  includeComponents : List String := Manual.defaultPages.map Prod.fst
  /-- The groups of components that are passed over. -/
  excludeGroups : List String := ["page", "prefab"]
  /-- The components that are passed over. -/
  excludeComponents : List String := []
  /-- Further names of components, with the names they stand for. -/
  aliases : List (String × String) := []
  /-- The children of components, with the paths that lead to them from the
  directory of the parent. -/
  childComponents : List (String × List (String × String)) :=
    [("tabs", [("tabpane", "tabpane")]), ("accordion", [("accordionpane", "accordionpane")]),
      ("wizard", [("wizardstep", "wizardstep")])]
  policy : Policy := {}
  inheritance : InheritanceRules := {}
  names : SourceNames := {}
  manual : ManualSettings := {}
  deriving DecidableEq, Repr

end ComponentCatalog
