import ComponentCatalog.Document
import ComponentCatalog.Log
import ComponentCatalog.Syntax.Tree
import ComponentCatalog.Text.Affix

/-!
# Properties of a component

The properties of a component are the fields of a class or the members of an
interface. A source may declare several; `select?` says which one counts. The
declaration asked for by name comes first, then the first whose name has the
usual ending, then the first that declares any member at all.

Of the members of a declaration only the visible ones count, and of several
members with one name only the first: a private field does not hide a later
public one, but a field does hide a later field of its own name.

The default value of a property is the initialiser of its field. Where the field
has none, the object literals bound to one of the default-value names are
searched: first those that are static members of the declaration, then those of
variables, then those assigned to a member of something. A literal is seen
through brackets and through type assertions.
-/

namespace ComponentCatalog.Extract

open Syntax

/-- The name a declaration has when it has none. -/
def anonymousName : String := "<anonymous>"

/-- The type of a property that states none. -/
def untyped : String := "any"

/-- What to look for in a source. -/
structure PropertyOptions where
  /-- The name of the declaration, if it is known. -/
  typeName? : Option String := none
  /-- The usual ending of the names of such declarations. -/
  typeSuffix : String := "Props"
  /-- The names that object literals with default values are bound to. -/
  defaultNames : List String := ["defaultProps", "DEFAULT_PROPS"]

/-- The kinds of classes. -/
def classKinds : List Kind :=
  [.classDeclaration, .abstractClassDeclaration, .classExpression]

/-- The members of a class or interface that declare properties. -/
def declaredMembers (declaration : Node) : List Node :=
  match declaration.inRole? .body with
  | none => []
  | some body =>
    if declaration.kind == .interfaceDeclaration then
      body.children.filter fun c => c.kind == .propertySignature || c.kind == .methodSignature
    else body.children.filter fun c => c.kind == .fieldDefinition

/-- The name of a declaration, or the empty text. -/
def nameOrEmpty (t : Tree) (declaration : Node) : String :=
  (t.declaredName? declaration).getD ""

/-- The classes and interfaces of a source, in document order. -/
def declarations (t : Tree) : List Node :=
  t.ofKinds (classKinds ++ [.interfaceDeclaration])

/-- The declaration that is asked for by its name. -/
def namedDeclaration? (t : Tree) (o : PropertyOptions) : Option Node :=
  match o.typeName? with
  | some name =>
    if name.isEmpty then none else (declarations t).find? fun d => nameOrEmpty t d == name
  | none => none

/-- The first declaration whose name has the usual ending. -/
def usualDeclaration? (t : Tree) (o : PropertyOptions) : Option Node :=
  if o.typeSuffix.isEmpty then none
  else (declarations t).find? fun d => Text.endsWith (nameOrEmpty t d) o.typeSuffix

/-- The first declaration that declares any member. -/
def firstDeclaration? (t : Tree) : Option Node :=
  (declarations t).find? fun d => !(declaredMembers d).isEmpty

/-- The declaration that counts among those of a source. -/
def select? (t : Tree) (o : PropertyOptions) : Option Node :=
  (namedDeclaration? t o).or ((usualDeclaration? t o).or (firstDeclaration? t))

/-- The declaration that counts is one of those of the source. -/
theorem mem_declarations_of_select? {t : Tree} {o : PropertyOptions} {d : Node}
    (h : select? t o = some d) : d ∈ declarations t := by
  unfold select? at h
  rw [Option.or_eq_some_iff, Option.or_eq_some_iff] at h
  rcases h with h | ⟨_, h | ⟨_, h⟩⟩
  · unfold namedDeclaration? at h
    split at h
    · split at h
      · cases h
      · exact List.mem_of_find?_eq_some h
    · cases h
  · unfold usualDeclaration? at h
    split at h
    · cases h
    · exact List.mem_of_find?_eq_some h
  · exact List.mem_of_find?_eq_some h

/-! ## Members -/

/-- The name of a member as users write it. Private and computed names are
none. -/
def memberName? (t : Tree) (member : Node) : Option String := do
  let n ← member.inRole? .name <|> member.firstOf? [.propertyIdentifier, .string]
  if n.kind == .privateIdentifier || n.kind == .computedName then none
  else some ((t.stringValue? n).getD (t.text n))

/-- Whether a member is kept from the users of its class. -/
def isHidden (t : Tree) (member : Node) : Bool :=
  match member.firstOf? [.accessibilityModifier] with
  | some m => t.text m == "private" || t.text m == "protected"
  | none => false

/-- The name of a member that users see; a member without one is not visible. -/
def visibleName? (t : Tree) (isClass : Bool) (member : Node) : Option String :=
  if isClass && (member.hasToken "static" || isHidden t member) then none
  else (memberName? t member).filter fun s => !s.isEmpty

/-- The type a member states. -/
def memberType? (t : Tree) (member : Node) : Option String :=
  (member.inRole? .type).bind t.annotatedType? <|>
    (member.firstOf? [.typeClause]).bind t.annotatedType?

/-- The type of a method signature, written as a function type. -/
def signatureType (t : Tree) (member : Node) : String :=
  let params := member.inRole? .parameters <|> member.firstOf? [.formalParameters]
  let result := (member.inRole? .returnType).bind t.annotatedType?
  let shown := (result.filter fun s => !s.isEmpty).getD "void"
  (params.map t.text).getD "()" ++ " => " ++ shown

/-- The property that a visible member declares. The entries are the default
values found elsewhere in the source; the first one for a name counts. -/
def propertyOf (t : Tree) (defaults : List (String × String)) (name : String)
    (member : Node) : Property :=
  let type := if member.kind == .methodSignature then some (signatureType t member)
    else memberType? t member
  let own := if member.kind == .fieldDefinition then
      (member.inRole? .value).map fun v => Text.trim (t.text v)
    else none
  { name := name
    type := (type.filter fun s => !s.isEmpty).getD untyped
    optional := member.hasToken "?"
    default? := own <|> defaults.lookup name }

/-- The visible members of a declaration with their names, in source order. -/
def visibleMembers (t : Tree) (declaration : Node) : List (String × Node) :=
  let isClass := declaration.kind != .interfaceDeclaration
  (declaredMembers declaration).filterMap fun m =>
    (visibleName? t isClass m).map fun name => (name, m)

/-! ## Default values -/

/-- The expression inside brackets and type assertions. A wrapper that holds a
comment first holds nothing else that counts. -/
def unwrap (n : Node) : Node :=
  go n n.count
where
  /-- Takes off at most `limit` wrappers. -/
  go (n : Node) : (limit : Nat) → Node
    | 0 => n
    | limit + 1 =>
      if [Kind.asExpression, .satisfiesExpression, .parenthesizedExpression].contains n.kind then
        match n.namedChildren with
        | m :: _ => go m limit
        | [] => n
      else n

/-- The object literal that an expression comes down to. -/
def literal? (value : Option Node) : Option Node :=
  (value.map unwrap).filter fun n => n.kind == .object

/-- The object literals that hold default values, in the order in which they
are searched. -/
def defaultLiterals (t : Tree) (declaration : Node) (names : List String) : List Node :=
  let statics := if declaration.kind == .interfaceDeclaration then []
    else (declaredMembers declaration).filter fun m => m.hasToken "static"
  let fromStatics := statics.filterMap fun m =>
    match memberName? t m with
    | some name => if names.contains name then literal? (m.inRole? .value) else none
    | none => none
  let fromVariables := (t.ofKinds [.variableDeclarator]).filterMap fun d =>
    match d.inRole? .name with
    | some n => if names.contains (t.text n) then literal? (d.inRole? .value) else none
    | none => none
  let fromAssignments := (t.ofKinds [.assignmentExpression]).filterMap fun a =>
    match (a.inRole? .left).filter fun l => l.kind == .memberExpression with
    | some l =>
      match l.inRole? .property with
      | some p => if names.contains (t.text p) then literal? (a.inRole? .right) else none
      | none => none
    | none => none
  fromStatics ++ fromVariables ++ fromAssignments

/-- The entries of an object literal: its keys with the texts of their values. -/
def objectEntries (t : Tree) (object : Node) : List (String × String) :=
  object.namedChildren.filterMap fun c =>
    match c.kind with
    | .pair =>
      match c.inRole? .key, c.inRole? .value with
      | some k, some v => some ((t.stringValue? k).getD (t.text k), Text.trim (t.text v))
      | _, _ => none
    | .shorthandProperty => some (t.text c, t.text c)
    | _ => none

/-- The entries of all the literals that hold default values, in the order in
which they are searched. -/
def defaultEntries (t : Tree) (declaration : Node) (names : List String) :
    List (String × String) :=
  (defaultLiterals t declaration names).flatMap (objectEntries t)

/-! ## The base type -/

/-- The last name of a path of names. -/
def lastSegment (s : String) : String :=
  String.ofList ((Text.trim s).toList.reverse.takeWhile (· != '.')).reverse

/-- The class that a class extends. -/
def classBase? (t : Tree) (declaration : Node) : Option String := do
  let heritage ← declaration.firstOf? [.classHeritage]
  let clause ← heritage.firstOf? [.extendsClause]
  let value ← clause.inRole? .value <|>
    clause.namedChildren.find? fun c => c.kind != .typeArguments
  some (lastSegment (t.text value))

/-- The first type that an interface extends. -/
def interfaceBase? (t : Tree) (declaration : Node) : Option String := do
  let clause ← declaration.firstOf? [.extendsTypeClause]
  let first ← clause.namedChildren.head?
  if first.kind == .genericType then
    let name ← first.inRole? .name <|> first.namedChildren.head?
    some (lastSegment (t.text name))
  else some (lastSegment (t.text first))

/-- The type that a declaration extends. -/
def baseOf? (t : Tree) (declaration : Node) : Option String :=
  if declaration.kind == .interfaceDeclaration then interfaceBase? t declaration
  else classBase? t declaration

/-- The types that the declarations of a source extend. -/
def basesOf (t : Tree) : List String :=
  (declarations t).filterMap (baseOf? t)

/-! ## The whole bag -/

/-- What a declaration says about properties. -/
def bagOf (t : Tree) (o : PropertyOptions) (declaration : Node) : PropertyBag :=
  let defaults := defaultEntries t declaration o.defaultNames
  let members := firstOfEachName Prod.fst [] (visibleMembers t declaration)
  let className := ((t.declaredName? declaration).filter fun s => !s.isEmpty).getD anonymousName
  { className := className
    props := members.map fun (name, m) => propertyOf t defaults name m
    base? := baseOf? t declaration }

/-- The properties declared in a source, if it declares any. -/
def properties? (t : Tree) (o : PropertyOptions) : Option PropertyBag :=
  (select? t o).map (bagOf t o)

/-- The base type of the properties of a source is one that the source extends. -/
theorem mem_basesOf_of_properties? {t : Tree} {o : PropertyOptions} {bag : PropertyBag}
    {base : String} (h : properties? t o = some bag) (hb : bag.base? = some base) :
    base ∈ basesOf t := by
  unfold properties? at h
  rw [Option.map_eq_some_iff] at h
  obtain ⟨d, hd, rfl⟩ := h
  exact List.mem_filterMap.2 ⟨d, mem_declarations_of_select? hd, hb⟩

/-- What is noted when a source declares no properties. -/
def missingPropertiesNote (o : PropertyOptions) : Log.Record :=
  let wanted := (o.typeName?.filter fun s => !s.isEmpty).getD ("*" ++ o.typeSuffix)
  Log.debug "extraction.props" ("No property declaration found (wanted " ++ wanted ++ ")")

end ComponentCatalog.Extract
