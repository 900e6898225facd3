import ComponentCatalog.Proofs.EligibleMethods
import ComponentCatalog.Proofs.Handlers
import ComponentCatalog.Proofs.StyleRegistrations
import ComponentCatalog.Proofs.VisibleProperties

/-!
# What is chosen stands first in the document

A source may offer several things where only one is wanted: declarations, classes, initialisers
of a name, default values of a property. All extractors go through lists that the walk of the tree
has made, and take the first thing that suits them. Since the walk lists the tree in document
order, the thing they take is the one with the least address among those that suit, and this is
what is said here of every such choice. Where there are better and worse reasons to choose
something, the reason is compared first and the address second.

What is not chosen but listed, the classes that calls register and the events that they emit, comes
in the order of the addresses of the calls. A call that stands inside another one comes after it.
-/

namespace ComponentCatalog.Extract

open Syntax

/-- The first of three choices that there is. -/
theorem or_or_eq_findSome? {α β : Type} (f : α → Option β) (a b c : α) :
    (f a).or ((f b).or (f c)) = [a, b, c].findSome? f := by
  cases ha : f a <;> cases hb : f b <;> cases hc : f c <;> simp [ha, hb, hc]

/-! ## Declarations -/

/-- **A reason to choose a declaration.** -/
inductive DeclarationReason where
  /-- It has the name that is asked for. -/
  | asked
  /-- Its name has the usual ending. -/
  | usual
  /-- It declares a member. -/
  | member

namespace DeclarationReason

/-- The reasons, the better ones first. -/
def all : List DeclarationReason :=
  [asked, usual, member]

/-- What a reason says of a declaration. -/
def Holds (t : Tree) (o : PropertyOptions) (d : Node) : DeclarationReason → Prop
  | asked => o.typeName? = some (nameOrEmpty t d) ∧ nameOrEmpty t d ≠ ""
  | usual => o.typeSuffix ≠ "" ∧ ∃ front, nameOrEmpty t d = front ++ o.typeSuffix
  | member => declaredMembers d ≠ []

/-- The declaration that is found for a reason. -/
def find? (t : Tree) (o : PropertyOptions) : DeclarationReason → Option Node
  | asked => namedDeclaration? t o
  | usual => usualDeclaration? t o
  | member => firstDeclaration? t

end DeclarationReason

/-- A class or an interface at an address. -/
def DeclaredAt (t : Tree) (p : List ℕ) (d : Node) : Prop :=
  t.root.at? p = some d ∧ (d.kind ∈ classKinds ∨ d.kind = .interfaceDeclaration)

/-- **A declaration that may be chosen**, by the reason for it and by its address. -/
def DeclarationAt (t : Tree) (o : PropertyOptions) (k : ℕ ×ₗ List ℕ) (d : Node) : Prop :=
  ∃ reason, DeclarationReason.all[(ofLex k).1]? = some reason
    ∧ DeclaredAt t (ofLex k).2 d ∧ reason.Holds t o d

/-- Declarations are listed in the order of their places. -/
theorem listsInOrder_declarations (t : Tree) : ListsInOrder (DeclaredAt t) (declarations t) := by
  refine (t.root.listsInOrder_ofKinds _).congr fun p d => and_congr_right fun _ => ?_
  rw [List.mem_append, List.mem_singleton]
  refine and_iff_right_of_imp fun h => ?_
  rcases h with h | h
  · simp only [classKinds, List.mem_cons, List.not_mem_nil, or_false] at h
    rcases h with h | h | h <;> simp [Node.isNamed, h, Kind.isNamed]
  · simp [Node.isNamed, h, Kind.isNamed]

/-- For each reason, the first declaration is found that it holds for. -/
theorem DeclarationReason.findsFirst_find? (t : Tree) (o : PropertyOptions)
    (reason : DeclarationReason) :
    FindsFirst (fun p d => DeclaredAt t p d ∧ reason.Holds t o d) (reason.find? t o) := by
  have hlist := listsInOrder_declarations t
  cases reason with
  | asked =>
    unfold find? namedDeclaration? Holds
    cases o.typeName? with
    | none => exact .nothing (by simp)
    | some name =>
      dsimp only
      split_ifs with hname
      · exact .nothing (by simp_all)
      · refine hlist.findsFirst_find? fun d => ?_
        rw [String.isEmpty_iff] at hname
        rw [beq_iff_eq, Option.some.injEq]
        constructor
        · rintro rfl
          exact ⟨rfl, hname⟩
        · exact fun h => h.1.symm
  | usual =>
    unfold find? usualDeclaration? Holds
    split_ifs with hsuffix
    · exact .nothing (by simp_all)
    · refine hlist.findsFirst_find? fun d => ?_
      rw [Text.endsWith_iff]
      simp_all
  | member =>
    refine hlist.findsFirst_find? fun d => ?_
    simp [Holds]

/-- **The declaration that is chosen stands first** among those for which there is the best
reason. -/
theorem findsFirst_select? (t : Tree) (o : PropertyOptions) :
    FindsFirst (DeclarationAt t o) (select? t o) := by
  have hselect : select? t o = DeclarationReason.all.findSome? (DeclarationReason.find? t o) :=
    or_or_eq_findSome? (DeclarationReason.find? t o) .asked .usual .member
  have hfind := FindsFirst.findSome? fun reason (_ : reason ∈ DeclarationReason.all) =>
    reason.findsFirst_find? t o
  rw [hselect]
  exact hfind

/-- The type alias that counts stands first. -/
theorem findsFirst_typeAlias (t : Tree) :
    FindsFirst (fun p d => t.root.at? p = some d ∧ d.kind = .typeAliasDeclaration)
      (t.ofKinds [.typeAliasDeclaration]).head? := by
  refine (t.root.listsInOrder_ofKinds _).findsFirst_head?.congr fun p d =>
    and_congr_right fun _ => ?_
  rw [List.mem_singleton]
  exact and_iff_right_of_imp fun h => by rw [Node.isNamed, h]; rfl

/-! ## Classes -/

/-- **A reason to take a class for the component.** -/
inductive ClassReason where
  /-- It is exported by default. -/
  | exported
  /-- Its name does not end like that of an auxiliary class. -/
  | plain
  /-- There is no other reason. -/
  | other

namespace ClassReason

/-- The reasons, the better ones first. -/
def all : List ClassReason :=
  [exported, plain, other]

/-- What a reason says of a class, given the node it is a child of. -/
def Holds (t : Tree) (o : MethodOptions) (e : Option Node × Node) : ClassReason → Prop
  | exported => IsDefaultClass e
  | plain => IsPlainClass t o e
  | other => IsClass e

/-- The test for a reason. -/
def test (t : Tree) (o : MethodOptions) (e : Option Node × Node) : ClassReason → Bool
  | exported => classKinds.contains e.2.kind && isDefaultExport e.1
  | plain => classKinds.contains e.2.kind &&
      !(o.auxiliarySuffixes.any fun s => Text.endsWith (nameOrEmpty t e.2) s)
  | other => classKinds.contains e.2.kind

/-- The tests for classes say what the reasons say. -/
theorem test_iff (t : Tree) (o : MethodOptions) (reason : ClassReason) (e : Option Node × Node) :
    reason.test t o e = true ↔ reason.Holds t o e := by
  cases reason with
  | exported => exact isDefaultClass_iff
  | plain => exact isPlainClass_iff
  | other => exact isClass_iff

end ClassReason

/-- **A class that may be taken for the component**, by the reason for it and by its address. -/
def ClassAt (t : Tree) (o : MethodOptions) (k : ℕ ×ₗ List ℕ) (c : Node) : Prop :=
  ∃ reason parent?, ClassReason.all[(ofLex k).1]? = some reason
    ∧ Node.OccursAt none t.root (ofLex k).2 (parent?, c) ∧ reason.Holds t o (parent?, c)

/-- **The class that is taken for the component stands first** among those for which there is the
best reason. -/
theorem findsFirst_componentClass? (t : Tree) (o : MethodOptions) :
    FindsFirst (ClassAt t o) (componentClass? t o) := by
  have hlist := Node.listsInOrder_occurrences none t.root
  have hclass : componentClass? t o = (ClassReason.all.findSome? fun reason =>
      (t.root.occurrences none).find? (reason.test t o)).map Prod.snd :=
    (componentClass?_eq t o).trans (congrArg (Option.map Prod.snd)
      (or_or_eq_findSome? (fun reason => (t.root.occurrences none).find?
        (ClassReason.test t o · reason)) .exported .plain .other))
  have hfind := FindsFirst.findSome? fun reason (_ : reason ∈ ClassReason.all) =>
    hlist.findsFirst_find? (reason.test_iff t o)
  rw [hclass]
  refine (hfind.map Prod.snd).congr fun k c => ?_
  constructor
  · rintro ⟨⟨parent?, c⟩, ⟨reason, hreason, hoccurs, hholds⟩, rfl⟩
    exact ⟨reason, parent?, hreason, hoccurs, hholds⟩
  · rintro ⟨reason, parent?, hreason, hoccurs, hholds⟩
    exact ⟨(parent?, c), ⟨reason, hreason, hoccurs, hholds⟩, rfl⟩

/-! ## Initialisers and default values -/

/-- **An initialiser of a name**, by the address of its declarator. -/
def InitialiserAt (t : Tree) (name : String) (p : List ℕ) (v : Node) : Prop :=
  ∃ d n, t.root.at? p = some d ∧ d.kind = .variableDeclarator ∧ d.inRole? .name = some n
    ∧ n.kind = .identifier ∧ t.text n = name ∧ d.inRole? .value = some v

/-- **A name is bound to the initialiser that stands first.** -/
theorem findsFirst_lookup_bindings (t : Tree) (name : String) :
    FindsFirst (InitialiserAt t name) ((bindings t).lookup name) := by
  rw [lookup_bindings, initialiser?]
  refine (t.root.listsInOrder_preorder.findsFirst_findSome? _).congr fun p v => ?_
  constructor
  · rintro ⟨d, hd, hv⟩
    split at hv
    · next n hn =>
      split_ifs at hv with hname
      exact ⟨d, n, hd, hname.1, hn, hname.2.1, hname.2.2, hv⟩
    · cases hv
  · rintro ⟨d, n, hd, hk, hn, hidentifier, hname, hv⟩
    refine ⟨d, hd, ?_⟩
    rw [hn]
    exact (if_pos ⟨hk, hidentifier, hname⟩).trans hv

/-- The address of a node of a group: static fields are numbered within their declaration. -/
def Group.StandsAt (t : Tree) (d : Node) : Group → List ℕ → Node → Prop
  | .statics, p, m => ∃ i, p = [i] ∧ (membersOf d)[i]? = some m
  | .declarators, p, m => t.root.at? p = some m
  | .assignments, p, m => t.root.at? p = some m

/-- The members of each group are listed in the order of their places. -/
theorem Group.listsInOrder_nodes (t : Tree) (d : Node) (g : Group) :
    ListsInOrder (g.StandsAt t d) (g.nodes t d) := by
  cases g with
  | statics =>
    exact (ListsInOrder.positions (membersOf d)).moved (f := fun i => [i])
      fun i j h => List.cons_lt_cons_iff.2 (.inl h)
  | declarators => exact t.root.listsInOrder_preorder
  | assignments => exact t.root.listsInOrder_preorder

/-- **A default value**, by the group of its literal, the address of the node that binds the
literal, and the number of its entry there. -/
def DefaultAt (t : Tree) (d : Node) (names : List String) (name : String)
    (k : ℕ ×ₗ List ℕ ×ₗ ℕ) (x : String) : Prop :=
  ∃ g n v object c, Group.all[(ofLex k).1]? = some g
    ∧ g.StandsAt t d (ofLex (ofLex k).2).1 n ∧ Binds t d names g n v ∧ ComesTo v object
    ∧ object.namedChildren[(ofLex (ofLex k).2).2]? = some c ∧ IsEntry t c name x

/-- **A property has the default value that stands first.** -/
theorem findsFirst_default {t : Tree} {d : Node} (hd : d ∈ declarations t) (names : List String)
    (name : String) :
    FindsFirst (DefaultAt t d names name) ((defaultEntries t d names).lookup name) := by
  rw [lookup_defaultEntries]
  refine (FindsFirst.findSome? fun g _ => (g.listsInOrder_nodes t d).findsFirst_within fun n _ =>
    findsFirst_lookup_literal? hd names name g n).congr fun k x => ?_
  constructor
  · rintro ⟨g, hg, n, hn, v, object, c, h⟩
    exact ⟨g, n, v, object, c, hg, hn, h⟩
  · rintro ⟨g, n, v, object, c, hg, hn, h⟩
    exact ⟨g, hg, n, hn, v, object, c, h⟩

/-! ## Calls -/

/-- A class that a call registers, by the address of the call. -/
def RegisteredAt (t : Tree) (registrars : List String) (p : List ℕ) (c : String) : Prop :=
  ∃ call, t.root.at? p = some call ∧ Registers t registrars call c

/-- **Classes are listed in the order of the calls that register them.** -/
theorem listsInOrder_registered {t : Tree} {o : StyleOptions} {classes : StyleClasses}
    (h : (styleClasses t o).1 = some classes) :
    ListsInOrder (RegisteredAt t o.registrars) classes.registered := by
  rw [styleClasses_fst, Option.map_eq_some_iff] at h
  obtain ⟨default, -, rfl⟩ := h
  obtain ⟨class?, hclasses, hclass⟩ := exists_registeredClass? t o.registrars
  rw [hclasses]
  refine (t.root.listsInOrder_preorder.filterMap class?).congr fun p c => ?_
  simp only [hclass, RegisteredAt]

/-- An event that a call emits, by the address of the call. -/
def EmittedAt (t : Tree) (emitters : List String) (p : List ℕ) (e : Event) : Prop :=
  ∃ call, t.root.at? p = some call ∧ call.kind = .callExpression ∧ Emits t emitters call e

/-- **Events are listed in the order of the calls that emit them.** -/
theorem listsInOrder_eventsOfCalls (t : Tree) (emitters : List String) :
    ListsInOrder (EmittedAt t emitters) (eventsOfCalls t emitters) := by
  rw [eventsOfCalls_eq, Tree.filterMap_ofKind t rfl]
  refine (t.root.listsInOrder_preorder.filterMap _).congr fun p e => ?_
  simp only [Option.ite_none_right_eq_some, emitted?_eq_some_iff, EmittedAt]

/-! ## All choices together -/

/-- **All that is chosen or listed from a tree goes by document order.** -/
structure ChoosesInOrder (t : Tree) : Prop where
  declaration : ∀ o, FindsFirst (DeclarationAt t o) (select? t o)
  component : ∀ o, FindsFirst (ClassAt t o) (componentClass? t o)
  typeAlias : FindsFirst (fun p d => t.root.at? p = some d ∧ d.kind = .typeAliasDeclaration)
    (t.ofKinds [.typeAliasDeclaration]).head?
  initialiser : ∀ name, FindsFirst (InitialiserAt t name) ((bindings t).lookup name)
  default : ∀ d ∈ declarations t, ∀ names name,
    FindsFirst (DefaultAt t d names name) ((defaultEntries t d names).lookup name)
  registered : ∀ o classes, (styleClasses t o).1 = some classes →
    ListsInOrder (RegisteredAt t o.registrars) classes.registered
  emitted : ∀ emitters, ListsInOrder (EmittedAt t emitters) (eventsOfCalls t emitters)

/-- **The walk goes through a tree in document order, and so do all choices.** It lists the tree
as the recursion does, every address once and by increasing addresses, and the nodes of some kinds
are picked out of this list. What is chosen has the least address of all that suits. -/
theorem walk_and_choices_inOrder :
    (∀ n : Node, n.walk = n.preorder ∧ ListsInOrder (fun p m => n.at? p = some m) n.walk
        ∧ ∀ kinds, n.ofKinds kinds
            = n.preorder.filter (fun m => m.isNamed && kinds.contains m.kind)
          ∧ ListsInOrder (fun p m => n.at? p = some m ∧ m.isNamed = true ∧ m.kind ∈ kinds)
              (n.ofKinds kinds))
      ∧ ∀ t : Tree, ChoosesInOrder t := by
  constructor
  · intro n
    refine ⟨n.walk_eq_preorder, n.listsInOrder_walk, fun kinds =>
      ⟨?_, n.listsInOrder_ofKinds kinds⟩⟩
    rw [Node.ofKinds, n.walk_eq_preorder]
  · intro t
    exact {
      declaration := findsFirst_select? t
      component := findsFirst_componentClass? t
      typeAlias := findsFirst_typeAlias t
      initialiser := findsFirst_lookup_bindings t
      default := fun d hd names name => findsFirst_default hd names name
      registered := fun o classes h => listsInOrder_registered h
      emitted := listsInOrder_eventsOfCalls t }

end ComponentCatalog.Extract
