import ComponentCatalog.Proofs.DocumentOrder
import ComponentCatalog.Proofs.Facets
import ComponentCatalog.Syntax.Parse

/-!
# The methods of a component, member by member

`methods?` chooses a class and goes through its members with a list of the names it has
taken. A member can be passed over for many reasons, and they are tested at several stages:
before the name is known, when it is known, and only after it has been compared with the
names taken. This module says what comes out of all stages together. A member is *eligible*
for a method (`Eligible`) by what it is, whatever stands before it, and the methods are the
first eligible member of each name.

That a member which is not eligible takes no name is what makes this true: an overload
without a result type, a private field or an accessor may stand before the method of its
name and does not hide it.

The class is chosen in the same way, by what it is and where it stands in the tree
(`IsComponent`): the first that is exported by default, else the first whose name does not
end like that of an auxiliary class, else the first. What is exported by default is told from
the statement that the class stands in. A class that is declared first and exported by its name
afterwards is therefore not preferred to the others (`methods_of_exported_name`).
-/

namespace ComponentCatalog.Extract

open Syntax

/-- The first thing in a list that satisfies a predicate. -/
def FirstWith {α : Type} (P : α → Prop) (as : List α) (a : α) : Prop :=
  P a ∧ ∃ before after, as = before ++ a :: after ∧ ∀ b ∈ before, ¬ P b

theorem find?_eq_some_iff_firstWith {α : Type} {P : α → Prop} {p : α → Bool}
    (hp : ∀ a, p a = true ↔ P a) {as : List α} {a : α} :
    as.find? p = some a ↔ FirstWith P as a := by
  rw [List.find?_eq_some_iff_append, FirstWith, hp]
  simp [← hp]

/-! ## The component -/

/-- A class, as it occurs in a tree. -/
def IsClass (e : Option Node × Node) : Prop :=
  e.2.kind ∈ classKinds

/-- **A class that is exported by default**: it stands in an export statement with the word
`default`. A class that such a statement only names is not. -/
def IsDefaultClass (e : Option Node × Node) : Prop :=
  IsClass e ∧ ∃ p, e.1 = some p ∧ p.kind = .exportStatement ∧ p.hasToken "default" = true

/-- A class whose name does not end like that of an auxiliary class; the name of a class that has
none is empty. -/
def IsPlainClass (t : Tree) (o : MethodOptions) (e : Option Node × Node) : Prop :=
  IsClass e ∧ ∀ s ∈ o.auxiliarySuffixes, ¬ s.toList <:+ (nameOrEmpty t e.2).toList

/-- **The class that is the component**: the first that is exported by default, else the first
plain one, else the first. -/
inductive IsComponent (t : Tree) (o : MethodOptions) : Node → Prop
  | exported {e : Option Node × Node} :
    FirstWith IsDefaultClass (t.root.occurrences none) e → IsComponent t o e.2
  | plain {e : Option Node × Node} :
    (∀ e ∈ t.root.occurrences none, ¬ IsDefaultClass e) →
    FirstWith (IsPlainClass t o) (t.root.occurrences none) e → IsComponent t o e.2
  | other {e : Option Node × Node} :
    (∀ e ∈ t.root.occurrences none, ¬ IsDefaultClass e ∧ ¬ IsPlainClass t o e) →
    FirstWith IsClass (t.root.occurrences none) e → IsComponent t o e.2

/-- A node is exported by default if it is in an export that says so. -/
theorem isDefaultExport_iff {parent? : Option Node} :
    isDefaultExport parent? = true
      ↔ ∃ p, parent? = some p ∧ p.kind = .exportStatement ∧ p.hasToken "default" = true := by
  cases parent? <;> simp [isDefaultExport]

/-- What is searched for among the classes is searched for in the whole tree. -/
theorem find?_classesOf (t : Tree) (p : Node × Bool → Bool) :
    (classesOf t).find? p
      = ((t.root.occurrences none).find? fun e =>
          classKinds.contains e.2.kind && p (e.2, isDefaultExport e.1)).map
          fun e => (e.2, isDefaultExport e.1) := by
  unfold classesOf
  rw [Node.walkWithParents_eq, List.flatMap_cons, List.flatMap_nil, List.append_nil,
    List.find?_map, List.find?_filter]
  simp only [Bool.decide_and, Bool.decide_eq_true]
  rfl

theorem isClass_iff {e : Option Node × Node} :
    classKinds.contains e.2.kind = true ↔ IsClass e :=
  List.contains_iff_mem

theorem isDefaultClass_iff {e : Option Node × Node} :
    (classKinds.contains e.2.kind && isDefaultExport e.1) = true ↔ IsDefaultClass e := by
  rw [Bool.and_eq_true, isClass_iff, isDefaultExport_iff]
  rfl

/-- A class is plain if its name has none of the endings of auxiliary ones. -/
theorem isPlainClass_iff {t : Tree} {o : MethodOptions} {e : Option Node × Node} :
    (classKinds.contains e.2.kind &&
        !(o.auxiliarySuffixes.any fun s => Text.endsWith (nameOrEmpty t e.2) s)) = true
      ↔ IsPlainClass t o e := by
  rw [Bool.and_eq_true, isClass_iff, IsPlainClass]
  simp [Text.endsWith]

/-- The class of a component: one that is exported by default, else the first plain one, else the
first. -/
theorem componentClass?_eq (t : Tree) (o : MethodOptions) :
    componentClass? t o =
      (((t.root.occurrences none).find? fun e =>
          classKinds.contains e.2.kind && isDefaultExport e.1).or
        (((t.root.occurrences none).find? fun e => classKinds.contains e.2.kind &&
            !(o.auxiliarySuffixes.any fun s => Text.endsWith (nameOrEmpty t e.2) s)).or
          ((t.root.occurrences none).find? fun e => classKinds.contains e.2.kind))).map
        Prod.snd := by
  have hhead : (classesOf t).head? = (classesOf t).find? fun _ => true := by
    cases classesOf t <;> rfl
  unfold componentClass?
  simp only [hhead, find?_classesOf, Bool.and_true, Option.orElse_eq_orElse, Option.orElse_eq_or,
    ← Option.map_or, Option.map_map]
  rfl

/-- This class is the one of the component. -/
theorem componentClass?_eq_some_iff {t : Tree} {o : MethodOptions} {c : Node} :
    componentClass? t o = some c ↔ IsComponent t o c := by
  rw [componentClass?_eq]
  constructor
  · intro h
    obtain ⟨e, he, rfl⟩ := Option.map_eq_some_iff.1 h
    rcases Option.or_eq_some_iff.1 he with he | ⟨hmain, he⟩
    · exact .exported ((find?_eq_some_iff_firstWith fun _ => isDefaultClass_iff).1 he)
    have hmain' : ∀ e ∈ t.root.occurrences none, ¬ IsDefaultClass e :=
      fun e he hclass => List.find?_eq_none.1 hmain e he (isDefaultClass_iff.2 hclass)
    rcases Option.or_eq_some_iff.1 he with he | ⟨hplain, he⟩
    · exact .plain hmain' ((find?_eq_some_iff_firstWith fun _ => isPlainClass_iff).1 he)
    · refine .other (fun e he => ⟨hmain' e he, fun hclass => ?_⟩)
        ((find?_eq_some_iff_firstWith fun _ => isClass_iff).1 he)
      exact List.find?_eq_none.1 hplain e he (isPlainClass_iff.2 hclass)
  · intro h
    cases h with
    | exported he => rw [(find?_eq_some_iff_firstWith fun _ => isDefaultClass_iff).2 he]; rfl
    | plain hmain he =>
      rw [List.find?_eq_none.2 fun e he' hclass => hmain e he' (isDefaultClass_iff.1 hclass),
        (find?_eq_some_iff_firstWith fun _ => isPlainClass_iff).2 he]
      rfl
    | other hnone he =>
      rw [List.find?_eq_none.2 fun e he' hclass => (hnone e he').1 (isDefaultClass_iff.1 hclass),
        List.find?_eq_none.2 fun e he' hclass => (hnone e he').2 (isPlainClass_iff.1 hclass),
        (find?_eq_some_iff_firstWith fun _ => isClass_iff).2 he]
      rfl

/-- There is no component only where there is no class. -/
theorem componentClass?_eq_none_iff {t : Tree} {o : MethodOptions} :
    componentClass? t o = none ↔ ∀ n ∈ t.root.preorder, n.kind ∉ classKinds := by
  rw [componentClass?_eq, Option.map_eq_none_iff, Option.or_eq_none_iff, Option.or_eq_none_iff,
    ← Node.map_snd_occurrences none t.root]
  simp only [List.find?_eq_none, isDefaultClass_iff, isPlainClass_iff, isClass_iff, List.mem_map,
    forall_exists_index, and_imp, forall_apply_eq_imp_iff₂]
  constructor
  · rintro ⟨-, -, hnone⟩
    exact hnone
  · intro hnone
    exact ⟨fun e he h => hnone e he h.1, fun e he h => hnone e he h.1, hnone⟩

/-! ## Eligible members -/

/-- **The function of a member**: a method is its own, and a field has the arrow function that
is its value. -/
inductive FunctionOf (member : Node) : Node → Prop
  | method : member.kind = .methodDefinition → FunctionOf member member
  | field {f : Node} : member.kind = .fieldDefinition → member.inRole? .value = some f →
    f.kind = .arrowFunction → FunctionOf member f

/-- **What a function states**: it has a list of parameters, and its result has a plain type
annotation, the last part of which is the type. -/
structure States (t : Tree) (f : Node) (parameters : List Parameter) (result : String) :
    Prop where
  parameters : ∃ list, f.inRole? .parameters = some list ∧ parameters = parametersOf t list
  result : ∃ clause type, f.inRole? .returnType = some clause ∧ clause.kind = .typeClause
    ∧ 2 ≤ clause.children.length ∧ clause.children.getLast? = some type
    ∧ result = Text.trim (t.text type)

/-- **A member that is a method of its component.** -/
structure Eligible (t : Tree) (o : MethodOptions) (member : Node) (m : Method) : Prop where
  /-- It is neither static nor an accessor. -/
  plain : ∀ word ∈ ["static", "get", "set"], member.hasToken word = false
  /-- It is public, by statement or by omission. -/
  accessible : ∀ modifier, member.firstOf? [.accessibilityModifier] = some modifier →
    t.text modifier = "public"
  /-- It is named by an identifier. -/
  named : ∃ n, member.inRole? .name = some n ∧ n.kind = .propertyIdentifier ∧ m.name = t.text n
  /-- Its name is not internal. -/
  exposed : m.name ∉ o.denylist ∧ m.name ≠ "constructor"
  /-- It can be called, and it states how. -/
  callable : ∃ f, FunctionOf member f ∧ States t f m.parameters m.returnType

/-- A member has a function if it is a method or has one for its value. -/
theorem callable?_eq_some_iff {member f : Node} :
    callable? member = some f ↔ FunctionOf member f := by
  unfold callable?
  constructor
  · intro h
    split at h
    · next hk =>
      obtain rfl := Option.some.inj h
      exact .method hk
    · next hk =>
      obtain ⟨hf, harrow⟩ := Option.filter_eq_some_iff.1 h
      exact .field hk hf (by simpa using harrow)
    · cases h
  · intro h
    cases h with
    | method hk => rw [hk]
    | field hk hf harrow => rw [hk]; simp [hf, harrow]

theorem isNamed_of_functionOf {member f : Node} (h : FunctionOf member f) :
    member.isNamed = true := by
  cases h with
  | method hk | field hk _ _ => simp [Node.isNamed, hk, Kind.isNamed]

/-- A member is exposed unless a word of it or its modifier says otherwise. -/
theorem isExposed_iff {t : Tree} {member : Node} :
    isExposed t member = true
      ↔ (∀ word ∈ ["static", "get", "set"], member.hasToken word = false)
        ∧ ∀ modifier, member.firstOf? [.accessibilityModifier] = some modifier →
            t.text modifier = "public" := by
  unfold isExposed
  cases member.firstOf? [.accessibilityModifier] <;> simp [and_assoc]

/-- A member is a candidate if it is exposed, has a function and a plain name, and is not denied.
-/
theorem methodCandidate?_eq_some_iff {t : Tree} {o : MethodOptions} {member f : Node}
    {name : String} :
    methodCandidate? t o member = some (name, f)
      ↔ FunctionOf member f ∧ isExposed t member = true
        ∧ (∃ n, member.inRole? .name = some n ∧ n.kind = .propertyIdentifier ∧ name = t.text n)
        ∧ name ∉ o.denylist ∧ name ≠ "constructor" := by
  unfold methodCandidate?
  constructor
  · intro h
    obtain ⟨f', hf, h⟩ := Option.bind_eq_some_iff.1 h
    split_ifs at h with hexposed
    obtain ⟨n, hn, h⟩ := Option.bind_eq_some_iff.1 h
    obtain ⟨hn, hk⟩ := Option.filter_eq_some_iff.1 hn
    dsimp only at h
    split_ifs at h with hname
    obtain ⟨rfl, rfl⟩ := Prod.mk.inj (Option.some.inj h)
    exact ⟨callable?_eq_some_iff.1 hf, by simpa using hexposed,
      ⟨n, hn, by simpa using hk, rfl⟩, by simpa using hname⟩
  · rintro ⟨hf, hexposed, ⟨n, hn, hk, rfl⟩, hdeny, hconstructor⟩
    have hfilter : (member.inRole? .name).filter (·.kind == .propertyIdentifier) = some n := by
      rw [hn, Option.filter_some, if_pos (beq_iff_eq.2 hk)]
    simp [callable?_eq_some_iff.2 hf, hexposed, hfilter, hdeny, hconstructor]

/-- The type of a clause is the last part of it, without blanks at its ends. -/
theorem annotatedType?_eq_some_iff {t : Tree} {clause : Node} {s : String} :
    t.annotatedType? clause = some s
      ↔ clause.kind = .typeClause ∧ 2 ≤ clause.children.length
        ∧ ∃ type, clause.children.getLast? = some type ∧ s = Text.trim (t.text type) := by
  unfold Tree.annotatedType?
  constructor
  · intro h
    split at h
    · next hclause =>
      obtain ⟨hk, hlength⟩ := (Bool.and_eq_true _ _).mp hclause
      obtain ⟨type, htype, rfl⟩ := Option.map_eq_some_iff.1 h
      exact ⟨beq_iff_eq.1 hk, of_decide_eq_true hlength, type, htype, rfl⟩
    · cases h
  · rintro ⟨hk, hlength, type, htype, rfl⟩
    rw [if_pos (by simp [hk, hlength]), htype]
    rfl

/-- A method has the name of its member and the types that its function states. -/
theorem methodOf?_eq_some_iff {t : Tree} {name : String} {f : Node} {m : Method} :
    methodOf? t name f = some m ↔ m.name = name ∧ States t f m.parameters m.returnType := by
  unfold methodOf?
  constructor
  · intro h
    obtain ⟨list, hlist, h⟩ := Option.bind_eq_some_iff.1 h
    obtain ⟨result, hresult, h⟩ := Option.bind_eq_some_iff.1 h
    obtain ⟨clause, hclause, hresult⟩ := Option.bind_eq_some_iff.1 hresult
    obtain ⟨hk, hlength, type, htype, rfl⟩ := annotatedType?_eq_some_iff.1 hresult
    cases h
    exact ⟨rfl, ⟨list, hlist, rfl⟩, clause, type, hclause, hk, hlength, htype, rfl⟩
  · rintro ⟨rfl, ⟨list, hlist, hparameters⟩, clause, type, hclause, hk, hlength, htype, hresult⟩
    have htype' := annotatedType?_eq_some_iff.2 ⟨hk, hlength, type, htype, hresult⟩
    simp [hlist, hclause, htype', ← hparameters]

/-- The method that a member is. -/
def memberMethod? (t : Tree) (o : MethodOptions) (member : Node) : Option Method :=
  (methodCandidate? t o member).bind fun c => methodOf? t c.1 c.2

/-- A member gives a method exactly if it is eligible. -/
theorem memberMethod?_eq_some_iff {t : Tree} {o : MethodOptions} {member : Node} {m : Method} :
    memberMethod? t o member = some m ↔ Eligible t o member m := by
  unfold memberMethod?
  rw [Option.bind_eq_some_iff]
  constructor
  · rintro ⟨⟨name, f⟩, hc, hm⟩
    obtain ⟨hf, hexposed, hn, hname⟩ := methodCandidate?_eq_some_iff.1 hc
    obtain ⟨rfl, hstates⟩ := methodOf?_eq_some_iff.1 hm
    obtain ⟨hplain, haccess⟩ := isExposed_iff.1 hexposed
    exact ⟨hplain, haccess, hn, hname, f, hf, hstates⟩
  · rintro ⟨hplain, haccess, hn, hname, f, hf, hstates⟩
    exact ⟨(m.name, f), methodCandidate?_eq_some_iff.2
      ⟨hf, isExposed_iff.2 ⟨hplain, haccess⟩, hn, hname⟩, methodOf?_eq_some_iff.2 ⟨rfl, hstates⟩⟩

/-- The methods of a class are the first of each name among its members. -/
theorem taken_eq_of_members (t : Tree) (o : MethodOptions) (c : Node) :
    (outcomesOf t o c).filterMap MethodOutcome.method?
      = firstOfEachName Method.name [] ((membersOf c).filterMap (memberMethod? t o)) := by
  unfold outcomesOf membersOf
  cases c.inRole? .body with
  | none => rfl
  | some body =>
    dsimp only [Option.map_some, Option.getD_some]
    rw [taken_eq_firstOfEachName, List.filterMap_filterMap, Node.namedChildren,
      List.filterMap_filter]
    refine congrArg (firstOfEachName Method.name []) (List.filterMap_congr fun member _ => ?_)
    split
    · rfl
    · next hnamed =>
      -- what is not named is neither a method nor a field
      refine (Option.eq_none_iff_forall_ne_some.2 fun m hm => hnamed ?_).symm
      obtain ⟨f, hf, -⟩ := (memberMethod?_eq_some_iff.1 hm).callable
      exact isNamed_of_functionOf hf

/-- **The methods of a source are the first eligible member of each name of its component**, in
source order, and there are none to speak of only where there is no class. No name of an eligible
member is lost, so what is not eligible hides nothing. -/
theorem methods_by_member (t : Tree) (o : MethodOptions) :
    (methods? t o = none ↔ ∀ n ∈ t.root.preorder, n.kind ∉ classKinds)
      ∧ ∀ methods, methods? t o = some methods → ∃ c places,
          IsComponent t o c ∧ (∀ c', IsComponent t o c' → c' = c)
          ∧ PicksFirst (Eligible t o) Method.name (membersOf c) places methods
          ∧ (methods.map Method.name).Nodup
          ∧ ∀ member ∈ membersOf c, ∀ m, Eligible t o member m →
              ∃ m' ∈ methods, m'.name = m.name := by
  constructor
  · rw [methods?, Option.map_eq_none_iff, componentClass?_eq_none_iff]
  · intro methods h
    obtain ⟨c, hc, rfl⟩ := Option.map_eq_some_iff.1 h
    obtain ⟨places, hplaces⟩ :=
      exists_picksFirst Method.name (memberMethod? t o) [] (membersOf c)
    have hgives : (fun member m => memberMethod? t o member = some m ∧ m.name ∉ [])
        = Eligible t o := by
      funext member m
      simp [memberMethod?_eq_some_iff]
    rw [hgives] at hplaces
    refine ⟨c, places, componentClass?_eq_some_iff.1 hc, fun c' hc' => ?_, ?_⟩
    · exact Option.some.inj ((componentClass?_eq_some_iff.2 hc').symm.trans hc)
    rw [taken_eq_of_members]
    refine ⟨hplaces, nodup_map_firstOfEachName Method.name [] _, fun member hmember m hm => ?_⟩
    have hmem := List.mem_filterMap.2 ⟨member, hmember, memberMethod?_eq_some_iff.2 hm⟩
    exact exists_mem_firstOfEachName Method.name hmem List.not_mem_nil

/-- A source with two classes, the second exported by default, in which members that are not
eligible stand before those that are. -/
def shadowedMethods : Tree :=
  parse .tsx ("class A\x7b\x7d export default class AProps"
    ++ "\x7bb(x)\x7b\x7d static c():v\x7b\x7d b():s\x7b\x7d c=():n=>1\x7d")

theorem methods_by_member_shadowed :
    ∃ methods, methods? shadowedMethods {} = some methods
      ∧ methods.map Method.name = ["b", "c"] ∧ methods.map Method.returnType = ["s", "n"]
      ∧ ∃ c places, IsComponent shadowedMethods {} c
          ∧ PicksFirst (Eligible shadowedMethods {}) Method.name (membersOf c) places methods := by
  have hrun : (methods? shadowedMethods {}).map (fun ms => (ms.map Method.name,
      ms.map Method.returnType)) = some (["b", "c"], ["s", "n"]) := by decide +kernel
  obtain ⟨methods, h, hlists⟩ := Option.map_eq_some_iff.1 hrun
  obtain ⟨hnames, htypes⟩ := Prod.mk.inj hlists
  obtain ⟨c, places, hc, -, hplaces, -, -⟩ := (methods_by_member shadowedMethods {}).2 methods h
  exact ⟨methods, h, hnames, htypes, c, places, hc, hplaces⟩

/-- **A class that is exported by its name is not taken for the component.** -/
theorem methods_of_exported_name :
    (methods? (parse .tsx
        "class A\x7ba():v\x7b\x7d\x7dclass B\x7bb():v\x7b\x7d\x7dexport default B") {}).map
        (·.map Method.name) = some ["a"]
      ∧ (methods? (parse .tsx
        "class A\x7ba():v\x7b\x7d\x7dexport default class B\x7bb():v\x7b\x7d\x7d") {}).map
        (·.map Method.name) = some ["b"] := by
  decide +kernel

end ComponentCatalog.Extract
