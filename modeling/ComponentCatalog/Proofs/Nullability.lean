import ComponentCatalog.Proofs.CallableTypes

/-!
# Types that may be absent

A handler may be left out, so its type is often a union of a type that can be called with
`null`, `undefined` or both. Such a union can be called like the type itself. But brackets count:
they are removed around a whole type, and around the one member of a union that is left, whereas
the other members are only compared with `null` and `undefined` by their texts. A bracket
among them makes one more member that is left, and then the union cannot be called at all.

`UnionOf` says what the union of two types is. Unions are read from left to right, so the
union of a type with a union is no node with these two as its children: the second is taken
apart. The members of the union are those of both types all the same (`UnionOf.unionMembers_eq`).
-/

namespace ComponentCatalog.Extract

open Syntax

/-- **A type without a value to it**: made of `null` and `undefined` with brackets and unions. -/
inductive NullType (t : Tree) : Node → Prop
  | literal {n : Node} (union : n.kind ≠ .unionType) (brackets : n.kind ≠ .parenthesizedType)
      (text : t.text n ∈ nullishTypes) : NullType t n
  | brackets {n m : Node} (kind : n.kind = .parenthesizedType) (children : n.namedChildren = [m])
      (inner : NullType t m) : NullType t n
  | union {n : Node} (kind : n.kind = .unionType)
      (children : ∀ m ∈ n.namedChildren, NullType t m) : NullType t n

/-- There are brackets around a type or around members of it. -/
inductive HasBrackets : Node → Prop
  | around {n : Node} (kind : n.kind = .parenthesizedType) : HasBrackets n
  | within {n m : Node} (kind : n.kind = .unionType) (child : m ∈ n.namedChildren)
      (inner : HasBrackets m) : HasBrackets n

/-- **The union of two types**, as it is read. -/
inductive UnionOf : Node → Node → Node → Prop
  | pair {u a b : Node} (kind : u.kind = .unionType) (children : u.namedChildren = [a, b]) :
      UnionOf u a b
  /-- The union of `a` with `b | c` is the union of `a | b` with `c`. -/
  | assoc {u v a b c bc : Node} (kind : u.kind = .unionType) (children : u.namedChildren = [v, c])
      (left : UnionOf v a b) (right : bc.kind = .unionType) (members : bc.namedChildren = [b, c]) :
      UnionOf u a bc

namespace UnionOf

variable {u a b : Node}

theorem kind_eq (h : UnionOf u a b) : u.kind = .unionType := by
  cases h with
  | pair kind _ => exact kind
  | assoc kind _ _ _ _ => exact kind

/-- A union of two types has the members of both. -/
theorem unionMembers_eq (h : UnionOf u a b) :
    unionMembers u = unionMembers a ++ unionMembers b := by
  induction h with
  | pair kind children => simp [unionMembers_of_union kind, children]
  | assoc kind children _ right members ih =>
    simp [unionMembers_of_union kind, children, ih, unionMembers_of_union right, members]

/-- The members of a union that are present are those of its two parts. -/
theorem presentMembers_eq (h : UnionOf u a b) (t : Tree) :
    presentMembers t u = presentMembers t a ++ presentMembers t b := by
  rw [presentMembers, h.unionMembers_eq, List.filter_append]
  rfl

end UnionOf

section Members

variable {t : Tree} {n : Node}

/-- A type that is spelt like an absent one is absent. -/
theorem isNullish_of_text_mem (h : t.text n ∈ nullishTypes) : isNullish t n = true := by
  have htrim : ∀ text ∈ nullishTypes, nullishTypes.contains (Text.trim text) = true := by decide
  rw [isNullish, htrim _ h]

/-- Without brackets, all that is in the type stands for the absence of a value. -/
theorem NullType.presentMembers_eq_nil (h : NullType t n) (hbare : ¬ HasBrackets n) :
    presentMembers t n = [] := by
  induction h with
  | literal union _ text =>
    simp [presentMembers, unionMembers_of_ne union, isNullish_of_text_mem text]
  | brackets kind _ _ _ => exact absurd (.around kind) hbare
  | union kind _ ih =>
    rw [presentMembers, unionMembers_of_union kind, List.filter_flatMap, List.flatMap_eq_nil_iff]
    exact fun m hm => ih m hm fun hbrackets => hbare (.within kind hm hbrackets)

/-- A type with brackets has a member with brackets. -/
theorem HasBrackets.exists_member (h : HasBrackets n) :
    ∃ m ∈ unionMembers n, m.kind = .parenthesizedType := by
  induction h with
  | @around n kind =>
    refine ⟨n, ?_, kind⟩
    rw [unionMembers_of_ne (by simp [kind])]
    exact List.mem_singleton_self n
  | within kind child _ ih =>
    obtain ⟨m, hm, hkind⟩ := ih
    refine ⟨m, ?_, hkind⟩
    rw [unionMembers_of_union kind]
    exact List.mem_flatMap.2 ⟨_, child, hm⟩

/-- A member in brackets is left, whatever it is. -/
theorem isNullish_of_brackets {u : Node} (hread : IsRead t.source u) (hu : u.kind = .unionType)
    (hn : n ∈ unionMembers u) (hkind : n.kind = .parenthesizedType) : isNullish t n = false :=
  isNullish_of_opens ((isRead_of_mem_unionMembers hread hu hn).opens (.inr hkind))

end Members

section Unions

variable {t : Tree} {u q m n : Node}

/-- A member of a union is a member of one of the two, in whichever order they are. -/
theorem mem_unionMembers_of_unionOf (h : UnionOf u q n ∨ UnionOf u n q) :
    m ∈ unionMembers u ↔ m ∈ unionMembers q ∨ m ∈ unionMembers n := by
  rcases h with h | h <;> rw [h.unionMembers_eq, List.mem_append]
  exact or_comm

/-- A type in brackets is present as it stands. -/
theorem presentMembers_of_brackets (hread : IsRead t.source u)
    (hunion : UnionOf u q n ∨ UnionOf u n q) (hkind : q.kind = .parenthesizedType) :
    presentMembers t q = [q] := by
  have hmembers : unionMembers q = [q] := unionMembers_of_ne (by simp [hkind])
  have hq : q ∈ unionMembers u := (mem_unionMembers_of_unionOf hunion).2 (.inl (by simp [hmembers]))
  have hu := hunion.elim UnionOf.kind_eq UnionOf.kind_eq
  simp [presentMembers, hmembers, isNullish_of_brackets hread hu hq hkind]

/-- Without brackets, the one member that is left is the type in brackets. -/
theorem parametersOf?_of_not_hasBrackets (hread : IsRead t.source u)
    (hunion : UnionOf u q n ∨ UnionOf u n q) (hkind : q.kind = .parenthesizedType)
    (hinner : q.namedChildren = [m]) (hnull : NullType t n) (hbare : ¬ HasBrackets n) :
    parametersOf? t u = parametersOf? t m := by
  have hq := presentMembers_of_brackets hread hunion hkind
  have hn := hnull.presentMembers_eq_nil hbare
  have hone : presentMembers t u = [q] := by
    rcases hunion with h | h <;> simp [h.presentMembers_eq, hq, hn]
  rw [parametersOf?_of_one (hunion.elim UnionOf.kind_eq UnionOf.kind_eq) hone]
  exact parametersOf?_of_brackets hkind (by rw [hinner]; rfl)

/-- With brackets, at least two members are left. -/
theorem parametersOf?_of_hasBrackets (hread : IsRead t.source u)
    (hunion : UnionOf u q n ∨ UnionOf u n q) (hkind : q.kind = .parenthesizedType)
    (hbrackets : HasBrackets n) : parametersOf? t u = none := by
  have hu := hunion.elim UnionOf.kind_eq UnionOf.kind_eq
  have hq := presentMembers_of_brackets hread hunion hkind
  obtain ⟨x, hx, hxkind⟩ := hbrackets.exists_member
  have hxu : x ∈ unionMembers u := (mem_unionMembers_of_unionOf hunion).2 (.inr hx)
  have hn : 0 < (presentMembers t n).length :=
    List.length_pos_of_mem (List.mem_filter.2 ⟨hx, by
      simp [isNullish_of_brackets hread hu hxu hxkind]⟩)
  have hlength : (presentMembers t u).length = (presentMembers t n).length + 1 := by
    rcases hunion with h | h <;> simp [h.presentMembers_eq, hq, Nat.add_comm]
  refine parametersOf?_of_not_one hu fun m hone => ?_
  rw [hone, List.length_singleton] at hlength
  omega

end Unions

/-- **Absence and brackets.** The union of a type in brackets with `null` and `undefined`, in
either order and in any unions, can be called like the type. As soon as there are brackets
around a part of the other type, it cannot be called at all. -/
theorem parameters_of_union_with_nullType {type p : String} {u q m n : Node}
    (hflawed : (declarationOf type).flawed = false)
    (hvalue : declaredValue? (declarationOf type) = some u)
    (hunion : UnionOf u q n ∨ UnionOf u n q)
    (hkind : q.kind = .parenthesizedType) (hinner : q.namedChildren = [m])
    (hm : parametersOf? (declarationOf type) m = some p)
    (hnull : NullType (declarationOf type) n) :
    (¬ HasBrackets n → callableParameters? type = some p)
      ∧ (HasBrackets n → callableParameters? type = none) := by
  obtain ⟨value, hvalue', hread⟩ := exists_declaredValue hflawed
  obtain rfl : value = u := Option.some.inj (hvalue'.symm.trans hvalue)
  rw [callableParameters?_of_not_flawed hflawed, hvalue, Option.bind_some]
  refine ⟨fun hbare => ?_, parametersOf?_of_hasBrackets hread hunion hkind⟩
  rw [parametersOf?_of_not_hasBrackets hread hunion hkind hinner hnull hbare, hm]

/-- A type that may be absent in two ways. Its members are the nodes that follow. -/
def optionalFunction : String := "(Function) | null | undefined"

/-- The member `(Function)` of `optionalFunction`. -/
def bracketedFunction : Node :=
  .mk .parenthesizedType none 17 27 [.mk (.token "(") none 17 18 [],
    .mk .typeIdentifier none 18 26 [], .mk (.token ")") none 26 27 []]

/-- The member `null` of `optionalFunction`. -/
def nullMember : Node :=
  .mk .typeExpression none 30 34 [.mk (.token "null") none 30 34 []]

/-- The member `undefined` of `optionalFunction`. -/
def undefinedMember : Node :=
  .mk .typeExpression none 37 46 [.mk (.token "undefined") none 37 46 []]

/-- The union of `(Function)` with `null | undefined` is read as that of `(Function) | null`
with `undefined`. -/
theorem parameters_of_union_with_two :
    callableParameters? optionalFunction = some "()" := by
  have hvalue : (declarationOf optionalFunction).flawed = false
      ∧ declaredValue? (declarationOf optionalFunction)
        = some (.mk .unionType (some .value) 17 46
          [.mk .unionType none 17 34
            [bracketedFunction, .mk (.token "|") none 28 29 [], nullMember],
            .mk (.token "|") none 35 36 [], undefinedMember]) := by
    decide +kernel
  have htexts : ∀ m ∈ [nullMember, undefinedMember],
      (declarationOf optionalFunction).text m ∈ nullishTypes := by decide +kernel
  have hnull : ∀ m ∈ [nullMember, undefinedMember], ¬ HasBrackets m
      ∧ NullType (declarationOf optionalFunction) m := by
    intro m hm
    have hkind : m.kind = .typeExpression := by
      revert m
      decide
    refine ⟨fun h => ?_, .literal (by simp [hkind]) (by simp [hkind]) (htexts m hm)⟩
    cases h with
    | around kind => simp [hkind] at kind
    | within kind _ _ => simp [hkind] at kind
  refine (parameters_of_union_with_nullType
    (n := .mk .unionType none 30 46 [nullMember, undefinedMember]) hvalue.1 hvalue.2
    (.inl (.assoc rfl rfl (.pair rfl rfl) rfl rfl)) rfl rfl (by decide +kernel)
    (.union rfl fun m hm => (hnull m hm).2)).1 fun h => ?_
  cases h with
  | around kind => cases kind
  | within _ child inner => exact (hnull _ child).1 inner

/-- A bracket around `null` hides it. -/
theorem parameters_of_bracketed_null :
    callableParameters? "Function" = some "()"
      ∧ callableParameters? "(Function) | (null)" = none := by
  decide +kernel

end ComponentCatalog.Extract
