import ComponentCatalog.Extract.Events
import ComponentCatalog.Proofs.TypeDeclarations

/-!
# Which types can be called

A type is taken apart by a loop that removes brackets, a recursion that flattens unions, a test
on the text of each member and a recursion on the member that is left. What this comes to is a
relation between a type and a parameter list, with one rule for each kind of type that counts
(`Callable`); unions in unions are one union (`Flattens`).

The limits of the loops are never reached, because what is left is always smaller
(`shape?_eq_of_count_le`). So the parameters of a type are given by one equation for each kind
of type, without limits (`parametersOf?`), and the relation is read off these.
-/

namespace ComponentCatalog.Extract

open Syntax

/-! ## The rules -/

/-- **The members of several types**, where the members of a union stand in its place. -/
inductive Flattens : List Node → List Node → Prop
  | nil : Flattens [] []
  | member {n : Node} {ns ms : List Node} (kind : n.kind ≠ .unionType) (rest : Flattens ns ms) :
      Flattens (n :: ns) (n :: ms)
  | union {n : Node} {ns inner ms : List Node} (kind : n.kind = .unionType)
      (children : Flattens n.namedChildren inner) (rest : Flattens ns ms) :
      Flattens (n :: ns) (inner ++ ms)

/-- **A type can be called**, with a parameter list as it is written. Which texts of members
stand for the absence of a value is left open here. -/
inductive Callable (t : Tree) (absent : String → Bool) : Node → String → Prop
  | named {n : Node} (kind : n.kind = .typeIdentifier) (text : t.text n = "Function") :
      Callable t absent n "()"
  | functionType {n parameters : Node} (kind : n.kind = .functionType)
      (role : n.inRole? .parameters = some parameters) :
      Callable t absent n (t.text parameters)
  | brackets {n m : Node} {p : String} (kind : n.kind = .parenthesizedType)
      (first : n.namedChildren.head? = some m) (inner : Callable t absent m p) :
      Callable t absent n p
  /-- Exactly one member of a union does not stand for the absence of a value. -/
  | union {n m : Node} {ms : List Node} {p : String} (kind : n.kind = .unionType)
      (members : Flattens n.namedChildren ms)
      (one : ms.filter (fun m => !absent (t.text m)) = [m]) (inner : Callable t absent m p) :
      Callable t absent n p

/-- Whether a text stands for the absence of a value, apart from blanks at its ends. -/
def isAbsent (text : String) : Bool :=
  nullishTypes.contains (Text.trim text)

/-- The tree in which a type is declared. -/
def declarationOf (type : String) : Tree :=
  parse .typescript ("type EventType = " ++ type ++ ";")

/-- The type that is declared first in a tree. -/
def declaredValue? (t : Tree) : Option Node :=
  (t.ofKinds [.typeAliasDeclaration]).head?.bind fun declaration => declaration.inRole? .value

/-- The text of a type can be called. -/
def CallableText (type p : String) : Prop :=
  (declarationOf type).flawed = false ∧ ∃ value, declaredValue? (declarationOf type) = some value
    ∧ Callable (declarationOf type) isAbsent value p

/-- **The events among properties**, one by one. -/
inductive EventsAmong : List Property → List Event → Prop
  | nil : EventsAmong [] []
  | event {x : Property} {xs : List Property} {es : List Event} {p : String}
      (name : Text.startsWith x.name "on" = true) (type : CallableText (Text.trim x.type) p)
      (rest : EventsAmong xs es) : EventsAmong (x :: xs) ({ name := x.name, parameters := p } :: es)
  | other {x : Property} {xs : List Property} {es : List Event}
      (none : Text.startsWith x.name "on" = true → ∀ p, ¬ CallableText (Text.trim x.type) p)
      (rest : EventsAmong xs es) : EventsAmong (x :: xs) es

/-! ## Members -/

/-- The members of several types are those of one after the other. -/
theorem unionMembersOfAll_eq (ns : List Node) :
    unionMembersOfAll ns = (ns.filter Node.isNamed).flatMap unionMembers := by
  induction ns with
  | nil => rfl
  | cons n ns ih =>
    rw [unionMembersOfAll, List.filter_cons, ih]
    split
    · rw [List.flatMap_cons]
    · rfl

/-- A union has the members of all that it joins. -/
theorem unionMembers_of_union {n : Node} (h : n.kind = .unionType) :
    unionMembers n = n.namedChildren.flatMap unionMembers := by
  cases n with
  | mk k r s e cs =>
    cases h
    exact unionMembersOfAll_eq cs

/-- What is no union is its own only member. -/
theorem unionMembers_of_ne {n : Node} (h : n.kind ≠ .unionType) : unionMembers n = [n] := by
  cases n with
  | mk k r s e cs =>
    exact if_neg (by simpa [Node.kind] using h)

theorem countAll_namedChildren_lt (n : Node) : Node.countAll n.namedChildren < n.count :=
  Nat.lt_of_le_of_lt (Node.countAll_filter_le _ _) n.countAll_children_lt

/-- Every list of types flattens to the members of them all. -/
theorem flattens_flatMap (ns : List Node) : Flattens ns (ns.flatMap unionMembers) := by
  induction hk : Node.countAll ns using Nat.strongRecOn generalizing ns with
  | ind k ih =>
    cases ns with
    | nil => exact .nil
    | cons n ns =>
      rw [Node.countAll] at hk
      have hn := n.count_pos
      have hrest := ih _ (by omega) ns rfl
      rw [List.flatMap_cons]
      by_cases hkind : n.kind = .unionType
      · have hlt := countAll_namedChildren_lt n
        rw [unionMembers_of_union hkind]
        exact .union hkind (ih _ (by omega) _ rfl) hrest
      · rw [unionMembers_of_ne hkind]
        exact .member hkind hrest

namespace Flattens

variable {ns ms : List Node}

/-- A list of types flattens in one way only. -/
theorem eq_flatMap (h : Flattens ns ms) : ms = ns.flatMap unionMembers := by
  induction h with
  | nil => rfl
  | member kind _ ih => rw [List.flatMap_cons, unionMembers_of_ne kind, ← ih, List.singleton_append]
  | union kind _ _ ihc ih => rw [List.flatMap_cons, unionMembers_of_union kind, ← ihc, ← ih]

/-- A member is no larger than the types that it comes from. -/
theorem count_le (h : Flattens ns ms) {m : Node} (hm : m ∈ ms) : m.count ≤ Node.countAll ns := by
  induction h with
  | nil => cases hm
  | member kind _ ih =>
    rw [Node.countAll]
    rcases List.mem_cons.1 hm with rfl | hm
    · exact Nat.le_add_right _ _
    · exact Nat.le_add_left_of_le (ih hm)
  | @union n _ _ _ kind _ _ ihc ih =>
    rw [Node.countAll]
    rcases List.mem_append.1 hm with hm | hm
    · exact Nat.le_add_right_of_le
        (Nat.le_of_lt (Nat.lt_of_le_of_lt (ihc hm) (countAll_namedChildren_lt n)))
    · exact Nat.le_add_left_of_le (ih hm)

/-- The members of types as they are read are as they are read. -/
theorem isRead {chars : Array Char} (h : Flattens ns ms) (hns : ∀ n ∈ ns, IsRead chars n)
    {m : Node} (hm : m ∈ ms) : IsRead chars m := by
  induction h with
  | nil => cases hm
  | member kind _ ih =>
    rcases List.mem_cons.1 hm with rfl | hm
    · exact hns _ List.mem_cons_self
    · exact ih (fun n hn => hns n (List.mem_cons_of_mem _ hn)) hm
  | union kind _ _ ihc ih =>
    have hn := hns _ List.mem_cons_self
    rcases List.mem_append.1 hm with hm | hm
    · exact ihc (fun c hc => hn.of_mem_children (.inl kind) (List.mem_filter.1 hc |>.1)) hm
    · exact ih (fun n hn => hns n (List.mem_cons_of_mem _ hn)) hm

end Flattens

/-- A member of a union has fewer nodes than the union. -/
theorem count_lt_of_mem_unionMembers {n m : Node} (h : n.kind = .unionType)
    (hm : m ∈ unionMembers n) : m.count < n.count := by
  rw [unionMembers_of_union h] at hm
  exact Nat.lt_of_le_of_lt ((flattens_flatMap _).count_le hm) (countAll_namedChildren_lt n)

/-! ## Limits -/

section Brackets

variable {n m : Node}

theorem withoutBrackets_of_ne (h : n.kind ≠ .parenthesizedType) (limit : Nat) :
    withoutBrackets n limit = n := by
  cases limit with
  | zero => rfl
  | succ limit => rw [withoutBrackets, if_neg (by simpa using h)]

/-- Brackets are taken off one pair at a time. -/
theorem withoutBrackets_succ (hkind : n.kind = .parenthesizedType)
    (hm : n.namedChildren.head? = some m) (limit : Nat) :
    withoutBrackets n (limit + 1) = withoutBrackets m limit := by
  obtain ⟨ms, hms⟩ := List.head?_eq_some_iff.1 hm
  rw [withoutBrackets, hkind, hms]
  rfl

theorem withoutBrackets_empty (hm : n.namedChildren.head? = none) (limit : Nat) :
    withoutBrackets n limit = n := by
  cases limit with
  | zero => rfl
  | succ limit => rw [withoutBrackets, List.head?_eq_none_iff.1 hm, ite_self]

/-- Any limit as large as the type takes off all brackets. -/
theorem withoutBrackets_eq_of_count_le {a b : Nat} (ha : n.count ≤ a) (hb : n.count ≤ b) :
    withoutBrackets n a = withoutBrackets n b := by
  induction a generalizing n b with
  | zero => exact absurd n.count_pos (by omega)
  | succ a ih =>
    by_cases hkind : n.kind = .parenthesizedType
    · cases hm : n.namedChildren.head? with
      | none => rw [withoutBrackets_empty hm, withoutBrackets_empty hm]
      | some m =>
        have hlt := Node.count_lt_of_mem_children (Node.mem_children_of_head?_namedChildren hm)
        obtain ⟨b, rfl⟩ := Nat.exists_eq_add_of_lt (Nat.lt_of_lt_of_le n.count_pos hb)
        rw [Nat.zero_add, withoutBrackets_succ hkind hm, withoutBrackets_succ hkind hm]
        exact ih (by omega) (by omega)
    · rw [withoutBrackets_of_ne hkind, withoutBrackets_of_ne hkind]

/-- Brackets around a type make no difference. -/
theorem withoutBrackets_of_brackets (hkind : n.kind = .parenthesizedType)
    (hm : n.namedChildren.head? = some m) :
    withoutBrackets n n.count = withoutBrackets m m.count := by
  have hlt := Node.count_lt_of_mem_children (Node.mem_children_of_head?_namedChildren hm)
  rw [withoutBrackets_eq_of_count_le (Nat.le_refl _) (Nat.le_succ n.count),
    withoutBrackets_succ hkind hm]
  exact withoutBrackets_eq_of_count_le (Nat.le_of_lt hlt) (Nat.le_refl _)

/-- A type gets no larger when its brackets are taken off. -/
theorem count_withoutBrackets_le (n : Node) (limit : Nat) :
    (withoutBrackets n limit).count ≤ n.count := by
  induction limit generalizing n with
  | zero => exact Nat.le_refl _
  | succ limit ih =>
    by_cases hkind : n.kind = .parenthesizedType
    · cases hm : n.namedChildren.head? with
      | none => exact Nat.le_of_eq (congrArg Node.count (withoutBrackets_empty hm _))
      | some m =>
        have hlt := Node.count_lt_of_mem_children (Node.mem_children_of_head?_namedChildren hm)
        rw [withoutBrackets_succ hkind hm]
        exact Nat.le_trans (ih m) (Nat.le_of_lt hlt)
    · exact Nat.le_of_eq (congrArg Node.count (withoutBrackets_of_ne hkind _))

end Brackets

section Shapes

variable {t : Tree} {n m : Node}

/-- The members of a union that do not stand for the absence of a value. -/
def presentMembers (t : Tree) (n : Node) : List Node :=
  (unionMembers n).filter fun m => !isNullish t m

/-- The one member that is present is a member. -/
theorem mem_unionMembers_of_presentMembers (h : presentMembers t n = [m]) : m ∈ unionMembers n :=
  (List.mem_filter.1 (h ▸ List.mem_singleton_self m : m ∈ presentMembers t n)).1

theorem shape?_succ_of_ne (h : (withoutBrackets n n.count).kind ≠ .unionType) (limit : Nat) :
    shape? t n (limit + 1) = if isNullish t (withoutBrackets n n.count) then none
      else some (withoutBrackets n n.count) := by
  rw [shape?, if_pos (by simpa using h)]

/-- A union of which one member is present has the shape of that member. -/
theorem shape?_succ_of_one (h : (withoutBrackets n n.count).kind = .unionType)
    (hm : presentMembers t (withoutBrackets n n.count) = [m]) (limit : Nat) :
    shape? t n (limit + 1) = shape? t m limit := by
  rw [presentMembers] at hm
  rw [shape?, if_neg (by simpa using h), hm]

/-- A union of which none or several are present has no shape. -/
theorem shape?_succ_of_not_one (h : (withoutBrackets n n.count).kind = .unionType)
    (hm : ∀ m, presentMembers t (withoutBrackets n n.count) ≠ [m]) (limit : Nat) :
    shape? t n (limit + 1) = none := by
  unfold presentMembers at hm
  rw [shape?, if_neg (by simpa using h)]
  split
  · next m hone => exact absurd hone (hm m)
  · rfl

/-- The limit is never reached: what is left of a type is smaller. -/
theorem shape?_eq_of_count_le {a b : Nat} (ha : n.count ≤ a) (hb : n.count ≤ b) :
    shape? t n a = shape? t n b := by
  induction a generalizing n b with
  | zero => exact absurd n.count_pos (by omega)
  | succ a ih =>
    obtain ⟨b, rfl⟩ := Nat.exists_eq_add_of_lt (Nat.lt_of_lt_of_le n.count_pos hb)
    rw [Nat.zero_add]
    by_cases hkind : (withoutBrackets n n.count).kind = .unionType
    · by_cases hone : ∃ m, presentMembers t (withoutBrackets n n.count) = [m]
      · obtain ⟨m, hm⟩ := hone
        have hlt : m.count < n.count :=
          Nat.lt_of_lt_of_le
            (count_lt_of_mem_unionMembers hkind (mem_unionMembers_of_presentMembers hm))
            (count_withoutBrackets_le n _)
        rw [shape?_succ_of_one hkind hm, shape?_succ_of_one hkind hm]
        exact ih (by omega) (by omega)
      · have hnone := not_exists.1 hone
        rw [shape?_succ_of_not_one hkind hnone, shape?_succ_of_not_one hkind hnone]
    · rw [shape?_succ_of_ne hkind, shape?_succ_of_ne hkind]

/-! ## One equation for each kind of type -/

/-- The parameter list of a type that can be called. -/
def parametersOf? (t : Tree) (n : Node) : Option String :=
  (shape? t n n.count).bind (parametersOfShape? t)

theorem parametersOf?_eq (t : Tree) (n : Node) :
    parametersOf? t n = (shape? t n (n.count + 1)).bind (parametersOfShape? t) := by
  rw [parametersOf?, shape?_eq_of_count_le (Nat.le_refl _) (Nat.le_succ _)]

/-- A type in brackets has the parameters of the type. -/
theorem parametersOf?_of_brackets (hkind : n.kind = .parenthesizedType)
    (hm : n.namedChildren.head? = some m) : parametersOf? t n = parametersOf? t m := by
  have hlt := Node.count_lt_of_mem_children (Node.mem_children_of_head?_namedChildren hm)
  have hshape : shape? t n (n.count + 1) = shape? t m (n.count + 1) := by
    rw [shape?, shape?, withoutBrackets_of_brackets hkind hm]
  rw [parametersOf?_eq, parametersOf?, hshape,
    shape?_eq_of_count_le (by omega : m.count ≤ n.count + 1) (Nat.le_refl _)]

/-- Empty brackets have no parameters. -/
theorem parametersOf?_of_empty_brackets (hkind : n.kind = .parenthesizedType)
    (hm : n.namedChildren.head? = none) : parametersOf? t n = none := by
  rw [parametersOf?_eq, shape?, withoutBrackets_empty hm]
  simp [hkind, parametersOfShape?]

/-- A union has the parameters of the one member that is present. -/
theorem parametersOf?_of_one (hkind : n.kind = .unionType) (hm : presentMembers t n = [m]) :
    parametersOf? t n = parametersOf? t m := by
  have hlt := count_lt_of_mem_unionMembers hkind (mem_unionMembers_of_presentMembers hm)
  have hbare : withoutBrackets n n.count = n := withoutBrackets_of_ne (by simp [hkind]) _
  rw [parametersOf?_eq, shape?_succ_of_one (by rwa [hbare]) (by rwa [hbare]), parametersOf?,
    shape?_eq_of_count_le (Nat.le_of_lt hlt) (Nat.le_refl _)]

/-- A union has no parameters if none or several of its members are present. -/
theorem parametersOf?_of_not_one (hkind : n.kind = .unionType)
    (hm : ∀ m, presentMembers t n ≠ [m]) : parametersOf? t n = none := by
  have hbare : withoutBrackets n n.count = n := withoutBrackets_of_ne (by simp [hkind]) _
  rw [parametersOf?_eq, shape?_succ_of_not_one (by rwa [hbare]) (by rwa [hbare])]
  rfl

/-- A type that is no union and not in brackets has the parameters of its own shape. -/
theorem parametersOf?_of_other (hunion : n.kind ≠ .unionType)
    (hbrackets : n.kind ≠ .parenthesizedType) :
    parametersOf? t n = if isNullish t n then none else parametersOfShape? t n := by
  have hbare := withoutBrackets_of_ne hbrackets n.count
  rw [parametersOf?_eq, shape?_succ_of_ne (by rwa [hbare]), hbare]
  split <;> rfl

end Shapes

/-! ## Types as they are read -/

section Read

variable {t : Tree} {n : Node} {p : String}

/-- What begins with a character that is not blank still does when it is trimmed. -/
theorem head?_trimChars {c : Char} (h : Text.isBlank c = false) (cs : List Char) :
    (Text.trimChars (c :: cs)).head? = some c := by
  have hdrop (xs : List Char) : (xs ++ [c]).dropWhile Text.isBlank
      = xs.dropWhile Text.isBlank ++ [c] := by
    rw [List.dropWhile_append]
    split
    · next hempty => simp_all
    · rfl
  rw [Text.trimChars, List.dropWhile_cons_of_neg (by simp [h]), List.reverse_cons, hdrop,
    List.reverse_append]
  rfl

/-- The text of a node begins with the character it starts at, unless it is empty. -/
theorem toList_text_of_getElem? {c : Char} (h : t.source[n.start]? = some c) :
    (t.text n).toList = [] ∨ ∃ cs, (t.text n).toList = c :: cs := by
  have htext : (t.text n).toList = (t.source.toList.drop n.start).take (n.stop - n.start) := by
    simp [Tree.text, Tree.slice]
  rw [← Array.getElem?_toList] at h
  obtain ⟨hlt, hc⟩ := List.getElem?_eq_some_iff.1 h
  rw [htext, List.drop_eq_getElem_cons hlt, hc]
  cases n.stop - n.start with
  | zero => exact .inl rfl
  | succ k => exact .inr ⟨_, rfl⟩

/-- A type that begins with a bracket does not stand for the absence of a value. -/
theorem isNullish_of_opens
    (h : t.source[n.start]? = some '(' ∨ t.source[n.start]? = some '<') :
    isNullish t n = false := by
  -- the first character stays the first when blanks are removed, and it is no letter
  have hhead : (Text.trim (t.text n)).toList.head? ∈ [none, some '(', some '<'] := by
    rw [Text.trim, String.toList_ofList]
    rcases h with h | h <;> rcases toList_text_of_getElem? h with htext | ⟨cs, htext⟩ <;>
      rw [htext]
    · decide
    · rw [head?_trimChars (by decide)]
      decide
    · decide
    · rw [head?_trimChars (by decide)]
      decide
  rw [isNullish, ← Bool.not_eq_true]
  intro hmem
  have hmem : Text.trim (t.text n) ∈ ["undefined", "null"] := List.contains_iff_mem.1 hmem
  rcases List.mem_cons.1 hmem with heq | hmem
  · rw [heq] at hhead
    revert hhead
    decide
  · rw [List.mem_singleton.1 hmem] at hhead
    revert hhead
    decide

/-- The type of all functions is not one of the absent ones. -/
theorem isNullish_of_text_function (h : t.text n = "Function") : isNullish t n = false := by
  rw [isNullish, h]
  decide

/-- A function type that has been read has parameters. -/
theorem inRole?_parameters_isSome (hread : IsRead t.source n) (hkind : n.kind = .functionType) :
    (n.inRole? .parameters).isSome := by
  obtain ⟨m, hm, hrole⟩ := hread.parameters_of_functionType hkind
  exact List.find?_isSome.2 ⟨m, hm, by simp [hrole]⟩

/-- The members of a union that are present are those with another text than the absent types. -/
theorem presentMembers_eq (hkind : n.kind = .unionType) :
    presentMembers t n
      = (n.namedChildren.flatMap unionMembers).filter fun m => !isAbsent (t.text m) := by
  rw [presentMembers, unionMembers_of_union hkind]
  rfl

/-- The members of a union that has been read have been read. -/
theorem isRead_of_mem_unionMembers {m : Node} (hread : IsRead t.source n)
    (hkind : n.kind = .unionType) (hm : m ∈ unionMembers n) : IsRead t.source m := by
  rw [unionMembers_of_union hkind] at hm
  exact (flattens_flatMap _).isRead
    (fun c hc => hread.of_mem_children (.inl hkind) (List.mem_filter.1 hc).1) hm

/-- A shape with parameters is callable with them. -/
theorem callable_of_parametersOfShape? (hread : IsRead t.source n)
    (h : parametersOfShape? t n = some p) : Callable t isAbsent n p := by
  rw [parametersOfShape?] at h
  split at h
  · next hnamed =>
    rw [Bool.and_eq_true, beq_iff_eq, beq_iff_eq] at hnamed
    cases h
    exact .named hnamed.1 hnamed.2
  · split at h
    · next hfunction =>
      have hkind := beq_iff_eq.1 hfunction
      obtain ⟨parameters, hrole⟩ := Option.isSome_iff_exists.1
        (inRole?_parameters_isSome hread hkind)
      rw [hrole] at h
      cases h
      exact .functionType hkind hrole
    · cases h

/-- **A type with parameters is callable with them.** The induction is on the size of the type: a
union goes on with the member that is present. -/
theorem callable_of_parametersOf? (hread : IsRead t.source n)
    (h : parametersOf? t n = some p) : Callable t isAbsent n p := by
  -- by the number of nodes: members of a union may lie deeper than its children
  induction hk : n.count using Nat.strongRecOn generalizing n with
  | ind k ih =>
    by_cases hunion : n.kind = .unionType
    · by_cases hone : ∃ m, presentMembers t n = [m]
      · obtain ⟨m, hm⟩ := hone
        have hmem := mem_unionMembers_of_presentMembers hm
        rw [parametersOf?_of_one hunion hm] at h
        refine .union hunion (flattens_flatMap _) (presentMembers_eq hunion ▸ hm) ?_
        exact ih _ (hk ▸ count_lt_of_mem_unionMembers hunion hmem)
          (isRead_of_mem_unionMembers hread hunion hmem) h rfl
      · rw [parametersOf?_of_not_one hunion (not_exists.1 hone)] at h
        cases h
    · by_cases hbrackets : n.kind = .parenthesizedType
      · cases hm : n.namedChildren.head? with
        | none =>
          rw [parametersOf?_of_empty_brackets hbrackets hm] at h
          cases h
        | some m =>
          have hmem := Node.mem_children_of_head?_namedChildren hm
          rw [parametersOf?_of_brackets hbrackets hm] at h
          exact .brackets hbrackets hm (ih _ (hk ▸ Node.count_lt_of_mem_children hmem)
            (hread.of_mem_children (.inr hbrackets) hmem) h rfl)
      · rw [parametersOf?_of_other hunion hbrackets] at h
        split at h
        · cases h
        · exact callable_of_parametersOfShape? hread h

/-- **A callable type has parameters**, the ones that it is callable with. -/
theorem parametersOf?_of_callable (hread : IsRead t.source n) (h : Callable t isAbsent n p) :
    parametersOf? t n = some p := by
  induction h with
  | named kind text =>
    rw [parametersOf?_of_other (by simp [kind]) (by simp [kind]), isNullish_of_text_function text]
    simp [parametersOfShape?, kind, text]
  | functionType kind role =>
    rw [parametersOf?_of_other (by simp [kind]) (by simp [kind]),
      isNullish_of_opens (hread.opens (.inl kind))]
    simp [parametersOfShape?, kind, role]
  | brackets kind first _ ih =>
    rw [parametersOf?_of_brackets kind first]
    exact ih (hread.of_mem_children (.inr kind) (Node.mem_children_of_head?_namedChildren first))
  | @union n m ms p kind members one _ ih =>
    have hm : presentMembers t n = [m] := by
      rw [presentMembers_eq kind, ← members.eq_flatMap, one]
    rw [parametersOf?_of_one kind hm]
    exact ih (isRead_of_mem_unionMembers hread kind (mem_unionMembers_of_presentMembers hm))

/-- **The relation is what the loops compute.** -/
theorem parametersOf?_iff_callable (hread : IsRead t.source n) :
    parametersOf? t n = some p ↔ Callable t isAbsent n p :=
  ⟨callable_of_parametersOf? hread, parametersOf?_of_callable hread⟩

end Read

/-! ## Texts and properties -/

section Texts

variable {type : String}

/-- A declaration without flaws has a value, and it has been read. -/
theorem exists_declaredValue (h : (declarationOf type).flawed = false) :
    ∃ value, declaredValue? (declarationOf type) = some value
      ∧ IsRead (declarationOf type).source value := by
  obtain ⟨declaration, value, hhead, hvalue, hread⟩ := exists_declared_of_not_flawed rfl h
  refine ⟨value, ?_, hread⟩
  rw [declaredValue?, declarationOf, hhead]
  exact hvalue

/-- Without flaws, the parameters of a type are those of the value that is declared. -/
theorem callableParameters?_of_not_flawed (h : (declarationOf type).flawed = false) :
    callableParameters? type
      = (declaredValue? (declarationOf type)).bind (parametersOf? (declarationOf type)) := by
  have hdeclared (t : Tree) (ht : t.flawed = false) :
      declaredParameters? t = (declaredValue? t).bind (parametersOf? t) := by
    rw [declaredParameters?, ht, declaredValue?, Option.bind_assoc]
    rfl
  exact hdeclared _ h

/-- A type that is not one has no parameters. -/
theorem callableParameters?_of_flawed (h : (declarationOf type).flawed = true) :
    callableParameters? type = none := by
  have hdeclared (t : Tree) (ht : t.flawed = true) : declaredParameters? t = none := by
    rw [declaredParameters?, ht]
    rfl
  exact hdeclared _ h

/-- A text has parameters exactly if it is callable with them. -/
theorem callableParameters?_iff_callableText {p : String} :
    callableParameters? type = some p ↔ CallableText type p := by
  rw [CallableText]
  cases h : (declarationOf type).flawed with
  | true => simp [callableParameters?_of_flawed h]
  | false =>
    obtain ⟨value, hvalue, hread⟩ := exists_declaredValue h
    rw [callableParameters?_of_not_flawed h, hvalue, Option.bind_some,
      parametersOf?_iff_callable hread]
    simp

end Texts

section Properties

variable {x : Property}

/-- A property is an event exactly if it has the name of a handler and a callable type. -/
theorem isEvent_iff :
    isEvent x = true
      ↔ Text.startsWith x.name "on" = true ∧ ∃ p, CallableText (Text.trim x.type) p := by
  rw [isEvent, Bool.and_eq_true, Option.isSome_iff_exists]
  simp only [callableParameters?_iff_callableText]
  rfl

theorem eventParameters_of_callableText {p : String} (h : CallableText (Text.trim x.type) p) :
    eventParameters x.type = p := by
  rw [eventParameters, callableParameters?_iff_callableText.2 h]
  rfl

/-- The events of some properties are those among them, in their order. -/
theorem eventsAmong_eventsOfProperties (xs : List Property) :
    EventsAmong xs (eventsOfProperties xs) := by
  induction xs with
  | nil => exact .nil
  | cons x xs ih =>
    rw [eventsOfProperties, List.filter_cons]
    split
    · next hevent =>
      obtain ⟨hname, p, hp⟩ := isEvent_iff.1 hevent
      rw [List.map_cons, eventParameters_of_callableText hp]
      exact .event hname hp ih
    · next hevent =>
      exact .other (fun hname p hp => hevent (isEvent_iff.2 ⟨hname, p, hp⟩)) ih

/-- There are no other events among them. -/
theorem EventsAmong.eq_eventsOfProperties {xs : List Property} {es : List Event}
    (h : EventsAmong xs es) : es = eventsOfProperties xs := by
  induction h with
  | nil => rfl
  | event name type _ ih =>
    rw [eventsOfProperties, List.filter_cons_of_pos (isEvent_iff.2 ⟨name, _, type⟩),
      List.map_cons, eventParameters_of_callableText type, ih]
    rfl
  | other none _ ih =>
    rw [eventsOfProperties, List.filter_cons_of_neg, ih]
    · rfl
    · rw [isEvent_iff]
      exact fun ⟨hname, p, hp⟩ => none hname p hp

/-- What a type would show that cannot be called is never shown. -/
theorem eventsOfProperties_eq_of_fallback (fallback : String → String) (xs : List Property) :
    eventsOfProperties xs = (xs.filter isEvent).map fun x =>
      { name := x.name
        parameters := (callableParameters? (Text.trim x.type)).getD (fallback x.type) } := by
  refine List.map_congr_left fun x hx => ?_
  obtain ⟨-, p, hp⟩ := isEvent_iff.1 (List.mem_filter.1 hx).2
  rw [eventParameters_of_callableText hp, callableParameters?_iff_callableText.2 hp]
  rfl

end Properties

/-- **What is called and what is not.** A text that declares a type declares it as the value
of its first declaration, and its parameters are those that the rules give for that value. The
events of properties are, in their order, the properties that are named like handlers and have
such a type, always with these parameters. -/
theorem parameters_iff_callable :
    (∀ type, (declarationOf type).flawed = false →
      ∃ value, declaredValue? (declarationOf type) = some value
        ∧ ∀ p, callableParameters? type = some p
            ↔ Callable (declarationOf type) isAbsent value p)
      ∧ (∀ type, (declarationOf type).flawed = true → callableParameters? type = none)
      ∧ (∀ xs es, eventsOfProperties xs = es ↔ EventsAmong xs es)
      ∧ ∀ (fallback : String → String) (xs : List Property),
          eventsOfProperties xs = (xs.filter isEvent).map fun x =>
            { name := x.name
              parameters := (callableParameters? (Text.trim x.type)).getD (fallback x.type) } := by
  refine ⟨fun type h => ?_, fun type => callableParameters?_of_flawed, fun xs es => ?_,
    eventsOfProperties_eq_of_fallback⟩
  · obtain ⟨value, hvalue, hread⟩ := exists_declaredValue h
    refine ⟨value, hvalue, fun p => ?_⟩
    rw [callableParameters?_of_not_flawed h, hvalue]
    exact parametersOf?_iff_callable hread
  · constructor
    · rintro rfl
      exact eventsAmong_eventsOfProperties xs
    · exact fun h => h.eq_eventsOfProperties.symm

/-- The rules apply to what stands in a text. -/
theorem parameters_of_optional_handler :
    ∃ value, declaredValue? (declarationOf "((e: Event) => void) | null") = some value
      ∧ Callable (declarationOf "((e: Event) => void) | null") isAbsent value "(e: Event)" := by
  have hparameters : (declarationOf "((e: Event) => void) | null").flawed = false
      ∧ callableParameters? "((e: Event) => void) | null" = some "(e: Event)" := by
    decide +kernel
  obtain ⟨value, hvalue, h⟩ := parameters_iff_callable.1 _ hparameters.1
  exact ⟨value, hvalue, (h "(e: Event)").1 hparameters.2⟩

/-- A union can be called only if one member is not absent. -/
theorem Callable.length_presentMembers {t : Tree} {absent : String → Bool} {n : Node} {p : String}
    (h : Callable t absent n p) (hkind : n.kind = .unionType) :
    ((unionMembers n).filter fun m => !absent (t.text m)).length = 1 := by
  cases h with
  | named kind _ => simp [hkind] at kind
  | functionType kind _ => simp [hkind] at kind
  | brackets kind _ _ => simp [hkind] at kind
  | union _ members one _ =>
    rw [unionMembers_of_union hkind, ← members.eq_flatMap, one]
    rfl

/-- The next line character is part of a name, and it is blank. So a member of a union may stand
for the absence of a value although its text is no such type. -/
theorem parameters_of_blank_member :
    callableParameters? "null\u0085 | Function" = some "()"
      ∧ (declarationOf "null\u0085 | Function").flawed = false
      ∧ ∀ value p, declaredValue? (declarationOf "null\u0085 | Function") = some value →
          ¬ Callable (declarationOf "null\u0085 | Function") nullishTypes.contains value p := by
  have hparameters : callableParameters? "null\u0085 | Function" = some "()"
      ∧ (declarationOf "null\u0085 | Function").flawed = false := by decide +kernel
  refine ⟨hparameters.1, hparameters.2, fun value p hvalue h => ?_⟩
  -- two members are left, the name with the blank and `Function`
  have hmembers : (declaredValue? (declarationOf "null\u0085 | Function")).map (fun value =>
      (value.kind, ((unionMembers value).filter fun m =>
        !nullishTypes.contains ((declarationOf "null\u0085 | Function").text m)).length))
      = some (.unionType, 2) := by decide +kernel
  rw [hvalue] at hmembers
  have hpair := Option.some.inj hmembers
  have hlength := h.length_presentMembers (congrArg Prod.fst hpair)
  exact absurd (hlength.symm.trans (congrArg Prod.snd hpair)) (by decide)

end ComponentCatalog.Extract
