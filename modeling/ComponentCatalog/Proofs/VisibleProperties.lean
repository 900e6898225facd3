import ComponentCatalog.Proofs.Constants
import ComponentCatalog.Proofs.Facets
import ComponentCatalog.Proofs.Searches

/-!
# The properties of a source, member by member

The properties of a declaration are made from its visible members, and of several members of
one name only the first counts. Here both are said of the members as they stand in the body of
the declaration: a member is *visible* by what it is (`Visible`), and what is listed are the
places at which a visible name stands first. A static or private field neither appears nor
takes its name away from a later one.

Default values come from two sides. A field may have an initialiser, and then that is its
default. For all other members the object literals of the source are searched which are bound
to a default-value name, and there are three levels to such a search: the groups of literals
(static fields of the declaration, variables, assignments), the literals of a group in document
order, and the entries of a literal. A place of an entry is therefore three numbers, compared
one after the other, and the default value is that of the entry at the least place at which
there is one for the name (`findsFirst_lookup_defaultEntries`).

A literal is seen through brackets and type assertions, but each of them is taken for the first
thing it holds. A comment behind an opening bracket is such a thing, and it hides the literal
(`default_behind_comment`).
-/

namespace ComponentCatalog.Extract

open Syntax

/-! ## Names -/

/-- A string literal with the text between its quotes. -/
def Quotes (t : Tree) (n : Node) (s : String) : Prop :=
  n.kind = .string ∧ ∃ quote, (quote = '\'' ∨ quote = '"')
    ∧ (t.text n).toList = quote :: (s.toList ++ [quote])

/-- **The text that a name stands for**: a string literal stands for what is between its
quotes, and any other name for itself. -/
inductive Spelt (t : Tree) (n : Node) : String → Prop
  | quoted {s : String} : Quotes t n s → Spelt t n s
  | plain : (∀ s, ¬ Quotes t n s) → Spelt t n (t.text n)

/-- **The name of a member as users write it**, which is neither computed nor private. -/
def NamedAs (t : Tree) (member : Node) (name : String) : Prop :=
  ∃ n, (member.inRole? .name <|> member.firstOf? [.propertyIdentifier, .string]) = some n
    ∧ n.kind ≠ .computedName ∧ n.kind ≠ .privateIdentifier ∧ Spelt t n name

/-- A string has the value that it quotes. -/
theorem stringValue?_iff_quotes {t : Tree} {n : Node} {s : String} :
    t.stringValue? n = some s ↔ Quotes t n s := by
  by_cases hk : n.kind = .string
  · rw [stringValue?_eq_some_iff hk, Quotes, and_iff_right hk]
  · refine iff_of_false ?_ fun h => hk h.1
    simp [Tree.stringValue?, hk]

theorem spelt_iff {t : Tree} {n : Node} {s : String} :
    (t.stringValue? n).getD (t.text n) = s ↔ Spelt t n s := by
  cases hv : t.stringValue? n with
  | some v =>
    have hquotes := stringValue?_iff_quotes.1 hv
    constructor
    · rintro rfl
      exact .quoted hquotes
    · rintro (hs | hnone)
      · rw [← stringValue?_iff_quotes, hv] at hs
        exact Option.some.inj hs
      · exact absurd hquotes (hnone v)
  | none =>
    have hnone : ∀ s, ¬ Quotes t n s := fun s hs => by
      rw [← stringValue?_iff_quotes, hv] at hs
      cases hs
    constructor
    · rintro rfl
      exact .plain hnone
    · rintro (hs | -)
      · exact absurd hs (hnone s)
      · rfl

/-- The name of a member, quoted or not. -/
theorem memberName?_eq_some_iff {t : Tree} {member : Node} {name : String} :
    memberName? t member = some name ↔ NamedAs t member name := by
  unfold memberName? NamedAs
  rw [Option.bind_eq_bind, Option.bind_eq_some_iff]
  refine exists_congr fun n => and_congr_right fun _ => ?_
  by_cases hk : n.kind = .privateIdentifier ∨ n.kind = .computedName
  · rw [if_pos (by simpa using hk)]
    refine iff_of_false (by simp) fun h => ?_
    exact hk.elim h.2.1 h.1
  · rw [if_neg (by simpa using hk), Option.some.injEq, spelt_iff]
    obtain ⟨hprivate, hcomputed⟩ := not_or.1 hk
    rw [and_iff_right hcomputed, and_iff_right hprivate]

/-! ## Visible members -/

/-- **A member that users see**, with its name. -/
inductive Visible (t : Tree) (d member : Node) (name : String) : Prop
  /-- A field of a class that is neither static nor kept from users. -/
  | field : d.kind ∈ classKinds → member.kind = .fieldDefinition →
    member.hasToken "static" = false →
    (∀ modifier, member.firstOf? [.accessibilityModifier] = some modifier →
      t.text modifier ≠ "private" ∧ t.text modifier ≠ "protected") →
    NamedAs t member name → name ≠ "" → Visible t d member name
  /-- A signature of an interface. -/
  | signature : d.kind = .interfaceDeclaration →
    member.kind = .propertySignature ∨ member.kind = .methodSignature →
    NamedAs t member name → name ≠ "" → Visible t d member name

/-- Whether a member of a declaration is of a kind that declares a property. -/
def declaresIn (d member : Node) : Bool :=
  if d.kind == .interfaceDeclaration then
    member.kind == .propertySignature || member.kind == .methodSignature
  else member.kind == .fieldDefinition

/-- The members that declare something, in their order. -/
theorem declaredMembers_eq_filter (d : Node) :
    declaredMembers d = (membersOf d).filter (declaresIn d) := by
  unfold declaredMembers membersOf declaresIn
  cases d.inRole? .body with
  | none => rfl
  | some body =>
    dsimp only [Option.map_some, Option.getD_some]
    split <;> rfl

theorem kind_of_mem_declarations {t : Tree} {d : Node} (hd : d ∈ declarations t) :
    d.kind ∈ classKinds ∨ d.kind = .interfaceDeclaration := by
  have hk := (Bool.and_eq_true _ _).mp (List.mem_filter.1 hd).2
  simpa using hk.2

theorem ne_interface_of_mem_classKinds {d : Node} (hd : d.kind ∈ classKinds) :
    d.kind ≠ .interfaceDeclaration := by
  rintro hk
  rw [hk] at hd
  revert hd
  decide

/-- A member is not hidden unless its modifier says so. -/
theorem isHidden_eq_false_iff {t : Tree} {member : Node} :
    isHidden t member = false
      ↔ ∀ modifier, member.firstOf? [.accessibilityModifier] = some modifier →
          t.text modifier ≠ "private" ∧ t.text modifier ≠ "protected" := by
  unfold isHidden
  cases member.firstOf? [.accessibilityModifier] <;> simp

/-- A member is visible if it has a name and, in a class, is neither static nor hidden. -/
theorem visibleName?_eq_some_iff {t : Tree} {isClass : Bool} {member : Node} {name : String} :
    visibleName? t isClass member = some name
      ↔ (isClass = true → member.hasToken "static" = false ∧ isHidden t member = false)
        ∧ NamedAs t member name ∧ name ≠ "" := by
  unfold visibleName?
  rw [← memberName?_eq_some_iff]
  cases isClass <;> cases member.hasToken "static" <;> cases isHidden t member <;>
    simp [Option.filter_eq_some_iff]

/-- The name under which users see a member of a declaration. -/
def visibleIn? (t : Tree) (d member : Node) : Option String :=
  if declaresIn d member then visibleName? t (d.kind != .interfaceDeclaration) member else none

/-- Which members users see can be told one by one. -/
theorem visibleMembers_eq_filterMap (t : Tree) (d : Node) :
    visibleMembers t d
      = (membersOf d).filterMap fun m => (visibleIn? t d m).map fun name => (name, m) := by
  unfold visibleMembers visibleIn?
  rw [declaredMembers_eq_filter, List.filterMap_filter]
  refine List.filterMap_congr fun m _ => ?_
  cases declaresIn d m <;> rfl

/-- A member of a declaration is seen under a name exactly if it is visible under it. -/
theorem visibleIn?_eq_some_iff {t : Tree} {d m : Node} (hd : d ∈ declarations t)
    {name : String} : visibleIn? t d m = some name ↔ Visible t d m name := by
  unfold visibleIn?
  rw [Option.ite_none_right_eq_some, visibleName?_eq_some_iff, declaresIn]
  rcases kind_of_mem_declarations hd with hclass | hinterface
  · have hne := ne_interface_of_mem_classKinds hclass
    simp only [beq_eq_false_iff_ne.2 hne, bne, Bool.not_false, Bool.false_eq_true, if_false,
      beq_iff_eq, forall_const, isHidden_eq_false_iff]
    constructor
    · rintro ⟨hk, ⟨hstatic, hhidden⟩, hname, hempty⟩
      exact .field hclass hk hstatic hhidden hname hempty
    · intro h
      cases h with
      | field _ hk hstatic hhidden hname hempty =>
        exact ⟨hk, ⟨hstatic, hhidden⟩, hname, hempty⟩
      | signature hd' => exact absurd hd' hne
  · simp only [hinterface, beq_self_eq_true, if_true, bne_self_eq_false, Bool.false_eq_true,
      false_implies, true_and, Bool.or_eq_true, beq_iff_eq]
    constructor
    · rintro ⟨hk, hname, hempty⟩
      exact .signature hinterface hk hname hempty
    · intro h
      cases h with
      | field hd' => exact absurd hinterface (ne_interface_of_mem_classKinds hd')
      | signature _ hk hname hempty => exact ⟨hk, hname, hempty⟩

/-! ## Default values -/

/-- **The object literal that an expression comes down to**, seen through brackets and type
assertions. Each of them is taken for the first thing it holds, be it a comment. -/
inductive ComesTo : Node → Node → Prop
  | object {n : Node} : n.kind = .object → ComesTo n n
  | wrapped {n m object : Node} : n.kind ∈ wrapperKinds → n.namedChildren.head? = some m →
    ComesTo m object → ComesTo n object

/-- Unwrapping comes to an object exactly if the value comes to it. The limit is the size of the
node. -/
theorem unwrap_go_iff {n object : Node} {limit : Nat} (h : n.count ≤ limit) :
    unwrap.go n limit = object ∧ object.kind = .object ↔ ComesTo n object := by
  induction limit generalizing n with
  | zero => exact absurd n.count_pos (Nat.not_lt.2 h)
  | succ limit ih =>
    have hwrapper : [Kind.asExpression, .satisfiesExpression, .parenthesizedExpression].contains
        n.kind = true ↔ n.kind ∈ wrapperKinds := by
      simp only [wrapperKinds, List.contains_iff_mem, List.mem_cons, List.not_mem_nil, or_false]
      tauto
    rw [unwrap.go]
    by_cases hk : n.kind ∈ wrapperKinds
    · have hobject : n.kind ≠ .object := fun hn => by simp [hn, wrapperKinds] at hk
      rw [if_pos (hwrapper.2 hk)]
      cases hc : n.namedChildren with
      | nil =>
        refine iff_of_false (fun ⟨hn, ho⟩ => hobject ?_) fun hcomes => ?_
        · rwa [show n = object from hn]
        cases hcomes with
        | object hn => exact hobject hn
        | wrapped _ hm _ => simp [hc] at hm
      | cons m rest =>
        have hm : n.namedChildren.head? = some m := by rw [hc]; rfl
        -- what is inside has fewer nodes, so the limit is not used up
        have hlt := Node.count_lt_of_mem_children (Node.mem_children_of_head?_namedChildren hm)
        rw [ih (by omega)]
        constructor
        · exact .wrapped hk hm
        · intro hcomes
          cases hcomes with
          | object hn => exact absurd hn hobject
          | wrapped _ hm' hrest => exact Option.some.inj (hm'.symm.trans hm) ▸ hrest
    · rw [if_neg (hwrapper.not.2 hk)]
      constructor
      · rintro ⟨rfl, ho⟩
        exact .object ho
      · intro hcomes
        cases hcomes with
        | object hn => exact ⟨rfl, hn⟩
        | wrapped hn _ _ => exact absurd hn hk

/-- A value is a literal if it comes to an object. -/
theorem literal?_eq_some_iff {v? : Option Node} {object : Node} :
    literal? v? = some object ↔ ∃ v, v? = some v ∧ ComesTo v object := by
  unfold literal?
  rw [Option.filter_eq_some_iff, Option.map_eq_some_iff]
  constructor
  · rintro ⟨⟨v, hv, hunwrap⟩, ho⟩
    exact ⟨v, hv, (unwrap_go_iff le_rfl).1 ⟨hunwrap, beq_iff_eq.1 ho⟩⟩
  · rintro ⟨v, hv, hcomes⟩
    obtain ⟨hunwrap, ho⟩ := (unwrap_go_iff le_rfl).2 hcomes
    exact ⟨⟨v, hv, hunwrap⟩, beq_iff_eq.2 ho⟩

/-- **An entry of an object literal**: a key with the text of its value, or a name that stands
for both. -/
inductive IsEntry (t : Tree) (c : Node) : String → String → Prop
  | pair {k v : Node} {key : String} : c.kind = .pair → c.inRole? .key = some k →
    c.inRole? .value = some v → Spelt t k key → IsEntry t c key (Text.trim (t.text v))
  | shorthand : c.kind = .shorthandProperty → IsEntry t c (t.text c) (t.text c)

/-- The entries of an object, in their order. -/
theorem exists_entryOf? (t : Tree) (object : Node) :
    ∃ entryOf? : Node → Option (String × String),
      objectEntries t object = object.namedChildren.filterMap entryOf?
      ∧ ∀ c key x, entryOf? c = some (key, x) ↔ IsEntry t c key x := by
  refine ⟨_, rfl, fun c key x => ?_⟩
  constructor
  · intro h
    split at h
    · next hk =>
      split at h
      · next k v hkey hv =>
        obtain ⟨rfl, rfl⟩ := Prod.mk.inj (Option.some.inj h)
        exact .pair hk hkey hv (spelt_iff.1 rfl)
      · cases h
    · next hk =>
      obtain ⟨rfl, rfl⟩ := Prod.mk.inj (Option.some.inj h)
      exact .shorthand hk
    · cases h
  · intro h
    cases h with
    | pair hk hkey hv hspelt => simp [hk, hkey, hv, spelt_iff.2 hspelt]
    | shorthand hk => simp [hk]

/-- The places in which literals with default values are looked for, in their order. -/
inductive Group where
  | statics
  | declarators
  | assignments

/-- The groups in the order in which they count. -/
def Group.all : List Group :=
  [.statics, .declarators, .assignments]

/-- The nodes of a group, in document order. -/
def Group.nodes (t : Tree) (d : Node) : Group → List Node
  | .statics => membersOf d
  | .declarators => t.root.preorder
  | .assignments => t.root.preorder

/-- **A node that binds a value to one of the default-value names.** -/
inductive Binds (t : Tree) (d : Node) (names : List String) : Group → Node → Node → Prop
  /-- A static field of the declaration, which is a class. -/
  | statics {m v : Node} {name : String} : d.kind ∈ classKinds → m.kind = .fieldDefinition →
    m.hasToken "static" = true → NamedAs t m name → name ∈ names → m.inRole? .value = some v →
    Binds t d names .statics m v
  /-- A variable, anywhere in the source. -/
  | declarators {n m v : Node} : n.kind = .variableDeclarator → n.inRole? .name = some m →
    t.text m ∈ names → n.inRole? .value = some v → Binds t d names .declarators n v
  /-- An assignment to a member of something, anywhere in the source. -/
  | assignments {n l p v : Node} : n.kind = .assignmentExpression → n.inRole? .left = some l →
    l.kind = .memberExpression → l.inRole? .property = some p → t.text p ∈ names →
    n.inRole? .right = some v → Binds t d names .assignments n v

/-- The literal that a node of a group binds to a default-value name. -/
def Group.literal? (t : Tree) (d : Node) (names : List String) : Group → Node → Option Node
  | .statics, m =>
    if d.kind != .interfaceDeclaration && declaresIn d m && m.hasToken "static" then
      ((memberName? t m).filter names.contains).bind fun _ => Extract.literal? (m.inRole? .value)
    else none
  | .declarators, n =>
    if n.kind = .variableDeclarator then
      ((n.inRole? .name).filter fun m => names.contains (t.text m)).bind fun _ =>
        Extract.literal? (n.inRole? .value)
    else none
  | .assignments, n =>
    if n.kind = .assignmentExpression then
      ((n.inRole? .left).filter (·.kind == .memberExpression)).bind fun l =>
        ((l.inRole? .property).filter fun p => names.contains (t.text p)).bind fun _ =>
          Extract.literal? (n.inRole? .right)
    else none

theorem bind_filter_some {α β : Type} (p : α → Bool) (a : α) (f : α → Option β) :
    ((some a).filter p).bind f = if p a then f a else none := by
  rw [Option.filter_some]
  split <;> rfl

/-- The literals with defaults come from groups of places, one group after the other. -/
theorem defaultLiterals_eq_flatMap (t : Tree) (d : Node) (names : List String) :
    defaultLiterals t d names
      = Group.all.flatMap fun g => (g.nodes t d).filterMap (g.literal? t d names) := by
  have hstatics : (if d.kind == .interfaceDeclaration then []
        else (declaredMembers d).filter fun m => m.hasToken "static")
      = (membersOf d).filter fun m =>
          d.kind != .interfaceDeclaration && declaresIn d m && m.hasToken "static" := by
    rw [declaredMembers_eq_filter]
    by_cases hk : d.kind = .interfaceDeclaration
    · simp [hk]
    · rw [if_neg (by simpa using hk), List.filter_filter]
      refine List.filter_congr fun m _ => ?_
      rw [bne_iff_ne.2 hk, Bool.true_and, Bool.and_comm]
  unfold defaultLiterals
  rw [hstatics, Tree.filterMap_ofKind t rfl, Tree.filterMap_ofKind t rfl]
  simp only [List.filterMap_filter, Group.all, List.flatMap_cons, List.flatMap_nil,
    List.append_nil, List.append_assoc]
  refine congr (congrArg _ ?_) (congr (congrArg _ ?_) ?_)
  · refine List.filterMap_congr fun m _ => ?_
    rw [Group.literal?]
    cases memberName? t m with
    | none => rfl
    | some name => rw [bind_filter_some]
  · refine List.filterMap_congr fun n _ => ?_
    rw [Group.literal?]
    cases n.inRole? .name with
    | none => rfl
    | some m => rw [bind_filter_some]
  · refine List.filterMap_congr fun n _ => ?_
    rw [Group.literal?]
    cases (n.inRole? .left).filter (·.kind == .memberExpression) with
    | none => rfl
    | some l =>
      dsimp only [Option.bind_some]
      cases l.inRole? .property with
      | none => rfl
      | some p => rw [bind_filter_some]

/-- A node of a group gives a literal if it binds a value that comes to an object. -/
theorem Group.literal?_eq_some_iff {t : Tree} {d : Node} (hd : d ∈ declarations t)
    {names : List String} {g : Group} {n object : Node} :
    g.literal? t d names n = some object
      ↔ ∃ v, Binds t d names g n v ∧ ComesTo v object := by
  cases g with
  | statics =>
    rw [Group.literal?, Option.ite_none_right_eq_some, Option.bind_eq_some_iff]
    simp only [Option.filter_eq_some_iff, Extract.literal?_eq_some_iff, memberName?_eq_some_iff,
      Bool.and_eq_true, bne_iff_ne, List.contains_iff_mem]
    constructor
    · rintro ⟨⟨⟨hne, hk⟩, hstatic⟩, name, ⟨hname, hmem⟩, v, hv, hcomes⟩
      have hclass := (kind_of_mem_declarations hd).resolve_right hne
      rw [declaresIn, if_neg (by simpa using hne), beq_iff_eq] at hk
      exact ⟨v, .statics hclass hk hstatic hname hmem hv, hcomes⟩
    · rintro ⟨v, hbinds, hcomes⟩
      cases hbinds with
      | statics hclass hk hstatic hname hmem hv =>
        have hne := ne_interface_of_mem_classKinds hclass
        refine ⟨⟨⟨hne, ?_⟩, hstatic⟩, _, ⟨hname, hmem⟩, v, hv, hcomes⟩
        rw [declaresIn, if_neg (by simpa using hne), beq_iff_eq, hk]
  | declarators =>
    rw [Group.literal?, Option.ite_none_right_eq_some, Option.bind_eq_some_iff]
    simp only [Option.filter_eq_some_iff, Extract.literal?_eq_some_iff, List.contains_iff_mem]
    constructor
    · rintro ⟨hk, m, ⟨hm, hmem⟩, v, hv, hcomes⟩
      exact ⟨v, .declarators hk hm hmem hv, hcomes⟩
    · rintro ⟨v, hbinds, hcomes⟩
      cases hbinds with
      | declarators hk hm hmem hv => exact ⟨hk, _, ⟨hm, hmem⟩, v, hv, hcomes⟩
  | assignments =>
    rw [Group.literal?, Option.ite_none_right_eq_some]
    simp only [Option.bind_eq_some_iff, Option.filter_eq_some_iff, Extract.literal?_eq_some_iff,
      beq_iff_eq, List.contains_iff_mem]
    constructor
    · rintro ⟨hk, l, ⟨hl, hmember⟩, p, ⟨hp, hmem⟩, v, hv, hcomes⟩
      exact ⟨v, .assignments hk hl hmember hp hmem hv, hcomes⟩
    · rintro ⟨v, hbinds, hcomes⟩
      cases hbinds with
      | assignments hk hl hmember hp hmem hv =>
        exact ⟨hk, _, ⟨hl, hmember⟩, _, ⟨hp, hmem⟩, v, hv, hcomes⟩

/-- **A default value at a place**: the group of the literal, the node that binds it within the
group, and the entry within the literal. -/
def EntryAt (t : Tree) (d : Node) (names : List String) (name : String) (k : ℕ ×ₗ ℕ ×ₗ ℕ)
    (x : String) : Prop :=
  ∃ g n v object c, Group.all[(ofLex k).1]? = some g
    ∧ (g.nodes t d)[(ofLex (ofLex k).2).1]? = some n
    ∧ Binds t d names g n v ∧ ComesTo v object
    ∧ object.namedChildren[(ofLex (ofLex k).2).2]? = some c ∧ IsEntry t c name x

/-- What is looked up in a literal is its first entry for a name. -/
theorem findsFirst_lookup_objectEntries (t : Tree) (object : Node) (name : String) :
    FindsFirst (fun (j : ℕ) x => ∃ c, object.namedChildren[j]? = some c ∧ IsEntry t c name x)
      ((objectEntries t object).lookup name) := by
  obtain ⟨entryOf?, heq, hentry⟩ := exists_entryOf? t object
  rw [heq, List.filterMap_eq_flatMap_toList, lookup_flatMap]
  refine (findsFirst_findSome? _ _).congr fun j x => ?_
  simp only [lookup_toList_eq_some_iff, hentry]

/-- What is looked up in the literal that a node binds, if it binds one. -/
theorem findsFirst_lookup_literal? {t : Tree} {d : Node} (hd : d ∈ declarations t)
    (names : List String) (name : String) (g : Group) (n : Node) :
    FindsFirst (fun (j : ℕ) x => ∃ v object c, Binds t d names g n v ∧ ComesTo v object
        ∧ object.namedChildren[j]? = some c ∧ IsEntry t c name x)
      (((g.literal? t d names n).toList.flatMap (objectEntries t)).lookup name) := by
  cases hl : g.literal? t d names n with
  | none =>
    refine .nothing ?_
    rintro j x ⟨v, object, c, hbinds, hcomes, -⟩
    rw [(Group.literal?_eq_some_iff hd).2 ⟨v, hbinds, hcomes⟩] at hl
    cases hl
  | some object =>
    rw [Option.toList_some, List.flatMap_cons, List.flatMap_nil, List.append_nil]
    refine (findsFirst_lookup_objectEntries t object name).congr fun j x => ?_
    obtain ⟨v, hbinds, hcomes⟩ := (Group.literal?_eq_some_iff hd).1 hl
    constructor
    · rintro ⟨c, hc, hentry⟩
      exact ⟨v, object, c, hbinds, hcomes, hc, hentry⟩
    · rintro ⟨v', object', c, hbinds', hcomes', hc, hentry⟩
      rw [(Group.literal?_eq_some_iff hd).2 ⟨v', hbinds', hcomes'⟩, Option.some.injEq] at hl
      exact ⟨c, hl ▸ hc, hentry⟩

/-- Default values are looked up literal by literal, group by group. -/
theorem lookup_defaultEntries (t : Tree) (d : Node) (names : List String) (name : String) :
    (defaultEntries t d names).lookup name
      = Group.all.findSome? fun g => (g.nodes t d).findSome? fun n =>
          ((g.literal? t d names n).toList.flatMap (objectEntries t)).lookup name := by
  unfold defaultEntries
  simp only [defaultLiterals_eq_flatMap, List.flatMap_assoc, lookup_flatMap,
    List.filterMap_eq_flatMap_toList]

/-- The default value that is looked up for a name is that of its first entry. -/
theorem findsFirst_lookup_defaultEntries {t : Tree} {d : Node} (hd : d ∈ declarations t)
    (names : List String) (name : String) :
    FindsFirst (EntryAt t d names name) ((defaultEntries t d names).lookup name) := by
  rw [lookup_defaultEntries]
  -- the three parts of a place are those of three searches within each other
  refine (FindsFirst.findSome? fun g _ => FindsFirst.findSome? fun n _ =>
    findsFirst_lookup_literal? hd names name g n).congr fun k x => ?_
  constructor
  · rintro ⟨g, hg, n, hn, v, object, c, h⟩
    exact ⟨g, n, v, object, c, hg, hn, h⟩
  · rintro ⟨g, n, v, object, c, hg, hn, h⟩
    exact ⟨g, hg, n, hn, v, object, c, h⟩

/-- **The default value of a property.** -/
inductive DefaultOf (t : Tree) (names : List String) (d member : Node) (name : String) :
    Option String → Prop
  /-- A field with an initialiser has the text of that. -/
  | own {v : Node} : member.kind = .fieldDefinition → member.inRole? .value = some v →
    DefaultOf t names d member name (some (Text.trim (t.text v)))
  /-- Any other member has the value of the first entry for its name. -/
  | first {k : ℕ ×ₗ ℕ ×ₗ ℕ} {x : String} :
    (member.kind = .fieldDefinition → member.inRole? .value = none) →
    IsLeast {k | ∃ y, EntryAt t d names name k y} k → EntryAt t d names name k x →
    DefaultOf t names d member name (some x)
  /-- Without an entry there is no default value. -/
  | absent : (member.kind = .fieldDefinition → member.inRole? .value = none) →
    (∀ k x, ¬ EntryAt t d names name k x) → DefaultOf t names d member name none

/-- **A property as its member describes it**: the name that users see, and the default
value. -/
def Describes (t : Tree) (o : PropertyOptions) (d member : Node) (p : Property) : Prop :=
  Visible t d member p.name ∧ DefaultOf t o.defaultNames d member p.name p.default?

/-- The default of a property is the one that is declared for it. -/
theorem defaultOf_propertyOf {t : Tree} {d : Node} (hd : d ∈ declarations t)
    (names : List String) (name : String) (member : Node) :
    DefaultOf t names d member name
      (propertyOf t (defaultEntries t d names) name member).default? := by
  have hfirst := findsFirst_lookup_defaultEntries hd names name
  have hlookup : (member.kind = .fieldDefinition → member.inRole? .value = none) →
      DefaultOf t names d member name ((defaultEntries t d names).lookup name) := by
    intro hown
    cases h : (defaultEntries t d names).lookup name with
    | none => exact .absent hown (hfirst.nowhere h)
    | some x =>
      obtain ⟨k, hk, hx⟩ := hfirst.least x h
      exact .first hown hk hx
  unfold propertyOf
  dsimp only
  split
  · next hk =>
    cases hv : member.inRole? .value with
    | none => exact hlookup fun _ => hv
    | some v => exact .own (beq_iff_eq.1 hk) hv
  · next hk => exact hlookup fun hfield => absurd (beq_iff_eq.2 hfield) hk

/-- The property that a member declares, if users see it. -/
def memberProperty? (t : Tree) (o : PropertyOptions) (d member : Node) : Option Property :=
  (visibleIn? t d member).map fun name =>
    propertyOf t (defaultEntries t d o.defaultNames) name member

theorem props_bagOf (t : Tree) (o : PropertyOptions) (d : Node) :
    (bagOf t o d).props
      = firstOfEachName Property.name [] ((membersOf d).filterMap (memberProperty? t o d)) := by
  have hname : ∀ e : String × Node,
      (propertyOf t (defaultEntries t d o.defaultNames) e.1 e.2).name = e.1 := fun _ => rfl
  unfold bagOf
  dsimp only
  rw [map_firstOfEachName hname, visibleMembers_eq_filterMap, List.map_filterMap]
  simp only [Option.map_map]
  rfl

/-- **The properties of a source are the first visible member of each name of its
declaration**, in source order, each with the default value that it has by its initialiser or by
the first entry for its name. -/
theorem properties_by_member {t : Tree} {o : PropertyOptions} {d : Node}
    (hd : select? t o = some d) :
    ∃ bag places, properties? t o = some bag
      ∧ PicksFirst (Describes t o d) Property.name (membersOf d) places bag.props
      ∧ (bag.props.map Property.name).Nodup := by
  have hmem := mem_declarations_of_select? hd
  have hbag : properties? t o = some (bagOf t o d) := by rw [properties?, hd]; rfl
  obtain ⟨places, hplaces⟩ :=
    exists_picksFirst Property.name (memberProperty? t o d) [] (membersOf d)
  refine ⟨bagOf t o d, places, hbag, ?_, nodup_name_of_properties? hbag⟩
  rw [props_bagOf]
  refine hplaces.of_names (fun m p hp => ?_) fun m p hp => ?_
  · obtain ⟨name, hname, rfl⟩ := Option.map_eq_some_iff.1 hp.1
    exact ⟨(visibleIn?_eq_some_iff hmem).1 hname, defaultOf_propertyOf hmem _ name m⟩
  · have hname := (visibleIn?_eq_some_iff hmem).2 hp.1
    exact ⟨_, ⟨Option.map_eq_some_iff.2 ⟨p.name, hname, rfl⟩, List.not_mem_nil⟩, rfl⟩

/-- A source in which a private field stands before one of its name and a field after one of
its name, and in which two literals have an entry for that name. -/
def shadowedFields : Tree :=
  parse .typescript "var z=\x7bx:4\x7d;class P\x7bx;private y;y=1;x=2;static z=\x7bx:3\x7d\x7d"

/-- The name of the literals in it. -/
def shadowedOptions : PropertyOptions where
  defaultNames := ["z"]

theorem properties_by_member_shadowed :
    ∃ d bag places, select? shadowedFields shadowedOptions = some d
      ∧ properties? shadowedFields shadowedOptions = some bag
      ∧ bag.props.map (fun p => (p.name, p.default?)) = [("x", some "3"), ("y", some "1")]
      ∧ PicksFirst (Describes shadowedFields shadowedOptions d) Property.name (membersOf d) places
          bag.props := by
  have hrun : (select? shadowedFields shadowedOptions).isSome = true
      ∧ (properties? shadowedFields shadowedOptions).map (fun bag =>
          bag.props.map fun p => (p.name, p.default?))
        = some [("x", some "3"), ("y", some "1")] := by decide +kernel
  obtain ⟨d, hd⟩ := Option.isSome_iff_exists.1 hrun.1
  obtain ⟨bag, places, hbag, hplaces, -⟩ := properties_by_member hd
  obtain ⟨bag', hbag', hprops⟩ := Option.map_eq_some_iff.1 hrun.2
  obtain rfl : bag = bag' := Option.some.inj (hbag.symm.trans hbag')
  exact ⟨d, bag, places, hd, hbag, hprops, hplaces⟩

/-- **A comment behind an opening bracket hides the literal after it.** -/
theorem default_behind_comment :
    (properties? (parse .typescript
        "class P\x7bx;static defaultProps=(/**/\x7bx:1\x7d)\x7d") {}).map
        (fun bag => bag.props.map Property.default?) = some [none]
      ∧ (properties? (parse .typescript
        "class P\x7bx;static defaultProps=(\x7bx:1\x7d)\x7d") {}).map
        (fun bag => bag.props.map Property.default?) = some [some "1"] := by
  decide +kernel

end ComponentCatalog.Extract
