import ComponentCatalog.Proofs.AlikeExpressions

/-!
# Constants and the bodies of functions

The constants of a source are meant to be those of its file level: a variable that a function
declares for itself is another one, even if it has the same name. But the declarators of a source
are collected from all of it, and a name stands for the first of them in document order that has
an initialiser, be it inside a function.

So it depends on where the declarations stand whether a function can change a constant. Let two
sources be written alike except for the bodies of their functions, and follow a name through the
initialisers to all the names that its value refers to. If each of these is declared outside
the bodies before it is declared in one, in both sources, then the name has the same value in both
(`constant_outside_bodies`). A declaration in the body of an earlier function takes the
place of the one at file level (`constant_shadowed`).

The proof has two steps. The declarations outside the bodies are alike in both sources, one by
one (`forall₂_outside`), hence so are the initialisers of the names that are declared there
first; and expressions that are written alike are resolved in the same way.
-/

namespace ComponentCatalog.Extract

open Syntax Relation

/-! ## Declarations and where they stand -/

mutual

/-- The node and its descendants in document order, each with whether it stands in the body of a
function. -/
def byScope (inner : Bool) : Node → List (Bool × Node)
  | .mk k r s e cs =>
    (inner || isBody (.mk k r s e cs), .mk k r s e cs)
      :: byScopeAll (inner || isBody (.mk k r s e cs)) cs

/-- The nodes of several trees, one tree after the other. -/
def byScopeAll (inner : Bool) : List Node → List (Bool × Node)
  | [] => []
  | n :: ns => byScope inner n ++ byScopeAll inner ns

end

/-- The initialiser that a node gives to a name: that of a declarator of the name. -/
def initialiserBy? (t : Tree) (name : String) (d : Node) : Option Node :=
  match d.inRole? .name with
  | some n =>
    if d.kind = .variableDeclarator ∧ n.kind = .identifier ∧ t.text n = name then
      d.inRole? .value
    else none
  | none => none

/-- **The declarations of a name** in document order: the initialisers that it is given, each with
whether it stands in the body of a function. -/
def initialisers (t : Tree) (name : String) : List (Bool × Node) :=
  (byScope false t.root).filterMap fun e => (initialiserBy? t name e.2).map (e.1, ·)

/-- The first declaration of a name stands outside all bodies. -/
def FirstOutside (t : Tree) (name : String) : Prop :=
  ∃ v rest, initialisers t name = (false, v) :: rest

/-- The entries that stand outside all bodies. -/
def outside (es : List (Bool × Node)) : List Node :=
  (es.filter fun e => !e.1).map Prod.snd

theorem outside_append (es fs : List (Bool × Node)) :
    outside (es ++ fs) = outside es ++ outside fs := by
  rw [outside, List.filter_append, List.map_append]
  rfl

mutual

/-- Without the marks, these are the nodes of the tree. -/
theorem map_snd_byScope (inner : Bool) : (n : Node) →
    (byScope inner n).map Prod.snd = n.preorder
  | .mk k r s e cs => by
    rw [byScope, Node.preorder, List.map_cons, map_snd_byScopeAll]

/-- Without the marks for scopes, the nodes are those in document order. -/
theorem map_snd_byScopeAll (inner : Bool) : (ns : List Node) →
    (byScopeAll inner ns).map Prod.snd = Node.preorderAll ns
  | [] => rfl
  | n :: ns => by
    rw [byScopeAll, Node.preorderAll, List.map_append, map_snd_byScope, map_snd_byScopeAll]

end

mutual

/-- Nothing inside a body is outside. -/
theorem outside_byScope_true : (n : Node) → outside (byScope true n) = []
  | .mk k r s e cs => by
    have hcs := outside_byScopeAll_true cs
    unfold outside at hcs ⊢
    rw [byScope, Bool.true_or, List.filter_cons_of_neg (by simp)]
    exact hcs

/-- Nothing that is inside of a body is outside of all bodies. -/
theorem outside_byScopeAll_true : (ns : List Node) → outside (byScopeAll true ns) = []
  | [] => rfl
  | n :: ns => by
    have hn := outside_byScope_true n
    have hns := outside_byScopeAll_true ns
    unfold outside at hn hns ⊢
    rw [byScopeAll, List.filter_append, List.map_append, hn, hns]
    rfl

end

/-- The initialiser of a name is that of its first declaration, wherever it stands. -/
theorem initialiser?_eq_head? (t : Tree) (name : String) :
    initialiser? t name = (initialisers t name).head?.map Prod.snd := by
  have hbare : (initialisers t name).map Prod.snd
      = t.root.preorder.filterMap (initialiserBy? t name) := by
    rw [initialisers, List.map_filterMap, ← map_snd_byScope false t.root, List.filterMap_map]
    refine List.filterMap_congr fun e _ => ?_
    simp [Function.comp_def]
  rw [← List.head?_map, hbare, List.head?_filterMap]
  rfl

/-- The declarations outside the bodies, found among the nodes outside the bodies. -/
theorem outside_initialisers (t : Tree) (name : String) :
    outside (initialisers t name)
      = (outside (byScope false t.root)).filterMap (initialiserBy? t name) := by
  unfold outside initialisers
  generalize byScope false t.root = es
  induction es with
  | nil => rfl
  | cons e es ih =>
    obtain ⟨inner, d⟩ := e
    cases hd : initialiserBy? t name d <;> cases inner <;> simp_all

/-! ## Two sources that differ in bodies -/

section TwoSources

variable {t t' : Tree}

mutual

/-- **The nodes outside the bodies are alike one by one**, if the trees are. -/
theorem forall₂_outside : (n n' : Node) → Alike t t' n n' →
    List.Forall₂ (Alike t t') (outside (byScope false n)) (outside (byScope false n'))
  | .mk k r s e cs, .mk k' r' s' e' cs', h => by
    have hbody := h.isBody_eq
    rw [byScope, byScope, Bool.false_or, Bool.false_or]
    cases hb : isBody (.mk k r s e cs) with
    | true =>
      have hcs := outside_byScopeAll_true cs
      have hcs' := outside_byScopeAll_true cs'
      rw [hb] at hbody
      rw [← hbody, outside, outside, List.filter_cons_of_neg (by simp),
        List.filter_cons_of_neg (by simp)]
      unfold outside at hcs hcs'
      rw [hcs, hcs']
      exact .nil
    | false =>
      rw [hb] at hbody
      have hcs := forall₂_outsideAll cs cs' (h.sameWords hb).2
      rw [← hbody, outside, outside, List.filter_cons_of_pos (by simp),
        List.filter_cons_of_pos (by simp)]
      exact .cons h hcs

/-- Alike trees are alike outside of all bodies. -/
theorem forall₂_outsideAll : (ns ns' : List Node) → List.Forall₂ (Alike t t') ns ns' →
    List.Forall₂ (Alike t t') (outside (byScopeAll false ns)) (outside (byScopeAll false ns'))
  | [], [], _ => .nil
  | [], _ :: _, h => by cases h
  | _ :: _, [], h => by cases h
  | n :: ns, n' :: ns', h => by
    rw [List.forall₂_cons] at h
    rw [byScopeAll, byScopeAll, outside_append, outside_append]
    exact List.rel_append (forall₂_outside n n' h.1) (forall₂_outsideAll ns ns' h.2)

end

/-- Declarators that are alike give a name initialisers that are alike. -/
theorem rel_initialiserBy? (name : String) {d d' : Node} (h : Alike t t' d d') :
    Option.Rel (Alike t t') (initialiserBy? t name d) (initialiserBy? t' name d') := by
  unfold initialiserBy?
  by_cases hk : d.kind = .variableDeclarator
  · have hcs := (h.sameWords (by simp [isBody, hk])).2
    have hvalue := rel_inRole? .value hcs
    have hname := rel_inRole? .name hcs
    generalize d.inRole? .name = n? at hname ⊢
    generalize d'.inRole? .name = n'? at hname ⊢
    cases hname with
    | none => exact .none
    | @some n n' hn =>
      by_cases hi : n.kind = .identifier
      · have htext : t.text n = t'.text n' :=
          (hn.sameWords (by simp [isBody, hi])).1.verbatim (by simp [isVerbatim, hi])
        by_cases ht : t.text n = name
        · simpa [hk, ← h.kind_eq, hi, ← hn.kind_eq, ← htext, ht] using hvalue
        · simp [← htext, ht]
      · simp [hi, ← hn.kind_eq]
  · have hk' : ¬ d'.kind = .variableDeclarator := h.kind_eq ▸ hk
    cases d.inRole? .name <;> cases d'.inRole? .name <;> simp [hk, hk']

/-- Alike nodes initialise a name with alike values. -/
theorem forall₂_filterMap_initialiserBy? (name : String) {ns ns' : List Node}
    (h : List.Forall₂ (Alike t t') ns ns') :
    List.Forall₂ (Alike t t') (ns.filterMap (initialiserBy? t name))
      (ns'.filterMap (initialiserBy? t' name)) := by
  induction h with
  | nil => exact .nil
  | cons hn _ ih =>
    have hrel := rel_initialiserBy? name hn
    rw [List.filterMap_cons, List.filterMap_cons]
    generalize initialiserBy? t name _ = v? at hrel ⊢
    generalize initialiserBy? t' name _ = v'? at hrel ⊢
    cases hrel with
    | none => exact ih
    | some hv => exact .cons hv ih

/-- A name that is declared outside the bodies first, in both sources, has initialisers that are
alike. -/
theorem rel_initialiser? (h : Alike t t' t.root t'.root) {name : String}
    (hf : FirstOutside t name) (hf' : FirstOutside t' name) :
    Option.Rel (Alike t t') (initialiser? t name) (initialiser? t' name) := by
  obtain ⟨v, rest, hv⟩ := hf
  obtain ⟨v', rest', hv'⟩ := hf'
  have hall := forall₂_filterMap_initialiserBy? name (forall₂_outside _ _ h)
  rw [← outside_initialisers, ← outside_initialisers, hv, hv'] at hall
  rw [initialiser?_eq_head?, initialiser?_eq_head?, hv, hv']
  exact rel_head? hall

end TwoSources

/-! ## The value of a constant -/

/-- A name has the value of its first initialiser. -/
theorem hasValue_iff_initialisers {t : Tree} {name w : String} :
    HasValue t name w ↔
      ∃ inner v rest, initialisers t name = (inner, v) :: rest ∧ Evaluates t v w := by
  unfold HasValue
  rw [initialiser?_eq_head?]
  constructor
  · rintro ⟨m, hm, hw⟩
    obtain ⟨⟨inner, v⟩, he, rfl⟩ := Option.map_eq_some_iff.1 hm
    obtain ⟨rest, hrest⟩ := List.head?_eq_some_iff.1 he
    exact ⟨inner, v, rest, hrest, hw⟩
  · rintro ⟨inner, v, rest, hrest, hw⟩
    exact ⟨v, by rw [hrest]; rfl, hw⟩

/-- **What functions declare for themselves changes no constant that is declared before them.**
The value of a name is that of its first initialiser, wherever it stands. So, if two sources are
written alike outside the bodies of functions, and in both of them the name and all names that its
value refers to are declared outside bodies first, then asking for it comes to the same in both,
from every memory. -/
theorem constant_outside_bodies (t : Tree) (name : String) :
    (∀ w, ((constant t name).run []).1 = some w ↔
        ∃ inner v rest, initialisers t name = (inner, v) :: rest ∧ Evaluates t v w)
      ∧ ∀ t' : Tree, Alike t t' t.root t'.root →
          (∀ b, ReflTransGen (DependsOn t) name b → FirstOutside t b ∧ FirstOutside t' b) →
          constant t name = constant t' name := by
  refine ⟨fun w => ?_, fun t' halike hfirst => ?_⟩
  · have hvalue := (Query.ask_answers t (.constant name) [] (Faithful.nil t)).1 w
    exact hvalue.trans hasValue_iff_initialisers
  · have hmatch : Matching t t' (bindings t) (bindings t') (ReflTransGen (DependsOn t) name) := {
      lookup := fun a ha => by
        rw [lookup_bindings, lookup_bindings]
        exact rel_initialiser? halike (hfirst a ha).1 (hfirst a ha).2
      closed := fun a m b ha hm hb => by
        rw [lookup_bindings] at hm
        exact ha.tail ⟨m, hm, hb⟩ }
    exact constantFrom_congr hmatch [] name .refl

/-! ### Which names a value refers to

Every name that an expression mentions is written in it. So a list of names that holds all that is
written in their initialisers holds all to which their values refer. -/

theorem mem_preorder_of_mem_children {m c n : Node} (hc : c ∈ n.children)
    (hm : m ∈ c.preorder) : m ∈ n.preorder := by
  obtain ⟨before, after, hcs⟩ := List.append_of_mem hc
  rw [Node.preorder_eq_cons, hcs, Node.preorderAll_append, Node.preorderAll]
  simp [hm]

/-- The names that are written in an expression. -/
def namesIn (t : Tree) (n : Node) : List String :=
  (n.preorder.filter fun m => m.kind == .identifier).map t.text

/-- The names in a part of a node are names in the node. -/
theorem namesIn_subset_of_mem_children {t : Tree} {c n : Node} (hc : c ∈ n.children) :
    namesIn t c ⊆ namesIn t n := by
  intro b hb
  obtain ⟨m, hm, rfl⟩ := List.mem_map.1 hb
  obtain ⟨hm, hk⟩ := List.mem_filter.1 hm
  exact List.mem_map.2 ⟨m, List.mem_filter.2 ⟨mem_preorder_of_mem_children hc hm, hk⟩, rfl⟩

/-- A name that is mentioned is one of the names in a node. -/
theorem mem_namesIn_of_mentions {t : Tree} {n : Node} {b : String} (h : Mentions t n b) :
    b ∈ namesIn t n := by
  induction h with
  | @name n hk =>
    refine List.mem_map.2 ⟨n, List.mem_filter.2 ⟨?_, by simp [hk]⟩, rfl⟩
    rw [Node.preorder_eq_cons]
    exact List.mem_cons_self
  | wrapped _ hm _ ih =>
    exact namesIn_subset_of_mem_children (Node.mem_children_of_head?_namedChildren hm) ih
  | side _ _ hm _ ih =>
    exact namesIn_subset_of_mem_children (Node.mem_children_of_inRole? hm) ih
  | substitution _ hs hm _ ih =>
    have hb := namesIn_subset_of_mem_children (Node.mem_children_of_head?_namedChildren hm) ih
    exact namesIn_subset_of_mem_children (List.mem_filter.1 hs).1 hb

/-- Whether a list of names holds all that is written in their initialisers. -/
def isClosed (t : Tree) (names : List String) : Bool :=
  names.all fun a => (initialiser? t a).all fun m => (namesIn t m).all names.contains

/-- Names that are closed under mentions hold all that they depend on. -/
theorem mem_of_dependsOn {t : Tree} {names : List String} (hclosed : isClosed t names = true)
    {a b : String} (ha : a ∈ names) (h : ReflTransGen (DependsOn t) a b) : b ∈ names := by
  induction h with
  | refl => exact ha
  | tail _ hb ih =>
    obtain ⟨m, hm, hb⟩ := hb
    have hall := List.all_eq_true.1 hclosed _ ih
    rw [hm, Option.all_some, List.all_eq_true] at hall
    simpa using hall _ (mem_namesIn_of_mentions hb)

/-- A name is declared outside first exactly if its first initialiser is outside. -/
theorem firstOutside_iff {t : Tree} {name : String} :
    FirstOutside t name ↔ (initialisers t name).head?.map Prod.fst = some false := by
  unfold FirstOutside
  cases initialisers t name with
  | nil => simp
  | cons e rest => simp [Prod.ext_iff]

instance (t : Tree) (name : String) : Decidable (FirstOutside t name) :=
  decidable_of_iff _ firstOutside_iff.symm

/-- A source whose function declares variables for itself. -/
def localVariables : Tree :=
  parse .typescript "var D=`${A}-`,A='x';function f()\x7bvar A='y',D=A\x7d"

/-- The same source without these variables. -/
def noVariables : Tree :=
  parse .typescript "var D=`${A}-`,A='x';function f()\x7b\x7d"

theorem constant_outside_bodies_locals :
    Alike localVariables noVariables localVariables.root noVariables.root
      ∧ (∀ b, ReflTransGen (DependsOn localVariables) "D" b →
          FirstOutside localVariables b ∧ FirstOutside noVariables b)
      ∧ constant localVariables "D" = constant noVariables "D"
      ∧ ((constant noVariables "D").run []).1 = some "x-" := by
  have hrun : Alike localVariables noVariables localVariables.root noVariables.root
      ∧ isClosed localVariables ["D", "A"] = true
      ∧ (FirstOutside localVariables "D" ∧ FirstOutside noVariables "D")
      ∧ (FirstOutside localVariables "A" ∧ FirstOutside noVariables "A")
      ∧ ((constant noVariables "D").run []).1 = some "x-" := by decide +kernel
  obtain ⟨halike, hclosed, hD, hA, hvalue⟩ := hrun
  have hfirst : ∀ b, ReflTransGen (DependsOn localVariables) "D" b →
      FirstOutside localVariables b ∧ FirstOutside noVariables b := by
    intro b hb
    have hmem := mem_of_dependsOn hclosed (by simp) hb
    simp only [List.mem_cons, List.not_mem_nil, or_false] at hmem
    rcases hmem with rfl | rfl
    · exact hD
    · exact hA
  exact ⟨halike, hfirst, (constant_outside_bodies localVariables "D").2 noVariables halike hfirst,
    hvalue⟩

/-- A source whose function declares a variable with the name of a later constant. -/
def earlierVariable : Tree :=
  parse .typescript "function f()\x7bconst A='y'\x7dconst A='x'"

/-- The same source without this variable. -/
def noEarlierVariable : Tree :=
  parse .typescript "function f()\x7b\x7dconst A='x'"

/-- **A variable of an earlier function takes the place of a constant.** The sources differ in the
body of a function only, and both declare the constant at file level, as a string. -/
theorem constant_shadowed :
    Alike earlierVariable noEarlierVariable earlierVariable.root noEarlierVariable.root
      ∧ (initialisers earlierVariable "A").map (Prod.map id Node.kind)
          = [(true, .string), (false, .string)]
      ∧ (initialisers noEarlierVariable "A").map (Prod.map id Node.kind) = [(false, .string)]
      ∧ constants earlierVariable ["A"] = [some "y"]
      ∧ constants noEarlierVariable ["A"] = [some "x"] := by
  decide +kernel

end ComponentCatalog.Extract
