import ComponentCatalog.Proofs.Constants
import Mathlib.Data.Option.Basic

/-!
# One expression written in two places

Two nodes that are written alike are worth the same, wherever they stand and in whichever source.
What has to be alike is less than all their characters. `valueFrom` reads string literals, names
and operators as they stand, the raw texts of a template around its substitutions, and of
everything else only the kind, the role and the children. And it never looks into the body of a
function, so two bodies are alike whatever is written in them (`Alike`). Positions do not count.

The main statement, `valueFrom_congr`, compares the computations and not only their answers:
from the same memory they give the same answer and leave the same memory behind, provided that
the names that they ask for have initialisers that are alike (`Matching`).
-/

namespace ComponentCatalog.Extract

open Syntax

/-! ## Nodes that are written alike -/

/-- Whether a node is the body of a function, a method or a callback: a block in that role. -/
def isBody (n : Node) : Bool :=
  n.kind == .statement && n.role == some .body

/-- Whether the characters of a node are read as they stand. -/
def isVerbatim (n : Node) : Bool :=
  n.children.isEmpty || n.kind == .string || n.kind == .identifier || n.role == some .operator

/-- The raw texts of a template from a position on: what stands before each of the
substitutions, and what stands after the last one. -/
def rawTextsFrom (t : Tree) (cursor stop : Nat) : List Node → List String
  | [] => [t.slice cursor stop]
  | s :: rest => t.slice cursor s.start :: rawTextsFrom t s.stop stop rest

/-- The raw texts of a template, between its back-quotes and outside its substitutions. -/
def rawTexts (t : Tree) (n : Node) : List String :=
  rawTextsFrom t (n.start + 1) (n.stop - 1) (substitutions n)

/-- Two nodes with the same words of their own: the same kind and role, and the same characters
where these are read as they stand. -/
structure SameWords (t t' : Tree) (n n' : Node) : Prop where
  kind : n.kind = n'.kind
  role : n.role = n'.role
  verbatim : isVerbatim n = true → t.text n = t'.text n'
  raw : n.kind = .templateString → rawTexts t n = rawTexts t' n'

instance (t t' : Tree) (n n' : Node) : Decidable (SameWords t t' n n') :=
  decidable_of_iff (n.kind = n'.kind ∧ n.role = n'.role
      ∧ (isVerbatim n = true → t.text n = t'.text n')
      ∧ (n.kind = .templateString → rawTexts t n = rawTexts t' n'))
    ⟨fun ⟨hk, hr, hv, hw⟩ => ⟨hk, hr, hv, hw⟩, fun h => ⟨h.kind, h.role, h.verbatim, h.raw⟩⟩

mutual

/-- **Two nodes that are written alike**, each in its own source: the same words, and children
that are alike one by one. Two bodies of functions are alike in any case. -/
def Alike (t t' : Tree) : Node → Node → Prop
  | .mk k r s e cs, .mk k' r' s' e' cs' =>
    (isBody (.mk k r s e cs) = true ∧ isBody (.mk k' r' s' e' cs') = true)
      ∨ SameWords t t' (.mk k r s e cs) (.mk k' r' s' e' cs') ∧ AlikeAll t t' cs cs'

/-- As many nodes on both sides, alike one by one. -/
def AlikeAll (t t' : Tree) : List Node → List Node → Prop
  | [], [] => True
  | [], _ :: _ => False
  | _ :: _, [] => False
  | n :: ns, n' :: ns' => Alike t t' n n' ∧ AlikeAll t t' ns ns'

end

mutual

/-- Decides whether two nodes are written alike. -/
def decideAlike (t t' : Tree) : (n n' : Node) → Decidable (Alike t t' n n')
  | .mk _ _ _ _ cs, .mk _ _ _ _ cs' =>
    haveI := decideAlikeAll t t' cs cs'
    inferInstanceAs (Decidable ((_ ∧ _) ∨ _ ∧ _))

/-- Decides whether the nodes of two lists are alike. -/
def decideAlikeAll (t t' : Tree) : (ns ns' : List Node) → Decidable (AlikeAll t t' ns ns')
  | [], [] => isTrue trivial
  | [], _ :: _ => isFalse id
  | _ :: _, [] => isFalse id
  | n :: ns, n' :: ns' =>
    haveI := decideAlike t t' n n'
    haveI := decideAlikeAll t t' ns ns'
    inferInstanceAs (Decidable (_ ∧ _))

end

instance (t t' : Tree) (n n' : Node) : Decidable (Alike t t' n n') :=
  decideAlike t t' n n'

/-- Alike one by one is what it says. -/
theorem alikeAll_iff {t t' : Tree} {ns ns' : List Node} :
    AlikeAll t t' ns ns' ↔ List.Forall₂ (Alike t t') ns ns' := by
  induction ns generalizing ns' with
  | nil => cases ns' <;> simp [AlikeAll]
  | cons n ns ih => cases ns' <;> simp [AlikeAll, ih]

/-- Two nodes are alike if both are bodies, or if they have the same words and their children are
alike. -/
theorem alike_iff {t t' : Tree} {n n' : Node} :
    Alike t t' n n' ↔ (isBody n = true ∧ isBody n' = true)
      ∨ SameWords t t' n n' ∧ List.Forall₂ (Alike t t') n.children n'.children := by
  cases n
  cases n'
  rw [Alike, alikeAll_iff]
  rfl

mutual

/-- A node is alike to itself. -/
theorem Alike.refl (t : Tree) : (n : Node) → Alike t t n n
  | .mk _ _ _ _ cs => by
    rw [Alike]
    exact .inr ⟨⟨rfl, rfl, fun _ => rfl, fun _ => rfl⟩, AlikeAll.refl t cs⟩

/-- Everything is alike to itself. -/
theorem AlikeAll.refl (t : Tree) : (ns : List Node) → AlikeAll t t ns ns
  | [] => by
    rw [AlikeAll]
    trivial
  | n :: ns => by
    rw [AlikeAll]
    exact ⟨Alike.refl t n, AlikeAll.refl t ns⟩

end

/-- A body is a statement that has the role of one. -/
theorem isBody_iff {n : Node} : isBody n = true ↔ n.kind = .statement ∧ n.role = some .body := by
  simp [isBody]

namespace Alike

variable {t t' : Tree} {n n' : Node}

theorem kind_eq (h : Alike t t' n n') : n.kind = n'.kind := by
  rcases alike_iff.1 h with ⟨hb, hb'⟩ | ⟨hw, -⟩
  · rw [(isBody_iff.1 hb).1, (isBody_iff.1 hb').1]
  · exact hw.kind

theorem role_eq (h : Alike t t' n n') : n.role = n'.role := by
  rcases alike_iff.1 h with ⟨hb, hb'⟩ | ⟨hw, -⟩
  · rw [(isBody_iff.1 hb).2, (isBody_iff.1 hb').2]
  · exact hw.role

/-- Alike nodes are bodies or not together. -/
theorem isBody_eq (h : Alike t t' n n') : isBody n = isBody n' := by
  rw [isBody, isBody, h.kind_eq, h.role_eq]

/-- Only bodies differ in more than positions. -/
theorem sameWords (h : Alike t t' n n') (hn : isBody n = false) :
    SameWords t t' n n' ∧ List.Forall₂ (Alike t t') n.children n'.children := by
  rcases alike_iff.1 h with ⟨hb, -⟩ | hw
  · simp [hn] at hb
  · exact hw

end Alike

/-! Looking for a child by its kind or its role finds children that are alike. -/

section Children

variable {t t' : Tree} {ns ns' : List Node}

/-- A test that cannot tell alike nodes apart keeps alike nodes of alike ones. -/
theorem forall₂_filter {p : Node → Bool} (hp : ∀ n n', Alike t t' n n' → p n = p n')
    (h : List.Forall₂ (Alike t t') ns ns') :
    List.Forall₂ (Alike t t') (ns.filter p) (ns'.filter p) := by
  induction h with
  | nil => exact .nil
  | @cons n n' ns ns' hn _ ih =>
    rw [List.filter_cons, List.filter_cons, ← hp n n' hn]
    split
    · exact .cons hn ih
    · exact ih

theorem rel_head? (h : List.Forall₂ (Alike t t') ns ns') :
    Option.Rel (Alike t t') ns.head? ns'.head? := by
  cases h with
  | nil => exact .none
  | cons hn _ => exact .some hn

theorem rel_namedChildren_head? {n n' : Node}
    (h : List.Forall₂ (Alike t t') n.children n'.children) :
    Option.Rel (Alike t t') n.namedChildren.head? n'.namedChildren.head? :=
  rel_head? (forall₂_filter (fun _ _ ha => by rw [Node.isNamed, Node.isNamed, ha.kind_eq]) h)

/-- Alike nodes have alike children in each role. -/
theorem rel_inRole? {n n' : Node} (r : Role)
    (h : List.Forall₂ (Alike t t') n.children n'.children) :
    Option.Rel (Alike t t') (n.inRole? r) (n'.inRole? r) := by
  unfold Node.inRole?
  rw [← List.head?_filter, ← List.head?_filter]
  exact rel_head? (forall₂_filter (fun _ _ ha => by rw [ha.role_eq]) h)

/-- Alike templates have alike substitutions. -/
theorem forall₂_substitutions {n n' : Node}
    (h : List.Forall₂ (Alike t t') n.children n'.children) :
    List.Forall₂ (Alike t t') (substitutions n) (substitutions n') :=
  forall₂_filter (fun _ _ ha => by rw [ha.kind_eq]) h

end Children

/-! ## The same computation -/

/-- **Declarations that match for some names**: the names have initialisers that are alike, or
none on either side, and these mention no other names. -/
structure Matching (t t' : Tree) (declared declared' : List (String × Node))
    (names : String → Prop) : Prop where
  lookup : ∀ a, names a → Option.Rel (Alike t t') (declared.lookup a) (declared'.lookup a)
  closed : ∀ a m b, names a → declared.lookup a = some m → Mentions t m b → names b

/-- A tree matches itself, whatever names are looked at. -/
theorem Matching.refl (t : Tree) (declared : List (String × Node)) :
    Matching t t declared declared fun _ => True where
  lookup a _ := by
    cases declared.lookup a with
    | none => exact .none
    | some m => exact .some (Alike.refl t m)
  closed _ _ _ _ _ _ := trivial

/-- A body has no value. -/
theorem valueFrom_of_isBody {n : Node} (h : isBody n = true) (t : Tree)
    (declared : List (String × Node)) (opened : List String) :
    valueFrom t declared opened n = pure none := by
  rw [valueFrom]
  simp [(isBody_iff.1 h).1, wrapperKinds]

/-- A string literal is worth the same in two sources in which its text is. -/
theorem stringValue?_congr {t t' : Tree} {n n' : Node} (hk : n.kind = n'.kind)
    (ht : t.text n = t'.text n') : t.stringValue? n = t'.stringValue? n' := by
  unfold Tree.stringValue?
  rw [hk, ht]

section Congruence

variable {t t' : Tree} {declared declared' : List (String × Node)} {names : String → Prop}

mutual

/-- A name is asked for in the same way in both sources. -/
theorem constantFrom_congr (h : Matching t t' declared declared' names) (opened : List String)
    (name : String) (hname : names name) :
    constantFrom t declared opened name = constantFrom t' declared' opened name := by
  have hrel := h.lookup name hname
  rw [constantFrom, constantFrom]
  refine bind_congr fun known => ?_
  cases known.lookup name with
  | some v => rfl
  | none =>
    dsimp only
    split
    · next hm =>
      rw [hm] at hrel
      split
      · rfl
      · next m' hm' =>
        rw [hm'] at hrel
        cases hrel
    · next m hm =>
      rw [hm] at hrel
      by_cases ho : opened.contains name = true
      · simp only [ho, ↓reduceDIte]
        split <;> rfl
      · -- the measure goes down by the size of the value that is looked into
        have hle := unopened_cons_add_count_le hm (by simpa using ho)
        simp only [ho, Bool.false_eq_true, ↓reduceDIte]
        split
        · next hm' =>
          rw [hm'] at hrel
          cases hrel
        · next m' hm' =>
          have ha : Alike t t' m m' := by
            rw [hm'] at hrel
            cases hrel
            assumption
          rw [valueFrom_congr h (name :: opened) m m' ha fun b hb =>
            h.closed name m b hname hm hb]
  termination_by 2 * unopened declared opened + 1
  decreasing_by omega

/-- **Expressions that are written alike are resolved in the same way.** -/
theorem valueFrom_congr (h : Matching t t' declared declared' names) (opened : List String)
    (n n' : Node) (ha : Alike t t' n n') (hnames : ∀ b, Mentions t n b → names b) :
    valueFrom t declared opened n = valueFrom t' declared' opened n' := by
  by_cases hbody : isBody n = true
  · rw [valueFrom_of_isBody hbody, valueFrom_of_isBody (ha.isBody_eq ▸ hbody)]
  obtain ⟨hw, hcs⟩ := ha.sameWords (by simpa using hbody)
  rw [valueFrom, valueFrom, ← hw.kind]
  refine ite_congr rfl (fun hk => ?_) fun _ => ite_congr rfl (fun hk => ?_) fun _ =>
    ite_congr rfl (fun hk => ?_) fun _ => ite_congr rfl (fun hk => ?_) fun _ =>
    ite_congr rfl (fun hk => ?_) fun _ => rfl
  · -- a string literal
    rw [stringValue?_congr hw.kind (hw.verbatim (by simp [isVerbatim, hk]))]
  · -- a name
    rw [← hw.verbatim (by simp [isVerbatim, hk])]
    exact constantFrom_congr h opened _ (hnames _ (.name (by simpa using hk)))
  · -- a wrapper
    refine partFrom_congr h opened _ _ (rel_namedChildren_head? hcs) fun m hm b hb => ?_
    exact hnames b (.wrapped (by simpa using hk) hm hb)
  · -- an operator with two sides
    have hside : ∀ r, r = .left ∨ r = .right → ∀ m, n.inRole? r = some m → ∀ b,
        Mentions t m b → names b := fun r hr m hm b hb =>
      hnames b (.side (by simpa using hk) hr hm hb)
    have hrole : ∀ op, n.inRole? .operator = some op → op.role = some .operator := fun op ho => by
      simpa using List.find?_some ho
    rw [partFrom_congr h opened _ _ (rel_inRole? .left hcs) (hside .left (.inl rfl)),
      partFrom_congr h opened _ _ (rel_inRole? .right hcs) (hside .right (.inr rfl))]
    have hop := rel_inRole? .operator hcs
    generalize n.inRole? .operator = op? at hop hrole ⊢
    generalize n'.inRole? .operator = op'? at hop ⊢
    cases hop with
    | none => rfl
    | @some op op' ha =>
      have hr := hrole op rfl
      have htext : t.text op = t'.text op' :=
        (ha.sameWords (by simp [isBody, hr])).1.verbatim (by simp [isVerbatim, hr])
      simp only [htext]
  · -- a template
    refine piecesFrom_congr h opened _ _ (substitutions n) (substitutions n') _ _ _
      (fun s hs => by simpa using (List.mem_filter.1 hs).2) (forall₂_substitutions hcs)
      (hw.raw (by simpa using hk)) fun s hs m hm b hb => ?_
    exact hnames b (.substitution (by simpa using hk) hs hm hb)
  termination_by 2 * (unopened declared opened + n.count)
  decreasing_by
    all_goals
      have := n.count_pos
      have := partCount_head?_lt n
      have := partCount_inRole?_lt n .left
      have := partCount_inRole?_lt n .right
      have := countAll_substitutions_lt n
      omega

/-- Alike parts have the same value, if the names they mention are declared alike. -/
theorem partFrom_congr (h : Matching t t' declared declared' names) (opened : List String) :
    (m? m'? : Option Node) → (hm : Option.Rel (Alike t t') m? m'?) →
    (hnames : ∀ m, m? = some m → ∀ b, Mentions t m b → names b) →
    partFrom t declared opened m? = partFrom t' declared' opened m'?
  | none, none, _, _ => by rw [partFrom, partFrom]
  | none, some _, hm, _ => by cases hm
  | some _, none, hm, _ => by cases hm
  | some m, some m', hm, hnames => by
    rw [partFrom, partFrom]
    cases hm with
    | some ha => exact valueFrom_congr h opened m m' ha (hnames m rfl)
  termination_by m? => 2 * (unopened declared opened + partCount m?) + 1
  decreasing_by
    simp only [partCount, Option.map_some, Option.getD_some]
    omega

/-- Alike pieces of templates with the same texts between them have the same value. The recursion
is that of `piecesFrom`, with a cursor for each of the two trees. -/
theorem piecesFrom_congr (h : Matching t t' declared declared' names) (opened : List String)
    (stop stop' : Nat) : (ns ns' : List Node) → (cursor cursor' : Nat) → (done : String) →
    (hk : ∀ s ∈ ns, s.kind = .templateSubstitution) → (ha : List.Forall₂ (Alike t t') ns ns') →
    (hraw : rawTextsFrom t cursor stop ns = rawTextsFrom t' cursor' stop' ns') →
    (hnames : ∀ s ∈ ns, ∀ m, s.namedChildren.head? = some m → ∀ b, Mentions t m b → names b) →
    piecesFrom t declared opened cursor stop done ns
      = piecesFrom t' declared' opened cursor' stop' done ns'
  | [], [], cursor, cursor', done, _, _, hraw, _ => by
    rw [rawTextsFrom, rawTextsFrom, List.cons.injEq] at hraw
    rw [piecesFrom, piecesFrom, hraw.1]
  | [], _ :: _, _, _, _, _, ha, _, _ => by cases ha
  | _ :: _, [], _, _, _, _, ha, _, _ => by cases ha
  | s :: rest, s' :: rest', cursor, cursor', done, hk, ha, hraw, hnames => by
    rw [rawTextsFrom, rawTextsFrom, List.cons.injEq] at hraw
    rw [List.forall₂_cons] at ha
    obtain ⟨hs, hrest⟩ := ha
    obtain ⟨hslice, hraw⟩ := hraw
    -- a substitution is no body, so what it holds is alike, too
    have hcs := (hs.sameWords (by simp [isBody, hk s (by simp)])).2
    rw [piecesFrom, piecesFrom, hslice, partFrom_congr h opened _ _ (rel_namedChildren_head? hcs)
      (hnames s (by simp))]
    refine bind_congr fun v => ?_
    cases v with
    | none => rfl
    | some v =>
      exact piecesFrom_congr h opened stop stop' rest rest' _ _ _
        (fun r hr => hk r (List.mem_cons_of_mem s hr)) hrest hraw
        fun r hr => hnames r (List.mem_cons_of_mem s hr)
  termination_by ns => 2 * (unopened declared opened + Node.countAll ns) + 1
  decreasing_by
    all_goals
      have := partCount_head?_lt s
      simp only [Node.countAll]
      omega

end

end Congruence

end ComponentCatalog.Extract
