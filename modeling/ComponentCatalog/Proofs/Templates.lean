import ComponentCatalog.Proofs.AlikeExpressions
import ComponentCatalog.Proofs.StyleRegistrations

/-!
# A template is the sum of its pieces

A template can be written as a sum: its raw texts as string literals, and its substitutions
between them. Both come to the same. The template is worked out with a cursor that moves over
the source from one substitution to the next, the sum by recursion on its sides, and the sum goes
on after a part without a value where the template stops. So it is the answers that agree, from
every memory, and not the memories that are left (`template_eq_concatenation`).

What stands in a substitution may begin with a comment. Then the comment is what is resolved, and
it has no value: such a template has none either, whatever its expressions are worth
(`template_behind_comment`). The sides of a sum are found by their roles, and there a comment
does no harm.
-/

namespace ComponentCatalog.Extract

open Syntax

/-! ## Raw texts and substitutions in turn -/

/-- Texts and other texts in turn, beginning and ending with one of the first. -/
def interleave : List String → List String → String
  | p :: ps, v :: vs => p ++ v ++ interleave ps vs
  | p :: _, [] => p
  | [], _ => ""

/-- Nodes that lie in document order between two positions. -/
def InOrder (cursor stop : Nat) : List Node → Prop
  | [] => cursor ≤ stop
  | s :: rest => cursor ≤ s.start ∧ s.start ≤ s.stop ∧ InOrder s.stop stop rest

/-- Decides whether nodes lie in order. -/
def decideInOrder (cursor stop : Nat) : (ns : List Node) → Decidable (InOrder cursor stop ns)
  | [] => inferInstanceAs (Decidable (cursor ≤ stop))
  | s :: rest =>
    haveI := decideInOrder s.stop stop rest
    inferInstanceAs (Decidable (_ ∧ _ ∧ _))

instance (cursor stop : Nat) (ns : List Node) : Decidable (InOrder cursor stop ns) :=
  decideInOrder cursor stop ns

/-- The expression in a substitution: what is written there first, comments apart. -/
def substituted? (s : Node) : Option Node :=
  s.namedChildren.find? fun c => c.kind != .comment

/-- A comment stands first in a substitution. -/
def BehindComment (s : Node) : Prop :=
  s.namedChildren.head?.map Node.kind = some .comment

instance (s : Node) : Decidable (BehindComment s) :=
  inferInstanceAs (Decidable (_ = _))

/-- Two neighbouring slices make one. -/
theorem slice_append_slice (t : Tree) {a b c : Nat} (hab : a ≤ b) (hbc : b ≤ c) :
    t.slice a b ++ t.slice b c = t.slice a c := by
  unfold Tree.slice
  rw [← String.ofList_append, ← Array.toList_append, Array.extract_append_extract,
    Nat.min_eq_left hab, Nat.max_eq_right hbc]

theorem InOrder.le {cursor stop : Nat} {ns : List Node} (h : InOrder cursor stop ns) :
    cursor ≤ stop := by
  induction ns generalizing cursor with
  | nil => exact h
  | cons s rest ih => exact (h.1.trans h.2.1).trans (ih h.2.2)

/-- **Nothing is lost, repeated or reordered**: the raw texts with the texts of the nodes between
them are what stands from the cursor on. -/
theorem interleave_rawTextsFrom (t : Tree) {cursor stop : Nat} {ns : List Node}
    (h : InOrder cursor stop ns) :
    interleave (rawTextsFrom t cursor stop ns) (ns.map t.text) = t.slice cursor stop := by
  induction ns generalizing cursor with
  | nil => rfl
  | cons s rest ih =>
    obtain ⟨hcursor, hs, hrest⟩ := h
    rw [rawTextsFrom, List.map_cons, interleave, ih hrest, Tree.text,
      slice_append_slice t hcursor hs, slice_append_slice t (hcursor.trans hs) hrest.le]

/-! ## When a template has a value -/

/-- A comment has no value. -/
theorem not_evaluates_comment {t : Tree} {n : Node} (hk : n.kind = .comment) (v : String) :
    ¬ Evaluates t n v := by
  intro h
  cases h <;> simp_all [wrapperKinds]

/-- What is resolved in a substitution is its expression, unless a comment stands before it. -/
theorem exists_head?_evaluates_iff {t : Tree} {s : Node} {v : String} :
    (∃ m, s.namedChildren.head? = some m ∧ Evaluates t m v)
      ↔ ¬ BehindComment s ∧ ∃ e ∈ substituted? s, Evaluates t e v := by
  unfold BehindComment substituted?
  cases s.namedChildren with
  | nil => simp
  | cons c cs =>
    by_cases hc : c.kind = .comment
    · simp [hc, not_evaluates_comment hc]
    · simp [hc]

/-- **What fills a template**: the values of its substitutions between its texts, unless a comment
comes first in one. -/
theorem fills_iff {t : Tree} {cursor stop : Nat} {ns : List Node} {v : String} :
    Fills t cursor stop ns v ↔ (∀ s ∈ ns, ¬ BehindComment s)
      ∧ ∃ vs, List.Forall₂ (fun s w => ∃ e ∈ substituted? s, Evaluates t e w) ns vs
        ∧ v = interleave (rawTextsFrom t cursor stop ns) vs := by
  induction ns generalizing cursor v with
  | nil => simp [fills_nil_iff, rawTextsFrom, interleave]
  | cons s rest ih =>
    rw [fills_cons_iff, rawTextsFrom, List.forall_mem_cons]
    constructor
    · rintro ⟨x, w, hx, hw, rfl⟩
      obtain ⟨hs, hx⟩ := exists_head?_evaluates_iff.1 hx
      obtain ⟨hrest, vs, hvs, rfl⟩ := ih.1 hw
      exact ⟨⟨hs, hrest⟩, x :: vs, .cons hx hvs, rfl⟩
    · rintro ⟨⟨hs, hrest⟩, vs, hvs, rfl⟩
      cases hvs with
      | @cons _ x _ vs hx hvs =>
        exact ⟨x, _, exists_head?_evaluates_iff.2 ⟨hs, hx⟩, ih.2 ⟨hrest, vs, hvs, rfl⟩, rfl⟩

/-! ## Sums -/

/-- A sum of two expressions. -/
structure IsSum (t : Tree) (n a b : Node) : Prop where
  kind : n.kind = .binaryExpression
  operator : (n.inRole? .operator).map t.text = some "+"
  left : n.inRole? .left = some a
  right : n.inRole? .right = some b

/-- An expression to which others have been added one after the other, and a string literal
after each of them. -/
inductive SumFrom (t : Tree) : Node → List Node → List String → Node → Prop
  | done {l : Node} : SumFrom t l [] [] l
  | step {l x y e q m : Node} {p : String} {es : List Node} {ps : List String} :
    IsSum t x l e → IsSum t y x q → t.stringValue? q = some p → SumFrom t y es ps m →
    SumFrom t l (e :: es) (p :: ps) m

/-- **The left-nested sum of texts and expressions in turn**, the texts as string literals. -/
def IsConcatenation (t : Tree) (texts : List String) (es : List Node) (m : Node) : Prop :=
  ∃ l p ps, texts = p :: ps ∧ t.stringValue? l = some p ∧ SumFrom t l es ps m

section Runs

variable {t : Tree} {declared : List (String × Node)} {opened : List String}

/-- A string in quotes evaluates to what is between them, and nothing is remembered. -/
theorem run_stringValue? {q : Node} {p : String} (h : t.stringValue? q = some p) (known : Known) :
    (valueFrom t declared opened q).run known = (some p, known) := by
  have hk : q.kind = .string := by
    by_contra hk
    simp [Tree.stringValue?, hk] at h
  rw [valueFrom, if_pos (by simp [hk]), h]
  rfl

/-- The sides of a sum are resolved one after the other, and both are needed. -/
theorem IsSum.run {n a b : Node} (h : IsSum t n a b) (known : Known) :
    (valueFrom t declared opened n).run known
      = (((valueFrom t declared opened a).run known).1.bind fun l =>
          ((valueFrom t declared opened b).run
            ((valueFrom t declared opened a).run known).2).1.map (l ++ ·),
        ((valueFrom t declared opened b).run
          ((valueFrom t declared opened a).run known).2).2) := by
  obtain ⟨op, hop, hplus⟩ := Option.map_eq_some_iff.1 h.operator
  rw [valueFrom]
  simp only [h.kind, hop, hplus, h.left, h.right, wrapperKinds, partFrom]
  rw [if_neg (by decide), if_neg (by decide), if_neg (by decide), if_pos (by decide),
    if_neg (by decide)]
  simp only [StateT.run_bind]
  generalize (valueFrom t declared opened a).run known = answer
  obtain ⟨left, known'⟩ := answer
  dsimp only [bind]
  generalize (valueFrom t declared opened b).run known' = answer
  obtain ⟨right, known''⟩ := answer
  cases left <;> cases right <;> rfl

/-- A part without a value leaves the whole sum without one. -/
theorem SumFrom.run_none {l m : Node} {es : List Node} {ps : List String}
    (h : SumFrom t l es ps m) {known : Known}
    (hl : ((valueFrom t declared opened l).run known).1 = none) :
    ((valueFrom t declared opened m).run known).1 = none := by
  induction h with
  | done => exact hl
  | step hx hy _ _ ih =>
    apply ih
    rw [hy.run, hx.run, hl]
    rfl

/-- The role of an expression does not count for its value. -/
theorem valueFrom_withRole (r : Role) (n : Node) :
    valueFrom t declared opened (n.withRole r) = valueFrom t declared opened n := by
  cases n
  rw [valueFrom, valueFrom]
  rfl

/-- An expression that is written alike in the role of a side of a sum is resolved in the same
way. -/
theorem valueFrom_of_alike {e e' : Node} (h : Alike t t (e.withRole .right) e') :
    valueFrom t declared opened e = valueFrom t declared opened e' := by
  rw [← valueFrom_withRole .right e]
  exact valueFrom_congr (Matching.refl t declared) opened _ _ h fun _ _ => trivial

/-- **The sum goes the way of the cursor.** The expression on the left has been worked out up to a
raw text; what remains of the sum is what remains of the template. -/
theorem SumFrom.run_eq_piecesFrom {l m : Node} {es : List Node} {ps : List String}
    (h : SumFrom t l es ps m) {ns : List Node} {cursor stop : Nat} {done p : String}
    {known known' : Known}
    (hes : List.Forall₂ (fun s e' => ∃ e ∈ s.namedChildren.head?,
      Alike t t (e.withRole .right) e') ns es)
    (hps : rawTextsFrom t cursor stop ns = p :: ps)
    (hl : (valueFrom t declared opened l).run known = (some (done ++ p), known')) :
    ((valueFrom t declared opened m).run known).1
      = ((piecesFrom t declared opened cursor stop done ns).run known').1 := by
  induction h generalizing ns cursor done p known' with
  | done =>
    cases hes
    rw [rawTextsFrom, List.cons.injEq] at hps
    rw [hl, piecesFrom, hps.1]
    rfl
  | @step l x y e q m p' es ps hx hy hq hm ih =>
    cases hes with
    | @cons s _ rest _ hs hrest =>
      obtain ⟨e', hhead, halike⟩ := hs
      rw [rawTextsFrom, List.cons.injEq] at hps
      obtain ⟨hp, hps⟩ := hps
      have hval : valueFrom t declared opened e' = valueFrom t declared opened e :=
        valueFrom_of_alike halike
      -- the sum goes on with the expression and with the raw text behind it
      have hyrun : (valueFrom t declared opened y).run known = _ := hy.run known
      rw [hx.run known, hl] at hyrun
      rw [piecesFrom, hhead, partFrom, hval, StateT.run_bind]
      generalize (valueFrom t declared opened e).run known' = answer at hyrun ⊢
      obtain ⟨value?, known''⟩ := answer
      rw [run_stringValue? hq] at hyrun
      cases value? with
      | none => exact hm.run_none (by rw [hyrun]; rfl)
      | some v =>
        subst hp
        exact ih hrest hps hyrun

end Runs

/-! ## Templates and sums -/

theorem mem_head?_of_mem_substituted? {s e : Node} (hs : ¬ BehindComment s)
    (he : e ∈ substituted? s) : e ∈ s.namedChildren.head? := by
  unfold BehindComment at hs
  unfold substituted? at he
  cases hcs : s.namedChildren with
  | nil => simp [hcs] at he
  | cons c cs =>
    have hc : c.kind ≠ .comment := fun hc => hs (by simp [hcs, hc])
    simpa [hcs, hc] using he

/-- A template is worked out from its first back-quote on. -/
theorem valueFrom_template {t : Tree} {declared : List (String × Node)} {opened : List String}
    {n : Node} (hk : n.kind = .templateString) :
    valueFrom t declared opened n
      = piecesFrom t declared opened (n.start + 1) (n.stop - 1) "" (substitutions n) := by
  rw [valueFrom]
  simp [hk, wrapperKinds]

/-- **A template agrees with the sum of its pieces.** Its raw texts and its substitutions are all
that stands between the back-quotes, in order. It has a value exactly if each of its expressions
has one and none of them stands behind a comment, and then the value is that of the expressions
between the raw texts. And whatever is declared and remembered, it is worth the same as the
left-nested sum of the raw texts, as string literals, and the same expressions. -/
theorem template_eq_concatenation (t : Tree) (n : Node) (hk : n.kind = .templateString)
    (ho : InOrder (n.start + 1) (n.stop - 1) (substitutions n)) :
    interleave (rawTexts t n) ((substitutions n).map t.text) = t.slice (n.start + 1) (n.stop - 1)
      ∧ (∀ v, freshValue? t n = some v ↔ (∀ s ∈ substitutions n, ¬ BehindComment s)
          ∧ ∃ vs, List.Forall₂ (fun s w => ∃ e ∈ substituted? s, freshValue? t e = some w)
              (substitutions n) vs
            ∧ v = interleave (rawTexts t n) vs)
      ∧ ∀ es m, (∀ s ∈ substitutions n, ¬ BehindComment s) →
          List.Forall₂ (fun s e' => ∃ e ∈ substituted? s, Alike t t (e.withRole .right) e')
            (substitutions n) es →
          IsConcatenation t (rawTexts t n) es m → ∀ declared opened known,
          ((valueFrom t declared opened n).run known).1
            = ((valueFrom t declared opened m).run known).1 := by
  refine ⟨interleave_rawTextsFrom t ho, fun v => ?_, ?_⟩
  · simp only [freshValue?_eq_some_iff]
    rw [evaluates_templateString_iff hk, fills_iff]
    rfl
  · rintro es m hcomment hes ⟨l, p, ps, hps, hl, hsum⟩ declared opened known
    have hheads : List.Forall₂ (fun s e' => ∃ e ∈ s.namedChildren.head?,
        Alike t t (e.withRole .right) e') (substitutions n) es :=
      ((List.forall₂_and_left _ _).2 ⟨hcomment, hes⟩).imp fun s e' ⟨hs, e, he, ha⟩ =>
        ⟨e, mem_head?_of_mem_substituted? hs he, ha⟩
    have hrun : (valueFrom t declared opened l).run known = (some p, known) :=
      run_stringValue? hl known
    rw [valueFrom_template hk]
    exact (hsum.run_eq_piecesFrom hheads hps (by rw [hrun, String.empty_append])).symm

instance (t : Tree) (n a b : Node) : Decidable (IsSum t n a b) :=
  decidable_of_iff (n.kind = .binaryExpression ∧ (n.inRole? .operator).map t.text = some "+"
      ∧ n.inRole? .left = some a ∧ n.inRole? .right = some b)
    ⟨fun ⟨hk, ho, hl, hr⟩ => ⟨hk, ho, hl, hr⟩, fun h => ⟨h.kind, h.operator, h.left, h.right⟩⟩

/-- A source with a template that holds another one, and the sum of its pieces. -/
def templateAndSum : Tree :=
  parse .typescript "var A='x',T=`é${A}$\x7b`${A}!`\x7d`,S='é'+A+''+`${A}!`+''"

/-- The initialiser of a name of that source. -/
def templateAndSum.valueOf (name : String) : Node :=
  (initialiser? templateAndSum name).getD templateAndSum.root

/-- A side of an expression. -/
def sideOf (r : Role) (n : Node) : Node :=
  (n.inRole? r).getD n

open templateAndSum (valueOf) in
/-- The template and the sum of that source, and the sums inside the sum from the left to the
right. -/
theorem templateAndSum_pieces : ∃ template l x₁ e₁ y₁ q₁ x₂ e₂ sum q₂ : Node,
    initialiser? templateAndSum "T" = some template
      ∧ initialiser? templateAndSum "S" = some sum
      ∧ template.kind = .templateString
      ∧ InOrder (template.start + 1) (template.stop - 1) (substitutions template)
      ∧ (∀ s ∈ substitutions template, ¬ BehindComment s)
      ∧ List.Forall₂ (fun s e' => ∃ e ∈ substituted? s,
          Alike templateAndSum templateAndSum (e.withRole .right) e')
            (substitutions template) [e₁, e₂]
      ∧ rawTexts templateAndSum template = ["é", "", ""]
      ∧ templateAndSum.stringValue? l = some "é"
      ∧ IsSum templateAndSum x₁ l e₁ ∧ IsSum templateAndSum y₁ x₁ q₁
      ∧ templateAndSum.stringValue? q₁ = some ""
      ∧ IsSum templateAndSum x₂ y₁ e₂ ∧ IsSum templateAndSum sum x₂ q₂
      ∧ templateAndSum.stringValue? q₂ = some "" := by
  refine ⟨valueOf "T", sideOf .left (sideOf .left (sideOf .left (sideOf .left (valueOf "S")))),
    sideOf .left (sideOf .left (sideOf .left (valueOf "S"))),
    sideOf .right (sideOf .left (sideOf .left (sideOf .left (valueOf "S")))),
    sideOf .left (sideOf .left (valueOf "S")),
    sideOf .right (sideOf .left (sideOf .left (valueOf "S"))),
    sideOf .left (valueOf "S"), sideOf .right (sideOf .left (valueOf "S")), valueOf "S",
    sideOf .right (valueOf "S"), ?_⟩
  decide +kernel

theorem template_eq_concatenation_nested : ∃ template sum,
    initialiser? templateAndSum "T" = some template
      ∧ initialiser? templateAndSum "S" = some sum
      ∧ interleave (rawTexts templateAndSum template)
            ((substitutions template).map templateAndSum.text)
          = templateAndSum.slice (template.start + 1) (template.stop - 1)
      ∧ ∀ declared opened known,
        ((valueFrom templateAndSum declared opened template).run known).1
          = ((valueFrom templateAndSum declared opened sum).run known).1 := by
  obtain ⟨template, l, x₁, e₁, y₁, q₁, x₂, e₂, sum, q₂, ht, hs, hk, ho, hcomment, halike, hraw, hl,
    hx₁, hy₁, hq₁, hx₂, hy₂, hq₂⟩ := templateAndSum_pieces
  obtain ⟨hslice, -, hsum⟩ := template_eq_concatenation templateAndSum template hk ho
  refine ⟨template, sum, ht, hs, hslice, hsum [e₁, e₂] sum hcomment halike ?_⟩
  exact ⟨l, "é", ["", ""], hraw, hl, .step hx₁ hy₁ hq₁ (.step hx₂ hy₂ hq₂ .done)⟩

/-- **A comment before an expression hides it in a template**, though not in a sum. -/
theorem template_behind_comment :
    constants (parse .typescript "var A='x',T=`$\x7b/**/A\x7d`,S=''+/**/A+''") ["T", "S"]
      = [none, some "x"] := by
  decide +kernel

end ComponentCatalog.Extract
