import ComponentCatalog.Extract.Constants
import ComponentCatalog.Proofs.DocumentOrder
import ComponentCatalog.Syntax.Parse
import Mathlib.Data.List.Forall2
import Mathlib.Logic.Relation

/-!
# What a constant is worth

`constant` and `expressionValue` answer with a memory: what has been worked out is
kept, and a name that is being resolved when it is asked for again has no value.
This module says what the answers are without either. An expression has a value
when one can be *derived* for it in finitely many steps (`Evaluates`), and a name
has the value of its first initialiser (`HasValue`). Whatever has been asked
before, the answer to a query is the value that can be derived, and nothing where
there is none.

## Why the memory does no harm

The danger is a name that is found without a value only because another one was
being resolved at the time, and is remembered so. That cannot happen. Let `o` be
on the list of opened names while `b` is asked for. Then `o` *depends* on `b`:
every expression on the way from `o` to `b` is one whose value would be needed for
that of `o`, because a concatenation needs both its sides and a template all its
substitutions. If now `b` is `o` itself, then it depends on itself, and a name
that does has no value – a derivation would have to contain itself
(`not_hasValue_of_dependsOn_cycle`). So the answer given for an opened name is
right, and with it every answer that was built on it.
-/

namespace ComponentCatalog.Extract

open Syntax Relation

/-! ## Derivations -/

/-- The initialiser of a name: that of the first declarator of the name, in
document order, that has one. -/
def initialiser? (t : Tree) (name : String) : Option Node :=
  t.root.preorder.findSome? fun d =>
    match d.inRole? .name with
    | some n =>
      if d.kind = .variableDeclarator ∧ n.kind = .identifier ∧ t.text n = name then
        d.inRole? .value
      else none
    | none => none

mutual

/-- **The value of an expression**, by a derivation. There is one rule for each
kind of expression that can have a value. -/
inductive Evaluates (t : Tree) : Node → String → Prop
  /-- A string literal is worth the text between its quotes. -/
  | literal {n : Node} {v : String} {quote : Char} :
    n.kind = .string → quote = '\'' ∨ quote = '"' →
    (t.text n).toList = quote :: (v.toList ++ [quote]) → Evaluates t n v
  /-- A name is worth what its initialiser is. -/
  | name {n m : Node} {v : String} :
    n.kind = .identifier → initialiser? t (t.text n) = some m → Evaluates t m v →
    Evaluates t n v
  /-- A wrapper is worth what it holds first. -/
  | wrapped {n m : Node} {v : String} :
    n.kind ∈ wrapperKinds → n.namedChildren.head? = some m → Evaluates t m v →
    Evaluates t n v
  /-- A sum is worth both its sides, one after the other. -/
  | sum {n op a b : Node} {v w : String} :
    n.kind = .binaryExpression → n.inRole? .operator = some op → t.text op = "+" →
    n.inRole? .left = some a → n.inRole? .right = some b →
    Evaluates t a v → Evaluates t b w → Evaluates t n (v ++ w)
  /-- A template is worth its text with its substitutions filled in. -/
  | template {n : Node} {v : String} :
    n.kind = .templateString →
    Fills t (n.start + 1) (n.stop - 1) (substitutions n) v → Evaluates t n v

/-- The text of a template from one position to another: the raw pieces between the
substitutions and the values of the substitutions, in turn. -/
inductive Fills (t : Tree) : Nat → Nat → List Node → String → Prop
  | last {cursor stop : Nat} : Fills t cursor stop [] (t.slice cursor stop)
  | next {cursor stop : Nat} {s m : Node} {rest : List Node} {v w : String} :
    s.namedChildren.head? = some m → Evaluates t m v → Fills t s.stop stop rest w →
    Fills t cursor stop (s :: rest) (t.slice cursor s.start ++ v ++ w)

end

/-- **The value of a name** is that of its initialiser. -/
def HasValue (t : Tree) (name v : String) : Prop :=
  ∃ m, initialiser? t name = some m ∧ Evaluates t m v

/-! Each rule is the only one for its kinds of expressions, so what can be derived for
an expression is decided by its kind. -/

section Rules

variable {t : Tree} {n : Node} {v : String}

/-- A string in quotes stands for what is between them. -/
theorem evaluates_string_iff (hk : n.kind = .string) :
    Evaluates t n v ↔ ∃ quote, (quote = '\'' ∨ quote = '"') ∧
      (t.text n).toList = quote :: (v.toList ++ [quote]) := by
  constructor
  · intro h
    cases h with
    | literal _ hq ht => exact ⟨_, hq, ht⟩
    | name h _ _ | sum h _ _ _ _ _ _ | template h _ => simp [hk] at h
    | wrapped h _ _ => simp [hk, wrapperKinds] at h
  · rintro ⟨quote, hq, ht⟩
    exact .literal hk hq ht

/-- A name stands for the value of a constant. -/
theorem evaluates_identifier_iff (hk : n.kind = .identifier) :
    Evaluates t n v ↔ HasValue t (t.text n) v := by
  constructor
  · intro h
    cases h with
    | name _ hm he => exact ⟨_, hm, he⟩
    | literal h _ _ | sum h _ _ _ _ _ _ | template h _ => simp [hk] at h
    | wrapped h _ _ => simp [hk, wrapperKinds] at h
  · rintro ⟨m, hm, he⟩
    exact .name hk hm he

/-- What is wrapped stands for what is inside. -/
theorem evaluates_wrapper_iff (hk : n.kind ∈ wrapperKinds) :
    Evaluates t n v ↔ ∃ m, n.namedChildren.head? = some m ∧ Evaluates t m v := by
  constructor
  · intro h
    cases h with
    | wrapped _ hm he => exact ⟨_, hm, he⟩
    | literal h _ _ | name h _ _ | sum h _ _ _ _ _ _ | template h _ =>
      simp [h, wrapperKinds] at hk
  · rintro ⟨m, hm, he⟩
    exact .wrapped hk hm he

/-- A sum of texts stands for the two joined. -/
theorem evaluates_binaryExpression_iff (hk : n.kind = .binaryExpression) :
    Evaluates t n v ↔ ∃ op, n.inRole? .operator = some op ∧ t.text op = "+" ∧
      ∃ x y, (∃ a, n.inRole? .left = some a ∧ Evaluates t a x) ∧
        (∃ b, n.inRole? .right = some b ∧ Evaluates t b y) ∧ v = x ++ y := by
  constructor
  · intro h
    cases h with
    | sum _ hop hplus hl hr hx hy => exact ⟨_, hop, hplus, _, _, ⟨_, hl, hx⟩, ⟨_, hr, hy⟩, rfl⟩
    | literal h _ _ | name h _ _ | template h _ => simp [hk] at h
    | wrapped h _ _ => simp [hk, wrapperKinds] at h
  · rintro ⟨op, hop, hplus, x, y, ⟨a, hl, hx⟩, ⟨b, hr, hy⟩, rfl⟩
    exact .sum hk hop hplus hl hr hx hy

/-- A template stands for its pieces. -/
theorem evaluates_templateString_iff (hk : n.kind = .templateString) :
    Evaluates t n v ↔ Fills t (n.start + 1) (n.stop - 1) (substitutions n) v := by
  constructor
  · intro h
    cases h with
    | template _ hf => exact hf
    | literal h _ _ | name h _ _ | sum h _ _ _ _ _ _ => simp [hk] at h
    | wrapped h _ _ => simp [hk, wrapperKinds] at h
  · exact .template hk

/-- Behind the last substitution there is the rest of the text. -/
theorem fills_nil_iff {cursor stop : Nat} :
    Fills t cursor stop [] v ↔ v = t.slice cursor stop := by
  constructor
  · intro h
    cases h
    rfl
  · rintro rfl
    exact .last

/-- A substitution has the text before it in front and the others behind it. -/
theorem fills_cons_iff {cursor stop : Nat} {s : Node} {rest : List Node} :
    Fills t cursor stop (s :: rest) v ↔
      ∃ x w, (∃ m, s.namedChildren.head? = some m ∧ Evaluates t m x) ∧
        Fills t s.stop stop rest w ∧ v = t.slice cursor s.start ++ x ++ w := by
  constructor
  · intro h
    cases h with
    | next hm hx hw => exact ⟨_, _, ⟨_, hm, hx⟩, hw, rfl⟩
  · rintro ⟨x, w, ⟨m, hm, hx⟩, hw, rfl⟩
    exact .next hm hx hw

end Rules

/-! ## Dependence -/

/-- The names whose values are needed for that of an expression. -/
inductive Mentions (t : Tree) : Node → String → Prop
  | name {n : Node} : n.kind = .identifier → Mentions t n (t.text n)
  | wrapped {n m : Node} {b : String} :
    n.kind ∈ wrapperKinds → n.namedChildren.head? = some m → Mentions t m b →
    Mentions t n b
  | side {n m : Node} {r : Role} {b : String} :
    n.kind = .binaryExpression → r = .left ∨ r = .right → n.inRole? r = some m →
    Mentions t m b → Mentions t n b
  | substitution {n s m : Node} {b : String} :
    n.kind = .templateString → s ∈ substitutions n → s.namedChildren.head? = some m →
    Mentions t m b → Mentions t n b

/-- A name depends on those that its initialiser mentions. -/
def DependsOn (t : Tree) (a b : String) : Prop :=
  ∃ m, initialiser? t a = some m ∧ Mentions t m b

mutual

/-- The names on which an expression with a value depends are *founded*: following
dependence from them comes to an end. -/
theorem acc_of_evaluates {t : Tree} {n : Node} {v : String} :
    Evaluates t n v → ∀ {b : String}, Mentions t n b → Acc (flip (DependsOn t)) b
  | .literal hk _ _, _, hm => by
    cases hm <;> simp_all [wrapperKinds]
  | .name hk hi he, _, hm => by
    cases hm with
    | name _ =>
      -- a name depends on what its value mentions; the value has a derivation of its own
      refine Acc.intro _ fun c hc => ?_
      obtain ⟨m, hm, hc⟩ := hc
      rw [hi, Option.some.injEq] at hm
      exact acc_of_evaluates he (hm ▸ hc)
    | wrapped h _ _ => simp_all [wrapperKinds]
    | side h _ _ _ => simp_all
    | substitution h _ _ _ => simp_all
  | .wrapped hk hh he, _, hm => by
    cases hm with
    | name h => simp_all [wrapperKinds]
    | wrapped _ h hm =>
      rw [hh, Option.some.injEq] at h
      exact acc_of_evaluates he (h ▸ hm)
    | side h _ _ _ => simp_all [wrapperKinds]
    | substitution h _ _ _ => simp_all [wrapperKinds]
  | .sum hk _ _ hl hr hv hw, _, hm => by
    cases hm with
    | name h => simp_all
    | wrapped h _ _ => simp_all [wrapperKinds]
    | side _ hs h hm =>
      rcases hs with rfl | rfl
      · rw [hl, Option.some.injEq] at h
        exact acc_of_evaluates hv (h ▸ hm)
      · rw [hr, Option.some.injEq] at h
        exact acc_of_evaluates hw (h ▸ hm)
    | substitution h _ _ _ => simp_all
  | .template hk hf, _, hm => by
    cases hm with
    | name h => simp_all
    | wrapped h _ _ => simp_all [wrapperKinds]
    | side h _ _ _ => simp_all
    | substitution _ hs hh hm => exact acc_of_fills hf hs hh hm

/-- The same for the substitutions of a template. -/
theorem acc_of_fills {t : Tree} {cursor stop : Nat} {ns : List Node} {v : String} :
    Fills t cursor stop ns v → ∀ {s m : Node} {b : String}, s ∈ ns →
      s.namedChildren.head? = some m → Mentions t m b → Acc (flip (DependsOn t)) b
  | .last, _, _, _, hs, _, _ => by cases hs
  | .next hh he hf, s, m, _, hs, hm, hb => by
    rcases List.mem_cons.1 hs with rfl | hs
    · rw [hh, Option.some.injEq] at hm
      exact acc_of_evaluates he (hm ▸ hb)
    · exact acc_of_fills hf hs hm hb

end

/-- A name with a value is founded. -/
theorem acc_of_hasValue {t : Tree} {a v : String} (h : HasValue t a v) :
    Acc (flip (DependsOn t)) a := by
  obtain ⟨m, hm, he⟩ := h
  refine Acc.intro _ fun b hb => ?_
  obtain ⟨m', hm', hb⟩ := hb
  rw [hm, Option.some.injEq] at hm'
  exact acc_of_evaluates he (hm' ▸ hb)

/-- Nothing founded comes back to itself. -/
theorem not_dependsOn_self_of_acc {t : Tree} {b : String} (h : Acc (flip (DependsOn t)) b) :
    ¬ TransGen (DependsOn t) b b := by
  intro hb
  have hcycle : TransGen (flip (DependsOn t)) b b := transGen_swap.2 hb
  have hacc := h.transGen
  clear h hb
  induction hacc with
  | intro x _ ih => exact ih x hcycle hcycle

/-- **A name that depends on a cycle has no value**, be it on the cycle or not. -/
theorem not_hasValue_of_dependsOn_cycle {t : Tree} {a b : String}
    (hab : ReflTransGen (DependsOn t) a b) (hb : TransGen (DependsOn t) b b) (v : String) :
    ¬ HasValue t a v := by
  intro h
  have hacc : Acc (flip (DependsOn t)) b := by
    rcases reflTransGen_iff_eq_or_transGen.1 hab with rfl | hab
    · exact acc_of_hasValue h
    · exact (acc_of_hasValue h).inv_of_transGen (transGen_swap.2 hab)
  exact not_dependsOn_self_of_acc hacc hb

/-! ## The parts of a source that are looked at -/

/-- The first binding of a name is its initialiser. -/
theorem lookup_bindings (t : Tree) (name : String) :
    (bindings t).lookup name = initialiser? t name := by
  unfold bindings initialiser? Tree.ofKinds Node.ofKinds
  rw [Node.walk_eq_preorder, List.lookup_eq_findSome?, ← List.head?_filterMap,
    ← List.head?_filterMap, List.filterMap_filter, List.filterMap_filterMap]
  refine congrArg List.head? (List.filterMap_congr fun d _ => ?_)
  by_cases hd : d.kind = .variableDeclarator
  · rw [if_pos (by simp [hd, Node.isNamed, Kind.isNamed])]
    cases d.inRole? .name with
    | none => rfl
    | some n =>
      by_cases ht : t.text n = name
      · subst ht
        by_cases hn : n.kind = .identifier <;> cases d.inRole? .value <;> simp [hd, hn]
      · have ht' : ¬ name = t.text n := fun h => ht h.symm
        by_cases hn : n.kind = .identifier <;> cases d.inRole? .value <;> simp [hn, ht, ht']
  · rw [if_neg (by simp [hd])]
    cases d.inRole? .name <;> simp [hd]

/-- The value of a string literal is the text between its quotes. -/
theorem stringValue?_eq_some_iff {t : Tree} {n : Node} (hn : n.kind = .string) {v : String} :
    t.stringValue? n = some v ↔
      ∃ quote, (quote = '\'' ∨ quote = '"') ∧
        (t.text n).toList = quote :: (v.toList ++ [quote]) := by
  unfold Tree.stringValue?
  rw [if_neg (by simp [hn])]
  generalize (t.text n).toList = raw
  constructor
  · intro h
    rcases raw with _ | ⟨first, rest⟩
    · simp at h
    · rcases List.eq_nil_or_concat rest with rfl | ⟨inner, last, rfl⟩
      · simp at h
      · have hlast : (first :: (inner ++ [last])).getLast? = some last := by
          simp [List.getLast?_cons]
        have hv : (first = last ∧ (first = '\'' ∨ first = '"')) ∧ String.ofList inner = v := by
          simpa [hlast] using h
        obtain ⟨⟨rfl, hq⟩, rfl⟩ := hv
        exact ⟨first, hq, by simp⟩
  · rintro ⟨quote, hq, rfl⟩
    rcases hq with rfl | rfl <;> simp [List.getLast?_cons]

/-! ## Answers

The memory is *faithful* when every answer in it is right, also where it says that
a name has no value. A computation *answers* with the texts that satisfy a
predicate when, from any faithful memory, it yields such a text if there is one and
nothing otherwise, and leaves a faithful memory behind. The lemmas below follow the
ways in which computations are put together. -/

/-- Every answer that is remembered is right. -/
def Faithful (t : Tree) (known : Known) : Prop :=
  ∀ e ∈ known, ∀ v, e.2 = some v ↔ HasValue t e.1 v

/-- **A computation that answers with what satisfies a predicate**, whatever is
remembered. -/
def Answers (t : Tree) (x : Resolving (Option String)) (P : String → Prop) : Prop :=
  ∀ known, Faithful t known →
    (∀ v, (x.run known).1 = some v ↔ P v) ∧ Faithful t (x.run known).2

theorem Faithful.nil (t : Tree) : Faithful t [] := fun _ he => by cases he

/-- What a faithful table says of a name is its value, or that it has none. -/
theorem Faithful.lookup {t : Tree} {known : Known} (h : Faithful t known) {name : String}
    {a : Option String} (ha : known.lookup name = some a) (v : String) :
    a = some v ↔ HasValue t name v := by
  obtain ⟨before, after, rfl, -⟩ := List.lookup_eq_some_iff.1 ha
  exact h (name, a) (by simp) v

namespace Answers

variable {t : Tree} {x y : Resolving (Option String)} {P Q : String → Prop}

theorem congr (h : Answers t x P) (hPQ : ∀ v, P v ↔ Q v) : Answers t x Q := by
  intro known hk
  obtain ⟨hx, hk'⟩ := h known hk
  exact ⟨fun v => (hx v).trans (hPQ v), hk'⟩

theorem pure {a : Option String} (h : ∀ v, a = some v ↔ P v) :
    Answers t (Pure.pure a) P :=
  fun _ hk => ⟨h, hk⟩

/-- What has no value is answered with nothing. -/
theorem nothing (h : ∀ v, ¬ P v) : Answers t (Pure.pure none) P :=
  pure fun v => iff_of_false nofun (h v)

/-- One computation after another, which goes on from the value of the first, the
only one it has, or from the fact that there is none. -/
theorem bind {f : Option String → Resolving (Option String)} (hx : Answers t x P)
    (hsome : ∀ v, (∀ w, P w ↔ w = v) → Answers t (f (some v)) Q)
    (hnone : (∀ v, ¬ P v) → Answers t (f none) Q) : Answers t (x >>= f) Q := by
  intro known hk
  obtain ⟨hv, hk'⟩ := hx known hk
  show (∀ v, ((f (x.run known).1).run (x.run known).2).1 = some v ↔ Q v) ∧
    Faithful t ((f (x.run known).1).run (x.run known).2).2
  cases h : (x.run known).1 with
  | none =>
    refine hnone (fun v hP => ?_) _ hk'
    have := (hv v).2 hP
    rw [h] at this
    cases this
  | some v =>
    refine hsome v (fun w => ?_) _ hk'
    rw [← hv w, h, Option.some.injEq]
    exact eq_comm

/-- Two parts that are both needed, one after the other. -/
theorem sum (hx : Answers t x P) (hy : Answers t y Q) :
    Answers t (do
        let left ← x
        let right ← y
        match left, right with
        | some l, some r => return some (l ++ r)
        | _, _ => return none)
      fun u => ∃ v w, P v ∧ Q w ∧ u = v ++ w := by
  refine hx.bind (fun v hv => hy.bind (fun w hw => pure fun u => ?_) fun hw => nothing ?_)
    fun hv => hy.bind (fun w _ => nothing ?_) fun _ => nothing ?_
  · simp only [hv, hw, Option.some.injEq]
    constructor
    · rintro rfl
      exact ⟨v, w, rfl, rfl, rfl⟩
    · rintro ⟨_, _, rfl, rfl, rfl⟩
      rfl
  · rintro u ⟨_, w, -, hQ, -⟩
    exact hw w hQ
  · rintro u ⟨v, _, hP, -⟩
    exact hv v hP
  · rintro u ⟨v, _, hP, -⟩
    exact hv v hP

/-- The answer for a name may be remembered. -/
theorem remembered {name : String} (hx : Answers t x (HasValue t name)) :
    Answers t (do
        let v ← x
        modify ((name, v) :: ·)
        return v)
      (HasValue t name) := by
  intro known hk
  obtain ⟨hv, hk'⟩ := hx known hk
  refine ⟨hv, fun e he => ?_⟩
  rcases List.mem_cons.1 he with rfl | he
  · exact hv
  · exact hk' e he

end Answers

/-- The names that are opened lead to an expression: all of them depend on
everything that it mentions. -/
def LeadsTo (t : Tree) (opened : List String) (n : Node) : Prop :=
  ∀ o ∈ opened, ∀ b, Mentions t n b → TransGen (DependsOn t) o b

/-- Opening a name leads to its initialiser. -/
theorem leadsTo_cons {t : Tree} {opened : List String} {name : String} {m : Node}
    (ho : ∀ o ∈ opened, TransGen (DependsOn t) o name) (hm : initialiser? t name = some m) :
    LeadsTo t (name :: opened) m := by
  intro o h b hb
  have hname : DependsOn t name b := ⟨m, hm, hb⟩
  rcases List.mem_cons.1 h with rfl | h
  · exact .single hname
  · exact (ho o h).tail hname

mutual

/-- The answer for a name, asked for by names that depend on it. -/
theorem constantFrom_answers (t : Tree) (opened : List String) (name : String)
    (ho : ∀ o ∈ opened, TransGen (DependsOn t) o name) :
    Answers t (constantFrom t (bindings t) opened name) (HasValue t name) := by
  intro known hk
  rw [constantFrom, StateT.run_bind, StateT.run_get]
  cases hl : known.lookup name with
  | some a =>
    simp only [pure_bind, hl]
    exact ⟨hk.lookup hl, hk⟩
  | none =>
    simp only [pure_bind, hl]
    split
    · next hn =>
      rw [lookup_bindings] at hn
      refine Answers.nothing (fun v hv => ?_) known hk
      obtain ⟨m, hm, -⟩ := hv
      rw [hn] at hm
      cases hm
    · next m hm =>
      split
      · next hopened =>
        -- the name is asked for by itself
        have hcycle := ho name (by simpa using hopened)
        exact Answers.nothing (not_hasValue_of_dependsOn_cycle .refl hcycle) known hk
      · next hopened =>
        have hle := unopened_cons_add_count_le hm (by simpa using hopened)
        rw [lookup_bindings] at hm
        have hvalue : Answers t (valueFrom t (bindings t) (name :: opened) m)
            (HasValue t name) :=
          (valueFrom_answers t (name :: opened) m (leadsTo_cons ho hm)).congr fun v =>
            ⟨fun h => ⟨m, hm, h⟩, fun ⟨m', hm', h⟩ => by
              rw [hm, Option.some.injEq] at hm'
              exact hm' ▸ h⟩
        exact hvalue.remembered known hk
  termination_by 2 * unopened (bindings t) opened + 1
  decreasing_by omega

/-- The answer for an expression, asked for by names that depend on it. -/
theorem valueFrom_answers (t : Tree) (opened : List String) (n : Node)
    (ho : LeadsTo t opened n) :
    Answers t (valueFrom t (bindings t) opened n) (Evaluates t n) := by
  rw [valueFrom]
  split
  -- a string literal
  · next hk =>
    rw [beq_iff_eq] at hk
    exact Answers.pure fun v =>
      (stringValue?_eq_some_iff hk).trans (evaluates_string_iff hk).symm
  split
  -- a name
  · next hk =>
    rw [beq_iff_eq] at hk
    have hname : ∀ o ∈ opened, TransGen (DependsOn t) o (t.text n) :=
      fun o h => ho o h _ (.name hk)
    exact (constantFrom_answers t opened (t.text n) hname).congr fun v =>
      (evaluates_identifier_iff hk).symm
  split
  -- a wrapper
  · next hk =>
    rw [List.contains_iff_mem] at hk
    have hpart := partFrom_answers t opened n.namedChildren.head? fun m hm o h b hb =>
      ho o h b (.wrapped hk hm hb)
    exact hpart.congr fun v => (evaluates_wrapper_iff hk).symm
  split
  -- an operator with two sides
  · next hk =>
    rw [beq_iff_eq] at hk
    have hl := partFrom_answers t opened (n.inRole? .left) fun m hm o h b hb =>
      ho o h b (.side hk (.inl rfl) hm hb)
    have hr := partFrom_answers t opened (n.inRole? .right) fun m hm o h b hb =>
      ho o h b (.side hk (.inr rfl) hm hb)
    split
    · next hop =>
      refine Answers.nothing fun v hv => ?_
      obtain ⟨op, hop', -⟩ := (evaluates_binaryExpression_iff hk).1 hv
      rw [hop] at hop'
      cases hop'
    · next op hop =>
      split
      · next hplus =>
        refine Answers.nothing fun v hv => ?_
        obtain ⟨op', hop', hplus', -⟩ := (evaluates_binaryExpression_iff hk).1 hv
        rw [hop, Option.some.injEq] at hop'
        simp [hop', hplus'] at hplus
      · next hplus =>
        have hplus' : t.text op = "+" := by simpa using hplus
        refine (hl.sum hr).congr fun v => ?_
        rw [evaluates_binaryExpression_iff hk]
        constructor
        · rintro ⟨x, y, hx, hy, hv⟩
          exact ⟨op, hop, hplus', x, y, hx, hy, hv⟩
        · rintro ⟨-, -, -, hxy⟩
          exact hxy
  split
  -- a template
  · next hk =>
    rw [beq_iff_eq] at hk
    have hpieces := piecesFrom_answers t opened (n.stop - 1) (substitutions n) (n.start + 1) ""
      fun s hs m hm o h b hb => ho o h b (.substitution hk hs hm hb)
    refine hpieces.congr fun v => ?_
    rw [evaluates_templateString_iff hk]
    simp only [String.empty_append, exists_eq_right']
  · refine Answers.nothing fun v hv => ?_
    cases hv <;> simp_all [wrapperKinds]
  termination_by 2 * (unopened (bindings t) opened + n.count)
  decreasing_by
    all_goals
      have := n.count_pos
      have := partCount_head?_lt n
      have := partCount_inRole?_lt n .left
      have := partCount_inRole?_lt n .right
      have := countAll_substitutions_lt n
      omega

/-- The answer for a part of an expression that may be missing. -/
theorem partFrom_answers (t : Tree) (opened : List String) : (m? : Option Node) →
    (ho : ∀ m, m? = some m → LeadsTo t opened m) →
    Answers t (partFrom t (bindings t) opened m?) fun v => ∃ m, m? = some m ∧ Evaluates t m v
  | none, _ => by
    rw [partFrom]
    refine Answers.nothing fun v hv => ?_
    obtain ⟨m, hm, -⟩ := hv
    cases hm
  | some m, ho => by
    rw [partFrom]
    refine (valueFrom_answers t opened m (ho m rfl)).congr fun v => ⟨fun h => ⟨m, rfl, h⟩, ?_⟩
    rintro ⟨m', hm', h⟩
    rw [Option.some.injEq] at hm'
    exact hm' ▸ h
  termination_by m? => 2 * (unopened (bindings t) opened + partCount m?) + 1
  decreasing_by
    simp only [partCount, Option.map_some, Option.getD_some]
    omega

/-- The answer for the text of a template from a position on. -/
theorem piecesFrom_answers (t : Tree) (opened : List String) (stop : Nat) : (ns : List Node) →
    (cursor : Nat) → (done : String) →
    (ho : ∀ s ∈ ns, ∀ m, s.namedChildren.head? = some m → LeadsTo t opened m) →
    Answers t (piecesFrom t (bindings t) opened cursor stop done ns)
      fun v => ∃ w, Fills t cursor stop ns w ∧ v = done ++ w
  | [], cursor, done, _ => by
    rw [piecesFrom]
    refine Answers.pure fun v => ?_
    simp only [fills_nil_iff, exists_eq_left, Option.some.injEq]
    exact eq_comm
  | s :: rest, cursor, done, ho => by
    rw [piecesFrom]
    have hpart := partFrom_answers t opened s.namedChildren.head? (ho s (by simp))
    refine hpart.bind (fun x hx => ?_) fun hnone => Answers.nothing fun v hv => ?_
    · refine (piecesFrom_answers t opened stop rest s.stop (done ++ t.slice cursor s.start ++ x)
        fun r hr => ho r (List.mem_cons_of_mem _ hr)).congr fun v => ?_
      constructor
      · rintro ⟨w, hw, rfl⟩
        exact ⟨_, fills_cons_iff.2 ⟨x, w, (hx x).2 rfl, hw, rfl⟩, by simp [String.append_assoc]⟩
      · rintro ⟨_, hf, rfl⟩
        obtain ⟨y, w, hy, hw, rfl⟩ := fills_cons_iff.1 hf
        obtain rfl := (hx y).1 hy
        exact ⟨w, hw, by simp [String.append_assoc]⟩
    · obtain ⟨_, hf, -⟩ := hv
      obtain ⟨x, _, hx, -⟩ := fills_cons_iff.1 hf
      exact hnone x hx
  termination_by ns => 2 * (unopened (bindings t) opened + Node.countAll ns) + 1
  decreasing_by
    all_goals
      have := partCount_head?_lt s
      simp only [Node.countAll]
      omega

end

/-! ## Queries in turn -/

/-- A question about a source. -/
inductive Query where
  /-- What a name is worth. -/
  | constant (name : String)
  /-- What an expression is worth. -/
  | expression (n : Node)

/-- Asks a question, using and extending what is known. -/
def Query.ask (t : Tree) : Query → Resolving (Option String)
  | constant name => Extract.constant t name
  | expression n => expressionValue t n

/-- The right answer to a question. -/
def Query.Value (t : Tree) : Query → String → Prop
  | constant name => HasValue t name
  | expression n => Evaluates t n

/-- Asking one question. -/
theorem Query.ask_answers (t : Tree) (q : Query) : Answers t (q.ask t) (q.Value t) := by
  cases q with
  | constant name => exact constantFrom_answers t [] name fun o ho => by cases ho
  | expression n => exact valueFrom_answers t [] n fun o ho => by cases ho

/-- Asking several questions in turn, from a faithful memory. -/
theorem Query.askAll_answers (t : Tree) (qs : List Query) (known : Known)
    (hk : Faithful t known) :
    List.Forall₂ (fun q a => ∀ v, a = some v ↔ q.Value t v) qs
        ((qs.mapM (Query.ask t)).run known).1
      ∧ Faithful t ((qs.mapM (Query.ask t)).run known).2 := by
  induction qs generalizing known with
  | nil => exact ⟨.nil, hk⟩
  | cons q qs ih =>
    obtain ⟨hq, hk'⟩ := q.ask_answers t known hk
    obtain ⟨hqs, hk''⟩ := ih _ hk'
    rw [List.mapM_cons]
    exact ⟨.cons hq hqs, hk''⟩

/-- **The answers are the values.** Whatever is asked and in whatever order, every
answer is the value that can be derived for the question, or nothing where none can;
so it is the answer that a resolver without a memory would give. What is remembered
in the end is right for every name, also where it is remembered to have no value.
A name that depends on a cycle is answered with nothing, after any questions. -/
theorem answers_eq_values (t : Tree) (qs : List Query) :
    List.Forall₂ (fun q a => ∀ v, a = some v ↔ q.Value t v) qs
        ((qs.mapM (Query.ask t)).run []).1
      ∧ ((qs.mapM (Query.ask t)).run []).1 = qs.map (fun q => ((q.ask t).run []).1)
      ∧ (∀ e ∈ ((qs.mapM (Query.ask t)).run []).2, ∀ v, e.2 = some v ↔ HasValue t e.1 v)
      ∧ ∀ a b, ReflTransGen (DependsOn t) a b → TransGen (DependsOn t) b b →
          ((constant t a).run ((qs.mapM (Query.ask t)).run []).2).1 = none := by
  obtain ⟨hqs, hk⟩ := Query.askAll_answers t qs [] (Faithful.nil t)
  refine ⟨hqs, ?_, hk, fun a b hab hb => ?_⟩
  · have hfresh : List.Forall₂ (fun q a => ∀ v, a = some v ↔ q.Value t v) qs
        (qs.map fun q => ((q.ask t).run []).1) :=
      List.forall₂_map_right_iff.2
        (List.forall₂_same.2 fun q _ => (q.ask_answers t [] (Faithful.nil t)).1)
    refine List.right_unique_forall₂' (fun q a b ha hb => ?_) hqs hfresh
    exact Option.ext fun v => (ha v).trans (hb v).symm
  · have ha := (Query.ask_answers t (.constant a) _ hk).1
    refine Option.eq_none_iff_forall_ne_some.2 fun v hv => ?_
    exact not_hasValue_of_dependsOn_cycle hab hb v ((ha v).1 hv)

example : constants (parse .typescript "const A='x',B=`${A}y`,C=B+D,D=C;") ["C", "B", "A", "D"]
    = [none, some "xy", some "x", none] := by decide +kernel

end ComponentCatalog.Extract
