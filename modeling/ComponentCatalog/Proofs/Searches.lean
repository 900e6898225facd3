import Mathlib.Data.Prod.Lex
import Mathlib.Data.String.Basic
import Mathlib.Order.Bounds.Basic

/-!
# Searches that find what stands first

A search goes through places in some order and stops at the first one where it finds
something. What it finds can be told by the places alone: it is what stands at the least of
those at which anything stands, and if nothing is found then nothing stands anywhere. Searches
within searches are described in the same way, by places that are compared one after the
other: first where the outer search is, then where the inner one is.

What is gone through is a list, and all that a search has to know of it is that it lists what
stands somewhere by increasing places (`ListsInOrder`). The places need not be positions in the
list. A list that is put together from others, or picked out of another one, is in order if these
are, and the first of a list in order is what stands first.

A search of which a step may fail is one that cannot, up to that step.
-/

namespace ComponentCatalog

/-- **A search that finds what stands first.** -/
structure FindsFirst {κ β : Type} [LE κ] (stands : κ → β → Prop) (found? : Option β) : Prop where
  /-- What is found stands at the least place at which anything stands. -/
  least : ∀ b, found? = some b → ∃ k, IsLeast {k | ∃ c, stands k c} k ∧ stands k b
  /-- If nothing is found, nothing stands anywhere. -/
  nowhere : found? = none → ∀ k b, ¬ stands k b

section Searches

variable {α β γ κ κ' : Type}

/-- What stands where may be described in another way. -/
theorem FindsFirst.congr [LE κ] {stands stands' : κ → β → Prop} {found? : Option β}
    (h : FindsFirst stands found?) (hstands : ∀ k b, stands k b ↔ stands' k b) :
    FindsFirst stands' found? := by
  obtain rfl : stands = stands' := funext₂ fun k b => propext (hstands k b)
  exact h

/-- Where nothing stands, nothing is found. -/
theorem FindsFirst.nothing [LE κ] {stands : κ → β → Prop} (h : ∀ k b, ¬ stands k b) :
    FindsFirst stands none where
  least _ hb := by cases hb
  nowhere _ := h

/-- What is made of the thing that is found. -/
theorem FindsFirst.map [LE κ] {stands : κ → β → Prop} {found? : Option β}
    (h : FindsFirst stands found?) (f : β → γ) :
    FindsFirst (fun k c => ∃ b, stands k b ∧ f b = c) (found?.map f) where
  least c hc := by
    obtain ⟨b, hb, rfl⟩ := Option.map_eq_some_iff.1 hc
    obtain ⟨k, hk, hkb⟩ := h.least b hb
    refine ⟨k, ⟨⟨f b, b, hkb, rfl⟩, ?_⟩, b, hkb, rfl⟩
    rintro k' ⟨_, b', hb', -⟩
    exact hk.2 ⟨b', hb'⟩
  nowhere hnone := by
    rintro k _ ⟨b, hb, -⟩
    exact h.nowhere (Option.map_eq_none_iff.1 hnone) k b hb

/-! ## Lists in order -/

/-- **A list of all that stands anywhere**, by increasing places. -/
def ListsInOrder [LT κ] (stands : κ → β → Prop) (bs : List β) : Prop :=
  ∃ entries : List (κ × β), entries.map Prod.snd = bs
    ∧ entries.Pairwise (fun e e' => e.1 < e'.1) ∧ ∀ k b, (k, b) ∈ entries ↔ stands k b

namespace ListsInOrder

section Making

variable [LT κ] [LT κ'] {stands stands' : κ → β → Prop} {bs bs' : List β}

theorem congr (h : ListsInOrder stands bs) (hstands : ∀ k b, stands k b ↔ stands' k b) :
    ListsInOrder stands' bs := by
  obtain rfl : stands = stands' := funext₂ fun k b => propext (hstands k b)
  exact h

theorem nil (h : ∀ k b, ¬ stands k b) : ListsInOrder stands [] :=
  ⟨[], rfl, .nil, fun k b => iff_of_false List.not_mem_nil (h k b)⟩

/-- One thing more, before all others. -/
theorem cons (h : ListsInOrder stands bs) {k : κ} (b : β)
    (hk : ∀ k' b', stands k' b' → k < k') :
    ListsInOrder (fun k' b' => k' = k ∧ b' = b ∨ stands k' b') (b :: bs) := by
  obtain ⟨entries, rfl, hincreasing, hmem⟩ := h
  refine ⟨(k, b) :: entries, rfl, List.pairwise_cons.2 ⟨?_, hincreasing⟩, fun k' b' => ?_⟩
  · exact fun e he => hk e.1 e.2 ((hmem e.1 e.2).1 he)
  · rw [List.mem_cons, hmem, Prod.mk.injEq]

/-- Two lists, all places of the one before those of the other. -/
theorem append (h : ListsInOrder stands bs) (h' : ListsInOrder stands' bs')
    (hlt : ∀ k b k' b', stands k b → stands' k' b' → k < k') :
    ListsInOrder (fun k b => stands k b ∨ stands' k b) (bs ++ bs') := by
  obtain ⟨entries, rfl, hincreasing, hmem⟩ := h
  obtain ⟨entries', rfl, hincreasing', hmem'⟩ := h'
  refine ⟨entries ++ entries', List.map_append,
    List.pairwise_append.2 ⟨hincreasing, hincreasing', fun e he e' he' => ?_⟩, fun k b => ?_⟩
  · exact hlt e.1 e.2 e'.1 e'.2 ((hmem _ _).1 he) ((hmem' _ _).1 he')
  · rw [List.mem_append, hmem, hmem']

/-- The same list with other places, in the same order. -/
theorem moved (h : ListsInOrder stands bs) {f : κ → κ'} (hf : ∀ k k', k < k' → f k < f k') :
    ListsInOrder (fun k' b => ∃ k, k' = f k ∧ stands k b) bs := by
  obtain ⟨entries, rfl, hincreasing, hmem⟩ := h
  refine ⟨entries.map fun e => (f e.1, e.2), by simp,
    hincreasing.map _ fun e e' => hf e.1 e'.1, fun k' b => ?_⟩
  rw [List.mem_map]
  constructor
  · rintro ⟨⟨k, b⟩, he, heq⟩
    cases heq
    exact ⟨k, rfl, (hmem k b).1 he⟩
  · rintro ⟨k, rfl, hk⟩
    exact ⟨(k, b), (hmem k b).2 hk, rfl⟩

/-- What is picked out of a list keeps its places. -/
theorem filterMap (h : ListsInOrder stands bs) (f : β → Option γ) :
    ListsInOrder (fun k c => ∃ b, stands k b ∧ f b = some c) (bs.filterMap f) := by
  obtain ⟨entries, rfl, hincreasing, hmem⟩ := h
  refine ⟨entries.filterMap fun e => (f e.2).map fun c => (e.1, c), ?_, ?_, fun k c => ?_⟩
  · rw [List.map_filterMap, List.filterMap_map]
    refine List.filterMap_congr fun e _ => ?_
    rw [Option.map_map]
    exact Option.map_id'
  · refine hincreasing.filterMap _ fun e e' hlt x hx x' hx' => ?_
    obtain ⟨c, -, rfl⟩ := Option.map_eq_some_iff.1 hx
    obtain ⟨c', -, rfl⟩ := Option.map_eq_some_iff.1 hx'
    exact hlt
  · simp only [List.mem_filterMap, Option.map_eq_some_iff, Prod.mk.injEq, Prod.exists]
    constructor
    · rintro ⟨k, b, he, c, hc, rfl, rfl⟩
      exact ⟨b, (hmem k b).1 he, hc⟩
    · rintro ⟨b, hb, hc⟩
      exact ⟨k, b, (hmem k b).2 hb, c, hc, rfl, rfl⟩

/-- A list by the positions in it. -/
theorem positions (bs : List β) : ListsInOrder (fun (i : ℕ) b => bs[i]? = some b) bs := by
  induction bs with
  | nil => exact .nil fun i b h => by cases h
  | cons b bs ih =>
    have hmoved := ih.moved (f := Nat.succ) fun i j => Nat.succ_lt_succ
    have hcons := hmoved.cons (k := 0) b (by rintro _ b' ⟨i, rfl, -⟩; exact Nat.succ_pos i)
    refine hcons.congr fun i b' => ?_
    cases i with
    | zero => simp [eq_comm]
    | succ i => simp

end Making

/-- What is listed first stands first. -/
theorem findsFirst_head? [Preorder κ] {stands : κ → β → Prop} {bs : List β}
    (h : ListsInOrder stands bs) : FindsFirst stands bs.head? := by
  obtain ⟨entries, rfl, hincreasing, hmem⟩ := h
  cases entries with
  | nil => exact .nothing fun k b hb => List.not_mem_nil ((hmem k b).2 hb)
  | cons e entries =>
    have hfirst := (hmem e.1 e.2).1 List.mem_cons_self
    refine ⟨fun b hb => ?_, fun hnone => by cases hnone⟩
    obtain rfl : e.2 = b := Option.some.inj hb
    refine ⟨e.1, ⟨⟨e.2, hfirst⟩, ?_⟩, hfirst⟩
    rintro k' ⟨b', hb'⟩
    rcases List.mem_cons.1 ((hmem k' b').2 hb') with rfl | he
    · exact le_rfl
    · exact ((List.pairwise_cons.1 hincreasing).1 _ he).le

/-- The first thing in a list that yields something. -/
theorem findsFirst_findSome? [Preorder κ] {stands : κ → β → Prop} {bs : List β}
    (h : ListsInOrder stands bs) (f : β → Option γ) :
    FindsFirst (fun k c => ∃ b, stands k b ∧ f b = some c) (bs.findSome? f) := by
  rw [← List.head?_filterMap]
  exact (h.filterMap f).findsFirst_head?

/-- The first thing in a list that passes a test. -/
theorem findsFirst_find? [Preorder κ] {stands : κ → β → Prop} {bs : List β}
    (h : ListsInOrder stands bs) {P : β → Prop} {p : β → Bool} (hp : ∀ b, p b = true ↔ P b) :
    FindsFirst (fun k b => stands k b ∧ P b) (bs.find? p) := by
  rw [List.find?_eq_findSome?_guard]
  refine (h.findsFirst_findSome? _).congr fun k b => ?_
  simp [Option.guard_eq_some_iff, hp]

/-- **A search within a search**: what is found in the first thing of a list in which anything
is found. -/
theorem findsFirst_within [Preorder κ] [LE κ'] {stands : κ → α → Prop} {as : List α}
    (h : ListsInOrder stands as) {inner : α → κ' → β → Prop} {f : α → Option β}
    (hf : ∀ a ∈ as, FindsFirst (inner a) (f a)) :
    FindsFirst (fun (k : κ ×ₗ κ') b => ∃ a, stands (ofLex k).1 a ∧ inner a (ofLex k).2 b)
      (as.findSome? f) := by
  obtain ⟨entries, rfl, hincreasing, hmem⟩ := h
  have hsearch : ∀ e ∈ entries, FindsFirst (inner e.2) (f e.2) :=
    fun e he => hf e.2 (List.mem_map_of_mem he)
  rw [List.findSome?_map]
  constructor
  · intro b hb
    obtain ⟨before, ⟨i, a⟩, after, rfl, ha, hbefore⟩ := List.findSome?_eq_some_iff.1 hb
    have hafter := (List.pairwise_cons.1 (List.pairwise_append.1 hincreasing).2.1).1
    have hentry : (i, a) ∈ before ++ (i, a) :: after := by simp
    obtain ⟨k, hk, hkb⟩ := (hsearch _ hentry).least b ha
    have hstands := (hmem i a).1 hentry
    refine ⟨toLex (i, k), ⟨⟨b, a, hstands, hkb⟩, ?_⟩, a, hstands, hkb⟩
    rintro k' ⟨c, a', ha', hc⟩
    rw [Prod.Lex.le_iff]
    have hentry' := (hmem _ _).2 ha'
    -- before the thing nothing is found, and after it the keys are greater
    rcases List.mem_append.1 hentry' with hin | hin
    · exact absurd hc ((hsearch _ hentry').nowhere (hbefore _ hin) _ c)
    rcases List.mem_cons.1 hin with heq | hin
    · obtain ⟨hi, rfl⟩ := Prod.mk.inj heq
      exact .inr ⟨hi.symm, hk.2 ⟨c, hc⟩⟩
    · exact .inl (hafter _ hin)
  · intro hnone
    rintro k b ⟨a, ha, hb⟩
    have hentry := (hmem _ _).2 ha
    exact (hsearch _ hentry).nowhere (List.findSome?_eq_none_iff.1 hnone _ hentry) _ b hb

end ListsInOrder

/-! ## Searches by position -/

/-- A search in a list finds what stands first in it. -/
theorem findsFirst_findSome? (f : α → Option β) (as : List α) :
    FindsFirst (fun (i : ℕ) b => ∃ a, as[i]? = some a ∧ f a = some b) (as.findSome? f) :=
  (ListsInOrder.positions as).findsFirst_findSome? f

/-- What is found in the first thing of a list in which anything is found, by the position of the
thing. -/
theorem FindsFirst.findSome? [LE κ] {stands : α → κ → β → Prop} {f : α → Option β} {as : List α}
    (h : ∀ a ∈ as, FindsFirst (stands a) (f a)) :
    FindsFirst (fun (k : ℕ ×ₗ κ) b => ∃ a, as[(ofLex k).1]? = some a ∧ stands a (ofLex k).2 b)
      (as.findSome? f) :=
  (ListsInOrder.positions as).findsFirst_within h

/-- In a list that is in order, the first thing that passes a test is the least one. -/
theorem findsFirst_find?_of_pairwise [Preorder κ] {as : List κ} (h : as.Pairwise (· ≤ ·))
    (p : κ → Bool) (f : κ → β) :
    FindsFirst (fun k b => k ∈ as ∧ p k = true ∧ b = f k) ((as.find? p).map f) where
  least b hb := by
    obtain ⟨k, hk, rfl⟩ := Option.map_eq_some_iff.1 hb
    refine ⟨k, ⟨⟨f k, List.mem_of_find?_eq_some hk, List.find?_some hk, rfl⟩, ?_⟩,
      List.mem_of_find?_eq_some hk, List.find?_some hk, rfl⟩
    obtain ⟨hp, before, after, rfl, hbefore⟩ := List.find?_eq_some_iff_append.1 hk
    rintro k' ⟨-, hmem, hp', -⟩
    rcases List.mem_append.1 hmem with hmem | hmem
    · exact absurd hp' (by simpa using hbefore k' hmem)
    · rcases List.mem_cons.1 hmem with rfl | hmem
      · exact le_rfl
      · exact (List.pairwise_cons.1 (List.pairwise_append.1 h).2.1).1 k' hmem
  nowhere hnone := by
    rintro k b ⟨hmem, hp, -⟩
    exact List.find?_eq_none.1 (Option.map_eq_none_iff.1 hnone) k hmem hp

/-! ## Searches that may fail -/

/-- A search of which no step fails. -/
theorem findSomeM?_eq_ok {ε : Type} {f : α → Except ε (Option β)} {g : α → Option β} {as : List α}
    (h : ∀ a ∈ as, f a = .ok (g a)) : as.findSomeM? f = .ok (as.findSome? g) := by
  induction as with
  | nil => rfl
  | cons a as ih =>
    rw [List.findSomeM?, h a List.mem_cons_self, List.findSome?_cons]
    cases g a with
    | some b => rfl
    | none => exact ih fun a' ha' => h a' (List.mem_cons_of_mem a ha')

/-- A search of which a step fails stops before that step or there. -/
theorem findSomeM?_append_error {ε : Type} {f : α → Except ε (Option β)} {g : α → Option β}
    {before after : List α} {a : α} {e : ε} (h : ∀ a ∈ before, f a = .ok (g a))
    (ha : f a = .error e) :
    (before ++ a :: after).findSomeM? f
      = (before.findSome? g).elim (.error e) fun b => .ok (some b) := by
  induction before with
  | nil => rw [List.nil_append, List.findSomeM?, ha]; rfl
  | cons a' before ih =>
    rw [List.cons_append, List.findSomeM?, h a' List.mem_cons_self, List.findSome?_cons]
    cases g a' with
    | some b => rfl
    | none => exact ih fun a'' ha'' => h a'' (List.mem_cons_of_mem a' ha'')

end Searches

end ComponentCatalog
