import ComponentCatalog.Proofs.Searches
import ComponentCatalog.Syntax.Tree

/-!
# The walk lists a tree in document order

`Node.walk` takes trees off a stack and puts their children in their place;
`Node.preorder` goes down the tree by recursion. The two lists are the same. What
makes them so is said of the stack as a whole: at any moment the walk still owes
the nodes of the trees on its stack, one tree after the other, and nothing else.

So whatever is picked out of the nodes of a kind is picked out of the tree in document
order (`Tree.filterMap_ofKind`). The walk that remembers the parents of the
nodes is described in the same way, by `Node.occurrences`.

Two nodes of a tree may be equal, so that a node is listed once is not to be said of the node but
of the place where it stands. That is its *address* (`Node.at?`), the way down to it from the root
by the numbers of the children. Addresses are compared number by number, the shorter one coming
first if the other goes on from it: what stands above comes before what stands below it, and what
stands on the left before what stands on the right. A tree has each of its addresses listed once,
in this order (`Node.listsInOrder_walk`).
-/

namespace ComponentCatalog.Syntax.Node

theorem preorderAll_append (ns ms : List Node) :
    preorderAll (ns ++ ms) = preorderAll ns ++ preorderAll ms := by
  induction ns with
  | nil => rfl
  | cons n ns ih => rw [List.cons_append, preorderAll, preorderAll, ih, List.append_assoc]

/-- A node comes before all that is in it. -/
theorem preorder_eq_cons (n : Node) : preorder n = n :: preorderAll n.children := by
  cases n
  rw [preorder]
  rfl

/-- **What the walk still owes**: the nodes listed so far, and then those of the
trees on the stack. -/
theorem walkFrom_eq (done stack : List Node) :
    walkFrom done stack = done.reverse ++ preorderAll stack := by
  fun_induction walkFrom done stack with
  | case1 done => rw [preorderAll, List.append_nil]
  | case2 done n rest ih =>
    rw [ih, preorderAll_append, preorderAll, preorder_eq_cons, List.reverse_cons,
      List.append_assoc]
    rfl

/-- The walk of a tree is its nodes in document order. -/
theorem walk_eq_preorder (n : Node) : n.walk = n.preorder := by
  rw [walk, walkFrom_eq, preorderAll, preorderAll, List.append_nil]
  rfl

/-! ## Parents -/

mutual

/-- The node and its descendants in document order, each with the node it is a child of; the
node itself with the one that is given. -/
def occurrences (parent? : Option Node) : Node → List (Option Node × Node)
  | mk k r s e cs => (parent?, mk k r s e cs) :: occurrencesAll (some (mk k r s e cs)) cs

/-- The nodes of several trees that are children of one node, with their parents. -/
def occurrencesAll (parent? : Option Node) : List Node → List (Option Node × Node)
  | [] => []
  | n :: ns => occurrences parent? n ++ occurrencesAll parent? ns

end

/-- A node occurs before all that is in it, and its children have it for a parent. -/
theorem occurrences_eq_cons (parent? : Option Node) (n : Node) :
    occurrences parent? n = (parent?, n) :: occurrencesAll (some n) n.children := by
  cases n
  rw [occurrences]
  rfl

/-- Several nodes occur one after the other, all in the same place. -/
theorem occurrencesAll_eq_flatMap (parent? : Option Node) (ns : List Node) :
    occurrencesAll parent? ns
      = (ns.map fun n => (parent?, n)).flatMap fun e => occurrences e.1 e.2 := by
  induction ns with
  | nil => rfl
  | cons n ns ih => rw [occurrencesAll, List.map_cons, List.flatMap_cons, ih]

/-- What the walk with parents still owes. -/
theorem walkWithParents_eq (done stack : List (Option Node × Node)) :
    walkWithParents done stack
      = done.reverse ++ stack.flatMap fun e => occurrences e.1 e.2 := by
  fun_induction walkWithParents done stack with
  | case1 done => rw [List.flatMap_nil, List.append_nil]
  | case2 done p n rest ih =>
    rw [ih, List.flatMap_append, List.flatMap_cons, occurrences_eq_cons,
      occurrencesAll_eq_flatMap, List.reverse_cons, List.append_assoc]
    rfl

mutual

/-- Without their parents, the occurrences are the nodes. -/
theorem map_snd_occurrences (parent? : Option Node) :
    (n : Node) → (occurrences parent? n).map Prod.snd = preorder n
  | mk k r s e cs => by
    rw [occurrences, preorder, List.map_cons, map_snd_occurrencesAll]

/-- Without what they are in, the nodes that occur are those in document order. -/
theorem map_snd_occurrencesAll (parent? : Option Node) :
    (ns : List Node) → (occurrencesAll parent? ns).map Prod.snd = preorderAll ns
  | [] => rfl
  | n :: ns => by
    rw [occurrencesAll, preorderAll, List.map_append, map_snd_occurrences,
      map_snd_occurrencesAll]

end

/-! ## Addresses -/

/-- **The node at an address**, if the address leads to one. -/
def at? (n : Node) : List ℕ → Option Node
  | [] => some n
  | i :: p => n.children[i]?.bind fun c => c.at? p

/-- A node with its parent, as they occur at an address; the parent of the root is given. -/
def OccursAt (parent? : Option Node) (n : Node) (p : List ℕ) (e : Option Node × Node) : Prop :=
  n.at? p = some e.2 ∧ e.1 = if p = [] then parent? else n.at? p.dropLast

theorem occursAt_nil_iff {parent? : Option Node} {n : Node} {e : Option Node × Node} :
    OccursAt parent? n [] e ↔ e = (parent?, n) := by
  rw [OccursAt, if_pos rfl, at?, Option.some.injEq, Prod.ext_iff, and_comm]
  exact and_congr_right fun _ => eq_comm

/-- Below the root, an address leads into a child, and to what occurs in it. -/
theorem occursAt_cons_iff {parent? : Option Node} {n : Node} {i : ℕ} {p : List ℕ}
    {e : Option Node × Node} :
    OccursAt parent? n (i :: p) e ↔ ∃ c, n.children[i]? = some c ∧ OccursAt (some n) c p e := by
  unfold OccursAt
  rw [if_neg (List.cons_ne_nil i p), at?]
  cases hc : n.children[i]? with
  | none => simp
  | some c => cases p <;> simp [at?, hc]

mutual

/-- **The occurrences of a tree are in document order**, and all of them are listed. -/
theorem listsInOrder_occurrences (parent? : Option Node) :
    (n : Node) → ListsInOrder (OccursAt parent? n) (occurrences parent? n)
  | mk k r s e cs => by
    have hbelow := listsInOrder_occurrencesAll (some (mk k r s e cs)) 0 cs
    rw [occurrences]
    refine (hbelow.cons (k := []) _ ?_).congr fun p x => ?_
    · rintro _ x ⟨i, q, c, rfl, -⟩
      exact List.nil_lt_cons _ _
    · cases p with
      | nil => simp [occursAt_nil_iff]
      | cons i p => simp [occursAt_cons_iff, children]

/-- The same of several trees that are children of one node, the first of them having a given
number. -/
theorem listsInOrder_occurrencesAll (parent? : Option Node) (k : ℕ) :
    (ns : List Node) → ListsInOrder
      (fun p e => ∃ i q c, p = (k + i) :: q ∧ ns[i]? = some c ∧ OccursAt parent? c q e)
      (occurrencesAll parent? ns)
  | [] => .nil fun p e => by simp
  | n :: ns => by
    have hfirst := (listsInOrder_occurrences parent? n).moved (f := (k :: ·))
      fun _ _ h => List.cons_lt_cons_iff.2 (.inr ⟨rfl, h⟩)
    have hrest := listsInOrder_occurrencesAll parent? (k + 1) ns
    rw [occurrencesAll]
    refine (hfirst.append hrest ?_).congr fun p e => ?_
    · -- the first tree has a smaller number than the others, whatever the way goes on like
      rintro _ e _ e' ⟨p, rfl, -⟩ ⟨i, q, c, rfl, -⟩
      exact List.cons_lt_cons_iff.2 (.inl (by omega))
    · constructor
      · rintro (⟨q, rfl, hq⟩ | ⟨i, q, c, rfl, hc, hq⟩)
        · exact ⟨0, q, n, rfl, rfl, hq⟩
        · exact ⟨i + 1, q, c, by rw [Nat.add_assoc, Nat.add_comm 1 i], hc, hq⟩
      · rintro ⟨i, q, c, rfl, hc, hq⟩
        cases i with
        | zero => exact .inl ⟨q, rfl, Option.some.inj hc ▸ hq⟩
        | succ i => exact .inr ⟨i, q, c, by rw [Nat.add_assoc, Nat.add_comm 1 i], hc, hq⟩

end

/-- Nodes in document order are listed by their places. -/
theorem listsInOrder_preorder (n : Node) :
    ListsInOrder (fun p m => n.at? p = some m) n.preorder := by
  rw [← map_snd_occurrences none n, ← List.filterMap_eq_map]
  refine ((listsInOrder_occurrences none n).filterMap _).congr fun p m => ?_
  constructor
  · rintro ⟨e, he, hm⟩
    exact he.1.trans hm
  · intro hm
    exact ⟨(_, m), ⟨hm, rfl⟩, rfl⟩

/-- **The walk lists every node once, in document order.** -/
theorem listsInOrder_walk (n : Node) : ListsInOrder (fun p m => n.at? p = some m) n.walk := by
  rw [walk_eq_preorder]
  exact n.listsInOrder_preorder

/-- So it is with the nodes of some kinds. -/
theorem listsInOrder_ofKinds (n : Node) (kinds : List Kind) :
    ListsInOrder (fun p m => n.at? p = some m ∧ m.isNamed = true ∧ m.kind ∈ kinds)
      (n.ofKinds kinds) := by
  unfold ofKinds
  rw [← List.filterMap_eq_filter]
  refine (n.listsInOrder_walk.filterMap _).congr fun p m => ?_
  simp [Option.guard_eq_some_iff]

end ComponentCatalog.Syntax.Node

namespace ComponentCatalog.Syntax

/-- The nodes of a kind are taken from the tree in document order. -/
theorem Tree.filterMap_ofKind {α : Type} (t : Tree) {k : Kind} (hk : k.isNamed = true)
    (f : Node → Option α) :
    (t.ofKinds [k]).filterMap f
      = t.root.preorder.filterMap fun n => if n.kind = k then f n else none := by
  unfold Tree.ofKinds Node.ofKinds
  rw [Node.walk_eq_preorder, List.filterMap_filter]
  refine congrArg (List.filterMap · t.root.preorder) (funext fun n => ?_)
  by_cases hn : n.kind = k
  · rw [if_pos (by simp [hn, Node.isNamed, hk]), if_pos hn]
  · rw [if_neg (by simp [hn]), if_neg hn]

end ComponentCatalog.Syntax
