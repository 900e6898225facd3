import ComponentCatalog.Proofs.YamlMerging

/-!
# The end of building values

A collection is begun where it is met, and waits until those that were met before it are complete.
So there is a list of what is left to do, and it grows while it is worked off. But a node is met
only once. The collections that wait and the nodes that have not been met are together never more
than the nodes (`Builder.left`), which is the limit for completing collections.

What is kept all the time is that a collection which is not complete waits, and that all parts of a
complete one have been met (`Builder.Sound`). In the end nothing waits. Then every value is
complete, and so are the values that it is made of (`finishes`).
-/

namespace ComponentCatalog.Yaml

/-- The nodes whose values a value is made of. -/
def Object.parts : Object → List Nat
  | .begun => []
  | .scalar _ => []
  | .list items => items
  | .entries pairs => pairs.flatMap fun e => [e.1, e.2]
  | .mapping pairs => pairs.flatMap fun e => [e.1, e.2]
  | .set pairs => pairs.flatMap fun e => [e.1, e.2]

namespace Builder

/-- **A node has been met.** There is nothing to be met where there is no node. -/
def Met (s : Builder) (i : Nat) : Prop :=
  i < s.objects.size → ∃ o, s.objects[i]? = some (some o)

/-- How much is left to do at most: the collections that wait and the nodes that have not been
met. -/
def left (s : Builder) : Nat :=
  s.waiting.length + s.objects.toList.countP Option.isNone

/-- **What is kept while values are built.** What is not complete waits, but for some nodes, and
the parts of what is complete have been met. -/
structure Sound (working : Nat → Prop) (s : Builder) : Prop where
  size : s.objects.size = s.nodes.size
  begun (i : Nat) (h : s.objects[i]? = some (some .begun)) : i ∈ s.waiting ∨ working i
  parts (i : Nat) (o : Object) (h : s.objects[i]? = some (some o)) : ∀ j ∈ o.parts, s.Met j

/-- **One state comes after another**: whatever had been met still has, and no more is left. -/
structure Before (s t : Builder) : Prop where
  met (i : Nat) : s.Met i → t.Met i
  left : t.left ≤ s.left

theorem Before.refl (s : Builder) : s.Before s :=
  ⟨fun _ h => h, le_rfl⟩

theorem Before.trans {s t u : Builder} (hst : s.Before t) (htu : t.Before u) : s.Before u :=
  ⟨fun i h => htu.met i (hst.met i h), htu.left.trans hst.left⟩

/-! ## Values that are set -/

/-- The state in which the value of a node is set. -/
def setObject (s : Builder) (i : Nat) (o : Object) : Builder :=
  { s with objects := s.objects.setIfInBounds i (some o) }

section SetObject

variable {s : Builder} {i : Nat} {o : Object}

theorem objects_setObject (s : Builder) (i : Nat) (o : Object) (j : Nat) :
    (s.setObject i o).objects[j]? =
      if i = j ∧ i < s.objects.size then some (some o) else s.objects[j]? := by
  unfold setObject
  rw [Array.getElem?_setIfInBounds]
  split
  · next h =>
    subst h
    split <;> simp_all
  · next h => simp [h]

@[simp] theorem size_setObject (s : Builder) (i : Nat) (o : Object) :
    (s.setObject i o).objects.size = s.objects.size := by
  simp [setObject]

/-- A node whose value is set has been met. -/
theorem met_setObject_self (s : Builder) (i : Nat) (o : Object) : (s.setObject i o).Met i := by
  intro hi
  rw [size_setObject] at hi
  exact ⟨o, by rw [objects_setObject, if_pos ⟨rfl, hi⟩]⟩

/-- So have those that had been. -/
theorem met_setObject (s : Builder) (i : Nat) (o : Object) {j : Nat} (h : s.Met j) :
    (s.setObject i o).Met j := by
  intro hj
  rw [size_setObject] at hj
  rw [objects_setObject]
  split
  · exact ⟨o, rfl⟩
  · exact h hj

/-- Setting a value leaves no more nodes that have not been met. -/
theorem countP_set_le {α : Type} (l : List (Option α)) (i : Nat) (a : α) :
    (l.set i (some a)).countP Option.isNone ≤ l.countP Option.isNone := by
  induction l generalizing i with
  | nil => exact le_rfl
  | cons b l ih =>
    cases i with
    | zero =>
      rw [List.set_cons_zero, List.countP_cons, List.countP_cons]
      simp
    | succ i =>
      rw [List.set_cons_succ, List.countP_cons, List.countP_cons]
      exact Nat.add_le_add_right (ih i) _

/-- If a node had not been met, there is one less of those. -/
theorem countP_set_lt {α : Type} {l : List (Option α)} {i : Nat} (h : l[i]? = some none) (a : α) :
    (l.set i (some a)).countP Option.isNone + 1 = l.countP Option.isNone := by
  induction l generalizing i with
  | nil => simp at h
  | cons b l ih =>
    cases i with
    | zero =>
      obtain rfl : b = none := by simpa using h
      rw [List.set_cons_zero, List.countP_cons, List.countP_cons]
      simp
    | succ i =>
      rw [List.set_cons_succ, List.countP_cons, List.countP_cons, ← ih (by simpa using h)]
      omega

theorem before_setObject (s : Builder) (i : Nat) (o : Object) : s.Before (s.setObject i o) where
  met _ := met_setObject s i o
  left := by
    unfold left setObject
    rw [Array.toList_setIfInBounds]
    exact Nat.add_le_add_left (countP_set_le _ _ _) _

/-- A collection is complete when its parts have been met. -/
theorem sound_setObject {working : Nat → Prop} (hs : s.Sound fun j => working j ∨ j = i)
    (ho : o ≠ .begun) (hparts : ∀ j ∈ o.parts, s.Met j) :
    (s.setObject i o).Sound working where
  size := (size_setObject s i o).trans hs.size
  begun j hj := by
    rw [objects_setObject] at hj
    split at hj
    · exact absurd (Option.some.inj (Option.some.inj hj)) ho
    · next hne =>
      rcases hs.begun j hj with hw | hw | rfl
      · exact .inl hw
      · exact .inr hw
      · have hlt : j < s.objects.size := (Array.getElem?_eq_some_iff.1 hj).1
        exact absurd ⟨rfl, hlt⟩ hne
  parts j o' hj := by
    rw [objects_setObject] at hj
    have hmet : ∀ k ∈ o'.parts, s.Met k := by
      split at hj
      · cases hj
        exact hparts
      · exact hs.parts j o' hj
    exact fun k hk => met_setObject s i o (hmet k hk)

end SetObject

/-! ## Collections that are begun -/

section Begin

variable {s : Builder} {i : Nat} {working : Nat → Prop}

/-- The state in which a collection has been begun. -/
def begin (s : Builder) (i : Nat) : Builder :=
  { s.setObject i .begun with waiting := s.waiting ++ [i] }

/-- A collection that has been begun waits. -/
theorem sound_begin (hs : s.Sound working) (i : Nat) : (s.begin i).Sound working where
  size := (size_setObject s i .begun).trans hs.size
  begun j hj := by
    have hj : (s.setObject i .begun).objects[j]? = some (some .begun) := hj
    rw [objects_setObject] at hj
    split at hj
    · next h => exact .inl (h.1 ▸ List.mem_append_right _ (List.mem_singleton_self i))
    · exact (hs.begun j hj).imp_left (List.mem_append_left _)
  parts j o hj := by
    have hj : (s.setObject i .begun).objects[j]? = some (some o) := hj
    rw [objects_setObject] at hj
    split at hj
    · cases hj
      exact fun k hk => absurd hk List.not_mem_nil
    · exact fun k hk => met_setObject s i .begun (hs.parts j o hj k hk)

/-- It was not met before, so that no more is left. -/
theorem before_begin (h : s.objects[i]? = some none) : s.Before (s.begin i) where
  met _ := met_setObject s i .begun
  left := by
    have hnone : s.objects.toList[i]? = some none := by rwa [Array.getElem?_toList]
    have hless := countP_set_lt hnone Object.begun
    unfold left begin setObject
    rw [Array.toList_setIfInBounds, List.length_append, List.length_singleton]
    omega

end Begin

end Builder

namespace Build

open Builder

/-- **What a builder does from a state on**: unless it fails, it leaves a sound state. -/
def Does (working : Nat → Prop) (s : Builder) {α : Type} (m : Build α)
    (post : α → Builder → Prop) : Prop :=
  Outcome (fun r => r.2.Sound working ∧ s.Before r.2 ∧ post r.1 r.2) (fun _ => True) (m s)

section Does

variable {working working' : Nat → Prop} {s : Builder} {α β : Type} {post : α → Builder → Prop}
  {post' : β → Builder → Prop} {i : Nat}

theorem Does.pure {a : α} (hs : s.Sound working) (h : post a s) :
    Does working s (Pure.pure a) post :=
  ⟨hs, .refl s, h⟩

/-- Two builders, one after the other. -/
theorem Does.bind {m : Build α} {k : α → Build β} (hm : Does working s m post)
    (hk : ∀ a t, t.Sound working → s.Before t → post a t → Does working' t (k a) post') :
    Does working' s (m >>= k) post' :=
  Outcome.bind hm fun r ⟨hsound, hbefore, hpost⟩ =>
    (hk r.1 r.2 hsound hbefore hpost).imp
      (fun _ ⟨h, hlater, h'⟩ => ⟨h, hbefore.trans hlater, h'⟩) fun _ h => h

/-- What is done may be said in other words. -/
theorem Does.imp {post' : α → Builder → Prop} {m : Build α} (hm : Does working s m post)
    (h : ∀ a t, t.Sound working → s.Before t → post a t → post' a t) : Does working s m post' :=
  Outcome.imp hm
    (fun r ⟨hsound, hbefore, hpost⟩ => ⟨hsound, hbefore, h r.1 r.2 hsound hbefore hpost⟩)
    fun _ h => h

theorem Does.fault (f : Fault) : Does working s (throw f : Build α) post :=
  trivial

/-- The state is what it is. -/
theorem Does.get_bind {k : Builder → Build α} (h : Does working s (k s) post) :
    Does working s (get >>= k) post :=
  h

/-- What may fail and does not depend on the state. -/
theorem Does.lift_bind {r : Except Fault α} {k : α → Build β}
    (h : ∀ a, r = .ok a → Does working s (k a) post') :
    Does working s ((liftM r : Build α) >>= k) post' := by
  cases r with
  | error f => exact trivial
  | ok a => exact h a rfl

/-- A state that is changed comes before what is done then. -/
theorem Does.modify_bind {f : Builder → Builder} {k : PUnit → Build α} (hf : s.Before (f s))
    (h : Does working (f s) (k ⟨⟩) post) : Does working s (modify f >>= k) post :=
  Outcome.imp h (fun _ ⟨hr, hbefore, hpost⟩ => ⟨hr, hf.trans hbefore, hpost⟩) fun _ h => h

/-- One after the other, where what has been reached by each is kept by the others. -/
theorem Does.forM {f : α → Build PUnit} {kept : α → Builder → Prop}
    (hkept : ∀ a s t, s.Before t → kept a s → kept a t)
    (hf : ∀ a s, s.Sound working → Does working s (f a) fun _ t => kept a t) (l : List α)
    (hs : s.Sound working) : Does working s (l.forM f) fun _ t => ∀ a ∈ l, kept a t := by
  induction l generalizing s with
  | nil => exact .pure hs fun _ h => absurd h List.not_mem_nil
  | cons a l ih =>
    refine (hf a s hs).bind fun _ t ht _ ha => ?_
    exact (ih ht).imp fun _ u _ hbefore hl =>
      List.forall_mem_cons.2 ⟨hkept a t u hbefore ha, hl⟩

theorem Does.mapM {f : α → Build β} (hkept : ∀ b s t, s.Before t → post' b s → post' b t)
    (hf : ∀ a s, s.Sound working → Does working s (f a) post') (l : List α)
    (hs : s.Sound working) : Does working s (l.mapM f) fun bs t => ∀ b ∈ bs, post' b t := by
  induction l generalizing s with
  | nil => exact .pure hs fun _ h => absurd h List.not_mem_nil
  | cons a l ih =>
    rw [List.mapM_cons]
    refine (hf a s hs).bind fun b t ht _ hb => (ih ht).bind fun bs u hu hbefore hbs => ?_
    exact .pure hu (List.forall_mem_cons.2 ⟨hkept b t u hbefore hb, hbs⟩)

/-- The value of a node is set. -/
theorem does_put {o : Object} (hs : s.Sound fun j => working j ∨ j = i) (ho : o ≠ .begun)
    (hparts : ∀ j ∈ o.parts, s.Met j) : Does working s (put i o) fun _ t => t.Met i :=
  ⟨sound_setObject hs ho hparts, before_setObject s i o, met_setObject_self s i o⟩

/-! ## One step -/

/-- **A node that is met has been met.** -/
theorem does_meet (hs : s.Sound working) (i : Nat) :
    Does working s (meet i) fun _ t => t.Met i := by
  refine .get_bind ?_
  split
  · next h =>
    obtain ⟨o, ho⟩ := Option.isSome_iff_exists.1 h
    exact .pure hs fun _ => ⟨o, Option.join_eq_some_iff.1 ho⟩
  · next h =>
    have hnone (hi : i < s.objects.size) : s.objects[i]? = some none := by
      rw [Array.getElem?_eq_getElem hi] at h ⊢
      simpa using h
    split
    · next htag =>
      have hi : i < s.objects.size := by
        rw [hs.size]
        refine Nodes.lt_size_of_tag_ne_null fun hnull => ?_
        rw [hnull] at htag
        cases htag
      exact ⟨sound_begin hs i, before_begin (hnone hi), met_setObject_self s i .begun⟩
    · refine .lift_bind fun v _ => does_put ⟨hs.size, fun j hj => ?_, hs.parts⟩
        Object.noConfusion fun _ hj => absurd hj List.not_mem_nil
      exact (hs.begun j hj).imp_right .inl

theorem does_meetPair (hs : s.Sound working) (e : Nat × Nat) :
    Does working s (meetPair e) fun _ t => t.Met e.1 ∧ t.Met e.2 := by
  refine (does_meet hs e.1).bind fun _ t ht _ hkey => .get_bind ?_
  split
  · exact .fault .malformed
  · exact (does_meet ht e.2).imp fun _ _ _ hbefore hvalue => ⟨hbefore.met _ hkey, hvalue⟩

/-- The nodes of the pairs of a mapping are met. -/
theorem does_completePairs (hs : s.Sound working) (hi : s.nodes.isMapping i = true) :
    Does working s (completePairs i) fun pairs t => ∀ e ∈ pairs, t.Met e.1 ∧ t.Met e.2 := by
  refine .get_bind (.lift_bind fun g hg => ?_)
  have hmerged := (Nodes.merges (3 * s.nodes.mergeCount + 3)).flatten i s.nodes hi
  rw [hg] at hmerged
  have hsize : g.size = s.nodes.size := hmerged.1.size
  have ht : Builder.Sound working { s with nodes := g } :=
    ⟨hs.size.trans hsize.symm, hs.begun, hs.parts⟩
  refine .modify_bind ⟨fun _ h => h, le_rfl⟩ ?_
  exact (Does.forM (fun e _ _ hbefore => .imp (hbefore.met e.1) (hbefore.met e.2))
    (fun e _ hs => does_meetPair hs e) (g.pairs i) ht).bind fun _ t ht _ hmet => .pure ht hmet

/-- So are those of an entry. -/
theorem does_completeEntry (hs : s.Sound working) (j : Nat) :
    Does working s (completeEntry j) fun e t => t.Met e.1 ∧ t.Met e.2 := by
  refine .get_bind ?_
  split
  · next e _ =>
    refine (does_meet hs e.1).bind fun _ t ht _ hkey => (does_meet ht e.2).bind ?_
    exact fun _ u hu hbefore hvalue => .pure hu ⟨hbefore.met _ hkey, hvalue⟩
  · exact .fault .malformed

/-- **A collection becomes complete.** -/
theorem does_complete (hs : s.Sound fun j => working j ∨ j = i) :
    Does working s (complete i) fun _ _ => True := by
  have hput {o : Object} {t : Builder} (ht : t.Sound fun j => working j ∨ j = i) (ho : o ≠ .begun)
      (hparts : ∀ j ∈ o.parts, t.Met j) : Does working t (put i o) fun _ _ => True :=
    (does_put ht ho hparts).imp fun _ _ _ _ _ => trivial
  have hpairs {pairs : List (Nat × Nat)} {t : Builder} (h : ∀ e ∈ pairs, t.Met e.1 ∧ t.Met e.2) :
      ∀ j ∈ pairs.flatMap fun e => [e.1, e.2], t.Met j := by
    intro j hj
    obtain ⟨e, he, hj⟩ := List.mem_flatMap.1 hj
    rcases List.mem_pair.1 hj with rfl | rfl
    · exact (h e he).1
    · exact (h e he).2
  have hentries (items : List Nat) := Does.mapM
    (fun (e : Nat × Nat) _ _ hbefore => .imp (hbefore.met e.1) (hbefore.met e.2))
    (fun j _ hs => does_completeEntry hs j) items hs
  refine .get_bind ?_
  dsimp only
  split
  · exact (Does.forM (fun j _ _ hbefore => hbefore.met j) (fun j _ hs => does_meet hs j) _ hs).bind
      fun _ t ht _ hmet => hput ht Object.noConfusion hmet
  · exact (hentries _).bind fun _ t ht _ hmet => hput ht Object.noConfusion (hpairs hmet)
  · exact (hentries _).bind fun _ t ht _ hmet => hput ht Object.noConfusion (hpairs hmet)
  · next hi =>
    exact (does_completePairs hs (by rw [Nodes.isMapping, hi])).bind
      fun _ t ht _ hmet => hput ht Object.noConfusion (hpairs hmet)
  · next hi =>
    exact (does_completePairs hs (by rw [Nodes.isMapping, hi])).bind
      fun _ t ht _ hmet => hput ht Object.noConfusion (hpairs hmet)
  · exact .fault .malformed

/-! ## All steps -/

/-- **Everything becomes complete** if the limit is what is left to do. The induction is on the
limit: a collection is taken from what is left, and completing it leaves no more than that. -/
theorem does_completeAll (limit : Nat) (hs : s.Sound fun _ => False) (hleft : s.left ≤ limit) :
    Does (fun _ => False) s (completeAll limit) fun _ t => t.waiting = [] := by
  induction limit generalizing s with
  | zero =>
    refine .pure hs (List.eq_nil_of_length_eq_zero ?_)
    unfold Builder.left at hleft
    omega
  | succ limit ih =>
    refine .get_bind ?_
    split
    · next hempty => exact .pure hs hempty
    · next i waiting hwaiting =>
      have hless : Builder.left { s with waiting } + 1 = s.left := by
        simp only [Builder.left, hwaiting, List.length_cons]
        omega
      have ht : Builder.Sound (fun j => False ∨ j = i) { s with waiting } := by
        refine ⟨hs.size, fun j hj => ?_, hs.parts⟩
        have hmem := (hs.begun j hj).resolve_right not_false
        rw [hwaiting] at hmem
        rcases List.mem_cons.1 hmem with rfl | hmem
        · exact .inr (.inr rfl)
        · exact .inl hmem
      refine .modify_bind ⟨fun _ h => h, hless.le.trans' (Nat.le_succ _)⟩ ?_
      refine (does_complete ht).bind fun _ t ht hbefore _ => ih ht ?_
      have := hbefore.left
      omega

end Does

/-! ## The end -/

/-- **A value has been built**: nothing waits, and each value is complete, with what it is made
of. -/
structure Finished (root : Nat) (s : Builder) : Prop where
  waiting : s.waiting = []
  root : s.Met root
  begun (i : Nat) : s.objects[i]? ≠ some (some .begun)
  parts (i : Nat) (o : Object) (h : s.objects[i]? = some (some o)) : ∀ j ∈ o.parts, s.Met j

/-- Nothing has been met at the beginning. -/
theorem objects_start (n i : Nat) (o : Object) :
    (Array.replicate n (none : Option Object))[i]? ≠ some (some o) := by
  rw [Array.getElem?_replicate]
  split <;> simp

theorem sound_start (g : Nodes) :
    Builder.Sound (fun _ => False) { nodes := g, objects := Array.replicate g.size none } where
  size := Array.size_replicate
  begun i h := absurd h (objects_start g.size i .begun)
  parts i o h := absurd h (objects_start g.size i o)

/-- There is one thing to do for each node at most. -/
theorem left_start (g : Nodes) :
    Builder.left { nodes := g, objects := Array.replicate g.size none } = g.size := by
  simp [Builder.left, List.countP_replicate]

/-- **Building the value of a document comes to its end.** -/
theorem finishes (d : Document) :
    Outcome (fun r => Finished d.root r.2) (fun _ => True)
      ((do meet d.root; completeAll d.nodes.size : Build Unit).run
        { nodes := d.nodes, objects := Array.replicate d.nodes.size none }) := by
  have hdoes : Does (fun _ => False)
      { nodes := d.nodes, objects := Array.replicate d.nodes.size none }
      (meet d.root >>= fun _ => completeAll d.nodes.size) fun _ u => Finished d.root u := by
    refine (does_meet (sound_start d.nodes) d.root).bind fun _ t ht hbefore hroot => ?_
    refine (does_completeAll d.nodes.size ht (hbefore.left.trans (left_start d.nodes).le)).imp ?_
    refine fun _ u hu hlater hwaiting => ⟨hwaiting, hlater.met _ hroot, fun i hi => ?_, hu.parts⟩
    have hmem := (hu.begun i hi).resolve_right not_false
    rw [hwaiting] at hmem
    exact absurd hmem List.not_mem_nil
  exact Outcome.imp hdoes (fun _ h => h.2.2) fun _ h => h

end Build

end ComponentCatalog.Yaml
