import ComponentCatalog.Document
import Mathlib.Data.List.Forall2
import Mathlib.Data.List.Nodup
import Mathlib.Data.List.Sublists

/-!
# The first of each name

Wherever several things of one name compete, the first one wins: members of a
declaration, properties of a type and of the types it extends, events, style
classes. All of these go through `firstOfEachName`, which carries along the names
it has met.

What it keeps is a sublist, with distinct names, in which every name still stands
for what it stood for first. Where the things come out of a longer list, some places
of which give nothing, what is kept is told by the places: `PicksFirst` says that a
list holds what the places give at which a name is met first, in their order, and
nothing else.
-/

namespace ComponentCatalog

section FirstOfEachName

variable {α : Type} (name : α → String)

/-- The order stays as it was. -/
theorem firstOfEachName_sublist (seen : List String) (as : List α) :
    (firstOfEachName name seen as).Sublist as := by
  induction as generalizing seen with
  | nil => exact .slnil
  | cons a as ih =>
    rw [firstOfEachName]
    split
    · exact (ih seen).cons a
    · exact (ih (name a :: seen)).cons_cons a

theorem mem_of_mem_firstOfEachName {seen : List String} {as : List α} {a : α}
    (h : a ∈ firstOfEachName name seen as) : a ∈ as :=
  (firstOfEachName_sublist name seen as).subset h

/-- A name that has been met is not kept again. -/
theorem not_mem_seen_of_mem_firstOfEachName {seen : List String} {as : List α} {a : α}
    (h : a ∈ firstOfEachName name seen as) : name a ∉ seen := by
  induction as generalizing seen with
  | nil => cases h
  | cons b as ih =>
    rw [firstOfEachName] at h
    split at h
    · exact ih h
    · next hb =>
      rcases List.mem_cons.1 h with rfl | h
      · simpa using hb
      · exact fun hs => ih h (List.mem_cons_of_mem _ hs)

/-- What is kept has distinct names. -/
theorem nodup_map_firstOfEachName (seen : List String) (as : List α) :
    ((firstOfEachName name seen as).map name).Nodup := by
  induction as generalizing seen with
  | nil => exact List.nodup_nil
  | cons a as ih =>
    rw [firstOfEachName]
    split
    · exact ih seen
    · rw [List.map_cons, List.nodup_cons]
      refine ⟨fun h => ?_, ih _⟩
      obtain ⟨b, hb, hab⟩ := List.mem_map.1 h
      exact not_mem_seen_of_mem_firstOfEachName name hb (hab ▸ List.mem_cons_self)

/-- It only matters which names have been met, not in which order. -/
theorem firstOfEachName_congr {seen seen' : List String} (h : ∀ n, n ∈ seen ↔ n ∈ seen')
    (as : List α) : firstOfEachName name seen as = firstOfEachName name seen' as := by
  induction as generalizing seen seen' with
  | nil => rfl
  | cons a as ih =>
    have hcontains : seen.contains (name a) = seen'.contains (name a) := by
      rw [Bool.eq_iff_iff, List.contains_iff_mem, List.contains_iff_mem, h]
    have hcons : ∀ n, n ∈ name a :: seen ↔ n ∈ name a :: seen' := fun n => by
      rw [List.mem_cons, List.mem_cons, h n]
    rw [firstOfEachName, firstOfEachName, hcontains, ih h, ih hcons]

/-- Every name that had not been met stands for what it stood for first. -/
theorem find?_firstOfEachName {seen : List String} {n : String} (hn : n ∉ seen)
    (as : List α) :
    (firstOfEachName name seen as).find? (fun a => name a == n)
      = as.find? (fun a => name a == n) := by
  induction as generalizing seen with
  | nil => rfl
  | cons a as ih =>
    rw [firstOfEachName, List.find?_cons]
    by_cases ha : name a = n
    · rw [if_neg (by simpa [ha] using hn), List.find?_cons]
      simp [ha]
    · have hbeq : (name a == n) = false := beq_eq_false_iff_ne.2 ha
      split
      · rw [ih hn, hbeq]
      · rw [List.find?_cons, hbeq, ih (by simpa [Ne.symm ha] using hn)]

/-- No name is lost. -/
theorem exists_mem_firstOfEachName {seen : List String} {as : List α} {a : α} (ha : a ∈ as)
    (hn : name a ∉ seen) : ∃ b ∈ firstOfEachName name seen as, name b = name a := by
  have hsome : (as.find? fun b => name b == name a).isSome := by
    rw [List.find?_isSome]
    exact ⟨a, ha, beq_self_eq_true (name a)⟩
  rw [← find?_firstOfEachName name hn, List.find?_isSome] at hsome
  obtain ⟨b, hb, hname⟩ := hsome
  exact ⟨b, hb, eq_of_beq hname⟩

/-- Nothing is dropped from the front of a list whose names are distinct and
new. -/
theorem firstOfEachName_append {seen : List String} {as : List α} (bs : List α)
    (has : (as.map name).Nodup) (hseen : ∀ a ∈ as, name a ∉ seen) :
    firstOfEachName name seen (as ++ bs)
      = as ++ firstOfEachName name ((as.map name).reverse ++ seen) bs := by
  induction as generalizing seen with
  | nil => rfl
  | cons a as ih =>
    rw [List.map_cons, List.nodup_cons] at has
    rw [List.cons_append, firstOfEachName, if_neg (by simpa using hseen a List.mem_cons_self)]
    rw [ih has.2 (fun b hb => ?_)]
    · simp
    · rw [List.mem_cons, not_or]
      exact ⟨fun h => has.1 (h ▸ List.mem_map_of_mem hb), hseen b (List.mem_cons_of_mem _ hb)⟩

/-- What is kept of things that go over into others of the same names. -/
theorem map_firstOfEachName {α β : Type} {name : α → String} {name' : β → String} {f : α → β}
    (hf : ∀ a, name' (f a) = name a) (seen : List String) (as : List α) :
    (firstOfEachName name seen as).map f = firstOfEachName name' seen (as.map f) := by
  induction as generalizing seen with
  | nil => rfl
  | cons a as ih =>
    rw [firstOfEachName, List.map_cons, firstOfEachName, hf]
    split
    · exact ih seen
    · rw [List.map_cons, ih]

theorem eraseDupsBy_loop_eq (as bs : List α) :
    List.eraseDupsBy.loop (fun a b => name a == name b) as bs
      = bs.reverse ++ firstOfEachName name (bs.map name) as := by
  induction as generalizing bs with
  | nil => simp [List.eraseDupsBy.loop, firstOfEachName]
  | cons a as ih =>
    have hany : bs.any (fun b => name a == name b) = (bs.map name).contains (name a) := by
      rw [List.contains_eq_any_beq, List.any_map]
      rfl
    rw [List.eraseDupsBy.loop, firstOfEachName, hany]
    cases h : (bs.map name).contains (name a) with
    | true => simp [ih]
    | false => simp [ih]

/-- **Keeping the first of each name** is erasing what has the name of something
before it. -/
theorem firstOfEachName_eq_eraseDupsBy (as : List α) :
    firstOfEachName name [] as = as.eraseDupsBy (fun a b => name a == name b) := by
  rw [List.eraseDupsBy, eraseDupsBy_loop_eq]
  rfl

end FirstOfEachName

section Places

variable {α β : Type} {gives gives' : α → β → Prop} {name : β → String}

/-- **A place at which a name is met first**: what stands there gives something, and nothing
before it gives anything of that name. -/
def FirstAt (gives : α → β → Prop) (name : β → String) (as : List α) (i : Nat) : Prop :=
  ∃ a b, as[i]? = some a ∧ gives a b
    ∧ ∀ j < i, ∀ a' b', as[j]? = some a' → gives a' b' → name b' ≠ name b

/-- **The first of each name, by their places.** The places are in order, they are all those at
which a name is met first and no others, and what stands at each of them gives what the second
list holds. -/
structure PicksFirst (gives : α → β → Prop) (name : β → String) (as : List α)
    (places : List Nat) (bs : List β) : Prop where
  increasing : places.Pairwise (· < ·)
  mem_iff : ∀ i, i ∈ places ↔ FirstAt gives name as i
  given : List.Forall₂ (fun i b => ∃ a, as[i]? = some a ∧ gives a b) places bs

/-- Putting something in front moves all places by one. -/
theorem firstAt_cons_succ {a : α} {as : List α} {i : Nat} :
    FirstAt gives name (a :: as) (i + 1)
      ↔ ∃ a' b, as[i]? = some a' ∧ gives a' b ∧ (∀ b', gives a b' → name b' ≠ name b)
        ∧ ∀ j < i, ∀ a'' b'', as[j]? = some a'' → gives a'' b'' → name b'' ≠ name b := by
  constructor
  · rintro ⟨a', b, ha', hb, hfirst⟩
    refine ⟨a', b, ha', hb, fun b' hb' => hfirst 0 (Nat.succ_pos i) a b' rfl hb', ?_⟩
    exact fun j hj a'' b'' ha'' => hfirst (j + 1) (Nat.succ_lt_succ hj) a'' b'' ha''
  · rintro ⟨a', b, ha', hb, hhead, hfirst⟩
    refine ⟨a', b, ha', hb, fun j hj a'' b'' ha'' hb'' => ?_⟩
    cases j with
    | zero =>
      obtain rfl : a = a'' := Option.some.inj ha''
      exact hhead b'' hb''
    | succ j => exact hfirst j (Nat.lt_of_succ_lt_succ hj) a'' b'' ha'' hb''

theorem PicksFirst.nil : PicksFirst gives name [] [] [] where
  increasing := .nil
  mem_iff i := iff_of_false List.not_mem_nil (by rintro ⟨a, b, ha, -⟩; cases ha)
  given := .nil

/-- Something in front that gives nothing is not picked. -/
theorem PicksFirst.cons_skip {a : α} {as : List α} {places : List Nat} {bs : List β}
    (h : PicksFirst gives name as places bs) (ha : ∀ b, ¬ gives a b) :
    PicksFirst gives name (a :: as) (places.map (· + 1)) bs where
  increasing := List.pairwise_map.2 (h.increasing.imp fun hij => Nat.succ_lt_succ hij)
  mem_iff i := by
    cases i with
    | zero =>
      refine iff_of_false (by simp) ?_
      rintro ⟨a', b, ha', hb, -⟩
      obtain rfl : a = a' := Option.some.inj ha'
      exact ha b hb
    | succ i =>
      have hmem : i + 1 ∈ places.map (· + 1) ↔ i ∈ places := by simp
      rw [hmem, h.mem_iff, firstAt_cons_succ]
      refine exists_congr fun a' => exists_congr fun b => ?_
      exact and_congr_right fun _ => and_congr_right fun _ =>
        (and_iff_right fun b' hb' => absurd hb' (ha b')).symm
  given := List.forall₂_map_left_iff.2 h.given

/-- Something in front that gives something is picked, and whatever has its name after it is
not. -/
theorem PicksFirst.cons_pick {a : α} {b : β} {as : List α} {places : List Nat} {bs : List β}
    (hb : ∀ b', gives a b' ↔ b' = b)
    (h : PicksFirst (fun a' b' => gives a' b' ∧ name b' ≠ name b) name as places bs) :
    PicksFirst gives name (a :: as) (0 :: places.map (· + 1)) (b :: bs) where
  increasing := by
    refine List.pairwise_cons.2 ⟨?_, List.pairwise_map.2 (h.increasing.imp fun hij => ?_)⟩
    · simp
    · exact Nat.succ_lt_succ hij
  mem_iff i := by
    cases i with
    | zero =>
      refine iff_of_true List.mem_cons_self ⟨a, b, rfl, (hb b).2 rfl, ?_⟩
      exact fun j hj => absurd hj (Nat.not_lt_zero j)
    | succ i =>
      have hmem : i + 1 ∈ 0 :: places.map (· + 1) ↔ i ∈ places := by simp
      rw [hmem, h.mem_iff, firstAt_cons_succ]
      refine exists_congr fun a' => exists_congr fun b' => ?_
      constructor
      · rintro ⟨ha', ⟨hb', hne⟩, hfirst⟩
        refine ⟨ha', hb', fun c hc => (hb c).1 hc ▸ hne.symm, fun j hj a'' b'' ha'' hb'' => ?_⟩
        -- `h` says nothing of what has the name of `b`, but `b'` has another one
        by_cases hname : name b'' = name b
        · exact fun heq => hne (heq.symm.trans hname)
        · exact hfirst j hj a'' b'' ha'' ⟨hb'', hname⟩
      · rintro ⟨ha', hb', hhead, hfirst⟩
        refine ⟨ha', ⟨hb', (hhead b ((hb b).2 rfl)).symm⟩, fun j hj a'' b'' ha'' hb'' => ?_⟩
        exact hfirst j hj a'' b'' ha'' hb''.1
  given := .cons ⟨a, rfl, (hb b).2 rfl⟩
    (List.forall₂_map_left_iff.2 (h.given.imp fun _ _ ⟨a', ha', hb'⟩ => ⟨a', ha', hb'.1⟩))

/-- Which places are picked depends on the names only. -/
theorem PicksFirst.of_names {as : List α} {places : List Nat} {bs : List β}
    (h : PicksFirst gives name as places bs) (hgives : ∀ a b, gives a b → gives' a b)
    (hnames : ∀ a b, gives' a b → ∃ b', gives a b' ∧ name b' = name b) :
    PicksFirst gives' name as places bs where
  increasing := h.increasing
  mem_iff i := by
    rw [h.mem_iff]
    constructor
    · rintro ⟨a, b, ha, hb, hfirst⟩
      refine ⟨a, b, ha, hgives a b hb, fun j hj a' c ha' hc => ?_⟩
      obtain ⟨b', hb', heq⟩ := hnames a' c hc
      exact heq ▸ hfirst j hj a' b' ha' hb'
    · rintro ⟨a, c, ha, hc, hfirst⟩
      obtain ⟨b, hb, heq⟩ := hnames a c hc
      refine ⟨a, b, ha, hb, fun j hj a' b' ha' hb' => ?_⟩
      exact heq ▸ hfirst j hj a' b' ha' (hgives a' b' hb')
  given := h.given.imp fun _ _ ⟨a, ha, hb⟩ => ⟨a, ha, hgives a _ hb⟩

/-- **What is kept are the first of each name**, those names apart that have been met before. -/
theorem exists_picksFirst (name : β → String) (value? : α → Option β) (seen : List String)
    (as : List α) :
    ∃ places, PicksFirst (fun a b => value? a = some b ∧ name b ∉ seen) name as places
      (firstOfEachName name seen (as.filterMap value?)) := by
  -- by induction on the list; a name that is picked counts as met in what is left
  induction as generalizing seen with
  | nil => exact ⟨[], .nil⟩
  | cons a as ih =>
    cases hv : value? a with
    | none =>
      obtain ⟨places, h⟩ := ih seen
      rw [List.filterMap_cons_none hv]
      exact ⟨_, h.cons_skip fun b hb => by rw [hv] at hb; cases hb.1⟩
    | some b =>
      rw [List.filterMap_cons_some hv, firstOfEachName]
      split
      · next hmet =>
        obtain ⟨places, h⟩ := ih seen
        refine ⟨_, h.cons_skip fun b' hb' => ?_⟩
        obtain rfl : b = b' := Option.some.inj (hv.symm.trans hb'.1)
        exact hb'.2 (by simpa using hmet)
      · next hnew =>
        obtain ⟨places, h⟩ := ih (name b :: seen)
        refine ⟨_, .cons_pick (fun b' => ?_) (h.of_names (fun a' b' hb' => ?_) fun a' b' hb' => ?_)⟩
        · rw [hv]
          constructor
          · exact fun hb' => (Option.some.inj hb'.1).symm
          · rintro rfl
            exact ⟨rfl, by simpa using hnew⟩
        · obtain ⟨hne, hseen⟩ := not_or.1 (List.mem_cons.not.1 hb'.2)
          exact ⟨⟨hb'.1, hseen⟩, hne⟩
        · exact ⟨b', ⟨hb'.1.1, List.mem_cons.not.2 (not_or.2 ⟨hb'.2, hb'.1.2⟩)⟩, rfl⟩

end Places

theorem lookup_cons_eq {β : Type} (n m : String) (b : β) (table : List (String × β)) :
    ((m, b) :: table).lookup n = if n = m then some b else table.lookup n := by
  rw [List.lookup_cons]
  by_cases h : n = m
  · rw [if_pos h, h, beq_self_eq_true]
  · rw [if_neg h, beq_false_of_ne h]

/-- A table that holds a value for some of the things in a list, by their names, which
are distinct, is looked up by finding the thing. -/
theorem lookup_filterMap_name {α β : Type} (name : α → String) (value? : α → Option β)
    {as : List α} (has : (as.map name).Nodup) (n : String) :
    (as.filterMap fun a => (value? a).map fun b => (name a, b)).lookup n
      = (as.find? fun a => name a == n).bind value? := by
  induction as with
  | nil => rfl
  | cons a as ih =>
    rw [List.map_cons, List.nodup_cons] at has
    rw [List.filterMap_cons, List.find?_cons]
    by_cases ha : name a = n
    · have hrest : as.find? (fun b => name b == n) = none := by
        rw [List.find?_eq_none]
        intro b hb hbn
        exact has.1 (List.mem_map.2 ⟨b, hb, (eq_of_beq hbn).trans ha.symm⟩)
      cases hv : value? a with
      | none => simp [ha, hv, ih has.2, hrest]
      | some b => simp [ha, hv]
    · have hbeq : (name a == n) = false := beq_eq_false_iff_ne.2 ha
      have hbeq' : (n == name a) = false := beq_eq_false_iff_ne.2 (Ne.symm ha)
      cases hv : value? a with
      | none => simp [hbeq, ih has.2]
      | some b => simp [List.lookup_cons, hbeq, hbeq', ih has.2]

theorem mem_of_lookup_eq_some {α β : Type} [BEq α] [LawfulBEq α] {table : List (α × β)} {n : α}
    {b : β} (h : table.lookup n = some b) : (n, b) ∈ table := by
  obtain ⟨before, after, rfl, -⟩ := List.lookup_eq_some_iff.1 h
  exact List.mem_append_right _ List.mem_cons_self

/-- In a table that has no name twice, whatever stands under a name is found there. -/
theorem lookup_eq_some_of_mem {β : Type} {table : List (String × β)}
    (hnodup : (table.map Prod.fst).Nodup) {n : String} {b : β} (h : (n, b) ∈ table) :
    table.lookup n = some b := by
  cases hlookup : table.lookup n with
  | none => simpa using List.lookup_eq_none_iff.1 hlookup (n, b) h
  | some b' =>
    have heq := List.inj_on_of_nodup_map hnodup (mem_of_lookup_eq_some hlookup) h rfl
    exact congrArg some (Prod.mk.inj heq).2

/-- Where names are distinct, the order of a table does not matter. -/
theorem lookup_eq_of_perm {β : Type} {table table' : List (String × β)}
    (hnodup : (table.map Prod.fst).Nodup) (h : table.Perm table') (n : String) :
    table.lookup n = table'.lookup n := by
  have hnodup' := (h.map Prod.fst).nodup_iff.1 hnodup
  refine Option.ext fun b => ⟨fun hb => ?_, fun hb => ?_⟩
  · exact lookup_eq_some_of_mem hnodup' (h.mem_iff.1 (mem_of_lookup_eq_some hb))
  · exact lookup_eq_some_of_mem hnodup (h.mem_iff.2 (mem_of_lookup_eq_some hb))

theorem lookup_map_snd {β γ : Type} (f : β → γ) (table : List (String × β)) (n : String) :
    (table.map fun e => (e.1, f e.2)).lookup n = (table.lookup n).map f := by
  induction table with
  | nil => rfl
  | cons e table ih =>
    rw [List.map_cons, lookup_cons_eq, ih, ← Prod.eta e, lookup_cons_eq]
    split <;> rfl

theorem lookup_map_mk {α β : Type} (f : α → String) (g : α → β) (as : List α) (n : String) :
    (as.map fun a => (f a, g a)).lookup n = (as.find? fun a => f a == n).map g := by
  induction as with
  | nil => rfl
  | cons a as ih =>
    rw [List.map_cons, lookup_cons_eq, List.find?_cons, ih]
    by_cases h : f a = n
    · rw [if_pos h.symm, h, beq_self_eq_true]
      rfl
    · rw [if_neg (Ne.symm h), beq_false_of_ne h]

/-- What is looked up under a name is found among the entries that are kept, if those of the
name are. -/
theorem lookup_filter_of_keep {β : Type} (keep : String → Bool) (table : List (String × β))
    {n : String} (h : keep n = true) :
    (table.filter fun e => keep e.1).lookup n = table.lookup n := by
  induction table with
  | nil => rfl
  | cons e table ih =>
    rw [List.filter_cons, ← Prod.eta e, lookup_cons_eq]
    split
    · rw [lookup_cons_eq, ih]
    · next hdrop =>
      rw [ih, if_neg]
      rintro rfl
      exact hdrop h

/-- Tables one after the other: the first that has a name counts. -/
theorem lookup_flatMap {α β : Type} (f : α → List (String × β)) (as : List α) (n : String) :
    (as.flatMap f).lookup n = as.findSome? fun a => (f a).lookup n := by
  induction as with
  | nil => rfl
  | cons a as ih =>
    rw [List.flatMap_cons, List.lookup_append, ih, List.findSome?_cons]
    cases (f a).lookup n <;> rfl

theorem lookup_toList_eq_some_iff {β : Type} {e? : Option (String × β)} {n : String} {b : β} :
    e?.toList.lookup n = some b ↔ e? = some (n, b) := by
  cases e? with
  | none => simp
  | some e =>
    obtain ⟨m, c⟩ := e
    rw [Option.toList_some, lookup_cons_eq]
    by_cases h : n = m <;> simp [h, eq_comm]

end ComponentCatalog
