import ComponentCatalog.Proofs.YamlReading
import ComponentCatalog.Yaml.Build

/-!
# What merging makes of a document

Mappings are merged into each other while values are built, so that the nodes at some time are not
always those that a text spells. Two things about them change: a key that stands for its mapping
becomes a text, and a mapping gets pairs of others. `Nodes.Merged` says that this is all, and that
a mapping which got pairs has no key left that stands for it and no more keys that ask for a merge.
One step has this property (`merged_settleKeys`, `merged_setContent`), and so has any number of
them (`Merged.trans`).

Each merge takes away a key that asks for it. So merging comes to an end, and its limit is never
what ends it (`flatten_eq`).
-/

namespace ComponentCatalog.Yaml.Nodes

/-! ## Changes of one node -/

section Changes

variable (g : Nodes) (i j : Nat)

@[simp] theorem size_setTag (tag : Tag) : (g.setTag i tag).size = g.size := by
  simp [setTag, size]

@[simp] theorem size_setContent (content : Content) : (g.setContent i content).size = g.size := by
  simp [setContent, size]

/-- A node with another tag holds what it held. -/
@[simp] theorem content_setTag (tag : Tag) : (g.setTag i tag).content j = g.content j := by
  unfold content get setTag
  rw [Array.getElem?_setIfInBounds]
  split
  · next h =>
    subst h
    split <;> simp_all [get]
  · rfl

@[simp] theorem pairs_setTag (tag : Tag) : (g.setTag i tag).pairs j = g.pairs j := by
  rw [pairs, pairs, content_setTag]

/-- A node that holds something else keeps its tag. -/
@[simp] theorem tag_setContent (content : Content) :
    (g.setContent i content).tag j = g.tag j := by
  unfold tag get setContent
  rw [Array.getElem?_setIfInBounds]
  split
  · next h =>
    subst h
    split <;> simp_all [get]
  · rfl

variable {g i j}

/-- Where there is no node, there is an empty scalar. -/
theorem get_eq_empty (h : g.size ≤ i) : g.get i = .empty := by
  unfold get
  rw [Array.getElem?_eq_none h]
  rfl

/-- A mapping is one of the nodes. -/
theorem lt_size_of_isMapping (h : g.isMapping i = true) : i < g.size := by
  by_contra hi
  rw [isMapping, content, get_eq_empty (Nat.not_lt.1 hi)] at h
  cases h

theorem lt_size_of_tag_ne_null (h : g.tag i ≠ .null) : i < g.size := by
  by_contra hi
  exact h (by rw [tag, get_eq_empty (Nat.not_lt.1 hi)]; rfl)

theorem tag_setTag_self (hi : i < g.size) (tag : Tag) : (g.setTag i tag).tag i = tag := by
  unfold Nodes.tag get setTag
  rw [Array.getElem?_setIfInBounds_self_of_lt hi]
  rfl

theorem tag_setTag_of_ne (h : i ≠ j) (tag : Tag) : (g.setTag i tag).tag j = g.tag j := by
  unfold Nodes.tag get setTag
  rw [Array.getElem?_setIfInBounds_ne h]

theorem content_setContent_self (hi : i < g.size) (content : Content) :
    (g.setContent i content).content i = content := by
  unfold Nodes.content get setContent
  rw [Array.getElem?_setIfInBounds_self_of_lt hi]
  rfl

theorem pairs_setContent_self (hi : i < g.size) (pairs : List (Nat × Nat)) :
    (g.setContent i (.mapping pairs)).pairs i = pairs := by
  rw [Nodes.pairs, content_setContent_self hi]

theorem content_setContent_of_ne (h : i ≠ j) (content : Content) :
    (g.setContent i content).content j = g.content j := by
  unfold Nodes.content get setContent
  rw [Array.getElem?_setIfInBounds_ne h]

/-- Only a mapping has pairs. -/
theorem isMapping_of_mem_pairs {e : Nat × Nat} (h : e ∈ g.pairs i) : g.isMapping i = true := by
  rw [isMapping]
  cases hi : g.content i with
  | mapping => rfl
  | scalar | sequence =>
    rw [pairs, hi] at h
    exact absurd h List.not_mem_nil

end Changes

/-! ## Merged documents -/

/-- **Keys that do not stand for their mapping.** -/
def Ordinary (g : Nodes) (pairs : List (Nat × Nat)) : Prop :=
  ∀ e ∈ pairs, g.tag e.1 ≠ .value

/-- **Keys that mean nothing to their mapping**: they are ordinary, and do not ask for a merge. -/
def Plain (g : Nodes) (pairs : List (Nat × Nat)) : Prop :=
  ∀ e ∈ pairs, g.tag e.1 ≠ .value ∧ g.tag e.1 ≠ .merge

/-- **What merging makes of nodes.** A key that stands for its mapping may have become a text. A
mapping may have got other pairs; then none of its keys stands for it any more. In no mapping are
there more keys that ask for a merge. -/
structure Merged (g h : Nodes) : Prop where
  size : h.size = g.size
  tag (i : Nat) : h.tag i = g.tag i ∨ g.tag i = .value ∧ h.tag i = .text
  content (i : Nat) : h.content i = g.content i ∨
    g.isMapping i = true ∧ h.isMapping i = true ∧ h.Ordinary (h.pairs i)
  mergePairs (i : Nat) : (h.mergePairs i).length ≤ (g.mergePairs i).length

section Merged

variable {g h l : Nodes} {i j : Nat}

theorem Merged.refl (g : Nodes) : Merged g g :=
  ⟨rfl, fun _ => .inl rfl, fun _ => .inl rfl, fun _ => le_rfl⟩

/-- No key begins to stand for its mapping. -/
theorem Merged.tag_eq_value (hm : Merged g h) (hi : h.tag i = .value) : g.tag i = .value := by
  rcases hm.tag i with heq | ⟨hvalue, -⟩
  · exact heq.symm.trans hi
  · exact hvalue

/-- Pairs that are ordinary stay so. -/
theorem Merged.ordinary (hm : Merged g h) {pairs : List (Nat × Nat)} (hp : g.Ordinary pairs) :
    h.Ordinary pairs :=
  fun e he hvalue => hp e he (hm.tag_eq_value hvalue)

theorem Plain.ordinary {pairs : List (Nat × Nat)} (hp : g.Plain pairs) : g.Ordinary pairs :=
  fun e he => (hp e he).1

/-- Pairs that mean nothing to their mapping stay so. -/
theorem Merged.plain (hm : Merged g h) {pairs : List (Nat × Nat)} (hp : g.Plain pairs) :
    h.Plain pairs := by
  intro e he
  obtain ⟨hvalue, hmerge⟩ := hp e he
  rcases hm.tag e.1 with heq | ⟨htag, -⟩
  · rw [heq]
    exact ⟨hvalue, hmerge⟩
  · exact absurd htag hvalue

/-- A mapping with ordinary keys keeps having such keys. -/
theorem Merged.ordinary_pairs (hm : Merged g h) (hp : g.Ordinary (g.pairs i)) :
    h.Ordinary (h.pairs i) := by
  rcases hm.content i with heq | ⟨-, -, hordinary⟩
  · rw [pairs, heq]
    exact hm.ordinary hp
  · exact hordinary

/-- Merging makes no mapping of anything else. -/
theorem Merged.isMapping (hm : Merged g h) (i : Nat) : h.isMapping i = g.isMapping i := by
  rcases hm.content i with heq | ⟨hg, hh, -⟩
  · rw [Nodes.isMapping, Nodes.isMapping, heq]
  · rw [hg, hh]

/-- Merging twice is merging. -/
theorem Merged.trans (hgh : Merged g h) (hhl : Merged h l) : Merged g l where
  size := hhl.size.trans hgh.size
  tag i := by
    rcases hhl.tag i with heq | ⟨hvalue, htext⟩
    · rw [heq]
      exact hgh.tag i
    · exact .inr ⟨hgh.tag_eq_value hvalue, htext⟩
  content i := by
    rcases hhl.content i with heq | ⟨hh, hl, hordinary⟩
    · rcases hgh.content i with heq' | ⟨hg, hh, hordinary⟩
      · exact .inl (heq.trans heq')
      · have hpairs : l.pairs i = h.pairs i := by rw [pairs, pairs, heq]
        exact .inr ⟨hg, (hhl.isMapping i).trans hh, hpairs ▸ hhl.ordinary hordinary⟩
    · exact .inr ⟨(hgh.isMapping i).symm.trans hh, hl, hordinary⟩
  mergePairs i := (hhl.mergePairs i).trans (hgh.mergePairs i)

/-- The tags of nodes, of which one that stands for a mapping has become a text. -/
theorem tag_setTag_text (hi : g.tag i = .value) (j : Nat) :
    (g.setTag i .text).tag j = g.tag j ∨ g.tag j = .value ∧ (g.setTag i .text).tag j = .text := by
  by_cases hij : i = j
  · subst hij
    by_cases hlt : i < g.size
    · exact .inr ⟨hi, tag_setTag_self hlt .text⟩
    · left
      unfold Nodes.tag get setTag
      rw [Array.setIfInBounds_eq_of_size_le (Nat.not_lt.1 hlt)]
  · exact .inl (tag_setTag_of_ne hij .text)

/-- A key that stands for its mapping becomes a text. -/
theorem merged_setTag (hi : g.tag i = .value) : Merged g (g.setTag i .text) where
  size := size_setTag g i .text
  tag := tag_setTag_text hi
  content j := .inl (content_setTag g i j .text)
  mergePairs j := by
    refine (congrArg List.length ?_).le
    rw [Nodes.mergePairs, pairs_setTag]
    refine List.filter_congr fun e _ => ?_
    rcases tag_setTag_text hi e.1 with heq | ⟨hvalue, htext⟩
    · rw [heq]
    · rw [hvalue, htext]
      rfl

/-- The pairs of a mapping whose keys ask for a merge, where it has got other pairs. -/
theorem mergePairs_setContent_self (hi : i < g.size) (pairs : List (Nat × Nat)) :
    (g.setContent i (.mapping pairs)).mergePairs i =
      pairs.filter fun e => g.tag e.1 == .merge := by
  rw [mergePairs, pairs_setContent_self hi]
  simp only [tag_setContent]

/-- The other mappings keep theirs. -/
theorem mergePairs_setContent_of_ne (h : i ≠ j) (content : Content) :
    (g.setContent i content).mergePairs j = g.mergePairs j := by
  rw [mergePairs, mergePairs, pairs, pairs, content_setContent_of_ne h]
  simp only [tag_setContent]

/-- A mapping gets other pairs. -/
theorem merged_setContent {pairs : List (Nat × Nat)} (hi : g.isMapping i = true)
    (hp : g.Ordinary pairs)
    (hm : (pairs.filter fun e => g.tag e.1 == .merge).length ≤ (g.mergePairs i).length) :
    Merged g (g.setContent i (.mapping pairs)) where
  size := size_setContent g i _
  tag j := .inl (tag_setContent g i j _)
  mergePairs j := by
    by_cases hij : i = j
    · subst hij
      rwa [mergePairs_setContent_self (lt_size_of_isMapping hi)]
    · rw [mergePairs_setContent_of_ne hij]
  content j := by
    by_cases hij : i = j
    · subst hij
      have hlt := lt_size_of_isMapping hi
      refine .inr ⟨hi, by rw [isMapping, content_setContent_self hlt], ?_⟩
      rw [pairs_setContent_self hlt]
      intro e he
      rw [tag_setContent]
      exact hp e he
    · exact .inl (content_setContent_of_ne hij _)

end Merged

/-! ## Merging -/

section Merging

variable {g h : Nodes} {i : Nat}

/-- The keys of pairs become texts one by one. -/
theorem merged_foldl_setTag (pairs : List (Nat × Nat)) (g : Nodes) :
    Merged g (pairs.foldl (fun g e => if g.tag e.1 == .value then g.setTag e.1 .text else g) g) ∧
      (pairs.foldl (fun g e =>
        if g.tag e.1 == .value then g.setTag e.1 .text else g) g).Ordinary pairs := by
  induction pairs generalizing g with
  | nil => exact ⟨.refl g, fun _ he => absurd he List.not_mem_nil⟩
  | cons e pairs ih =>
    rw [List.foldl_cons]
    obtain ⟨hrest, hordinary⟩ := ih (if g.tag e.1 == .value then g.setTag e.1 .text else g)
    have hstep : Merged g (if g.tag e.1 == .value then g.setTag e.1 .text else g) ∧
        (if g.tag e.1 == .value then g.setTag e.1 .text else g).tag e.1 ≠ .value := by
      split
      · next htag =>
        have hvalue := eq_of_beq htag
        refine ⟨merged_setTag hvalue, ?_⟩
        have hlt : e.1 < g.size := lt_size_of_tag_ne_null (hvalue ▸ Tag.noConfusion)
        rw [tag_setTag_self hlt]
        exact Tag.noConfusion
      · next htag => exact ⟨.refl g, fun hvalue => htag (beq_of_eq hvalue)⟩
    refine ⟨hstep.1.trans hrest, List.forall_mem_cons.2 ⟨?_, hordinary⟩⟩
    exact fun hvalue => hstep.2 (hrest.tag_eq_value hvalue)

/-- New tags change no pairs. -/
theorem pairs_foldl_setTag (pairs : List (Nat × Nat)) (g : Nodes) (i : Nat) :
    (pairs.foldl (fun g e =>
      if g.tag e.1 == .value then g.setTag e.1 .text else g) g).pairs i = g.pairs i := by
  induction pairs generalizing g with
  | nil => rfl
  | cons e pairs ih =>
    rw [List.foldl_cons, ih]
    split
    · exact pairs_setTag g e.1 i .text
    · rfl

/-- Before anything is merged into a mapping, its keys are made ordinary. -/
theorem merged_settleKeys (g : Nodes) (i : Nat) :
    Merged g (g.settleKeys i) ∧ (g.settleKeys i).Ordinary ((g.settleKeys i).pairs i) := by
  obtain ⟨hmerged, hordinary⟩ := merged_foldl_setTag (g.pairs i) g
  refine ⟨hmerged, ?_⟩
  unfold settleKeys
  rwa [pairs_foldl_setTag]

/-- None of the keys that mean nothing asks for a merge. -/
theorem Plain.filter_merge {pairs : List (Nat × Nat)} (hp : g.Plain pairs) :
    (pairs.filter fun e => g.tag e.1 == .merge) = [] :=
  List.filter_eq_nil_iff.2 fun e he => by simpa using (hp e he).2

/-- What passes a test is one less without the first of it. -/
theorem length_filter_eraseP {p : Nat × Nat → Bool} {pairs : List (Nat × Nat)} {e : Nat × Nat}
    (h : pairs.find? p = some e) :
    ((pairs.eraseP p).filter p).length + 1 = (pairs.filter p).length := by
  obtain ⟨e, before, behind, -, he, heq, herase⟩ :=
    List.exists_of_eraseP (List.mem_of_find?_eq_some h) (List.find?_some h)
  rw [herase, heq, List.filter_append, List.filter_append, List.filter_cons_of_pos he,
    List.length_append, List.length_append, List.length_cons, Nat.add_assoc]

/-- The first key of a mapping that asks for a merge is taken out. -/
theorem merged_eraseMerge (hi : g.isMapping i = true) (hp : g.Ordinary (g.pairs i))
    {e : Nat × Nat} (h : ((g.pairs i).find? fun e => g.tag e.1 == .merge) = some e) :
    Merged g (g.setContent i (.mapping ((g.pairs i).eraseP fun e => g.tag e.1 == .merge))) :=
  merged_setContent hi (fun e he => hp e (List.mem_of_mem_eraseP he))
    (Nat.le_of_succ_le (length_filter_eraseP h).le)

/-- All that merging consists of, with a limit. Whatever goes wrong is malformed, and whatever is
brought into a mapping has keys that mean nothing to it. -/
structure Merges (limit : Nat) : Prop where
  flatten (i : Nat) (g : Nodes) (hi : g.isMapping i = true) :
    Outcome (fun h => Merged g h ∧ h.Plain (h.pairs i)) (· = .malformed) (flatten limit i g)
  mergeInto (i : Nat) (merged : List (Nat × Nat)) (g : Nodes) (hi : g.isMapping i = true)
      (hmerged : g.Plain merged) (hpairs : g.Ordinary (g.pairs i)) :
    Outcome (fun h => Merged g h ∧ h.Plain (h.pairs i)) (· = .malformed)
      (mergeInto limit i merged g)
  mergeSource (v : Nat) (g : Nodes) :
    Outcome (fun r => Merged g r.2 ∧ r.2.Plain r.1) (· = .malformed) (mergeSource limit v g)

/-- **Merging keeps to the nodes**, at any depth. -/
theorem merges (limit : Nat) : Merges limit := by
  -- The three call each other with a smaller limit, so they go into one induction.
  induction limit with
  | zero => exact ⟨fun _ _ _ => rfl, fun _ _ _ _ _ _ => rfl, fun _ _ => rfl⟩
  | succ limit ih =>
    constructor
    case flatten =>
      intro i g hi
      obtain ⟨hsettled, hordinary⟩ := merged_settleKeys g i
      have hinto := ih.mergeInto i [] (g.settleKeys i) ((hsettled.isMapping i).trans hi)
        (fun _ he => absurd he List.not_mem_nil) hordinary
      exact hinto.imp (fun _ h => ⟨hsettled.trans h.1, h.2⟩) fun _ hf => hf
    case mergeInto =>
      intro i merged g hi hmerged hpairs
      unfold Nodes.mergeInto
      split
      · next hnone =>
        have hown : g.Plain (g.pairs i) := fun e he =>
          ⟨hpairs e he, by simpa using List.find?_eq_none.1 hnone e he⟩
        have hall : g.Plain (merged ++ g.pairs i) := List.forall_mem_append.2 ⟨hmerged, hown⟩
        have hstep := merged_setContent hi hall.ordinary (by simp [hall.filter_merge])
        refine ⟨hstep, ?_⟩
        rw [pairs_setContent_self (lt_size_of_isMapping hi)]
        exact hstep.plain hall
      · next hsome =>
        -- the key is taken out first, then its mapping is asked for its pairs
        have hstep := merged_eraseMerge hi hpairs hsome
        refine (ih.mergeSource _ _).bind fun r ⟨hsource, hmore⟩ => ?_
        have hlater := hstep.trans hsource
        have hinto := ih.mergeInto i (merged ++ r.1) r.2 ((hlater.isMapping i).trans hi)
          (List.forall_mem_append.2 ⟨hlater.plain hmerged, hmore⟩)
          (hlater.ordinary_pairs hpairs)
        exact hinto.imp (fun _ h => ⟨hlater.trans h.1, h.2⟩) fun _ hf => hf
    case mergeSource =>
      intro v g
      unfold Nodes.mergeSource
      split
      · next hv =>
        have hmapping : g.isMapping v = true := by rw [isMapping, hv]
        exact (ih.flatten v g hmapping).bind fun h hh => hh
      · -- what was brought in before stays as it is
        refine Outcome.foldlM (fun r j _ ⟨hr, hmore⟩ => ?_)
          ⟨.refl g, fun _ he => absurd he List.not_mem_nil⟩
        refine .ite_of (fun _ => rfl) fun hj => ?_
        have hmapping : r.2.isMapping j = true := by simpa using hj
        refine (ih.flatten j r.2 hmapping).bind fun h ⟨hh, hplain⟩ => ?_
        exact ⟨hr.trans hh, List.forall_mem_append.2 ⟨hplain, hh.plain hmore⟩⟩
      · rfl

end Merging

/-! ## The end of merging -/

section Ending

/-- Counts that are nowhere larger add up to no more. -/
theorem foldr_add_le {f f' : Nat → Nat} (l : List Nat) (h : ∀ i, f i ≤ f' i) :
    l.foldr (fun i n => f i + n) 0 ≤ l.foldr (fun i n => f' i + n) 0 := by
  induction l with
  | nil => exact le_rfl
  | cons i l ih => exact Nat.add_le_add (h i) ih

/-- Counts that are smaller somewhere add up to less. -/
theorem foldr_add_lt {f f' : Nat → Nat} {l : List Nat} (h : ∀ i, f i ≤ f' i) {i : Nat}
    (hi : i ∈ l) (hlt : f i < f' i) :
    l.foldr (fun i n => f i + n) 0 < l.foldr (fun i n => f' i + n) 0 := by
  induction l with
  | nil => exact absurd hi List.not_mem_nil
  | cons j l ih =>
    rcases List.mem_cons.1 hi with rfl | hi
    · exact Nat.add_lt_add_of_lt_of_le hlt (foldr_add_le l h)
    · exact Nat.add_lt_add_of_le_of_lt (h j) (ih hi)

variable {g h : Nodes} {i : Nat}

/-- Merging leaves no more to be merged. -/
theorem Merged.mergeCount_le (hm : Merged g h) : h.mergeCount ≤ g.mergeCount := by
  unfold mergeCount
  rw [hm.size]
  exact foldr_add_le _ hm.mergePairs

/-- Each merge takes away a key that asks for it. -/
theorem mergeCount_eraseMerge_lt (hi : g.isMapping i = true) (hp : g.Ordinary (g.pairs i))
    {e : Nat × Nat} (h : ((g.pairs i).find? fun e => g.tag e.1 == .merge) = some e) :
    (g.setContent i (.mapping ((g.pairs i).eraseP fun e => g.tag e.1 == .merge))).mergeCount <
      g.mergeCount := by
  have hlt := lt_size_of_isMapping hi
  unfold mergeCount
  rw [size_setContent]
  refine foldr_add_lt (merged_eraseMerge hi hp h).mergePairs (List.mem_range.2 hlt) ?_
  rw [mergePairs_setContent_self hlt]
  exact (length_filter_eraseP h).le

/-! Merging a mapping, merging into it and asking for what is merged call each other, three calls
for each merge. So a limit is large enough if it is three times the number of merges, and a little
more. -/

/-- **All limits that are large enough for a number of merges give the same.** -/
def FlattenSettled (count : Nat) : Prop :=
  ∀ i (g : Nodes), g.isMapping i = true → g.mergeCount ≤ count →
    ∀ m n, 3 * count + 2 ≤ m → 3 * count + 2 ≤ n → flatten m i g = flatten n i g

/-- They do so where a mapping has been merged in part. -/
def MergeIntoSettled (count : Nat) : Prop :=
  ∀ i merged (g : Nodes), g.isMapping i = true → g.Ordinary (g.pairs i) → g.mergeCount ≤ count →
    ∀ m n, 3 * count + 1 ≤ m → 3 * count + 1 ≤ n → mergeInto m i merged g = mergeInto n i merged g

/-- They do so for what is brought into a mapping. -/
def MergeSourceSettled (count : Nat) : Prop :=
  ∀ v (g : Nodes), g.mergeCount ≤ count →
    ∀ m n, 3 * count + 3 ≤ m → 3 * count + 3 ≤ n → mergeSource m v g = mergeSource n v g

variable {count : Nat}

/-- A mapping without a key that asks for a merge is done. With one, there is less to be merged
when it has been taken out. -/
theorem mergeIntoSettled
    (hinto : ∀ c < count, MergeIntoSettled c) (hsource : ∀ c < count, MergeSourceSettled c) :
    MergeIntoSettled count := by
  intro i merged g hi hp hg m n hm hn
  obtain ⟨m, rfl⟩ : ∃ k, m = k + 1 := ⟨m - 1, by omega⟩
  obtain ⟨n, rfl⟩ : ∃ k, n = k + 1 := ⟨n - 1, by omega⟩
  unfold mergeInto
  split
  · rfl
  · next v hsome =>
    have hless := mergeCount_eraseMerge_lt hi hp hsome
    have hstep := merged_eraseMerge hi hp hsome
    dsimp only
    generalize g.setContent i _ = g' at hless hstep ⊢
    obtain ⟨c, rfl⟩ : ∃ c, count = c + 1 := ⟨count - 1, by omega⟩
    rw [hsource c (Nat.lt_succ_self c) v g' (by omega) m n (by omega) (by omega)]
    refine ((merges n).mergeSource v g').bind_congr fun r ⟨hmerged, _⟩ => ?_
    have hlater := hstep.trans hmerged
    have hcount := hmerged.mergeCount_le
    exact hinto c (Nat.lt_succ_self c) i _ r.2 ((hlater.isMapping i).trans hi)
      (hlater.ordinary_pairs hp) (by omega) m n (by omega) (by omega)

theorem flattenSettled (hinto : MergeIntoSettled count) : FlattenSettled count := by
  intro i g hi hg m n hm hn
  obtain ⟨m, rfl⟩ : ∃ k, m = k + 1 := ⟨m - 1, by omega⟩
  obtain ⟨n, rfl⟩ : ∃ k, n = k + 1 := ⟨n - 1, by omega⟩
  obtain ⟨hsettled, hordinary⟩ := merged_settleKeys g i
  exact hinto i [] _ ((hsettled.isMapping i).trans hi) hordinary (hsettled.mergeCount_le.trans hg)
    m n (by omega) (by omega)

theorem mergeSourceSettled (hflatten : FlattenSettled count) : MergeSourceSettled count := by
  intro v g hg m n hm hn
  obtain ⟨m, rfl⟩ : ∃ k, m = k + 1 := ⟨m - 1, by omega⟩
  obtain ⟨n, rfl⟩ : ∃ k, n = k + 1 := ⟨n - 1, by omega⟩
  unfold mergeSource
  split
  · next hv => rw [hflatten v g (by rw [isMapping, hv]) hg m n (by omega) (by omega)]
  · -- there is never more to be merged than at the beginning
    refine Outcome.foldlM_congr (fun r => r.2.mergeCount ≤ count) _ (fun r j hr => ?_) hg
    dsimp only
    split
    · exact ⟨rfl, trivial⟩
    · next hj =>
      have hmapping : r.2.isMapping j = true := by simpa using hj
      have hmerged := ((merges n).flatten j r.2 hmapping).imp (fun _ h => h) fun _ _ => trivial
      refine ⟨by rw [hflatten j r.2 hmapping hr m n (by omega) (by omega)], ?_⟩
      exact hmerged.bind fun h hh => hh.1.mergeCount_le.trans hr
  · rfl

/-- **Merging comes to its end**: all limits that are larger than three times the number of merges
give the same. -/
theorem flatten_eq (hi : g.isMapping i = true) {limit : Nat} (h : 3 * g.mergeCount + 3 ≤ limit) :
    flatten limit i g = flatten (3 * g.mergeCount + 3) i g := by
  have hall (count : Nat) : MergeIntoSettled count := by
    induction count using Nat.strong_induction_on with
    | _ count ih =>
      exact mergeIntoSettled ih fun c hc => mergeSourceSettled (flattenSettled (ih c hc))
  exact flattenSettled (hall g.mergeCount) i g hi le_rfl _ _ (by omega) (by omega)

end Ending

end ComponentCatalog.Yaml.Nodes
