import Mathlib.Data.Finset.Card
import Mathlib.Logic.Relation
import ComponentCatalog.Proofs.YamlMerging
import ComponentCatalog.Yaml.Build

/-!
# Why a YAML text has no value

A text that has no value is malformed in all but a few cases. In the others the text cannot be read
on (`Unreadable`), or a node has a tag that the text it stands for does not fit: that text is not
written as the tag asks for, or a mapping stands for a time, or a mapping stands for what leads
back to it. `Value.Stumbles` lists them, and `Value.read_outcome` says that there are no others.

Nodes are built from tokens, so that building them adds nothing to what is malformed; it is enough
to see that no token is passed over twice (`Compose.Follows`).

Values are built while mappings are merged into each other, so that a node is not always what the
text says. But a mapping into which something was merged has no key left that stands for it
(`Nodes.Merged`). Whatever a node stands for at any time, it stands for in the document
(`Nodes.Merged.leads`).
-/

namespace ComponentCatalog.Yaml

open Text

/-! ## Nodes -/

namespace Compose

/-- **A reader that follows a sequence of tokens**: what it leaves is an end of the sequence, and
it fails only for something malformed or where the sequence breaks off. -/
def Follows (ts : List Token) {α : Type} (m : Compose α) : Prop :=
  ∀ s : Composer, s.tokens <:+ ts →
    Outcome (·.2.tokens <:+ ts) (fun f => f = .malformed ∨ .broken f ∈ ts) (m s)

section Follows

variable {ts : List Token} {α β : Type}

theorem Follows.pure (a : α) : Follows ts (Pure.pure a : Compose α) :=
  fun _ hs => hs

/-- Parts that follow the tokens follow them together. -/
theorem Follows.bind {m : Compose α} {k : α → Compose β} (hm : Follows ts m)
    (hk : ∀ a, Follows ts (k a)) : Follows ts (m >>= k) :=
  fun s hs => (hm s hs).bind fun r hr => hk r.1 r.2 hr

theorem Follows.map {m : Compose α} (g : α → β) (hm : Follows ts m) : Follows ts (g <$> m) :=
  fun s hs => (hm s hs).bind fun _ hr => hr

theorem Follows.malformed : Follows ts (throw .malformed : Compose α) :=
  fun _ _ => .inl rfl

/-- Two branches that follow the tokens. -/
theorem Follows.ite {p : Prop} [Decidable p] {m m' : Compose α} (hm : Follows ts m)
    (hm' : Follows ts m') : Follows ts (if p then m else m') := by
  split
  · exact hm
  · exact hm'

/-- A condition without which something is malformed. -/
theorem Follows.unless {p : Prop} [Decidable p] {k : PUnit → Compose α}
    (hk : ∀ u, Follows ts (k u)) :
    Follows ts (if p then throw .malformed >>= k else k ⟨⟩) :=
  .ite (Follows.malformed.bind hk) (hk _)

theorem follows_peek : Follows ts peek := by
  intro s hs
  obtain ⟨tokens, anchors, handles⟩ := s
  rcases tokens with _ | ⟨t, rest⟩
  · exact hs
  · cases t with
    | broken f => exact .inr (hs.subset (List.mem_cons_self ..))
    | _ => exact hs

theorem follows_advance : Follows ts advance :=
  fun _ hs => (List.tail_suffix _).trans hs

/-- The tokens that are left are among those there were. -/
theorem Follows.get_bind {k : Composer → Compose α}
    (hk : ∀ s, s.tokens <:+ ts → Follows ts (k s)) : Follows ts (get >>= k) :=
  fun s hs => hk s hs s hs

theorem follows_set {s : Composer} (hs : s.tokens <:+ ts) : Follows ts (set s : Compose Unit) :=
  fun _ _ => hs

/-- The name of a tag is put together from its handle. -/
theorem follows_tagName (handle? : Option String) (suffix : String) :
    Follows ts (tagName handle? suffix) := by
  cases handle? with
  | none => exact .pure _
  | some handle =>
    refine .get_bind fun s _ => ?_
    split
    · exact .pure _
    · exact .malformed

theorem follows_anchor? : Follows ts anchor? := by
  refine follows_peek.bind fun t => ?_
  split
  · exact follows_advance.bind fun _ => .pure _
  · exact .pure _

theorem follows_tag? : Follows ts tag? := by
  refine follows_peek.bind fun t => ?_
  split
  · exact follows_advance.bind fun _ => .pure _
  · exact .pure _

theorem follows_writtenMarks : Follows ts writtenMarks := by
  refine follows_anchor?.bind fun name => ?_
  split
  · exact follows_tag?.bind fun _ => .pure _
  · exact follows_tag?.bind fun _ => follows_anchor?.bind fun _ => .pure _

theorem follows_marks : Follows ts marks := by
  refine follows_writtenMarks.bind fun written => ?_
  split
  · exact .pure _
  · exact (follows_tagName _ _).bind fun _ => .pure _

theorem follows_newAnchor (anchor? : Option String) : Follows ts (newAnchor anchor?) := by
  cases anchor? with
  | none => exact .pure _
  | some name => exact .get_bind fun _ _ => .ite .malformed (.pure _)

/-- A node that is added passes over no token. -/
theorem follows_add (anchor? : Option String) (n : Node) : Follows ts (add anchor? n) :=
  .get_bind fun _ hs => Follows.bind (follows_set hs) fun _ => .pure _

theorem follows_fill (i : Nat) (content : Content) : Follows ts (fill i content) :=
  Follows.bind (fun _ hs => hs) fun _ => .pure i

theorem follows_sequence (anchor? tag? : Option String) {items : Compose (List Nat)}
    (h : Follows ts items) : Follows ts (sequence anchor? tag? items) :=
  (follows_add _ _).bind fun _ => h.bind fun _ => follows_fill _ _

theorem follows_mapping (anchor? tag? : Option String) {pairs : Compose (List (Nat × Nat))}
    (h : Follows ts pairs) : Follows ts (mapping anchor? tag? pairs) :=
  (follows_add _ _).bind fun _ => h.bind fun _ => follows_fill _ _

theorem follows_aliased (name : String) : Follows ts (aliased name) := by
  refine .get_bind fun s _ => ?_
  split
  · exact .malformed
  · exact .pure _

theorem follows_empty : Follows ts empty :=
  follows_add none .empty

/-- What follows a comma, or the first of what commas separate. -/
theorem Follows.behindComma {k : PUnit → Compose α} (hk : ∀ u, Follows ts (k u)) (first : Bool) :
    Follows ts (if (!first) = true then
        peek >>= fun t => if (t == .flowEntry) = true then advance >>= k
          else throw .malformed >>= k
      else k ⟨⟩) :=
  .ite (follows_peek.bind fun _ => .ite (follows_advance.bind hk) (Follows.malformed.bind hk))
    (hk _)

/-- All readers of nodes and of what nodes consist of, with a limit. -/
structure NodesFollow (ts : List Token) (limit : Nat) : Prop where
  node (inBlock unindented : Bool) : Follows ts (node inBlock unindented limit)
  content (inBlock unindented : Bool) (anchor? tag? : Option String) :
    Follows ts (content inBlock unindented anchor? tag? limit)
  blockNode (ends : List Token) (unindented : Bool) :
    Follows ts (blockNodeUnless ends unindented limit)
  flowNode (ends : List Token) : Follows ts (flowNodeUnless ends limit)
  blockItems : Follows ts (blockItems limit)
  unindentedItems : Follows ts (unindentedItems limit)
  blockValue : Follows ts (blockValue limit)
  blockPairs : Follows ts (blockPairs limit)
  flowValue (close : Token) : Follows ts (flowValue close limit)
  flowPair (close : Token) : Follows ts (flowPair close limit)
  flowItems (first : Bool) : Follows ts (flowItems first limit)
  flowPairs (first : Bool) : Follows ts (flowPairs first limit)

/-- **Composing nodes follows the tokens**, at any depth. The induction is on the limit, for all
kinds of nodes together. -/
theorem nodesFollow (limit : Nat) : NodesFollow ts limit := by
  -- Every reader calls the others with a smaller limit, so all of them go into one induction.
  induction limit with
  | zero => exact
    ⟨fun _ _ => .malformed, fun _ _ _ _ => .malformed, fun _ _ => .malformed,
      fun _ => .malformed, .malformed, .malformed, .malformed, .malformed, fun _ => .malformed,
      fun _ => .malformed, fun _ => .malformed, fun _ => .malformed⟩
  | succ limit ih =>
    constructor
    case node =>
      intro inBlock unindented
      refine follows_peek.bind fun t => ?_
      split
      · exact follows_advance.bind fun _ => follows_aliased _
      · exact follows_marks.bind fun _ => follows_peek.bind fun _ =>
          (follows_newAnchor _).bind fun _ => ih.content _ _ _ _
    case content =>
      intro inBlock unindented anchor? tag?
      refine follows_peek.bind fun t => ?_
      split
      · exact follows_advance.bind fun _ => follows_add _ _
      · exact follows_advance.bind fun _ => follows_sequence _ _ (ih.flowItems _)
      · exact follows_advance.bind fun _ => follows_mapping _ _ (ih.flowPairs _)
      · exact .ite (follows_sequence _ _ ih.unindentedItems) <|
          .ite (follows_advance.bind fun _ => follows_sequence _ _ ih.blockItems) <|
          .ite (follows_advance.bind fun _ => follows_mapping _ _ ih.blockPairs) <|
          .ite (follows_add _ _) .malformed
    case blockNode =>
      exact fun ends unindented => follows_peek.bind fun t => .ite follows_empty (ih.node _ _)
    case flowNode => exact fun ends => follows_peek.bind fun t => .ite follows_empty (ih.node _ _)
    case blockItems =>
      refine follows_peek.bind fun t => ?_
      split
      · exact follows_advance.bind fun _ => (ih.blockNode _ _).bind fun _ =>
          ih.blockItems.bind fun _ => .pure _
      · exact follows_advance.bind fun _ => .pure _
      · exact .malformed
    case unindentedItems =>
      refine follows_peek.bind fun t => ?_
      split
      · exact follows_advance.bind fun _ => (ih.blockNode _ _).bind fun _ =>
          ih.unindentedItems.bind fun _ => .pure _
      · exact .pure _
    case blockValue =>
      refine follows_peek.bind fun t => ?_
      split
      · exact follows_advance.bind fun _ => ih.blockNode _ _
      · exact follows_empty
    case blockPairs =>
      refine follows_peek.bind fun t => ?_
      split
      · exact follows_advance.bind fun _ => (ih.blockNode _ _).bind fun _ =>
          ih.blockValue.bind fun _ => ih.blockPairs.bind fun _ => .pure _
      · exact follows_advance.bind fun _ => .pure _
      · exact .malformed
    case flowValue =>
      intro close
      refine follows_peek.bind fun t => ?_
      split
      · exact follows_advance.bind fun _ => ih.flowNode _
      · exact follows_empty
    case flowPair =>
      exact fun close => follows_advance.bind fun _ => (ih.flowNode _).bind fun _ =>
        (ih.flowValue close).bind fun _ => .pure _
    case flowItems =>
      intro first
      refine follows_peek.bind fun _ => .ite (follows_advance.bind fun _ => .pure _) ?_
      refine .behindComma (fun _ => follows_peek.bind fun _ => .ite ?pair (.ite ?close ?item)) first
      case pair =>
        exact (ih.flowPair _).bind fun _ => (follows_add _ _).bind fun _ =>
          (ih.flowItems _).bind fun _ => .pure _
      case close => exact follows_advance.bind fun _ => .pure _
      case item => exact (ih.node _ _).bind fun _ => (ih.flowItems _).bind fun _ => .pure _
    case flowPairs =>
      intro first
      refine follows_peek.bind fun _ => .ite (follows_advance.bind fun _ => .pure _) ?_
      refine .behindComma (fun _ => follows_peek.bind fun _ => .ite ?pair (.ite ?close ?key)) first
      case pair => exact (ih.flowPair _).bind fun _ => (ih.flowPairs _).bind fun _ => .pure _
      case close => exact follows_advance.bind fun _ => .pure _
      case key =>
        exact (ih.node _ _).bind fun _ => follows_empty.bind fun _ =>
          (ih.flowPairs _).bind fun _ => .pure _

/-! ### Documents -/

theorem follows_directives (versioned : Bool) (handles : List (String × String)) (limit : Nat) :
    Follows ts (directives versioned handles limit) := by
  induction limit generalizing versioned handles with
  | zero => exact .malformed
  | succ limit ih =>
    refine follows_peek.bind fun t => ?_
    split
    · exact follows_advance.bind fun _ => .unless fun _ => ih _ _
    · exact follows_advance.bind fun _ => .unless fun _ => ih _ _
    · exact follows_advance.bind fun _ => ih _ _
    · exact .pure _

theorem follows_documentEnds (limit : Nat) : Follows ts (documentEnds limit) := by
  induction limit with
  | zero => exact .pure _
  | succ limit ih =>
    exact follows_peek.bind fun _ => .ite (follows_advance.bind fun _ => ih) (.pure _)

theorem follows_explicitDocument (limit : Nat) : Follows ts (explicitDocument limit) := by
  refine (follows_directives _ _ _).bind fun handles => follows_peek.bind fun _ => ?_
  refine .unless fun _ => follows_advance.bind fun _ => ?_
  refine Follows.bind (fun _ hs => hs) fun _ => follows_peek.bind fun t => ?_
  split
  · exact follows_empty
  · exact follows_empty
  · exact follows_empty
  · exact follows_empty
  · exact (nodesFollow limit).node _ _

/-- Composing a document follows the tokens. -/
theorem follows_document (limit : Nat) : Follows ts (document limit) := by
  have hends : ∀ n? : Option Nat, Follows ts (do
      documentEnds limit
      if (← peek) == .streamEnd then return n?
      else
        let _ ← directives false [] limit
        throw .malformed) := fun n? =>
    (follows_documentEnds limit).bind fun _ => follows_peek.bind fun _ =>
      .ite (.pure _) ((follows_directives _ _ _).bind fun _ => .malformed)
  refine follows_peek.bind fun t => ?_
  dsimp only
  split
  · exact ((follows_explicitDocument limit).map some).bind hends
  · exact ((follows_explicitDocument limit).map some).bind hends
  · exact (Follows.pure none).bind hends
  · exact Follows.bind (fun _ hs => hs) fun _ =>
      (((nodesFollow limit).node _ _).map some).bind hends

end Follows

end Compose

/-- Tokens that form no document are malformed or break off. -/
theorem Document.ofTokens_outcome (ts : List Token) :
    Outcome (fun _ => True) (fun f => f = .malformed ∨ .broken f ∈ ts) (ofTokens ts) :=
  (Compose.follows_document _ { tokens := ts } List.suffix_rfl).bind fun _ _ => trivial

/-! ## Numbers

A text that is asked to be a number and is none is at fault in its own way; it is not malformed. -/

/-- A number that cannot be read in a base is out of range. -/
theorem wholeIn_outcome (base : Nat) (cs : List Char) :
    Outcome (fun _ => True) (· ≠ .malformed) (wholeIn base cs) := by
  unfold wholeIn
  dsimp only
  split
  · exact Fault.noConfusion
  · split
    · trivial
    · exact Fault.noConfusion

/-- A text with the tag of whole numbers is one, or there is a fault other than that of a malformed
text. -/
theorem readInt_outcome (s : String) : Outcome (fun _ => True) (· ≠ .malformed) (readInt s) := by
  unfold readInt
  refine .ite Fault.noConfusion ?_
  dsimp only
  split
  · trivial
  · exact (wholeIn_outcome _ _).bind fun _ _ => trivial
  · exact (wholeIn_outcome _ _).bind fun _ _ => trivial
  · exact (wholeIn_outcome _ _).bind fun _ _ => trivial
  · exact Fault.noConfusion
  · exact (Outcome.mapM _ fun cs _ => wholeIn_outcome 10 cs).bind fun _ _ => trivial

theorem readExponent_outcome (cs : List Char) :
    Outcome (fun _ => True) (· ≠ .malformed) (readExponent cs) := by
  unfold readExponent
  split
  · trivial
  · dsimp only
    split
    · exact .ite trivial Fault.noConfusion
    · exact Fault.noConfusion

theorem decimalOf_outcome (cs : List Char) :
    Outcome (fun _ => True) (· ≠ .malformed) (decimalOf cs) := by
  unfold decimalOf
  refine .ite trivial (.ite trivial ?_)
  refine (readExponent_outcome _).bind fun _ _ => ?_
  split
  · trivial
  · exact Fault.noConfusion

theorem sumSixties_outcome (place : Nat) (sum : Float) (ds : List Float) :
    Outcome (fun _ => True) (· ≠ .malformed) (sumSixties place sum ds) := by
  induction ds generalizing place sum with
  | nil => trivial
  | cons d ds ih =>
    have hsixty : Outcome (fun _ => True) (· ≠ .malformed) (sixtyTo place) :=
      .ite trivial Fault.noConfusion
    exact hsixty.bind fun _ _ => ih _ _

/-- A text with the tag of numbers is one, or there is a fault other than that of a malformed text.
-/
theorem readFloat_outcome (s : String) :
    Outcome (fun _ => True) (· ≠ .malformed) (readFloat s) := by
  unfold readFloat
  refine .ite Fault.noConfusion (.ite trivial (.ite trivial ?_))
  refine (Outcome.mapM _ fun cs _ => decimalOf_outcome cs).bind fun parts _ => ?_
  split
  · trivial
  · exact (sumSixties_outcome _ _ _).bind fun _ _ => trivial

/-! ## Scalars -/

namespace Value

/-- **A text is not written as its tag asks for.** -/
inductive Misspelt : Tag → Wide → Fault → Prop
  | truth {w : Wide} (h : truth? w.display = none) : Misspelt .bool w .unknownTruth
  | int {w : Wide} {f : Fault} (h : readInt w.display = .error f) : Misspelt .int w f
  | float {w : Wide} {f : Fault} (h : readFloat w.display = .error f) : Misspelt .float w f
  | notTime {w : Wide} (h : Time.ofString? (dropFeed w.display) = none) : Misspelt .time w .notTime
  | noTime {w : Wide} {t : Time} (h : Time.ofString? (dropFeed w.display) = some t)
      (ht : isTime t = false) : Misspelt .time w .outOfRange

/-- A text that does not fit its tag is not malformed. -/
theorem Misspelt.ne_malformed {tag : Tag} {w : Wide} {f : Fault} (h : Misspelt tag w f) :
    f ≠ .malformed := by
  cases h with
  | truth => exact Fault.noConfusion
  | int h =>
    have hint := readInt_outcome w.display
    rwa [h] at hint
  | float h =>
    have hfloat := readFloat_outcome w.display
    rwa [h] at hfloat
  | notTime => exact Fault.noConfusion
  | noTime => exact Fault.noConfusion

/-- A text can always be a text. -/
theorem Misspelt.ne_text {tag : Tag} {w : Wide} {f : Fault} (h : Misspelt tag w f) :
    tag ≠ .text := by
  rintro rfl
  cases h

/-- **The value of a scalar**: its text fits its tag, or the fault says how it does not. -/
theorem ofScalar_outcome (node : Nat) (tag : Tag) (w : Wide) :
    Outcome (fun _ => True) (fun f => f = .malformed ∨ Misspelt tag w f) (ofScalar node tag w) := by
  unfold ofScalar
  cases tag with
  | bool =>
    dsimp only
    split
    · trivial
    · next h => exact .inr (.truth h)
  | int =>
    rcases h : readInt w.display with f | n
    · exact .inr (.int h)
    · trivial
  | float =>
    rcases h : readFloat w.display with f | x
    · exact .inr (.float h)
    · trivial
  | binary =>
    dsimp only
    split
    · trivial
    · exact .inl rfl
  | time =>
    dsimp only
    split
    · next t h =>
      split
      · trivial
      · next ht => exact .inr (.noTime h (Bool.eq_false_iff.2 ht))
    · next h => exact .inr (.notTime h)
  | _ => first | trivial | exact .inl rfl

end Value

namespace Nodes

open Relation (ReflTransGen TransGen)
open Value (Misspelt)

/-- **A node stands for a mapping**: it is the value of a key for that. -/
def Leads (g : Nodes) (i j : Nat) : Prop :=
  ∃ k, (k, j) ∈ g.pairs i ∧ g.tag k = .value

/-- **The text that a node stands for**: that of a scalar, and for a mapping that of a node which
stands for it. -/
inductive Spells (g : Nodes) : Nat → Wide → Prop
  | scalar {i : Nat} {w : Wide} (h : g.content i = .scalar w) : Spells g i w
  | mapping {i j : Nat} {w : Wide} (hj : g.Leads i j) (h : Spells g j w) : Spells g i w

/-- **A node that does not have the kind of its tag.** -/
inductive Misread (g : Nodes) (i : Nat) : Fault → Prop
  /-- The text that it stands for is not written as its tag asks for. -/
  | misspelt {w : Wide} {f : Fault} (hw : g.Spells i w)
      (htime : g.tag i = .time → g.isMapping i = false) (h : Misspelt (g.tag i) w f) :
      Misread g i f
  /-- No mapping is a time, whatever it stands for. -/
  | time {w : Wide} (htag : g.tag i = .time) (hi : g.isMapping i = true) (hw : g.Spells i w) :
      Misread g i .notText
  /-- What stands for it leads back to where it was. A key for that becomes a text itself. -/
  | endless {j : Nat} (htag : (g.tag i).isSpelt = true ∨ g.tag i = .value)
      (hj : ReflTransGen g.Leads i j) (hloop : TransGen g.Leads j j) : Misread g i .endless

/-- **Why nodes have no value**: something is malformed, or a node does not have the kind of its
tag. -/
def Fails (g : Nodes) (f : Fault) : Prop :=
  f = .malformed ∨ ∃ i, g.Misread i f

section Scalars

variable {g h : Nodes} {i j : Nat}

/-- A node that is misread is not malformed. -/
theorem Misread.ne_malformed {f : Fault} (hi : g.Misread i f) : f ≠ .malformed := by
  cases hi with
  | misspelt _ _ h => exact h.ne_malformed
  | time => exact Fault.noConfusion
  | endless => exact Fault.noConfusion

/-- What stands for a mapping at any time stands for it in the document. -/
theorem Merged.leads (hm : Merged g h) (hj : h.standIn? i = some j) : g.Leads i j := by
  obtain ⟨e, he, rfl⟩ := Option.map_eq_some_iff.1 hj
  have hmem := List.mem_of_find?_eq_some he
  have htest := List.find?_some he
  have hvalue : h.tag e.1 = .value := eq_of_beq htest
  rcases hm.content i with heq | ⟨-, -, hordinary⟩
  · rw [pairs, heq] at hmem
    exact ⟨e.1, hmem, hm.tag_eq_value hvalue⟩
  · exact absurd hvalue (hordinary e hmem)

/-- Merging makes no scalars. -/
theorem Merged.content_eq_scalar (hm : Merged g h) {w : Wide} (hi : h.content i = .scalar w) :
    g.content i = .scalar w := by
  rcases hm.content i with heq | ⟨-, hmapping, -⟩
  · exact heq.symm.trans hi
  · rw [Nodes.isMapping, hi] at hmapping
    cases hmapping

/-- The text that a node stands for is that of a scalar it leads to. -/
theorem scalarText_outcome (hm : Merged g h) (limit i : Nat) :
    Outcome (g.Spells i) (fun f => f = .malformed ∨ f = .endless) (h.scalarText limit i) := by
  induction limit generalizing i with
  | zero => exact .inr rfl
  | succ limit ih =>
    unfold scalarText
    split
    · next hw => exact .scalar (hm.content_eq_scalar hw)
    · next v hv _ => exact (ih v).imp (fun w hw => .mapping (hm.leads hv) hw) fun _ hf => hf
    · exact .inl rfl

/-! ### Chains without an end -/

/-- The node that stands for a mapping, or the node itself. -/
def next (g : Nodes) (i : Nat) : Nat :=
  (g.standIn? i).getD i

/-- A step from a mapping to the node that stands for it. -/
def Steps (g : Nodes) (i j : Nat) : Prop :=
  g.standIn? i = some j

/-- Only nodes that there are lead anywhere. -/
theorem lt_size_of_steps (hj : g.Steps i j) : i < g.size := by
  obtain ⟨e, he, -⟩ := Option.map_eq_some_iff.1 hj
  exact lt_size_of_isMapping (isMapping_of_mem_pairs (List.mem_of_find?_eq_some he))

/-- If no text is found, there was a step each time. -/
theorem steps_of_endless {limit : Nat} (hi : g.scalarText limit i = .error .endless) :
    ∀ n < limit, g.Steps (g.next^[n] i) (g.next^[n + 1] i) := by
  induction limit generalizing i with
  | zero => exact fun n hn => absurd hn (Nat.not_lt_zero n)
  | succ limit ih =>
    unfold scalarText at hi
    split at hi
    · cases hi
    · next v hv _ =>
      have hnext : g.next i = v := by rw [next, hv, Option.getD_some]
      intro n hn
      cases n with
      | zero =>
        change g.standIn? i = some (g.next i)
        rw [hnext, hv]
      | succ n =>
        have hlater := ih hi n (Nat.lt_of_succ_lt_succ hn)
        rwa [Function.iterate_succ_apply, Function.iterate_succ_apply _ (n + 1), hnext]
    · cases hi

/-- Steps one after the other lead from each node to all later ones. -/
theorem transGen_of_steps {limit : Nat}
    (h : ∀ n < limit, g.Steps (g.next^[n] i) (g.next^[n + 1] i)) {a b : Nat} (hab : a < b)
    (hb : b ≤ limit) : TransGen g.Steps (g.next^[a] i) (g.next^[b] i) := by
  induction b, hab using Nat.le_induction with
  | base => exact .single (h a hb)
  | succ b hab ih => exact (ih (Nat.le_of_succ_le hb)).tail (h b hb)

/-- **A chain that is longer than there are nodes comes back to one of them.** -/
theorem exists_loop_of_endless (hi : g.scalarText (g.size + 1) i = .error .endless) :
    ∃ j, ReflTransGen g.Steps i j ∧ TransGen g.Steps j j := by
  have hsteps := steps_of_endless hi
  obtain ⟨a, ha, b, hb, hne, heq⟩ := Finset.exists_ne_map_eq_of_card_lt_of_maps_to
    (s := Finset.range (g.size + 1)) (t := Finset.range g.size) (f := fun n => g.next^[n] i)
    (by simp) fun n hn => Finset.mem_coe.2 <| Finset.mem_range.2 <|
      lt_size_of_steps (hsteps n (Finset.mem_range.1 hn))
  have hloop : ∀ {a b : Nat}, a < b → b ≤ g.size → g.next^[a] i = g.next^[b] i →
      ∃ j, ReflTransGen g.Steps i j ∧ TransGen g.Steps j j := by
    intro a b hab hb heq
    have hback := transGen_of_steps hsteps hab (Nat.le_succ_of_le hb)
    rw [← heq] at hback
    refine ⟨g.next^[a] i, ?_, hback⟩
    rcases Nat.eq_zero_or_pos a with rfl | ha
    · exact .refl
    · exact (transGen_of_steps hsteps ha (by omega)).to_reflTransGen
  rcases Nat.lt_or_gt_of_ne hne with hab | hab
  · exact hloop hab (Nat.lt_succ_iff.1 (Finset.mem_range.1 hb)) heq
  · exact hloop hab (Nat.lt_succ_iff.1 (Finset.mem_range.1 ha)) heq.symm

/-- **The value of a node**, where others may have been merged: it has one, or it fails as it did
before. -/
theorem scalarValue_outcome (hm : Merged g h) (i : Nat) :
    Outcome (fun _ => True) g.Fails (h.scalarValue i) := by
  -- a tag that changed is that of a text
  have htag (hne : h.tag i ≠ .text) : h.tag i = g.tag i :=
    (hm.tag i).resolve_right fun ⟨_, htext⟩ => hne htext
  refine .ite_of (fun _ => .inl rfl) fun hspelt => ?_
  have hspelt : (h.tag i).isSpelt = true := by simpa using hspelt
  have htext := scalarText_outcome hm (h.size + 1) i
  cases hw : h.scalarText (h.size + 1) i with
  | error f =>
    rw [hw] at htext
    rcases htext with rfl | rfl
    · exact .inl rfl
    · obtain ⟨j, hj, hloop⟩ := exists_loop_of_endless hw
      have hlead : ∀ a b, h.Steps a b → g.Leads a b := fun _ _ => hm.leads
      refine .inr ⟨i, .endless ?_ (ReflTransGen.mono hlead _ _ hj) (TransGen.mono hlead _ _ hloop)⟩
      rcases hm.tag i with heq | ⟨hvalue, -⟩
      · exact .inl (heq ▸ hspelt)
      · exact .inr hvalue
  | ok w =>
    rw [hw] at htext
    have hspells : g.Spells i w := htext
    refine .ite_of (fun htime => ?_) fun htime => ?_
    · obtain ⟨ht, hi⟩ := Bool.and_eq_true_iff.1 htime
      have ht := eq_of_beq ht
      have heq := htag (ht ▸ Tag.noConfusion)
      exact .inr ⟨i, .time (heq.symm.trans ht) ((hm.isMapping i).symm.trans hi) hspells⟩
    · refine (Value.ofScalar_outcome i (h.tag i) w).imp (fun _ h => h) fun f hf => ?_
      refine hf.imp_right fun hmisspelt => ⟨i, .misspelt hspells (fun ht => ?_) ?_⟩
      · rw [← hm.isMapping i]
        exact Bool.eq_false_iff.2 fun hi => htime (by rw [htag hmisspelt.ne_text, ht, hi]; rfl)
      · rwa [htag hmisspelt.ne_text] at hmisspelt

end Scalars

/-! ## Collections -/

end Nodes

namespace Build

open Nodes (Merged Fails)

/-- **A builder that changes nodes only by merging**, and fails only if they have no value. -/
def Keeps (g : Nodes) {α : Type} (m : Build α) : Prop :=
  ∀ s : Builder, Merged g s.nodes → Outcome (fun r => Merged g r.2.nodes) g.Fails (m s)

section Keeps

variable {g : Nodes} {α β : Type}

theorem Keeps.pure (a : α) : Keeps g (Pure.pure a : Build α) :=
  fun _ hs => hs

/-- Parts that keep to the nodes keep to them together. -/
theorem Keeps.bind {m : Build α} {k : α → Build β} (hm : Keeps g m) (hk : ∀ a, Keeps g (k a)) :
    Keeps g (m >>= k) :=
  fun s hs => (hm s hs).bind fun r hr => hk r.1 r.2 hr

theorem Keeps.malformed : Keeps g (throw .malformed : Build α) :=
  fun _ _ => .inl rfl

theorem Keeps.ite {p : Prop} [Decidable p] {m m' : Build α} (hm : Keeps g m) (hm' : Keeps g m') :
    Keeps g (if p then m else m') := by
  split
  · exact hm
  · exact hm'

/-- The nodes of a builder are those of the document, merged. -/
theorem Keeps.get_bind {k : Builder → Build α} (hk : ∀ s, Merged g s.nodes → Keeps g (k s)) :
    Keeps g (get >>= k) :=
  fun s hs => hk s hs s hs

/-- Keeping to the nodes one by one. -/
theorem Keeps.forM {f : β → Build PUnit} (hf : ∀ b, Keeps g (f b)) (l : List β) :
    Keeps g (l.forM f) := by
  induction l with
  | nil => exact .pure _
  | cons b l ih => exact (hf b).bind fun _ => ih

theorem Keeps.mapM {f : β → Build α} (hf : ∀ b, Keeps g (f b)) (l : List β) :
    Keeps g (l.mapM f) := by
  induction l with
  | nil => exact .pure _
  | cons b l ih =>
    rw [List.mapM_cons]
    exact (hf b).bind fun _ => ih.bind fun _ => .pure _

theorem keeps_put (i : Nat) (o : Object) : Keeps g (put i o) :=
  fun _ hs => hs

theorem keeps_meet (i : Nat) : Keeps g (meet i) := by
  refine .get_bind fun s hs => .ite (.pure _) (.ite ?_ ?_)
  · exact (keeps_put i .begun).bind fun _ => fun _ hs => hs
  · refine Keeps.bind (fun t ht => ?_) fun v => keeps_put i (.scalar v)
    exact (Nodes.scalarValue_outcome hs i).bind fun _ _ => ht

theorem keeps_meetPair (e : Nat × Nat) : Keeps g (meetPair e) :=
  (keeps_meet e.1).bind fun _ => .get_bind fun _ _ =>
    .ite (Keeps.malformed.bind fun _ => keeps_meet e.2) (keeps_meet e.2)

/-- Completing a mapping keeps to the nodes. -/
theorem keeps_completePairs {i : Nat} (hi : g.isMapping i = true) : Keeps g (completePairs i) := by
  refine .get_bind fun s hs t _ => ?_
  have hflatten := (Nodes.merges (3 * s.nodes.mergeCount + 3)).flatten i s.nodes
    ((hs.isMapping i).trans hi)
  have hmerged : Outcome (fun r : Nodes × Builder => Merged g r.1) g.Fails
      ((s.nodes.flatten (3 * s.nodes.mergeCount + 3) i : Build Nodes) t) :=
    (hflatten.imp (fun _ hh => hs.trans hh.1) fun _ hf => .inl hf).bind fun _ hh => hh
  exact hmerged.bind fun r hr => ((Keeps.forM keeps_meetPair _).bind fun _ => .pure _) _ hr

/-- Completing any entry keeps to the nodes. -/
theorem keeps_completeEntry (j : Nat) : Keeps g (completeEntry j) := by
  refine .get_bind fun s _ => ?_
  split
  · exact (keeps_meet _).bind fun _ => (keeps_meet _).bind fun _ => .pure _
  · exact .malformed

/-- Completing one collection keeps the nodes as they are, but for merging. -/
theorem keeps_complete (i : Nat) : Keeps g (complete i) := by
  have hmapping {s : Builder} (hs : Merged g s.nodes) {pairs : List (Nat × Nat)}
      (hi : s.nodes.content i = .mapping pairs) : g.isMapping i = true := by
    rw [← hs.isMapping i, Nodes.isMapping, hi]
  refine .get_bind fun s hs => ?_
  dsimp only
  split
  · exact (Keeps.forM keeps_meet _).bind fun _ => keeps_put _ _
  · exact (Keeps.mapM keeps_completeEntry _).bind fun _ => keeps_put _ _
  · exact (Keeps.mapM keeps_completeEntry _).bind fun _ => keeps_put _ _
  · next hi => exact (keeps_completePairs (hmapping hs hi)).bind fun _ => keeps_put _ _
  · next hi => exact (keeps_completePairs (hmapping hs hi)).bind fun _ => keeps_put _ _
  · exact .malformed

/-- **So does completing all of them.** -/
theorem keeps_completeAll (limit : Nat) : Keeps g (completeAll limit) := by
  induction limit with
  | zero => exact .pure _
  | succ limit ih =>
    refine .get_bind fun s _ => ?_
    split
    · exact .pure _
    · exact Keeps.bind (fun _ hs => hs) fun _ => (keeps_complete _).bind fun _ => ih

end Keeps

end Build

namespace Value

/-! ## Values of texts -/

/-- **A document has a value, or fails** as one of its nodes does. -/
theorem ofDocument_outcome (d : Document) :
    Outcome (fun _ => True) d.nodes.Fails (ofDocument d) :=
  Outcome.bind (((Build.keeps_meet d.root).bind fun _ => Build.keeps_completeAll d.nodes.size) _
    (.refl d.nodes)) fun _ _ => trivial

/-- **What a text can stumble over**, apart from what is malformed: it cannot be read on, or a node
of its document does not have the kind of its tag. -/
inductive Stumbles (text : String) : Fault → Prop
  | unreadable {part : List Char} {f : Fault} (hpart : part <:+ text.toList)
      (h : Begins part f) : Stumbles text f
  | misread {d : Document} {i : Nat} {f : Fault}
      (hd : Document.ofTokens (tokens text) = .ok (some d)) (h : d.nodes.Misread i f) :
      Stumbles text f

/-- A text that stumbles is not malformed. -/
theorem Stumbles.ne_malformed {text : String} {f : Fault} (h : Stumbles text f) :
    f ≠ .malformed := by
  cases h with
  | unreadable _ h => exact h.ne_malformed
  | misread _ h => exact h.ne_malformed

/-- **A text without a value is malformed or stumbles.** -/
theorem read_outcome (text : String) :
    Outcome (fun _ => True) (fun f => f = .malformed ∨ Stumbles text f) (read text) := by
  have hbroken : ∀ f, f = .malformed ∨ .broken f ∈ tokens text →
      f = .malformed ∨ Stumbles text f := by
    rintro f (rfl | hf)
    · exact .inl rfl
    · exact (unreadable_of_broken hf).imp_right fun ⟨_, hpart, h⟩ => .unreadable hpart h
  have hnodes := ((Document.ofTokens_outcome (tokens text)).imp (fun _ h => h) hbroken).and
    fun _ h => h
  refine hnodes.bind fun d? ⟨_, hd⟩ => ?_
  cases d? with
  | none => trivial
  | some d =>
    refine (ofDocument_outcome d).imp (fun _ h => h) fun _ hf => ?_
    exact hf.imp_right fun ⟨i, hi⟩ => .misread hd hi

end Value

end ComponentCatalog.Yaml
