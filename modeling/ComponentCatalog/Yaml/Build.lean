import ComponentCatalog.Yaml.Node
import ComponentCatalog.Yaml.Token.Reader
import ComponentCatalog.Yaml.Value

/-!
# Values of nodes

The tag of a node decides what its value is. The values of nodes are built in the order in
which the nodes are met. A scalar has its value at once. A collection is begun where it is
met and completed later, after those that were met before it, so that it may be part of
itself. The faults of a document count in that order.

A merge key brings the pairs of other mappings into its mapping, before the pairs that are
there. That changes the mapping itself: in whichever place it stands, it has those pairs
from then on, and its keys that stood for it are ordinary texts.

`Value.read` reads the only document of a text.
-/

namespace ComponentCatalog.Yaml

open Text

namespace Nodes

/-! ## Values of scalars -/

/-- The node that stands for a mapping: the value of its first key for that. -/
def standIn? (g : Nodes) (i : Nat) : Option Nat :=
  ((g.pairs i).find? fun e => g.tag e.1 == .value).map Prod.snd

/-- The text that a node stands for: that of a scalar, and for a mapping that of the node
that stands for it. -/
def scalarText (g : Nodes) : (limit : Nat) → Nat → Except Fault Wide
  | 0, _ => .error .endless
  | limit + 1, i =>
    match g.content i, g.standIn? i with
    | .scalar w, _ => .ok w
    | _, some v => g.scalarText limit v
    | _, none => .error .malformed

/-- Whether a node is a mapping. -/
def isMapping (g : Nodes) (i : Nat) : Bool :=
  match g.content i with
  | .mapping _ => true
  | _ => false

/-- The value of a node that is no collection. -/
def scalarValue (g : Nodes) (i : Nat) : Except Fault Value := do
  if !(g.tag i).isSpelt then throw .malformed
  let w ← g.scalarText (g.size + 1) i
  -- a mapping can stand for any text but for that of a time
  if g.tag i == .time && g.isMapping i then throw .notText
  Value.ofScalar i (g.tag i) w

/-! ## Merging -/

/-- Makes the keys of a mapping that stand for it ordinary texts. -/
def settleKeys (g : Nodes) (i : Nat) : Nodes :=
  (g.pairs i).foldl (fun g e => if g.tag e.1 == .value then g.setTag e.1 .text else g) g

/-- The pairs of a mapping whose keys ask for a merge. -/
def mergePairs (g : Nodes) (i : Nat) : List (Nat × Nat) :=
  (g.pairs i).filter fun e => g.tag e.1 == .merge

/-- How often something is merged into a mapping. -/
def mergeCount (g : Nodes) : Nat :=
  (List.range g.size).foldr (fun i count => (g.mergePairs i).length + count) 0

mutual

/-- Merges into a mapping what its keys ask for. -/
def flatten : (limit : Nat) → Nat → Nodes → Except Fault Nodes
  | 0, _, _ => .error .malformed
  | limit + 1, i, g => mergeInto limit i [] (g.settleKeys i)

/-- Merges into a mapping what its remaining keys ask for, behind what was merged before.
A mapping may be merged into itself; then its key is gone already. -/
def mergeInto : (limit : Nat) → Nat → List (Nat × Nat) → Nodes → Except Fault Nodes
  | 0, _, _, _ => .error .malformed
  | limit + 1, i, merged, g =>
    match (g.pairs i).find? fun e => g.tag e.1 == .merge with
    | none => .ok (g.setContent i (.mapping (merged ++ g.pairs i)))
    | some (_, v) => do
      let rest := (g.pairs i).eraseP fun e => g.tag e.1 == .merge
      let (more, g) ← mergeSource limit v (g.setContent i (.mapping rest))
      mergeInto limit i (merged ++ more) g

/-- The pairs that the value of a merge key brings in: those of a mapping, or of several,
of which the earlier ones come behind the later ones. -/
def mergeSource : (limit : Nat) → Nat → Nodes → Except Fault (List (Nat × Nat) × Nodes)
  | 0, _, _ => .error .malformed
  | limit + 1, v, g =>
    match g.content v with
    | .mapping _ => do
      let g ← flatten limit v g
      return (g.pairs v, g)
    | .sequence items =>
      items.foldlM (fun (more, g) j => do
        if !g.isMapping j then throw .malformed
        let g ← flatten limit j g
        return (g.pairs j ++ more, g)) ([], g)
    | .scalar _ => .error .malformed

end

end Nodes

/-! ## Values of collections -/

/-- The value of a node as it is built, in which values are given by the numbers of their
nodes. -/
inductive Object where
  /-- A collection that is not complete. -/
  | begun
  | scalar (v : Value)
  | list (items : List Nat)
  /-- The entries of an ordered mapping. -/
  | entries (pairs : List (Nat × Nat))
  | mapping (pairs : List (Nat × Nat))
  | set (pairs : List (Nat × Nat))

/-- What has been built, and what is left to do. -/
structure Builder where
  nodes : Nodes
  objects : Array (Option Object)
  /-- The numbers of the collections that are begun, the first first. -/
  waiting : List Nat := []

/-- A builder of values. -/
abbrev Build := StateT Builder (Except Fault)

namespace Build

/-- Sets the value of a node. -/
def put (i : Nat) (o : Object) : Build Unit :=
  modify fun s => { s with objects := s.objects.setIfInBounds i (some o) }

/-- Meets a node. A node that was met before has its value already. -/
def meet (i : Nat) : Build Unit := do
  let s ← get
  if (s.objects[i]?.join).isSome then return
  if (s.nodes.tag i).isCollection then
    put i .begun
    modify fun s => { s with waiting := s.waiting ++ [i] }
  else
    let v ← s.nodes.scalarValue i
    put i (.scalar v)

/-- Meets the nodes of a pair of a mapping. A collection is no key. -/
def meetPair (e : Nat × Nat) : Build Unit := do
  meet e.1
  if ((← get).nodes.tag e.1).isCollection then throw .malformed
  meet e.2

/-- Completes the pairs of a mapping. -/
def completePairs (i : Nat) : Build (List (Nat × Nat)) := do
  let g := (← get).nodes
  let g ← g.flatten (3 * g.mergeCount + 3) i
  modify fun s => { s with nodes := g }
  (g.pairs i).forM meetPair
  return g.pairs i

/-- Completes an entry of an ordered mapping, a mapping of one pair. -/
def completeEntry (j : Nat) : Build (Nat × Nat) := do
  match (← get).nodes.content j with
  | .mapping [e] =>
    meet e.1
    meet e.2
    return e
  | _ => throw .malformed

/-- Completes a collection. -/
def complete (i : Nat) : Build Unit := do
  let g := (← get).nodes
  match g.tag i, g.content i with
  | .sequence, .sequence items =>
    items.forM meet
    put i (.list items)
  | .orderedMapping, .sequence items => put i (.entries (← items.mapM completeEntry))
  | .pairs, .sequence items => put i (.entries (← items.mapM completeEntry))
  | .mapping, .mapping _ => put i (.mapping (← completePairs i))
  | .set, .mapping _ => put i (.set (← completePairs i))
  | _, _ => throw .malformed

/-- Completes the collections that are begun, and those that are begun meanwhile. -/
def completeAll : (limit : Nat) → Build Unit
  | 0 => return
  | limit + 1 => do
    match (← get).waiting with
    | [] => return
    | i :: waiting =>
      modify fun s => { s with waiting }
      complete i
      completeAll limit

end Build

namespace Value

/-! ## Values of documents -/

/-- The value of a node, to a number of levels. -/
def ofObject (objects : Array (Option Object)) : (depth : Nat) → Nat → Value
  | 0, _ => .null
  | depth + 1, i =>
    let pairsOf := fun (pairs : List (Nat × Nat)) =>
      mappingOf (pairs.map fun (k, v) => (ofObject objects depth k, ofObject objects depth v))
    match (objects[i]?.join).getD .begun with
    | .begun => .null
    | .scalar v => v
    | .list items => .list (items.map (ofObject objects depth))
    | .entries pairs =>
      .list (pairs.map fun (k, v) => .pair (ofObject objects depth k) (ofObject objects depth v))
    | .mapping pairs => .mapping (pairsOf pairs)
    | .set pairs => .set ((pairsOf pairs).map Prod.fst)

/-- The number of levels of a value that are looked at. A value that is part of itself has
no end of them, and a configuration has fewer. -/
def depthLimit : Nat := 8

/-- The value of a document. -/
def ofDocument (d : Document) : Except Fault Value := do
  let start : Builder := { nodes := d.nodes, objects := Array.replicate d.nodes.size none }
  -- no collection is begun twice
  let ((), s) ← (do Build.meet d.root; Build.completeAll d.nodes.size : Build Unit).run start
  return ofObject s.objects depthLimit d.root

/-- The value of the only document of a text; nothing if there is none. -/
def read (s : String) : Except Fault Value := do
  match ← Document.ofTokens (tokens s) with
  | some d => ofDocument d
  | none => return .null

end Value

end ComponentCatalog.Yaml
