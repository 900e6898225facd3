import ComponentCatalog.Yaml.Tag
import ComponentCatalog.Yaml.Token

/-!
# YAML nodes

The tokens of a document form scalars, sequences and mappings, each with its tag. A node
is known by its number, and an alias is the number of the node that has its anchor. So
one node may stand in several places, and it may even be part of itself.
-/

namespace ComponentCatalog.Yaml

open Text

/-- What a node holds; the nodes in it are given by their numbers. -/
inductive Content where
  | scalar (text : Wide)
  | sequence (items : List Nat)
  | mapping (pairs : List (Nat × Nat))
  deriving DecidableEq, Repr

/-- A node of a document. -/
structure Node where
  tag : Tag
  content : Content
  deriving DecidableEq, Repr

/-- An empty scalar, where a node is left out. -/
def Node.empty : Node :=
  ⟨.null, .scalar ⟨[]⟩⟩

/-- The nodes of a document by their numbers. -/
structure Nodes where
  all : Array Node
  deriving DecidableEq, Repr

namespace Nodes

/-- How many nodes there are. -/
def size (g : Nodes) : Nat :=
  g.all.size

/-- The node of a number. -/
def get (g : Nodes) (i : Nat) : Node :=
  g.all[i]?.getD .empty

/-- The tag of a node. -/
def tag (g : Nodes) (i : Nat) : Tag :=
  (g.get i).tag

/-- What a node holds. -/
def content (g : Nodes) (i : Nat) : Content :=
  (g.get i).content

/-- The pairs of a mapping; none of any other node. -/
def pairs (g : Nodes) (i : Nat) : List (Nat × Nat) :=
  match g.content i with
  | .mapping pairs => pairs
  | _ => []

/-- The nodes with one more. -/
def push (g : Nodes) (n : Node) : Nodes :=
  ⟨g.all.push n⟩

/-- The nodes, of which one has another tag. -/
def setTag (g : Nodes) (i : Nat) (tag : Tag) : Nodes :=
  ⟨g.all.setIfInBounds i { g.get i with tag }⟩

/-- The nodes, of which one holds something else. -/
def setContent (g : Nodes) (i : Nat) (content : Content) : Nodes :=
  ⟨g.all.setIfInBounds i { g.get i with content }⟩

end Nodes

/-- What has been read and what the nodes that follow depend on. -/
structure Composer where
  tokens : List Token
  nodes : Nodes := ⟨#[]⟩
  /-- The numbers of the nodes that have an anchor. -/
  anchors : List (String × Nat) := []
  /-- What the handles of tags stand for. -/
  handles : List (String × String) := []

/-- A reader of nodes, which yields their numbers. -/
abbrev Compose := StateT Composer (Except Fault)

namespace Compose

/-- What handles stand for unless a directive says otherwise. -/
def defaultHandles : List (String × String) :=
  [("!", "!"), ("!!", "tag:yaml.org,2002:")]

/-- The next token; a fault where the text cannot be read any further. -/
def peek : Compose Token := do
  match (← get).tokens with
  | [] => return .streamEnd
  | .broken f :: _ => throw f
  | t :: _ => return t

/-- Passes over the next token. -/
def advance : Compose Unit :=
  modify fun s => { s with tokens := s.tokens.tail }

/-- The full name of a tag. -/
def tagName (handle? : Option String) (suffix : String) : Compose String := do
  match handle? with
  | none => return suffix
  | some handle =>
    match (← get).handles.lookup handle with
    | some start => return start ++ suffix
    | none => throw .malformed

/-- The anchor that comes next, if one does. -/
def anchor? : Compose (Option String) := do
  match ← peek with
  | .anchor name =>
    advance
    return some name
  | _ => return none

/-- The tag that comes next as it is written, if one does. -/
def tag? : Compose (Option (Option String × String)) := do
  match ← peek with
  | .tag handle suffix =>
    advance
    return some (handle, suffix)
  | _ => return none

/-- The anchor and the tag of a node as they are written, in either order. -/
def writtenMarks : Compose (Option String × Option (Option String × String)) := do
  match ← anchor? with
  | some name => return (some name, ← tag?)
  | none =>
    let tag ← tag?
    return (← anchor?, tag)

/-- The anchor and the full name of the tag of a node. -/
def marks : Compose (Option String × Option String) := do
  match ← writtenMarks with
  | (anchor, none) => return (anchor, none)
  | (anchor, some (handle, suffix)) => return (anchor, some (← tagName handle suffix))

/-- A tag that stands for itself or for none, or else a default. -/
def tagOr (tag? : Option String) (default : Tag) : Tag :=
  match tag? with
  | none => default
  | some "!" => default
  | some name => Tag.ofName name

/-- The tag of a scalar. -/
def scalarTag (tag? : Option String) (text : Wide) (plain : Bool) : Tag :=
  tagOr tag? (if plain || tag? == some "!" then Tag.resolve text else .text)

/-- Fails for an anchor that another node has. -/
def newAnchor (anchor? : Option String) : Compose Unit := do
  match anchor? with
  | none => return
  | some name => if ((← get).anchors.lookup name).isSome then throw .malformed

/-- Adds a node, to which its anchor refers from here on. -/
def add (anchor? : Option String) (n : Node) : Compose Nat := do
  let s ← get
  let i := s.nodes.size
  set { s with nodes := s.nodes.push n, anchors := (anchor?.map (·, i)).toList ++ s.anchors }
  return i

/-- Gives a node what it holds. -/
def fill (i : Nat) (content : Content) : Compose Nat := do
  modify fun s => { s with nodes := s.nodes.setContent i content }
  return i

/-- A sequence, which its items may refer to. -/
def sequence (anchor? tag? : Option String) (items : Compose (List Nat)) : Compose Nat := do
  let i ← add anchor? ⟨tagOr tag? .sequence, .sequence []⟩
  fill i (.sequence (← items))

/-- A mapping, which its pairs may refer to. -/
def mapping (anchor? tag? : Option String) (pairs : Compose (List (Nat × Nat))) : Compose Nat := do
  let i ← add anchor? ⟨tagOr tag? .mapping, .mapping []⟩
  fill i (.mapping (← pairs))

/-- The node that an alias stands for. -/
def aliased (name : String) : Compose Nat := do
  match (← get).anchors.lookup name with
  | none => throw .malformed
  | some i => return i

/-- An empty scalar, where a node is left out. -/
def empty : Compose Nat :=
  add none .empty

mutual

/-- A node. Outside flow collections it may be a block collection, and as the value
of a mapping a sequence without indentation. -/
def node (inBlock unindented : Bool) : (limit : Nat) → Compose Nat
  | 0 => throw .malformed
  | limit + 1 => do
    match ← peek with
    | .aliasTo name =>
      advance
      aliased name
    | _ =>
      let (anchor, tag) ← marks
      -- The content is looked at before the anchor is.
      let _ ← peek
      newAnchor anchor
      content inBlock unindented anchor tag limit

/-- The content of a node behind its anchor and its tag. -/
def content (inBlock unindented : Bool) (anchor? tag? : Option String) :
    (limit : Nat) → Compose Nat
  | 0 => throw .malformed
  | limit + 1 => do
    match ← peek with
    | .scalar text plain =>
      advance
      add anchor? ⟨scalarTag tag? text plain, .scalar text⟩
    | .flowSequenceStart =>
      advance
      sequence anchor? tag? (flowItems true limit)
    | .flowMappingStart =>
      advance
      mapping anchor? tag? (flowPairs true limit)
    | t =>
      if unindented && t == .blockEntry then
        sequence anchor? tag? (unindentedItems limit)
      else if inBlock && t == .blockSequenceStart then
        advance
        sequence anchor? tag? (blockItems limit)
      else if inBlock && t == .blockMappingStart then
        advance
        mapping anchor? tag? (blockPairs limit)
      else if anchor?.isSome || tag?.isSome then
        add anchor? ⟨scalarTag tag? ⟨[]⟩ true, .scalar ⟨[]⟩⟩
      else throw .malformed

/-- A block node, or nothing before one of the tokens that end it. -/
def blockNodeUnless (ends : List Token) (unindented : Bool) : (limit : Nat) → Compose Nat
  | 0 => throw .malformed
  | limit + 1 => do
    if ends.contains (← peek) then empty else node true unindented limit

/-- A flow node, or nothing before one of the tokens that end it. -/
def flowNodeUnless (ends : List Token) : (limit : Nat) → Compose Nat
  | 0 => throw .malformed
  | limit + 1 => do
    if ends.contains (← peek) then empty else node false false limit

/-- The items of a block sequence up to its end. -/
def blockItems : (limit : Nat) → Compose (List Nat)
  | 0 => throw .malformed
  | limit + 1 => do
    match ← peek with
    | .blockEntry =>
      advance
      let n ← blockNodeUnless [.blockEntry, .blockEnd] false limit
      return n :: (← blockItems limit)
    | .blockEnd =>
      advance
      return []
    | _ => throw .malformed

/-- The items of a sequence that is not indented. -/
def unindentedItems : (limit : Nat) → Compose (List Nat)
  | 0 => throw .malformed
  | limit + 1 => do
    match ← peek with
    | .blockEntry =>
      advance
      let n ← blockNodeUnless [.blockEntry, .key, .value, .blockEnd] false limit
      return n :: (← unindentedItems limit)
    | _ => return []

/-- The value behind a key of a block mapping. -/
def blockValue : (limit : Nat) → Compose Nat
  | 0 => throw .malformed
  | limit + 1 => do
    match ← peek with
    | .value =>
      advance
      blockNodeUnless [.key, .value, .blockEnd] true limit
    | _ => empty

/-- The pairs of a block mapping up to its end. -/
def blockPairs : (limit : Nat) → Compose (List (Nat × Nat))
  | 0 => throw .malformed
  | limit + 1 => do
    match ← peek with
    | .key =>
      advance
      let k ← blockNodeUnless [.key, .value, .blockEnd] true limit
      let v ← blockValue limit
      return (k, v) :: (← blockPairs limit)
    | .blockEnd =>
      advance
      return []
    | _ => throw .malformed

/-- The value behind a key inside brackets or braces. -/
def flowValue (close : Token) : (limit : Nat) → Compose Nat
  | 0 => throw .malformed
  | limit + 1 => do
    match ← peek with
    | .value =>
      advance
      flowNodeUnless [.flowEntry, close] limit
    | _ => empty

/-- A pair inside brackets or braces, of which the mark of the key is next. -/
def flowPair (close : Token) : (limit : Nat) → Compose (Nat × Nat)
  | 0 => throw .malformed
  | limit + 1 => do
    advance
    let k ← flowNodeUnless [.value, .flowEntry, close] limit
    let v ← flowValue close limit
    return (k, v)

/-- The items between brackets. A pair among them is a mapping. -/
def flowItems (first : Bool) : (limit : Nat) → Compose (List Nat)
  | 0 => throw .malformed
  | limit + 1 => do
    if (← peek) == .flowSequenceEnd then
      advance
      return []
    if !first then
      if (← peek) == .flowEntry then advance else throw .malformed
    let t ← peek
    if t == .key then
      let pair ← flowPair .flowSequenceEnd limit
      let n ← add none ⟨.mapping, .mapping [pair]⟩
      return n :: (← flowItems false limit)
    else if t == .flowSequenceEnd then
      advance
      return []
    else
      let n ← node false false limit
      return n :: (← flowItems false limit)

/-- The pairs between braces. A key may stand alone. -/
def flowPairs (first : Bool) : (limit : Nat) → Compose (List (Nat × Nat))
  | 0 => throw .malformed
  | limit + 1 => do
    if (← peek) == .flowMappingEnd then
      advance
      return []
    if !first then
      if (← peek) == .flowEntry then advance else throw .malformed
    let t ← peek
    if t == .key then
      let pair ← flowPair .flowMappingEnd limit
      return pair :: (← flowPairs false limit)
    else if t == .flowMappingEnd then
      advance
      return []
    else
      let n ← node false false limit
      return (n, ← empty) :: (← flowPairs false limit)

end

/-- The directives before a document. -/
def directives (versioned : Bool) (handles : List (String × String)) :
    (limit : Nat) → Compose (List (String × String))
  | 0 => throw .malformed
  | limit + 1 => do
    match ← peek with
    | .directive (.version major) =>
      advance
      if versioned || major != 1 then throw .malformed
      directives true handles limit
    | .directive (.tagHandle handle start) =>
      advance
      if (handles.lookup handle).isSome then throw .malformed
      directives versioned ((handle, start) :: handles) limit
    | .directive .other =>
      advance
      directives versioned handles limit
    | _ => return handles

/-- Passes over the marks that end documents. -/
def documentEnds : (limit : Nat) → Compose Unit
  | 0 => return
  | limit + 1 => do
    if (← peek) == .documentEnd then
      advance
      documentEnds limit

/-- A document that starts with its directives or its mark. -/
def explicitDocument (limit : Nat) : Compose Nat := do
  let handles ← directives false [] limit
  if (← peek) != .documentStart then throw .malformed
  advance
  modify fun s => { s with handles := handles ++ defaultHandles }
  match ← peek with
  | .directive _ => empty
  | .documentStart => empty
  | .documentEnd => empty
  | .streamEnd => empty
  | _ => node true false limit

/-- The only document of a text, if there is one. -/
def document (limit : Nat) : Compose (Option Nat) := do
  let n? ← match ← peek with
    | .directive _ => some <$> explicitDocument limit
    | .documentStart => some <$> explicitDocument limit
    | .streamEnd => pure none
    | _ => do
      modify fun s => { s with handles := defaultHandles }
      some <$> node true false limit
  documentEnds limit
  if (← peek) == .streamEnd then return n?
  else
    let _ ← directives false [] limit
    throw .malformed

end Compose

/-- The nodes of a document and the number of the outermost one. -/
structure Document where
  nodes : Nodes
  root : Nat
  deriving DecidableEq, Repr

/-- The only document that tokens form, if there is one. -/
def Document.ofTokens (ts : List Token) : Except Fault (Option Document) := do
  let (root?, s) ← (Compose.document (4 * ts.length + 4)).run { tokens := ts }
  return root?.map fun root => ⟨s.nodes, root⟩

end ComponentCatalog.Yaml
