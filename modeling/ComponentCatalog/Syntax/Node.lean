/-!
# Syntax trees

A component source is read through its syntax tree. A node has a *kind*, the
*role* it plays in its parent, the span of source characters it covers, and
its children in document order. Nothing is thrown away: every keyword and every
punctuation mark is a leaf of its own, so that the presence of `static` or of a
question mark is a question about children, and comments are nodes as well,
placed where they were written.

Only the kinds that some reader of trees asks about have a constructor of their
own; the remaining statements, expressions, types and clauses are told apart by
their broad family alone. A leaf for a keyword or a punctuation mark is a
`Kind.token`, and those are exactly the nodes without a name.

A traversal lists the nodes of a tree in document order, each node before its
descendants. `preorder` says so by recursion on the tree; `walk` is the same
list made with an explicit stack, which is the one that runs.
-/

namespace ComponentCatalog.Syntax

/-- The part a node plays in its parent. -/
inductive Role where
  | name
  | body
  | value
  | type
  | returnType
  | parameters
  | pattern
  | key
  | function
  | arguments
  | property
  | left
  | right
  | operator
  deriving DecidableEq, Repr

/-- What a node stands for. -/
inductive Kind where
  /-- A keyword or a punctuation mark, by its text. -/
  | token (text : String)
  | comment
  /-- Characters that no rule of the grammar accounts for. -/
  | error
  | program
  /-- Any statement that has no kind of its own. -/
  | statement
  /-- Any declaration that has no kind of its own. -/
  | declaration
  | exportStatement
  | classDeclaration
  | abstractClassDeclaration
  /-- A class used as an expression. -/
  | classExpression
  | interfaceDeclaration
  | typeAliasDeclaration
  | variableDeclarator
  | classHeritage
  | extendsClause
  | extendsTypeClause
  | classBody
  | interfaceBody
  | fieldDefinition
  | methodDefinition
  | propertySignature
  | methodSignature
  /-- Any class or interface member that has no kind of its own. -/
  | member
  | accessibilityModifier
  | overrideModifier
  | decorator
  | identifier
  | typeIdentifier
  | propertyIdentifier
  | privateIdentifier
  | computedName
  | string
  | number
  | regex
  | templateString
  | templateSubstitution
  /-- A run of plain characters of a template. -/
  | templateText
  /-- An escape sequence of a template. -/
  | templateEscape
  | object
  | pair
  | shorthandProperty
  | array
  | parenthesizedExpression
  | asExpression
  | satisfiesExpression
  | binaryExpression
  | assignmentExpression
  | memberExpression
  | callExpression
  | arguments
  | arrowFunction
  /-- Any expression that has no kind of its own. -/
  | expression
  /-- A binding pattern that is not a plain name. -/
  | bindingPattern
  | formalParameters
  | requiredParameter
  | optionalParameter
  | typeClause
  /-- The result of a function that tests or asserts something of its
  argument. -/
  | predicateClause
  | typeParameters
  | typeArguments
  | unionType
  | parenthesizedType
  | functionType
  | genericType
  /-- Any type that has no kind of its own. -/
  | typeExpression
  /-- A piece of an element literal. -/
  | element
  /-- Any other part of a phrase. -/
  | clause
  deriving DecidableEq, Repr

/-- Whether nodes of a kind have a name, that is, are neither keywords nor
punctuation. -/
def Kind.isNamed : Kind → Bool
  | .token _ => false
  | _ => true

/-- A node of a syntax tree. The span runs from `start` up to, but not
including, `stop`, counted in characters of the source. -/
inductive Node where
  | mk (kind : Kind) (role : Option Role) (start stop : Nat) (children : List Node)

namespace Node

/-- What the node stands for. -/
def kind : Node → Kind
  | mk k _ _ _ _ => k

/-- The part the node plays in its parent, if the grammar names one. -/
def role : Node → Option Role
  | mk _ r _ _ _ => r

/-- The position of the node's first character. -/
def start : Node → Nat
  | mk _ _ s _ _ => s

/-- The position just after the node's last character. -/
def stop : Node → Nat
  | mk _ _ _ e _ => e

/-- The children, in document order. -/
def children : Node → List Node
  | mk _ _ _ _ cs => cs

/-- The same node in another role. -/
def withRole (r : Role) : Node → Node
  | mk k _ s e cs => mk k (some r) s e cs

mutual

/-- Decides whether two nodes are equal. -/
def decEq : (n m : Node) → Decidable (n = m)
  | mk k r s e cs, mk k' r' s' e' cs' =>
    haveI := decEqAll cs cs'
    decidable_of_iff (k = k' ∧ r = r' ∧ s = s' ∧ e = e' ∧ cs = cs') (by simp)

/-- Decides whether two lists of nodes are equal. -/
def decEqAll : (ns ms : List Node) → Decidable (ns = ms)
  | [], [] => isTrue rfl
  | [], _ :: _ => isFalse (by simp)
  | _ :: _, [] => isFalse (by simp)
  | n :: ns, m :: ms =>
    haveI := decEq n m
    haveI := decEqAll ns ms
    decidable_of_iff (n = m ∧ ns = ms) (by simp)

end

instance : DecidableEq Node :=
  decEq

/-- Whether the node is neither a keyword nor punctuation. -/
def isNamed (n : Node) : Bool :=
  n.kind.isNamed

/-- The children that are neither keywords nor punctuation, in order. -/
def namedChildren (n : Node) : List Node :=
  n.children.filter isNamed

/-- The first child in a given role. -/
def inRole? (n : Node) (r : Role) : Option Node :=
  n.children.find? fun c => c.role == some r

/-- The first child of one of the given kinds. -/
def firstOf? (n : Node) (kinds : List Kind) : Option Node :=
  n.children.find? fun c => kinds.contains c.kind

/-- Whether a given keyword or punctuation mark stands among the children. -/
def hasToken (n : Node) (text : String) : Bool :=
  n.children.any fun c => c.kind == .token text

/-! ## Document order -/

mutual

/-- The node and its descendants, each node before its descendants and
siblings from left to right. -/
def preorder : Node → List Node
  | mk k r s e cs => mk k r s e cs :: preorderAll cs

/-- The nodes of several trees, one tree after the other. -/
def preorderAll : List Node → List Node
  | [] => []
  | n :: ns => preorder n ++ preorderAll ns

end

mutual

/-- The number of nodes of a tree. -/
def count : Node → Nat
  | mk _ _ _ _ cs => countAll cs + 1

/-- The number of nodes of several trees. -/
def countAll : List Node → Nat
  | [] => 0
  | n :: ns => count n + countAll ns

end

theorem countAll_append (ns ms : List Node) :
    countAll (ns ++ ms) = countAll ns + countAll ms := by
  induction ns with
  | nil => simp [countAll]
  | cons n ns ih => simp [countAll, ih, Nat.add_assoc]

theorem countAll_children_lt (n : Node) : countAll n.children < count n := by
  cases n
  simp [children, count]

theorem count_pos (n : Node) : 0 < count n :=
  Nat.lt_of_le_of_lt (Nat.zero_le _) (countAll_children_lt n)

theorem count_le_countAll {n : Node} {ns : List Node} (h : n ∈ ns) : count n ≤ countAll ns := by
  induction ns with
  | nil => cases h
  | cons m ns ih =>
    rw [countAll]
    rcases List.mem_cons.1 h with rfl | h
    · exact Nat.le_add_right _ _
    · exact Nat.le_trans (ih h) (Nat.le_add_left _ _)

/-- A child has fewer nodes than its parent. -/
theorem count_lt_of_mem_children {m n : Node} (h : m ∈ n.children) : count m < count n :=
  Nat.lt_of_le_of_lt (count_le_countAll h) (countAll_children_lt n)

theorem countAll_filter_le (p : Node → Bool) (ns : List Node) :
    countAll (ns.filter p) ≤ countAll ns := by
  induction ns with
  | nil => exact Nat.le_refl _
  | cons n ns ih =>
    rw [List.filter_cons, countAll]
    split
    · exact Nat.add_le_add_left ih _
    · exact Nat.le_trans ih (Nat.le_add_left _ _)

theorem mem_children_of_inRole? {n m : Node} {r : Role} (h : n.inRole? r = some m) :
    m ∈ n.children :=
  List.mem_of_find?_eq_some h

theorem mem_children_of_head?_namedChildren {n m : Node} (h : n.namedChildren.head? = some m) :
    m ∈ n.children :=
  (List.mem_filter.1 (List.mem_of_mem_head? h)).1

/-- The nodes listed so far, last first, and then those of the trees on a stack,
in document order: the top tree is taken off, and its children are put in its
place. -/
def walkFrom (done stack : List Node) : List Node :=
  match stack with
  | [] => done.reverse
  | n :: rest => walkFrom (n :: done) (n.children ++ rest)
  termination_by countAll stack
  decreasing_by
    have := countAll_children_lt n
    simp only [countAll_append, countAll]
    omega

/-- The node and its descendants in document order. -/
def walk (n : Node) : List Node :=
  walkFrom [] [n]

/-- The nodes of the trees on a stack, in document order, each with the node it
is a child of, after those listed so far. -/
def walkWithParents (done stack : List (Option Node × Node)) : List (Option Node × Node) :=
  match stack with
  | [] => done.reverse
  | (p, n) :: rest =>
    walkWithParents ((p, n) :: done) (n.children.map (fun c => (some n, c)) ++ rest)
  termination_by countAll (stack.map Prod.snd)
  decreasing_by
    have := countAll_children_lt n
    simp only [List.map_append, List.map_map, List.map_cons, countAll_append, countAll]
    have h : n.children.map (Prod.snd ∘ fun c => (some n, c)) = n.children := by
      simp [Function.comp_def]
    rw [h]
    omega

/-- The named nodes of a tree whose kind is one of those given, in document
order. -/
def ofKinds (n : Node) (kinds : List Kind) : List Node :=
  n.walk.filter fun m => m.isNamed && kinds.contains m.kind

end Node

end ComponentCatalog.Syntax
