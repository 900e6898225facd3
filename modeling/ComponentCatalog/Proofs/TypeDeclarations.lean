import ComponentCatalog.Proofs.DocumentOrder
import ComponentCatalog.Proofs.TypeReading

/-!
# A type that is read in a declaration

To read a type by itself, it is put behind `type EventType =` and the whole is read as a source.
Whatever the type is like, and even if it is no type at all, the first words are read as the
beginning of a declaration: the word `type` stands there, a name follows, and then an equals
sign. So the first statement of the source is the declaration of the type, or there is none, and
then some characters fit no rule and the tree is flawed. In a tree without a flaw the first
declaration of a type therefore has a value, and the value is a type as it is read.

The tokens of the beginning are found by running the readers on the characters that are known
(`WordAt`). Of the rest of the source nothing is known, and nothing is used.
-/

namespace ComponentCatalog.Syntax

namespace Parse

/-! ## Trying and looking ahead -/

section Trying

variable {α : Type} {i : Input} {c d : Cursor} {x : Parse α}

theorem option_of_ok {a : α} (h : x i c = .ok a d) : option x i c = .ok (some a) d := by
  refine (bind_of_ok (a := Except.error (some a)) (tryCatch_of_ok ?_)).trans rfl
  exact (bind_of_ok h).trans rfl

/-- What does not succeed is passed over. -/
theorem option_of_error {u : Unit} (h : x i c = .error u d) :
    option x i c = .ok none { d with pos := c.pos } := by
  refine (bind_of_ok (a := Except.error none) ((tryCatch_of_error (u := u) ?_).trans rfl)).trans
    rfl
  exact bind_of_error h

theorem maybe_of_error {x : Parse Node} {u : Unit} (h : x i c = .error u d) :
    maybe x i c = .ok [] { d with pos := c.pos } := by
  refine (bind_of_ok (a := Except.error []) ((tryCatch_of_error (u := u) ?_).trans rfl)).trans rfl
  exact bind_of_error h

theorem succeeds_of_ok {a : α} (h : x i c = .ok a d) :
    succeeds x i c = .ok true { d with pos := c.pos } := by
  refine (bind_of_ok (show here i c = .ok c.pos c from rfl)).trans ?_
  refine (bind_of_ok (a := Except.error true) (tryCatch_of_ok ?_)).trans rfl
  exact (bind_of_ok h).trans rfl

end Trying

section Looking

variable (i : Input) (c : Cursor)

theorem read_eq : (read : Parse Input) i c = .ok i c := rfl

theorem here_eq : here i c = .ok c.pos c := rfl

theorem ahead_eq : ahead i c = .ok (tokenStart i.chars c.pos false (i.chars.size + 1)) c := rfl

theorem peek_eq :
    peek i c = .ok i.chars[(tokenStart i.chars c.pos false (i.chars.size + 1)).1]? c := rfl

theorem looksAt_eq (text : String) :
    looksAt text i c = .ok (spells i.chars
      (tokenStart i.chars c.pos false (i.chars.size + 1)).1 text.toList) c := rfl

end Looking

/-! ## Words -/

section Words

variable {chars : Array Char} {p q limit : Nat}

/-- A token starts where there is no blank and no comment. -/
theorem tokenStart_of_token {c : Char} (h : chars[p]? = some c) (hspace : isSpace c = false)
    (hslash : c ≠ '/') (crossed : Bool) :
    tokenStart chars p crossed (limit + 1) = (p, crossed) := by
  simp [tokenStart, h, hspace, commentEnd?, hslash]

/-- Blanks are skipped. -/
theorem tokenStart_of_space (h : chars[p]? = some ' ') (crossed : Bool) :
    tokenStart chars p crossed (limit + 1) = tokenStart chars (p + 1) crossed limit := by
  have hspace : isSpace ' ' = true := by decide
  simp [tokenStart, h, hspace]

/-- A name goes on to the blank behind it. -/
theorem nameEnd_of_spells {w : List Char} (hspells : spells chars p w = true)
    (hname : ∀ c ∈ w, isNameChar c = true) (hend : chars[p + w.length]? = some ' ')
    (hlimit : w.length < limit) : nameEnd chars p limit = p + w.length := by
  induction w generalizing p limit with
  | nil =>
    obtain ⟨limit, rfl⟩ := Nat.exists_eq_add_one.2 hlimit
    have h : chars[p]? = some ' ' := by simpa using hend
    have hspace : isNameChar ' ' = false := by decide
    simp [nameEnd, h, escapeEnd?, hspace]
  | cons c w ih =>
    obtain ⟨limit, rfl⟩ := Nat.exists_eq_add_one.2 (Nat.zero_lt_of_lt hlimit)
    have hc := getElem?_of_spells hspells
    rw [spells, Bool.and_eq_true] at hspells
    rw [List.length_cons, ← Nat.add_assoc, Nat.add_right_comm] at hend
    have hrest := ih hspells.2 (fun x hx => hname x (List.mem_cons_of_mem _ hx)) hend
      (Nat.lt_of_succ_lt_succ hlimit)
    rw [nameEnd, hc]
    simp only [hname c List.mem_cons_self, if_true, hrest, List.length_cons]
    omega

theorem extract_of_spells {w : List Char} (h : spells chars p w = true) :
    (chars.extract p (p + w.length)).toList = w := by
  suffices hlist : (chars.toList.drop p).take w.length = w by
    simpa [Array.toList_extract] using hlist
  induction w generalizing p with
  | nil => rfl
  | cons c w ih =>
    have hc : chars.toList[p]? = some c := by
      rw [Array.getElem?_toList]
      exact getElem?_of_spells h
    rw [spells, Bool.and_eq_true] at h
    rw [List.drop_eq_getElem?_toList_append, hc]
    exact congrArg (c :: ·) (ih h.2)

/-- **A word is the next token** from the position `p` on: it stands at `q`, and a space
follows. -/
structure WordAt (chars : Array Char) (p q : Nat) (w : String) : Prop where
  start : (tokenStart chars p false (chars.size + 1)).1 = q
  spelled : spells chars q w.toList = true
  begins : w.toList.head?.any isNameStart = true
  named : w.toList.all isNameChar = true
  space : chars[q + w.length]? = some ' '

namespace WordAt

variable {i : Input} {w : String} (h : WordAt i.chars p q w) (failed : Trials)

include h

theorem nameBegins_eq : nameBegins i.chars q = true := by
  obtain ⟨c, hhead, hc⟩ := (Option.any_eq_true _ _).1 h.begins
  obtain ⟨cs, hcs⟩ := List.head?_eq_some_iff.1 hhead
  rw [nameBegins, getElem?_of_spells (hcs ▸ h.spelled)]
  simp only [hc, Bool.true_or]

theorem nameEnd_eq : nameEnd i.chars q i.chars.size = q + w.length := by
  have hsize : q + w.length < i.chars.size := (Array.getElem?_eq_some_iff.1 h.space).1
  rw [← String.length_toList] at hsize ⊢
  exact nameEnd_of_spells h.spelled (List.all_eq_true.1 h.named) h.space (by omega)

/-- The word ahead is the one that is spelt there. -/
theorem wordAhead_eq : wordAhead i ⟨p, failed⟩ = .ok w ⟨p, failed⟩ := by
  have htext : String.ofList (i.chars.extract q (q + w.length)).toList = w := by
    rw [← String.length_toList, extract_of_spells h.spelled, String.ofList_toList]
  rw [wordAhead, bind_of_ok (ahead_eq i _), bind_of_ok (read_eq i _)]
  simp only [h.start, h.nameBegins_eq, if_true, h.nameEnd_eq, htext]
  rfl

theorem atWord_eq : atWord w i ⟨p, failed⟩ = .ok true ⟨p, failed⟩ := by
  rw [atWord, bind_of_ok (h.wordAhead_eq failed), beq_self_eq_true]
  rfl

/-- A word that is spelt ahead is read as a name. -/
theorem name_eq (kind : Kind) : name kind i ⟨p, failed⟩
    = .ok (.mk kind none q (q + w.length) []) ⟨q + w.length, failed⟩ := by
  have hgap : skipGap i ⟨p, failed⟩ = .ok () ⟨q, failed⟩ := by
    rw [← h.start]
    rfl
  rw [name, bind_of_ok hgap, bind_of_ok (here_eq i _), bind_of_ok (read_eq i _)]
  simp only [h.nameBegins_eq, h.nameEnd_eq]
  rfl

/-- A word that is spelt ahead is read as that word. -/
theorem word_eq : word w i ⟨p, failed⟩
    = .ok (.mk (.token w) none q (q + w.length) []) ⟨q + w.length, failed⟩ := by
  rw [word, bind_of_ok (h.atWord_eq failed)]
  exact h.name_eq failed _

end WordAt

end Words

/-! ## The first statement -/

section Declaring

/-- How a declaration begins that a type is read in. -/
def declarationStart : List Char := "type EventType = ".toList

/-- A source that declares a type, with all that comes after the equals sign. -/
def declaring (rest : List Char) : Input := ⟨(declarationStart ++ rest).toArray, .typescript⟩

variable (rest : List Char)

/-- The declaration begins in the same way, whatever type it is for. -/
theorem getElem?_declaring {k : Nat} (h : k < 17) :
    (declaring rest).chars[k]? = declarationStart[k]? := by
  have hlength : declarationStart.length = 17 := by decide
  rw [declaring, List.getElem?_toArray, List.getElem?_append_left (by omega)]

theorem size_declaring : (declaring rest).chars.size = 17 + rest.length := by
  have hlength : declarationStart.length = 17 := by decide
  rw [declaring, List.size_toArray, List.length_append, hlength]

/-- The beginning of the declaration spells the same words for every type. -/
theorem spells_declaring {w : List Char} {k : Nat} (hk : k + w.length ≤ 17) :
    spells (declaring rest).chars k w = spells declarationStart.toArray k w := by
  induction w generalizing k with
  | nil => rfl
  | cons c w ih =>
    rw [List.length_cons] at hk
    rw [spells, spells, getElem?_declaring rest (by omega), List.getElem?_toArray,
      ih (by omega)]

/-- After a space that is known, the next token is known. -/
theorem tokenStart_declaring {k : Nat} (c : Char) (hk : k + 1 < 17)
    (hspace : declarationStart[k]? = some ' ') (hc : declarationStart[k + 1]? = some c)
    (hplain : isSpace c = false) (hslash : c ≠ '/') :
    tokenStart (declaring rest).chars k false ((declaring rest).chars.size + 1)
      = (k + 1, false) := by
  have hsize : (declaring rest).chars.size = 16 + rest.length + 1 := by
    rw [size_declaring]
    omega
  rw [tokenStart_of_space (by rw [getElem?_declaring rest (by omega), hspace]), hsize]
  exact tokenStart_of_token (by rw [getElem?_declaring rest hk, hc]) hplain hslash false

theorem wordAt_type : WordAt (declaring rest).chars 0 0 "type" where
  start := by
    rw [tokenStart_of_token (c := 't') (getElem?_declaring rest (by decide)) (by decide)
      (by decide)]
  spelled := by
    rw [spells_declaring rest (by decide)]
    decide
  begins := by decide
  named := by decide
  space := getElem?_declaring rest (by decide)

theorem wordAt_eventType : WordAt (declaring rest).chars 4 5 "EventType" where
  start := by
    rw [tokenStart_declaring rest 'E' (by decide) (by decide) (by decide) (by decide) (by decide)]
  spelled := by
    rw [spells_declaring rest (by decide)]
    decide
  begins := by decide
  named := by decide
  space := getElem?_declaring rest (by decide)

variable (failed : Trials)

/-- The sign after the name is an equals sign, and not the first of two. -/
theorem looksAt_declaring {text : String} (h : 15 + text.toList.length ≤ 17) :
    looksAt text (declaring rest) ⟨14, failed⟩
      = .ok (spells declarationStart.toArray 15 text.toList) ⟨14, failed⟩ := by
  have hstart := tokenStart_declaring rest (k := 14) '=' (by decide) (by decide) (by decide)
    (by decide) (by decide)
  rw [looksAt_eq, hstart, spells_declaring rest h]

/-- What lies ahead is a declaration. -/
theorem declarationAhead_declaring :
    declarationAhead (declaring rest) ⟨0, failed⟩ = .ok true ⟨0, failed⟩ := by
  have hword : word "type" (declaring rest) ⟨0, failed⟩
      = .ok (.mk (.token "type") none 0 4 []) ⟨4, failed⟩ := (wordAt_type rest).word_eq failed
  have hname : name .typeIdentifier (declaring rest) ⟨4, failed⟩
      = .ok (.mk .typeIdentifier none 5 14 []) ⟨14, failed⟩ :=
    (wordAt_eventType rest).name_eq failed _
  rw [declarationAhead, bind_of_ok ((wordAt_type rest).wordAhead_eq failed)]
  refine succeeds_of_ok (a := ()) (d := ⟨14, failed⟩) ?_
  rw [bind_of_ok hword, bind_of_ok hname, bind_of_ok (looksAt_declaring rest failed (by decide)),
    bind_of_ok (looksAt_declaring rest failed (by decide)),
    bind_of_ok (looksAt_declaring rest failed (by decide))]
  rfl

theorem peek_declaring : peek (declaring rest) ⟨0, failed⟩ = .ok (some 't') ⟨0, failed⟩ := by
  rw [peek_eq, (wordAt_type rest).start]
  exact congrArg (EStateM.Result.ok · _) (getElem?_declaring rest (by decide))

/-- **The first statement is the declaration.** -/
theorem statementRule_declaring (g : Grammar) :
    statementRule g (declaring rest) ⟨0, failed⟩ = typeAlias g (declaring rest) ⟨0, failed⟩ := by
  rw [statementRule, bind_of_ok (peek_declaring rest failed)]
  refine (bind_of_ok (declarationAhead_declaring rest failed)).trans ?_
  rw [if_pos rfl, declaration, bind_of_ok (read_eq _ _), declarationAfter,
    bind_of_ok ((wordAt_type rest).wordAhead_eq failed)]
  rfl

/-! ## All statements -/

variable {rest failed}

/-- Statements are added behind those that have been read, and a flaw stays. -/
theorem yields_statements {i : Input} (g : Grammar) (done : List Node) (flawed : Bool)
    (limit : Nat) :
    Yields i (statements g done flawed limit) fun r =>
      (∃ more, r.1 = done.reverse ++ more) ∧ (flawed = true → r.2 = true) := by
  induction limit generalizing done flawed with
  | zero => exact .pure ⟨⟨[], (List.append_nil _).symm⟩, fun _ => rfl⟩
  | succ limit ih =>
    have hstep (n : Node) (flawed' : Bool) (hflaw : flawed = true → flawed' = true) :
        Yields i (statements g (n :: done) flawed' limit) fun r =>
          (∃ more, r.1 = done.reverse ++ more) ∧ (flawed = true → r.2 = true) := by
      refine (ih (n :: done) flawed').mono fun r hr => ⟨?_, fun h => hr.2 (hflaw h)⟩
      obtain ⟨more, hmore⟩ := hr.1
      exact ⟨n :: more, by rw [hmore, List.reverse_cons, List.append_assoc]; rfl⟩
    unfold statements
    refine .after fun ended => .ite ?_ (.after fun next => ?_)
    · exact .pure ⟨⟨[], (List.append_nil _).symm⟩, id⟩
    · split
      · exact hstep _ _ id
      · exact .after fun t => hstep t true fun _ => rfl

/-- Without a flaw the first statement declares a type. -/
theorem exists_of_statements_declaring {fuel limit : Nat} {nodes : List Node} {d : Cursor}
    (h : statements (grammarUpTo (fuel + 1)) [] false (limit + 1) (declaring rest) ⟨0, failed⟩
      = .ok (nodes, false) d) :
    ∃ a more v, nodes = a :: more ∧ a.kind = .typeAliasDeclaration
      ∧ a.inRole? .value = some v ∧ IsRead (declaring rest).chars v := by
  have hend : atEnd (declaring rest) ⟨0, failed⟩ = .ok false ⟨0, failed⟩ :=
    bind_of_ok (peek_declaring rest failed)
  have hrule : grammarUpTo (fuel + 1) .statement = statementRule (grammarUpTo fuel) := rfl
  rw [statements, bind_of_ok hend, if_neg Bool.false_ne_true] at h
  cases hread : typeAlias (grammarUpTo fuel) (declaring rest) ⟨0, failed⟩ with
  | ok a d' =>
    rw [hrule, bind_of_ok (option_of_ok ((statementRule_declaring _ _ _).trans hread))] at h
    obtain ⟨⟨more, hmore⟩, -⟩ := yields_statements _ _ _ _ _ _ _ h
    obtain ⟨hkind, v, hv, hv'⟩ :=
      (ReadsTypes.grammarUpTo _ fuel).yields_typeAlias _ _ _ hread
    exact ⟨a, more, v, hmore, hkind, hv, hv'⟩
  | error u d' =>
    rw [hrule, bind_of_ok (option_of_error ((statementRule_declaring _ _ _).trans hread))] at h
    have hflaw : Yields (declaring rest) (anyToken >>= fun t =>
        statements (grammarUpTo (fuel + 1)) [t] true limit) fun r => r.2 = true :=
      .after fun t => (yields_statements _ [t] true limit).mono fun r hr => hr.2 rfl
    exact absurd (hflaw _ _ _ h) Bool.false_ne_true

end Declaring

end Parse

/-! ## Comments in the tree -/

section Comments

variable {chars : Array Char}

/-- All that is added between two nodes are comments. -/
theorem mem_commentsBetween {p stop limit : Nat} {m : Node}
    (h : m ∈ commentsBetween chars p stop limit) : ∃ s e, m = .mk .comment none s e [] := by
  induction limit generalizing p with
  | zero => cases h
  | succ limit ih =>
    rw [commentsBetween] at h
    split at h
    · split at h
      · next e _ =>
        rcases List.mem_cons.1 h with rfl | h
        · exact ⟨p, e, rfl⟩
        · exact ih h
      · exact ih h
    · cases h

theorem kind_withComments (n : Node) : (withComments chars n).kind = n.kind := by
  cases n
  rw [withComments]
  rfl

theorem role_withComments (n : Node) : (withComments chars n).role = n.role := by
  cases n
  rw [withComments]
  rfl

theorem start_withComments (n : Node) : (withComments chars n).start = n.start := by
  cases n
  rw [withComments]
  rfl

theorem children_withComments (n : Node) :
    (withComments chars n).children = childrenWithComments chars n.start n.children := by
  cases n
  rw [withComments]
  rfl

/-- Among children with comments, a test that no comment passes finds what it found among the
children. -/
theorem find?_childrenWithComments {test : Node → Bool}
    (hcomment : ∀ s e, test (.mk .comment none s e []) = false)
    (hsame : ∀ n, test (withComments chars n) = test n) (p : Nat) (cs : List Node) :
    (childrenWithComments chars p cs).find? test = (cs.find? test).map (withComments chars) := by
  induction cs generalizing p with
  | nil => rw [childrenWithComments]; rfl
  | cons c cs ih =>
    have hnone : (commentsBetween chars p c.start (c.start - p)).find? test = none := by
      rw [List.find?_eq_none]
      intro m hm
      obtain ⟨s, e, rfl⟩ := mem_commentsBetween hm
      simp [hcomment]
    rw [childrenWithComments, List.find?_append, hnone, Option.none_or, List.find?_cons,
      List.find?_cons, hsame, ih]
    split <;> rfl

/-- Comments have no role. -/
theorem inRole?_withComments (n : Node) (r : Role) :
    (withComments chars n).inRole? r = (n.inRole? r).map (withComments chars) := by
  rw [Node.inRole?, children_withComments]
  refine find?_childrenWithComments (fun _ _ => rfl) (fun m => ?_) _ _
  rw [role_withComments]

/-- A child is a comment or was one before. -/
theorem mem_childrenWithComments {p : Nat} {cs : List Node} {m : Node}
    (h : m ∈ childrenWithComments chars p cs) :
    m.kind = .comment ∨ ∃ c ∈ cs, m = withComments chars c := by
  induction cs generalizing p with
  | nil => rw [childrenWithComments] at h; cases h
  | cons c cs ih =>
    rw [childrenWithComments, List.mem_append, List.mem_cons] at h
    rcases h with h | rfl | h
    · obtain ⟨s, e, rfl⟩ := mem_commentsBetween h
      exact .inl rfl
    · exact .inr ⟨c, List.mem_cons_self, rfl⟩
    · exact (ih h).imp id fun ⟨c', hc', heq⟩ => ⟨c', List.mem_cons_of_mem _ hc', heq⟩

theorem withComments_mem_childrenWithComments {p : Nat} {cs : List Node} {c : Node}
    (h : c ∈ cs) : withComments chars c ∈ childrenWithComments chars p cs := by
  induction cs generalizing p with
  | nil => cases h
  | cons c' cs ih =>
    rw [childrenWithComments, List.mem_append, List.mem_cons]
    rcases List.mem_cons.1 h with rfl | h
    · exact .inr (.inl rfl)
    · exact .inr (.inr (ih h))

/-- A node that has been read has been read with comments, too. -/
theorem isRead_of_mem_children_withComments {n m : Node}
    (h : ∀ c ∈ n.children, IsRead chars (withComments chars c))
    (hm : m ∈ (withComments chars n).children) : IsRead chars m := by
  rw [children_withComments] at hm
  rcases mem_childrenWithComments hm with hcomment | ⟨c, hc, rfl⟩
  · exact .other (by simp [hcomment])
  · exact h c hc

/-- A type is as it is read with the comments in it too. -/
theorem IsRead.withComments {n : Node} (h : IsRead chars n) :
    IsRead chars (withComments chars n) := by
  induction h with
  | functionType kind start parameters =>
    obtain ⟨m, hm, hrole⟩ := parameters
    refine .functionType ((kind_withComments _).trans kind) (by rwa [start_withComments])
      ⟨Syntax.withComments chars m, ?_, (role_withComments m).trans hrole⟩
    rw [children_withComments]
    exact withComments_mem_childrenWithComments hm
  | union kind _ ih =>
    exact .union ((kind_withComments _).trans kind)
      fun m hm => isRead_of_mem_children_withComments ih hm
  | brackets kind start _ ih =>
    exact .brackets ((kind_withComments _).trans kind) (by rwa [start_withComments])
      fun m hm => isRead_of_mem_children_withComments ih hm
  | other kind => exact .other (by rwa [kind_withComments])

end Comments

/-! ## The tree of a declaration -/

theorem toList_declaration (type : String) :
    ("type EventType = " ++ type ++ ";").toList
      = Parse.declarationStart ++ (type.toList ++ ";".toList) := by
  rw [String.toList_append, String.toList_append, List.append_assoc]
  rfl

theorem interpreterLine_declaring (rest : List Char) (failed : Trials) :
    Parse.interpreterLine (Parse.declaring rest) ⟨0, failed⟩ = .ok [] ⟨0, failed⟩ := by
  have hspells : Parse.spells (Parse.declaring rest).chars 0 ['#', '!'] = false := by
    rw [Parse.spells_declaring rest (by decide)]
    decide
  refine Parse.maybe_of_error (u := ()) (d := ⟨0, failed⟩) ?_
  rw [Parse.bind_of_ok (Parse.here_eq _ _), Parse.bind_of_ok (Parse.read_eq _ _)]
  refine Parse.bind_of_error ?_
  rw [hspells]
  rfl

theorem topNodes_of_ok {i : Input} {r : List Node × Bool} {d : Cursor}
    (h : Parse.source i { pos := 0 } = .ok r d) : topNodes i = r := by
  simp [topNodes, ReaderT.run, EStateM.run, h]

theorem topNodes_of_error {i : Input} {u : Unit} {d : Cursor}
    (h : Parse.source i { pos := 0 } = .error u d) : topNodes i = ([], true) := by
  simp [topNodes, ReaderT.run, EStateM.run, h]

/-- Without a flaw the first phrase declares a type. -/
theorem exists_of_topNodes_declaring {rest : List Char}
    (h : (topNodes (Parse.declaring rest)).2 = false) :
    ∃ a more v, (topNodes (Parse.declaring rest)).1 = a :: more
      ∧ a.kind = .typeAliasDeclaration ∧ a.inRole? .value = some v
      ∧ IsRead (Parse.declaring rest).chars v := by
  have hsource : Parse.source (Parse.declaring rest) { pos := 0 }
      = (Parse.statements (grammarUpTo (24 * (Parse.declaring rest).chars.size + 64)) [] false
          ((Parse.declaring rest).chars.size + 1) >>= fun r => pure r)
        (Parse.declaring rest) { pos := 0 } := by
    rw [Parse.source, Parse.bind_of_ok (Parse.read_eq _ _),
      Parse.bind_of_ok (interpreterLine_declaring rest _)]
    rfl
  cases hread : Parse.statements (grammarUpTo (24 * (Parse.declaring rest).chars.size + 64)) []
      false ((Parse.declaring rest).chars.size + 1) (Parse.declaring rest) { pos := 0 } with
  | ok r d =>
    rw [Parse.bind_of_ok hread] at hsource
    rw [topNodes_of_ok hsource] at h ⊢
    obtain ⟨nodes, flawed⟩ := r
    subst h
    exact Parse.exists_of_statements_declaring hread
  | error u d =>
    rw [topNodes_of_error (hsource.trans (Parse.bind_of_error hread))] at h
    cases h

/-- Leaves are all there is. -/
theorem preorderAll_of_leaves {ns : List Node} (h : ∀ n ∈ ns, n.children = []) :
    Node.preorderAll ns = ns := by
  induction ns with
  | nil => rfl
  | cons n ns ih =>
    rw [Node.preorderAll, Node.preorder_eq_cons, h n List.mem_cons_self,
      ih fun m hm => h m (List.mem_cons_of_mem _ hm)]
    rfl

/-- The first declaration of a type among nodes that begin with one, with comments before it. -/
theorem find?_preorderAll_alias {chars : Array Char} {a : Node}
    (ha : a.kind = .typeAliasDeclaration) (more last : List Node) :
    (Node.preorderAll (childrenWithComments chars 0 (a :: more) ++ last)).find?
        (fun m => m.isNamed && [Kind.typeAliasDeclaration].contains m.kind)
      = some (withComments chars a) := by
  have hleaves : Node.preorderAll (commentsBetween chars 0 a.start (a.start - 0))
      = commentsBetween chars 0 a.start (a.start - 0) := by
    refine preorderAll_of_leaves fun m hm => ?_
    obtain ⟨s, e, rfl⟩ := mem_commentsBetween hm
    rfl
  have hnone : (commentsBetween chars 0 a.start (a.start - 0)).find?
      (fun m => m.isNamed && [Kind.typeAliasDeclaration].contains m.kind) = none := by
    rw [List.find?_eq_none]
    intro m hm
    obtain ⟨s, e, rfl⟩ := mem_commentsBetween hm
    exact Bool.false_ne_true
  rw [childrenWithComments, List.append_assoc, Node.preorderAll_append, hleaves,
    List.find?_append, hnone, Option.none_or, List.cons_append, Node.preorderAll,
    Node.preorder_eq_cons, List.cons_append, List.find?_cons_of_pos]
  rw [Node.isNamed, kind_withComments, ha]
  decide

/-- **In a tree without a flaw the first declaration is there**, and its value is a type as it
is read. -/
theorem exists_declared_of_not_flawed {t : Tree} {type : String}
    (ht : t = parse .typescript ("type EventType = " ++ type ++ ";")) (h : t.flawed = false) :
    ∃ declaration value, (t.ofKinds [.typeAliasDeclaration]).head? = some declaration
        ∧ declaration.inRole? .value = some value ∧ IsRead t.source value := by
  obtain ⟨rest, hinput⟩ : ∃ rest, (⟨("type EventType = " ++ type ++ ";").toList.toArray,
      .typescript⟩ : Input) = Parse.declaring rest :=
    ⟨_, congrArg (fun cs : List Char => (⟨cs.toArray, .typescript⟩ : Input))
      (toList_declaration type)⟩
  have hchars := congrArg Input.chars hinput
  dsimp only at hchars
  subst ht
  unfold parse at h ⊢
  dsimp only at h ⊢
  rw [hinput] at h ⊢
  rw [hchars]
  obtain ⟨a, more, v, hnodes, hkind, hv, hread⟩ := exists_of_topNodes_declaring h
  refine ⟨withComments (Parse.declaring rest).chars a, withComments _ v, ?_, ?_,
    hread.withComments⟩
  · rw [Tree.ofKinds, Node.ofKinds, List.head?_filter, Node.walk_eq_preorder,
      Node.preorder_eq_cons, List.find?_cons_of_neg Bool.false_ne_true, hnodes]
    exact find?_preorderAll_alias hkind more _
  · rw [inRole?_withComments, hv]
    rfl

end ComponentCatalog.Syntax
