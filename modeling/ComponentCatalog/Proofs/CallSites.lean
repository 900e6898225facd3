import ComponentCatalog.Proofs.Collapsing
import ComponentCatalog.Proofs.Handlers
import ComponentCatalog.Proofs.Templates

/-!
# How the values of a call are shown

An emitter call names an event and lists the values that go with it in an array. The event shows
the elements of the array one by one, each as a line of text: what is written is kept, but all
white space is collapsed (`array_rendered`).

White space is collapsed without a look at what it stands in. Between the parts of an expression
that is harmless, but a string or template literal in it is collapsed too (`Rendered.literal`). It
is the literal that was written exactly if all white space in it is single spaces, and
`literal_collapsed` shows one that is not. Nor are comments told from values in the list of
arguments: before the name of the event a comment hides the event, and before the array it is
shown in the array's place.
-/

namespace ComponentCatalog

open Text Syntax Extract

/-- The characters that literals are put between. -/
def literalQuotes : List Char := ['\'', '"', '`']

/-- A string or template literal in an expression: its text lies inside that of the expression
and is put between quotes. -/
structure LiteralIn (t : Tree) (e m : Node) : Prop where
  mem : m ∈ e.preorder
  kind : m.kind = .string ∨ m.kind = .templateString
  start_le : e.start ≤ m.start
  start_le_stop : m.start ≤ m.stop
  stop_le : m.stop ≤ e.stop
  quoted : ∃ quote ∈ literalQuotes, ∃ inner, (t.text m).toList = quote :: (inner ++ [quote])

/-- **The text that an expression is shown as.** It has the words that are written. A literal
stands where it was written, as it was written exactly if it has no white space but single
spaces, and only white space differs before it and after it. -/
structure Rendered (t : Tree) (e : Node) (text : String) : Prop where
  words_eq : words text = words (t.text e)
  literal : ∀ m, LiteralIn t e m → ∃ before after,
    text = before ++ collapse (t.text m) ++ after
      ∧ unblanked before.toList = unblanked (t.slice e.start m.start).toList
      ∧ unblanked after.toList = unblanked (t.slice m.stop e.stop).toList
      ∧ (collapse (t.text m) = t.text m ↔ SingleSpaced (t.text m).toList)

/-- The arguments of a call, with the comments between them. -/
def argumentsOf (call : Node) : List Node :=
  ((call.inRole? .arguments).map Node.namedChildren).getD []

/-- Nodes other than comments. -/
def withoutComments (ns : List Node) : List Node :=
  ns.filter fun n => n.kind != .comment

/-- **A call of an emitter with an array**: of its arguments other than comments, the first is the
name of an event and the second is an array. -/
structure ArrayCall (t : Tree) (emitters : List String) (call : Node) (name : String)
    (array : Node) : Prop where
  emitter : ∃ callee ∈ t.calleeName? call, callee ∈ emitters
  named : (withoutComments (argumentsOf call)).head?.bind t.stringValue? = some name
  name_ne : name ≠ ""
  payload : (withoutComments (argumentsOf call))[1]? = some array
  isArray : array.kind = .array

/-! ## An expression -/

/-- A literal keeps its quotes. -/
theorem LiteralIn.enclosed {t : Tree} {e m : Node} (h : LiteralIn t e m) :
    Enclosed (t.text m).toList := by
  obtain ⟨quote, hquote, inner, htext⟩ := h.quoted
  have hblank : isBlank quote = false := by
    have hall : literalQuotes.all (fun c => !isBlank c) = true := by decide
    simpa using List.all_eq_true.1 hall quote hquote
  rw [htext]
  refine ⟨by simp [hblank], ?_⟩
  rw [← List.cons_append, List.getLast?_concat, Option.map_some, hblank]

/-- The text of an expression around a literal in it. -/
theorem LiteralIn.text_eq {t : Tree} {e m : Node} (h : LiteralIn t e m) :
    t.text e = t.slice e.start m.start ++ t.text m ++ t.slice m.stop e.stop := by
  rw [Tree.text, Tree.text, slice_append_slice t h.start_le h.start_le_stop,
    slice_append_slice t (h.start_le.trans h.start_le_stop) h.stop_le]

/-- **Collapsing shows an expression.** -/
theorem rendered_collapse (t : Tree) (e : Node) : Rendered t e (collapse (t.text e)) where
  words_eq := words_collapse (t.text e)
  literal m hm := by
    obtain ⟨before, after, htext, hbefore, hafter⟩ :=
      collapse_append_append (t.slice e.start m.start) (t.text m) (t.slice m.stop e.stop)
        hm.enclosed
    rw [← hm.text_eq] at htext
    exact ⟨before, after, htext, hbefore, hafter, collapse_eq_self_iff hm.enclosed⟩

/-! ## A call -/

/-- An array is shown as what its elements come to, with commas between them. -/
theorem payloadText_of_array (t : Tree) {array : Node} (h : array.kind = .array) :
    ∃ texts, payloadText t array = String.intercalate ", " texts
      ∧ List.Forall₂ (Rendered t) (withoutComments array.namedChildren) texts := by
  refine ⟨(withoutComments array.namedChildren).map fun e => collapse (t.text e), ?_, ?_⟩
  · simp [payloadText, h, withoutComments]
  · rw [List.forall₂_map_right_iff, List.forall₂_same]
    exact fun e _ => rendered_collapse t e

/-- A comment in the place of a value is shown as it is, with its blanks collapsed. -/
theorem payloadText_of_comment (t : Tree) {c : Node} (h : c.kind = .comment) :
    payloadText t c = collapse (t.text c) := by
  simp [payloadText, h]

section Call

variable {t : Tree} {emitters : List String} {call array : Node} {name : String}

/-- A call has two arguments at least, if its array is one of them. -/
theorem ArrayCall.exists_arguments (h : ArrayCall t emitters call name array) :
    ∃ first second rest, argumentsOf call = first :: second :: rest := by
  have hpayload := h.payload
  unfold withoutComments at hpayload
  cases hargs : argumentsOf call with
  | nil => simp [hargs] at hpayload
  | cons first rest =>
    cases rest with
    | nil =>
      rw [hargs] at hpayload
      have hlength : 1 < ([first].filter fun n => n.kind != .comment).length :=
        (List.getElem?_eq_some_iff.1 hpayload).1
      have hle := List.length_filter_le (fun n : Node => n.kind != .comment) [first]
      exact absurd (hlength.trans_le hle) (by simp)
    | cons second rest => exact ⟨first, second, rest, rfl⟩

/-- What a call emits is decided by its first two arguments, be they comments or not. -/
theorem ArrayCall.emitted?_eq (h : ArrayCall t emitters call name array) {first second : Node}
    {rest : List Node} (hargs : argumentsOf call = first :: second :: rest) :
    emitted? t emitters call = if first.kind = .comment then none
      else some { name, parameters := "(" ++ payloadText t second ++ ")" } := by
  split_ifs with hfirst
  · have hvalue : t.stringValue? first = none := by simp [Tree.stringValue?, hfirst]
    cases hemitted : emitted? t emitters call with
    | none => rfl
    | some e =>
      obtain ⟨-, ⟨first', rest', hargs', hvalue', -⟩, -⟩ := emitted?_eq_some_iff.1 hemitted
      have hsame : first :: second :: rest = first' :: rest' := hargs.symm.trans hargs'
      obtain ⟨rfl, -⟩ := List.cons.inj hsame
      rw [hvalue] at hvalue'
      cases hvalue'
  · have hname : t.stringValue? first = some name := by
      have hnamed := h.named
      rw [hargs] at hnamed
      simpa [withoutComments, hfirst] using hnamed
    exact emitted?_eq_some_iff.2 ⟨h.emitter, ⟨first, second :: rest, hargs, hname, h.name_ne, rfl⟩,
      rfl⟩

/-- Without a comment before it, the array is the second argument. -/
theorem ArrayCall.second_eq (h : ArrayCall t emitters call name array) {first second : Node}
    {rest : List Node} (hargs : argumentsOf call = first :: second :: rest)
    (hfirst : first.kind ≠ .comment) (hsecond : second.kind ≠ .comment) : second = array := by
  have hpayload := h.payload
  rw [hargs] at hpayload
  simpa [withoutComments, hfirst, hsecond] using hpayload

end Call

/-- **How the array of a call is shown.** The events are those of the calls one by one. A call
with an array shows the elements of the array other than comments, in order and each as `Rendered`
says, if no comment stands before the array. With a comment before its name the event is not
found, and with one between the name and the array it is the comment that is shown. -/
theorem array_rendered (t : Tree) (emitters : List String) :
    eventsOfCalls t emitters = (t.ofKinds [.callExpression]).filterMap (emitted? t emitters)
      ∧ ∀ call name array, ArrayCall t emitters call name array →
        ∃ first second rest, argumentsOf call = first :: second :: rest
          ∧ (first.kind ≠ .comment → second.kind ≠ .comment →
            ∃ texts, emitted? t emitters call
                = some { name, parameters := "(" ++ String.intercalate ", " texts ++ ")" }
              ∧ List.Forall₂ (Rendered t) (withoutComments array.namedChildren) texts)
          ∧ (first.kind = .comment → emitted? t emitters call = none)
          ∧ (first.kind ≠ .comment → second.kind = .comment →
            emitted? t emitters call
              = some { name, parameters := "(" ++ collapse (t.text second) ++ ")" }) := by
  refine ⟨eventsOfCalls_eq t emitters, fun call name array h => ?_⟩
  obtain ⟨first, second, rest, hargs⟩ := h.exists_arguments
  refine ⟨first, second, rest, hargs, fun hfirst hsecond => ?_, fun hfirst => ?_,
    fun hfirst hsecond => ?_⟩
  · obtain ⟨texts, htexts, hrendered⟩ := payloadText_of_array t h.isArray
    refine ⟨texts, ?_, hrendered⟩
    rw [h.emitted?_eq hargs, if_neg hfirst, h.second_eq hargs hfirst hsecond, htexts]
  · rw [h.emitted?_eq hargs, if_pos hfirst]
  · rw [h.emitted?_eq hargs, if_neg hfirst, payloadText_of_comment t hsecond]

/-- A call with a comment and spaces in its array, and a string in one element. -/
def spacedCall : Tree :=
  parse .tsx "invokeEventCallback('onA',[a ,/*c*/f( 'b c' )])"

/-- The nodes of that source. -/
theorem spacedCall_nodes : ∃ call first array e₁ e₂ m : Node,
    (∃ callee ∈ spacedCall.calleeName? call, callee ∈ defaultEmitters)
      ∧ argumentsOf call = [first, array]
      ∧ first.kind = .string ∧ spacedCall.stringValue? first = some "onA"
      ∧ array.kind = .array ∧ withoutComments array.namedChildren = [e₁, e₂]
      ∧ spacedCall.text e₁ = "a" ∧ spacedCall.text e₂ = "f( 'b c' )"
      ∧ m ∈ e₂.preorder ∧ m.kind = .string ∧ spacedCall.text m = "'b c'"
      ∧ e₂.start ≤ m.start ∧ m.start ≤ m.stop ∧ m.stop ≤ e₂.stop := by
  let call := ((spacedCall.ofKinds [.callExpression]).head?).getD spacedCall.root
  let array := ((argumentsOf call)[1]?).getD spacedCall.root
  let e₂ := ((withoutComments array.namedChildren)[1]?).getD spacedCall.root
  refine ⟨call, ((argumentsOf call)[0]?).getD spacedCall.root, array,
    ((withoutComments array.namedChildren)[0]?).getD spacedCall.root, e₂,
    (e₂.preorder.find? fun n => n.kind == .string).getD spacedCall.root, ?_⟩
  decide +kernel

theorem array_rendered_spaced : ∃ call text₁ text₂ before after,
    emitted? spacedCall defaultEmitters call
        = some { name := "onA", parameters := "(" ++ String.intercalate ", " [text₁, text₂] ++ ")" }
      ∧ words text₁ = ["a"] ∧ words text₂ = ["f(", "'b", "c'", ")"]
      ∧ text₂ = before ++ "'b c'" ++ after := by
  obtain ⟨call, first, array, e₁, e₂, m, hemitter, hargs, hfirst, hname, harray, helements, he₁,
    he₂, hm, hk, htext, hstart, hle, hstop⟩ := spacedCall_nodes
  have hcall : ArrayCall spacedCall defaultEmitters call "onA" array :=
    { emitter := hemitter
      named := by simp [hargs, withoutComments, hfirst, hname]
      name_ne := by decide
      payload := by simp [hargs, withoutComments, hfirst, harray]
      isArray := harray }
  obtain ⟨first', second', rest', hargs', hshown, -⟩ :=
    (array_rendered spacedCall defaultEmitters).2 call "onA" array hcall
  rw [hargs] at hargs'
  cases hargs'
  obtain ⟨texts, hemitted, htexts⟩ := hshown (by simp [hfirst]) (by simp [harray])
  rw [helements] at htexts
  obtain ⟨text₁, tail₁, hr₁, htail₁, rfl⟩ := List.forall₂_cons_left_iff.1 htexts
  obtain ⟨text₂, tail₂, hr₂, htail₂, rfl⟩ := List.forall₂_cons_left_iff.1 htail₁
  obtain rfl := List.forall₂_nil_left_iff.1 htail₂
  have hliteral : LiteralIn spacedCall e₂ m :=
    { mem := hm
      kind := .inl hk
      start_le := hstart
      start_le_stop := hle
      stop_le := hstop
      quoted := ⟨'\'', by decide, ['b', ' ', 'c'], by rw [htext]; rfl⟩ }
  obtain ⟨before, after, hplace, -⟩ := hr₂.literal m hliteral
  have hcollapse : collapse "'b c'" = "'b c'" := by decide
  rw [htext, hcollapse] at hplace
  refine ⟨call, text₁, text₂, before, after, hemitted, ?_, ?_, hplace⟩
  · rw [hr₁.words_eq, he₁]
    decide
  · rw [hr₂.words_eq, he₂]
    decide

/-- **White space in a string is collapsed**: two spaces are written, and one is shown. -/
theorem literal_collapsed :
    eventsOfCalls (parse .tsx "invokeEventCallback('onA',['a  b'])") defaultEmitters
      = [{ name := "onA", parameters := "('a b')" }] := by
  decide +kernel

end ComponentCatalog
