import Mathlib.Data.List.Basic
import Mathlib.Data.List.TakeWhile
import ComponentCatalog.Yaml.Token.Reader

/-!
# How far a YAML text can be read

The reader of tokens goes through a text from left to right, so that what is left of it is always
an end of the text (`Cursor.In`). Whatever it does not understand is malformed, with two
exceptions, which are faults of their own: an escape between double quotes can have a number that
is no code point, and a number of a version can have too many digits. `Unreadable` says where in
the text such a thing stands, and `unreadable_of_broken` that there is nothing else.

Each function of the reader has one lemma, about both of its outcomes (`Outcome`): where it
succeeds, the place it reaches is one in the text, and where it fails, the fault has its reason
there.
-/

namespace ComponentCatalog.Yaml

open Text

/-! ## Outcomes -/

/-- **What is known of the outcome of something that may fail.** -/
def Outcome {ε α : Type} (good : α → Prop) (bad : ε → Prop) : Except ε α → Prop
  | .ok a => good a
  | .error e => bad e

section Outcome

variable {ε α β : Type} {good : α → Prop} {good' : β → Prop} {bad : ε → Prop}

/-- Two parts, one after the other. -/
theorem Outcome.bind {r : Except ε α} {f : α → Except ε β} (hr : Outcome good bad r)
    (hf : ∀ a, good a → Outcome good' bad (f a)) : Outcome good' bad (r >>= f) := by
  cases r with
  | ok a => exact hf a hr
  | error e => exact hr

theorem Outcome.map {r : Except ε α} {f : α → β} (hr : Outcome good bad r)
    (hf : ∀ a, good a → good' (f a)) : Outcome good' bad (r.map f) := by
  cases r with
  | ok a => exact hf a hr
  | error e => exact hr

theorem Outcome.imp {r : Except ε α} {good' : α → Prop} {bad' : ε → Prop}
    (hr : Outcome good bad r) (hgood : ∀ a, good a → good' a) (hbad : ∀ e, bad e → bad' e) :
    Outcome good' bad' r := by
  cases r with
  | ok a => exact hgood a hr
  | error e => exact hbad e hr

/-- What is known of a good outcome may be added to it. -/
theorem Outcome.and {r : Except ε α} {good' : α → Prop} (hr : Outcome good bad r)
    (h : ∀ a, r = .ok a → good' a) : Outcome (fun a => good a ∧ good' a) bad r := by
  cases r with
  | ok a => exact ⟨hr, h a rfl⟩
  | error e => exact hr

/-- Two branches, each with what its condition says. -/
theorem Outcome.ite_of {p : Prop} [Decidable p] {r r' : Except ε α}
    (h : p → Outcome good bad r) (h' : ¬p → Outcome good bad r') :
    Outcome good bad (if p then r else r') := by
  split
  · next hp => exact h hp
  · next hp => exact h' hp

theorem Outcome.ite {p : Prop} [Decidable p] {r r' : Except ε α} (h : Outcome good bad r)
    (h' : Outcome good bad r') : Outcome good bad (if p then r else r') :=
  .ite_of (fun _ => h) fun _ => h'

/-- All items, one after the other. -/
theorem Outcome.mapM {f : α → Except ε β} {l : List α} (good : β → Prop)
    (h : ∀ a ∈ l, Outcome good bad (f a)) :
    Outcome (fun bs => ∀ b ∈ bs, good b) bad (l.mapM f) := by
  induction l with
  | nil => exact fun b hb => absurd hb List.not_mem_nil
  | cons a l ih =>
    rw [List.mapM_cons]
    refine (h a List.mem_cons_self).bind fun b hb => ?_
    refine (ih fun a ha => h a (List.mem_cons_of_mem _ ha)).bind fun bs hbs => ?_
    exact List.forall_mem_cons.2 ⟨hb, hbs⟩

/-- What each step of a fold keeps, the whole fold keeps. -/
theorem Outcome.foldlM {f : β → α → Except ε β} {l : List α}
    (h : ∀ b, ∀ a ∈ l, good' b → Outcome good' bad (f b a)) {b : β} (hb : good' b) :
    Outcome good' bad (l.foldlM f b) := by
  induction l generalizing b with
  | nil => exact hb
  | cons a l ih =>
    rw [List.foldlM_cons]
    exact (h b a List.mem_cons_self hb).bind fun b hb =>
      ih (fun b a ha => h b a (List.mem_cons_of_mem _ ha)) hb

/-- What follows only needs to agree on good outcomes. -/
theorem Outcome.bind_congr {r : Except ε α} {f f' : α → Except ε β} (hr : Outcome good bad r)
    (hf : ∀ a, good a → f a = f' a) : r >>= f = r >>= f' := by
  cases r with
  | ok a => exact hf a hr
  | error e => rfl

/-- Folds agree if their steps agree on what the steps keep. -/
theorem Outcome.foldlM_congr (kept : β → Prop) {f f' : β → α → Except ε β} (l : List α)
    (h : ∀ b a, kept b → f b a = f' b a ∧ Outcome kept (fun _ => True) (f' b a)) {b : β}
    (hb : kept b) : l.foldlM f b = l.foldlM f' b := by
  induction l generalizing b with
  | nil => rfl
  | cons a l ih =>
    obtain ⟨hstep, hgood⟩ := h b a hb
    rw [List.foldlM_cons, List.foldlM_cons, hstep]
    exact hgood.bind_congr fun b hb => ih hb

end Outcome

/-! ## Places in a text -/

namespace Cursor

/-- **A place in a text**: what follows it is an end of the text. -/
def In (cs : List Char) (c : Cursor) : Prop :=
  c.rest <:+ cs

variable {cs : List Char} {c : Cursor}

theorem rest_next (c : Cursor) : c.next.rest = c.rest.tail := by
  unfold Cursor.next
  split
  · next h => rw [h, List.tail_nil]
  · next h =>
    rw [h, List.tail_cons]
    split_ifs <;> rfl

theorem rest_skip (c : Cursor) (n : Nat) : (c.skip n).rest = c.rest.drop n := by
  induction n generalizing c with
  | zero => rfl
  | succ n ih => rw [Cursor.skip, ih, rest_next, List.drop_tail]

/-- What is taken and what follows it are the text. -/
theorem takeWhile_append_rest (c : Cursor) (test : Char → Bool) :
    (c.takeWhile test).1 ++ (c.takeWhile test).2.rest = c.rest := by
  have htake : c.rest.takeWhile test = c.rest.take (c.rest.takeWhile test).length :=
    List.prefix_iff_eq_take.1 (List.takeWhile_prefix _)
  calc (c.takeWhile test).1 ++ (c.takeWhile test).2.rest
      = c.rest.takeWhile test ++ c.rest.drop (c.rest.takeWhile test).length :=
        congrArg _ (rest_skip c _)
    _ = c.rest.take (c.rest.takeWhile test).length ++
          c.rest.drop (c.rest.takeWhile test).length := congrArg (· ++ _) htake
    _ = c.rest := List.take_append_drop _ _

/-- One character further is still in the text. -/
theorem In.next (h : c.In cs) : c.next.In cs := by
  rw [In, rest_next]
  exact (List.tail_suffix _).trans h

/-- Several characters further is still in the text. -/
theorem In.skip (h : c.In cs) (n : Nat) : (c.skip n).In cs := by
  rw [In, rest_skip]
  exact (List.drop_suffix _ _).trans h

theorem In.takeWhile (h : c.In cs) (test : Char → Bool) : (c.takeWhile test).2.In cs :=
  h.skip _

theorem In.dropWhile (h : c.In cs) (test : Char → Bool) : (c.dropWhile test).In cs :=
  h.takeWhile test

theorem In.dropComment (h : c.In cs) : c.dropComment.In cs := by
  unfold Cursor.dropComment
  split
  · exact h.dropWhile _
  · exact h

/-- Behind a line break is still in the text. -/
theorem In.lineBreak? (h : c.In cs) {b : Char} {c' : Cursor} (hb : c.lineBreak? = some (b, c')) :
    c'.In cs := by
  unfold Cursor.lineBreak? at hb
  split at hb
  · cases hb
    exact h.skip 2
  · split_ifs at hb <;> cases hb <;> exact h.next
  · cases hb

theorem In.dropBreak (h : c.In cs) : c.dropBreak.In cs := by
  unfold Cursor.dropBreak
  split
  · next heq => exact h.lineBreak? heq
  · exact h

end Cursor

/-! ## What cannot be read -/

/-- **A text begins with something that cannot be read** and is well-formed otherwise. -/
inductive Begins : List Char → Fault → Prop
  /-- An escape with a number that is no code point. -/
  | escape {mark : Char} {digits : List Char} {n : Nat}
      (hmark : escapeLength? mark = some digits.length) (hn : hexNumber? digits = some n)
      (hlarge : 0x110000 ≤ n) (rest : List Char) :
      Begins ('\\' :: mark :: (digits ++ rest)) (if n < 0x80000000 then .outOfRange else .tooLarge)
  /-- A version of which a number has too many digits: the first, or one behind a point. -/
  | version {blanks before digits : List Char} (hblanks : ∀ b ∈ blanks, b = ' ')
      (hbefore : before = [] ∨ ∃ major : List Char,
        (∀ d ∈ major, d.isDigit = true) ∧ before = major ++ ['.'])
      (hdigits : ∀ d ∈ digits, d.isDigit = true) (hlong : digitLimit < digits.length)
      (rest : List Char) :
      Begins ('%' :: 'Y' :: 'A' :: 'M' :: 'L' :: (blanks ++ (before ++ (digits ++ rest))))
        .outOfRange

/-- What begins with a fault of its own is not malformed. -/
theorem Begins.ne_malformed {cs : List Char} {f : Fault} (h : Begins cs f) : f ≠ .malformed := by
  cases h with
  | escape => split_ifs <;> exact Fault.noConfusion
  | version => exact Fault.noConfusion

/-- **Why a text cannot be read**: it is malformed, or something stands in it that cannot be
read. -/
def Unreadable (cs : List Char) (f : Fault) : Prop :=
  f = .malformed ∨ ∃ part, part <:+ cs ∧ Begins part f

section Reading

variable {cs : List Char} {c : Cursor}

theorem endOfLine_outcome (h : c.In cs) : Outcome (·.In cs) (Unreadable cs) c.endOfLine :=
  have hend : c.dropSpaces.dropComment.In cs := (h.dropWhile _).dropComment
  .ite hend.dropBreak (.inl rfl)

/-! ## Plain scalars -/

theorem plainBreaks_in (h : c.In cs) (done : List Char) (limit : Nat) :
    (plainBreaks done limit c).2.In cs := by
  induction limit generalizing done c with
  | zero => exact h
  | succ limit ih =>
    unfold plainBreaks
    split
    · exact ih h.next done
    · split
      · next heq =>
        split
        · exact h.lineBreak? heq
        · exact ih (h.lineBreak? heq) _
      · exact h

theorem plainSpace_in (h : c.In cs) : (plainSpace c).2.2.In cs := by
  have htaken := h.takeWhile (· == ' ')
  unfold plainSpace
  generalize c.takeWhile (· == ' ') = taken at htaken
  dsimp only
  split
  · exact htaken
  · next first c heq =>
    have hbroken := htaken.lineBreak? heq
    have hbreaks := plainBreaks_in hbroken [] c.rest.length
    split
    · exact hbroken
    · split
      · next heq => rwa [heq] at hbreaks
      · next heq => rwa [heq] at hbreaks

/-- A plain scalar ends in the text. -/
theorem plainFrom_in (h : c.In cs) (inFlow : Bool) (indent : Int) (done space : List Char)
    (broken : Bool) (limit : Nat) :
    (plainFrom inFlow indent done space broken limit c).2.2.In cs := by
  induction limit generalizing done space broken c with
  | zero => exact h
  | succ limit ih =>
    unfold plainFrom
    dsimp only
    split
    · exact h
    · have hspace := plainSpace_in (h.skip (plainWord inFlow c.rest).length)
      split
      · exact hspace
      · exact ih hspace _ _ _

/-! ## Quoted scalars -/

/-- Line breaks in quotes go on in the text, or it is malformed. -/
theorem quotedBreaks_outcome (h : c.In cs) (done : List Char) (limit : Nat) :
    Outcome (·.2.In cs) (Unreadable cs) (quotedBreaks done limit c) := by
  induction limit generalizing done c with
  | zero => exact h
  | succ limit ih =>
    have hdropped := h.dropWhile fun ch => ch == ' ' || ch == '\t'
    unfold quotedBreaks
    split
    · exact .inl rfl
    · dsimp only
      split
      · next heq => exact ih (hdropped.lineBreak? heq) _
      · exact hdropped

theorem quotedSpace_outcome (h : c.In cs) :
    Outcome (·.2.In cs) (Unreadable cs) (quotedSpace c) := by
  have htaken := h.takeWhile fun ch => ch == ' ' || ch == '\t'
  unfold quotedSpace
  dsimp only
  split
  · next heq =>
    exact (quotedBreaks_outcome (htaken.lineBreak? heq) _ _).bind fun r hr => hr
  · split
    · exact .inl rfl
    · exact htaken

theorem escaped?_lt {ch : Char} {n : Nat} (h : escaped? ch = some n) : n < 0x110000 := by
  unfold escaped? at h
  split at h <;> cases h <;> decide

/-- Behind a backslash: what it stands for, or a number that is no code point. -/
theorem escapeAt_outcome (h : '\\' :: c.rest <:+ cs) :
    Outcome (·.2.In cs) (Unreadable cs) (escapeAt c) := by
  have hin : c.In cs := (List.suffix_cons _ _).trans h
  unfold escapeAt
  split
  · exact .inl rfl
  · next ch rest hrest =>
    dsimp only
    split
    · next n hn =>
      have hpoint : Outcome (fun _ => True) (Unreadable cs) (codePoint n) := by
        rw [codePoint, dif_pos (escaped?_lt hn)]
        trivial
      exact hpoint.bind fun _ _ => hin.next
    · next length hnone hlength =>
      split
      · next n hn hfits =>
        have htake : (rest.take length).length = length :=
          List.length_take_of_le (of_decide_eq_true hfits)
        have hpoint : Outcome (fun _ => True) (Unreadable cs) (codePoint n) := by
          -- a number of eight digits may be no code point
          by_cases hlarge : n < 0x110000
          · rw [codePoint, dif_pos hlarge]
            trivial
          · rw [codePoint, dif_neg hlarge]
            refine .inr ⟨_, h, ?_⟩
            rw [hrest, ← List.take_append_drop length rest]
            exact .escape (by rw [htake, hlength]) hn (Nat.le_of_not_lt hlarge) _
        exact hpoint.bind fun _ _ => hin.skip _
      · exact .inl rfl
    · split
      · next heq => exact (quotedBreaks_outcome (hin.lineBreak? heq) _ _).bind fun _ hr => hr
      · exact .inl rfl

/-- What stands in quotes goes on in the text, or has an escape that cannot be read. -/
theorem quotedFrom_outcome (h : c.In cs) (double : Bool) (done : List CodePoint) (limit : Nat) :
    Outcome (·.2.In cs) (Unreadable cs) (quotedFrom double done limit c) := by
  induction limit generalizing done c with
  | zero => exact .inl rfl
  | succ limit ih =>
    unfold quotedFrom
    generalize (if double = true then '"' else '\'') = quote
    split
    · exact .inl rfl
    · next ch rest hrest =>
      split
      · next hescape =>
        obtain rfl : ch = '\\' := by simpa using (Bool.and_eq_true_iff.1 hescape).2
        -- An escape is found with its backslash, which has been passed over by now.
        have hback : '\\' :: c.next.rest <:+ cs := by
          rw [Cursor.rest_next, hrest, List.tail_cons, ← hrest]
          exact h
        exact (escapeAt_outcome hback).bind fun r hr => ih hr _
      · split
        · exact ih (h.skip 2) _
        · split
          · exact h.next
          · split
            · exact (quotedSpace_outcome h).bind fun r hr => ih hr _
            · dsimp only
              split
              · exact ih (h.takeWhile _).next _
              · exact ih (h.takeWhile _) _

/-- A quoted scalar ends in the text, or has an escape that cannot be read. -/
theorem quotedScalar_outcome (h : c.In cs) (double : Bool) :
    Outcome (·.2.In cs) (Unreadable cs) (quotedScalar double c) :=
  (quotedFrom_outcome h.next double [] c.rest.length).bind fun _ hr => hr

/-! ## Block scalars -/

theorem blockMarks_outcome (h : c.In cs) :
    Outcome (·.2.2.In cs) (Unreadable cs) (blockMarks c) := by
  have hchecked : ∀ marks : Chomping × Option Nat × Cursor, marks.2.2.In cs →
      Outcome (·.2.2.In cs) (Unreadable cs)
        (if marks.2.1 == some 0 || !spaceFollows marks.2.2.rest then .error .malformed
          else .ok (marks.1, marks.2.1, marks.2.2)) := by
    intro marks hmarks
    split
    · exact .inl rfl
    · exact hmarks
  refine hchecked _ ?_
  -- Whichever marks there are, they take up two characters at most.
  repeat' split
  all_goals first | exact h.skip 2 | exact h.next | exact h

theorem blockIndentation_in (h : c.In cs) (done : List Char) (column limit : Nat) :
    (blockIndentation done column limit c).2.2.In cs := by
  induction limit generalizing done column c with
  | zero => exact h
  | succ limit ih =>
    unfold blockIndentation
    split
    · exact ih h.next _ _
    · split
      · next heq => exact ih (h.lineBreak? heq) _ _
      · exact h

theorem blockBreaks_in (h : c.In cs) (indent : Nat) (done : List Char) (limit : Nat) :
    (blockBreaks indent done limit c).2.In cs := by
  induction limit generalizing done c with
  | zero => exact h
  | succ limit ih =>
    have hindent : (c.dropIndent indent).In cs := h.skip _
    unfold blockBreaks
    dsimp only
    split
    · next heq => exact ih (hindent.lineBreak? heq) _
    · exact hindent

/-- The lines of a block end in the text. -/
theorem blockLines_in (h : c.In cs) (folded : Bool) (indent : Nat) (done breaks last : List Char)
    (limit : Nat) : (blockLines folded indent done breaks last limit c).2.2.2.In cs := by
  induction limit generalizing done breaks last c with
  | zero => exact h
  | succ limit ih =>
    unfold blockLines
    split
    · exact h
    · have hline := h.takeWhile fun ch => !isBreak ch
      dsimp only
      rcases hbreak : (c.takeWhile fun ch => !isBreak ch).2.lineBreak? with _ | ⟨b, after⟩
      · dsimp only
        have hbreaks := blockBreaks_in hline indent []
          ((c.takeWhile fun ch => !isBreak ch).2.rest.length + 1)
        split
        · exact hbreaks
        · split <;> exact ih hbreaks _ _ _
      · dsimp only
        have hbreaks := blockBreaks_in (hline.lineBreak? hbreak) indent [] (after.rest.length + 1)
        split
        · exact hbreaks
        · split <;> exact ih hbreaks _ _ _

/-- A block scalar ends in the text, or it is malformed. -/
theorem blockScalar_outcome (h : c.In cs) (folded : Bool) (outer : Int) :
    Outcome (·.2.In cs) (Unreadable cs) (blockScalar folded outer c) := by
  unfold blockScalar
  refine (blockMarks_outcome h.next).bind fun marks hmarks => ?_
  refine (endOfLine_outcome hmarks).bind fun c hc => ?_
  obtain ⟨chomping, _ | i, c'⟩ := marks
  · dsimp only
    exact blockLines_in (blockIndentation_in hc _ _ _) _ _ _ _ _ _
  · dsimp only
    exact blockLines_in (blockBreaks_in hc _ _ _) _ _ _ _ _ _

end Reading

/-! ## Steps of reading -/

/-- A token that stands for something in the text. -/
def Token.IsSolid : Token → Prop
  | .broken _ => False
  | _ => True

namespace Scanner

/-- **A state in which a text is read**: the place it has reached is one in the text, and all its
tokens stand for something there. -/
structure Reads (cs : List Char) (s : Scanner) : Prop where
  place : s.cursor.In cs
  solid : ∀ t ∈ s.tokens, t.IsSolid

variable {cs : List Char} {s s' : Scanner} {t : Token}

/-- A step that adds a token and moves on. -/
theorem Reads.add (h : s.Reads cs) (hplace : s'.cursor.In cs)
    (htokens : s'.tokens = s.tokens.push t) (ht : t.IsSolid) : s'.Reads cs := by
  refine ⟨hplace, fun u hu => ?_⟩
  rw [htokens] at hu
  rcases Array.mem_push.1 hu with hu | rfl
  · exact h.solid u hu
  · exact ht

theorem dropStaleKeys_outcome (h : s.Reads cs) :
    Outcome (Reads cs) (Unreadable cs) s.dropStaleKeys :=
  .ite (.inl rfl) ⟨h.place, h.solid⟩

/-- A key that can no longer be one is dropped, unless there has to be one. -/
theorem dropKey_outcome (h : s.Reads cs) : Outcome (Reads cs) (Unreadable cs) s.dropKey := by
  unfold dropKey
  split
  · exact .ite (.inl rfl) ⟨h.place, h.solid⟩
  · exact h

theorem saveKey_outcome (h : s.Reads cs) : Outcome (Reads cs) (Unreadable cs) s.saveKey :=
  .ite h ((dropKey_outcome h).bind fun _ hs => ⟨hs.place, hs.solid⟩)

/-- Unwinding adds tokens that stand for something. -/
theorem Reads.unwindTo (h : s.Reads cs) (column : Int) (limit : Nat) :
    (Scanner.unwindTo column limit s).Reads cs := by
  induction limit generalizing s with
  | zero => exact h
  | succ limit ih =>
    unfold Scanner.unwindTo
    split
    · exact ih (h.add h.place rfl trivial)
    · exact h

theorem Reads.unwind (h : s.Reads cs) (column : Int) : (s.unwind column).Reads cs := by
  unfold Scanner.unwind
  split
  · exact h
  · exact h.unwindTo _ _

/-! ### Marks -/

theorem streamEnd_outcome (h : s.Reads cs) : Outcome (Reads cs) (Unreadable cs) s.streamEnd :=
  (dropKey_outcome (h.unwind (-1))).bind fun _ hs =>
    hs.add hs.place rfl trivial

theorem separator_outcome (h : s.Reads cs) (ht : t.IsSolid) :
    Outcome (Reads cs) (Unreadable cs) (s.separator t) :=
  (dropKey_outcome (h.unwind (-1))).bind fun _ hs => hs.add (hs.place.skip 3) rfl ht

theorem openFlow_outcome (h : s.Reads cs) (ht : t.IsSolid) :
    Outcome (Reads cs) (Unreadable cs) (s.openFlow t) :=
  (saveKey_outcome h).bind fun _ hs => hs.add (hs.place.skip 1) rfl ht

theorem closeFlow_outcome (h : s.Reads cs) (ht : t.IsSolid) :
    Outcome (Reads cs) (Unreadable cs) (s.closeFlow t) :=
  (dropKey_outcome h).bind fun _ hs => hs.add (hs.place.skip 1) rfl ht

theorem flowEntry_outcome (h : s.Reads cs) : Outcome (Reads cs) (Unreadable cs) s.flowEntry :=
  (dropKey_outcome h).bind fun _ hs =>
    hs.add (hs.place.skip 1) rfl trivial

theorem startBlock_outcome (h : s.Reads cs) (ht : t.IsSolid) :
    Outcome (Reads cs) (Unreadable cs) (s.startBlock t) :=
  .ite h (.ite (.inl rfl) (.ite (h.add h.place rfl ht) h))

theorem blockEntry_outcome (h : s.Reads cs) : Outcome (Reads cs) (Unreadable cs) s.blockEntry :=
  (startBlock_outcome (t := .blockSequenceStart) h trivial).bind fun _ hs =>
    (dropKey_outcome hs).bind fun _ hs =>
      hs.add (hs.place.skip 1) rfl trivial

theorem keyMark_outcome (h : s.Reads cs) : Outcome (Reads cs) (Unreadable cs) s.keyMark :=
  (startBlock_outcome (t := .blockMappingStart) h trivial).bind fun _ hs =>
    (dropKey_outcome hs).bind fun _ hs =>
      hs.add (hs.place.skip 1) rfl trivial

/-- Where all tokens stand for something, they do with one more that does. -/
theorem isSolid_of_mem_insertAt {ts : Array Token} {u : Token} {i : Nat}
    (hu : u ∈ insertAt ts i t) (hts : ∀ t ∈ ts, t.IsSolid) (ht : t.IsSolid) : u.IsSolid := by
  have hpart {i j : Nat} (hu : u ∈ ts.extract i j) : u.IsSolid := by
    obtain ⟨k, hk, rfl⟩ := Array.mem_extract_iff_getElem.1 hu
    exact hts _ (Array.getElem_mem _)
  rcases Array.mem_append.1 hu with hu | hu
  · rcases Array.mem_append.1 hu with hu | hu
    · exact hpart hu
    · rw [Array.mem_singleton.1 hu]
      exact ht
  · exact hpart hu

/-- The mark of a value may make a key of what came before it. -/
theorem valueMark_outcome (h : s.Reads cs) : Outcome (Reads cs) (Unreadable cs) s.valueMark := by
  unfold valueMark
  split
  · next k _ =>
    -- The mark of the key goes in among tokens that were read before, so it is not just added.
    have hkey : ∀ u ∈ insertAt s.tokens k.position .key, u.IsSolid := fun u hu =>
      isSolid_of_mem_insertAt hu h.solid trivial
    have hvalue : ∀ s : Scanner, s.Reads cs → ((s.skip 1).push .value).Reads cs := fun s hs =>
      hs.add (hs.place.skip 1) rfl trivial
    refine hvalue _ ?_
    split
    · exact ⟨h.place, fun u hu => isSolid_of_mem_insertAt hu hkey trivial⟩
    · exact ⟨h.place, hkey⟩
  · exact (startBlock_outcome (t := .blockMappingStart) h trivial).bind fun _ hs =>
      (dropKey_outcome hs).bind fun _ hs => hs.add (hs.place.skip 1) rfl trivial

/-! ### Names and tags -/

theorem nameMark_outcome (h : s.Reads cs) {token : String → Token}
    (htoken : ∀ name, (token name).IsSolid) :
    Outcome (Reads cs) (Unreadable cs) (s.nameMark token) :=
  (saveKey_outcome h).bind fun _ hs =>
    .ite (.inl rfl) (hs.add (hs.place.next.takeWhile _) rfl (htoken _))

end Scanner

section Tags

variable {cs : List Char} {c : Cursor}

theorem percentBytes_outcome (h : c.In cs) (done : List UInt8) (limit : Nat) :
    Outcome (·.2.In cs) (Unreadable cs) (Scanner.percentBytes done limit c) := by
  induction limit generalizing done c with
  | zero => exact h
  | succ limit ih =>
    unfold Scanner.percentBytes
    split
    · split
      · exact ih (h.skip 3) _
      · exact .inl rfl
    · exact .inl rfl
    · exact h

theorem tagText_outcome (h : c.In cs) (done : List Char) (limit : Nat) :
    Outcome (·.2.In cs) (Unreadable cs) (Scanner.tagText done limit c) := by
  induction limit generalizing done c with
  | zero => exact h
  | succ limit ih =>
    have hplain := h.takeWhile fun ch => Scanner.isTagChar ch && ch != '%'
    unfold Scanner.tagText
    refine .ite ((percentBytes_outcome hplain [] _).bind fun ⟨bytes, c⟩ hbytes => ?_) hplain
    dsimp only
    split
    · exact ih hbytes _
    · exact .inl rfl

theorem tagSuffix_outcome (h : c.In cs) :
    Outcome (·.2.In cs) (Unreadable cs) (Scanner.tagSuffix c) :=
  (tagText_outcome h [] _).bind fun _ htext => .ite (.inl rfl) htext

theorem tagHandle_outcome (h : c.In cs) :
    Outcome (·.2.In cs) (Unreadable cs) (Scanner.tagHandle c) := by
  unfold Scanner.tagHandle
  split
  · exact .ite h.next (.ite (h.skip _) (.inl rfl))
  · exact .inl rfl

/-- The parts of a tag end in the text. -/
theorem tagParts_outcome (h : c.In cs) :
    Outcome (·.2.2.In cs) (Unreadable cs) (Scanner.tagParts c) := by
  unfold Scanner.tagParts
  split
  · exact (tagSuffix_outcome (h.skip 2)).bind fun _ hsuffix => .ite hsuffix.next (.inl rfl)
  · refine .ite h.next (.ite ?_ ?_)
    · exact (tagHandle_outcome h).bind fun _ hhandle =>
        (tagSuffix_outcome hhandle).bind fun _ hsuffix => hsuffix
    · exact (tagSuffix_outcome h.next).bind fun _ hsuffix => hsuffix

/-! ### Directives -/

/-- The number of a version is read, unless it has too many digits. -/
theorem versionNumber_outcome (h : c.In cs)
    (hlong : ∀ digits rest : List Char, c.rest = digits ++ rest →
      (∀ d ∈ digits, d.isDigit = true) → digitLimit < digits.length → Unreadable cs .outOfRange) :
    Outcome (fun r => r.2.In cs ∧
        ∃ digits : List Char, (∀ d ∈ digits, d.isDigit = true) ∧ c.rest = digits ++ r.2.rest)
      (Unreadable cs) (Scanner.versionNumber c) := by
  have hsplit := (c.takeWhile_append_rest Char.isDigit).symm
  have hdigits : ∀ d ∈ (c.takeWhile Char.isDigit).1, d.isDigit = true :=
    fun _ hd => List.mem_takeWhile_imp hd
  unfold Scanner.versionNumber
  dsimp only
  split
  · exact .inl rfl
  · split
    · next htoo => exact hlong _ _ hsplit hdigits htoo
    · exact ⟨h.takeWhile _, _, hdigits, hsplit⟩

/-- The value of a directive is read, unless its version has too many digits. -/
theorem directiveValue_outcome {name : List Char} (h : '%' :: (name ++ c.rest) <:+ cs) :
    Outcome (·.2.In cs) (Unreadable cs) (Scanner.directiveValue (String.ofList name) c) := by
  have hin : c.In cs := (List.suffix_append ('%' :: name) c.rest).trans h
  unfold Scanner.directiveValue
  split
  · next hname =>
    obtain rfl : name = ['Y', 'A', 'M', 'L'] := by
      simpa using congrArg String.toList (eq_of_beq hname)
    have hblanks : ∀ b ∈ (c.takeWhile (· == ' ')).1, b = ' ' := fun b hb =>
      eq_of_beq (List.mem_takeWhile_imp (p := (· == ' ')) hb)
    rw [← c.takeWhile_append_rest (· == ' ')] at h
    -- either number of a version can be too long, the second behind the first and a point
    have hmajor := versionNumber_outcome (hin.dropWhile (· == ' ')) fun digits rest hrest hd hl =>
      .inr ⟨_, h, by
        rw [show (c.takeWhile (· == ' ')).2.rest = digits ++ rest from hrest]
        exact .version hblanks (.inl rfl) hd hl rest⟩
    refine hmajor.bind fun major ⟨hc, digits, hdigits, hrest⟩ => ?_
    refine .ite_of (fun _ => .inl rfl) fun hpoint => ?_
    have hpoint : major.2.rest = '.' :: major.2.next.rest := by
      rw [Cursor.rest_next]
      exact List.eq_cons_of_mem_head? (by simpa [Cursor.sees] using hpoint)
    refine Outcome.bind (versionNumber_outcome hc.next fun digits' rest hrest' hd hl => ?_)
      fun minor hminor => .ite (.inl rfl) hminor.1
    refine .inr ⟨_, h, ?_⟩
    rw [show (c.takeWhile (· == ' ')).2.rest = _ from hrest, hpoint, hrest']
    have hversion := Begins.version hblanks (.inr ⟨digits, hdigits, rfl⟩) hd hl rest
    simpa using hversion
  · refine .ite ?_ (hin.dropWhile _)
    exact (tagHandle_outcome (hin.dropWhile _)).bind fun _ hhandle =>
      .ite (.inl rfl) ((tagSuffix_outcome (hhandle.dropWhile _)).bind fun _ hstart =>
        .ite (.inl rfl) hstart)

end Tags

namespace Scanner

variable {cs : List Char} {s : Scanner}

theorem tagMark_outcome (h : s.Reads cs) : Outcome (Reads cs) (Unreadable cs) s.tagMark :=
  (saveKey_outcome h).bind fun _ hs => (tagParts_outcome hs.place).bind fun _ hparts =>
    .ite (.inl rfl) (hs.add hparts rfl trivial)

theorem cursor_unwind (s : Scanner) (column : Int) : (s.unwind column).cursor = s.cursor := by
  have hto : ∀ (limit : Nat) (s : Scanner), (unwindTo column limit s).cursor = s.cursor := by
    intro limit
    induction limit with
    | zero => exact fun _ => rfl
    | succ limit ih =>
      intro s
      unfold Scanner.unwindTo
      split
      · rw [ih]
        rfl
      · rfl
  unfold Scanner.unwind
  split
  · rfl
  · exact hto _ s

theorem cursor_dropKey {s s' : Scanner} (h : s.dropKey = .ok s') : s'.cursor = s.cursor := by
  unfold dropKey at h
  split at h
  · split at h
    · cases h
    · cases h
      rfl
  · cases h
    rfl

/-- A directive is read, unless its value cannot be. -/
theorem directive_outcome (h : s.Reads cs) {rest : List Char}
    (hrest : s.cursor.rest = '%' :: rest) : Outcome (Reads cs) (Unreadable cs) s.directive := by
  have hkey := (dropKey_outcome (h.unwind (-1))).and fun _ => cursor_dropKey
  refine hkey.bind fun s' ⟨hs, hcursor⟩ => ?_
  have hmark : '%' :: ((s'.cursor.next.takeWhile isNameChar).1 ++
      (s'.cursor.next.takeWhile isNameChar).2.rest) <:+ cs := by
    rw [Cursor.takeWhile_append_rest, Cursor.rest_next, hcursor, cursor_unwind, hrest,
      List.tail_cons, ← hrest]
    exact h.place
  exact .ite (.inl rfl) ((directiveValue_outcome hmark).bind fun _ hd =>
    (endOfLine_outcome hd).bind fun _ hc => hs.add hc rfl trivial)

/-! ### Scalars -/

theorem block_outcome (h : s.Reads cs) (folded : Bool) :
    Outcome (Reads cs) (Unreadable cs) (s.block folded) :=
  (dropKey_outcome h).bind fun _ hs =>
    (blockScalar_outcome hs.place folded _).bind fun _ htext =>
      hs.add htext rfl trivial

theorem quoted_outcome (h : s.Reads cs) (double : Bool) :
    Outcome (Reads cs) (Unreadable cs) (s.quoted double) :=
  (saveKey_outcome h).bind fun _ hs =>
    (quotedScalar_outcome hs.place double).bind fun _ htext =>
      hs.add htext rfl trivial

theorem plain_outcome (h : s.Reads cs) : Outcome (Reads cs) (Unreadable cs) s.plain :=
  (saveKey_outcome h).bind fun _ hs =>
    hs.add (plainFrom_in hs.place _ _ _ _ _ _) rfl trivial

/-! ## All together -/

/-- Going on to the next token stays in the text. -/
theorem Reads.toNext (h : s.Reads cs) (limit : Nat) : (Scanner.toNext limit s).Reads cs := by
  induction limit generalizing s with
  | zero => exact h
  | succ limit ih =>
    have hnext : s.cursor.dropSpaces.dropComment.In cs := (h.place.dropWhile _).dropComment
    unfold Scanner.toNext
    dsimp only
    split
    · next heq => exact ih ⟨hnext.lineBreak? heq, h.solid⟩
    · exact ⟨hnext, h.solid⟩

/-- **Reading a token** goes on in the text, or the text cannot be read there. -/
theorem read_outcome (h : s.Reads cs) : Outcome (Reads cs) (Unreadable cs) s.read := by
  unfold Scanner.read
  split
  · exact streamEnd_outcome h
  · next ch rest hrest =>
    refine .ite_of (fun hmark => ?_) fun _ => ?_
    · obtain rfl : ch = '%' := eq_of_beq (Bool.and_eq_true_iff.1 hmark).1
      exact directive_outcome h hrest
    exact .ite (separator_outcome h trivial) <| .ite (separator_outcome h trivial) <|
      .ite (openFlow_outcome h trivial) <|
      .ite (openFlow_outcome h trivial) <| .ite (closeFlow_outcome h trivial) <|
      .ite (closeFlow_outcome h trivial) <| .ite (flowEntry_outcome h) <|
      .ite (blockEntry_outcome h) <| .ite (keyMark_outcome h) <| .ite (valueMark_outcome h) <|
      .ite (nameMark_outcome h fun _ => trivial) <| .ite (nameMark_outcome h fun _ => trivial) <|
      .ite (tagMark_outcome h) <| .ite (block_outcome h false) <| .ite (block_outcome h true) <|
      .ite (quoted_outcome h false) <| .ite (quoted_outcome h true) <|
      .ite (plain_outcome h) (.inl rfl)

/-- Fetching a token goes on in the text, or the text cannot be read there. -/
theorem fetch_outcome (h : s.Reads cs) : Outcome (Reads cs) (Unreadable cs) s.fetch :=
  (dropStaleKeys_outcome (h.toNext _)).bind fun _ hs => read_outcome (hs.unwind _)

/-- The tokens that are settled stand for something. -/
theorem Reads.isSolid_of_mem_settled (h : s.Reads cs) {t : Token} (ht : t ∈ s.settled) :
    t.IsSolid := by
  unfold settled at ht
  split at ht
  · exact h.solid t (Array.mem_def.2 (List.mem_of_mem_take ht))
  · exact h.solid t (Array.mem_def.2 ht)

/-- Behind the tokens that are certain, there is only the place that cannot be read. -/
theorem Reads.unreadable_of_settled (h : s.Reads cs) {f g : Fault} (hf : Unreadable cs f)
    (hg : .broken g ∈ s.settled ++ [.broken f]) : Unreadable cs g := by
  rcases List.mem_append.1 hg with hg | hg
  · exact (h.isSolid_of_mem_settled hg).elim
  · cases List.mem_singleton.1 hg
    exact hf

/-- **Reading all tokens**: a token that is broken has its cause in the text. -/
theorem Reads.readAll (h : s.Reads cs) {f : Fault} (limit : Nat)
    (hf : .broken f ∈ Scanner.readAll limit s) : Unreadable cs f := by
  induction limit generalizing s with
  | zero => exact h.unreadable_of_settled (.inl rfl) hf
  | succ limit ih =>
    unfold Scanner.readAll at hf
    -- before each token, keys that can no longer be completed are given up
    have hfresh := dropStaleKeys_outcome h
    split at hf
    · next heq =>
      rw [heq] at hfresh
      exact h.unreadable_of_settled hfresh hf
    · next fresh heq =>
      rw [heq] at hfresh
      have hnext := fetch_outcome hfresh
      split at hf
      · next heq =>
        rw [heq] at hnext
        exact hfresh.unreadable_of_settled hnext hf
      · next next heq =>
        rw [heq] at hnext
        split at hf
        · exact (hnext.solid _ (Array.mem_def.2 hf)).elim
        · exact ih hnext hf

end Scanner

/-- **A text breaks off only where it is malformed or something stands in it that cannot be
read.** -/
theorem unreadable_of_broken {text : String} {f : Fault} (h : .broken f ∈ tokens text) :
    Unreadable text.toList f := by
  unfold tokens at h
  dsimp only at h
  split at h
  · cases List.mem_singleton.1 h
    exact .inl rfl
  · have hstart : Cursor.In text.toList { rest := text.toList } := List.suffix_rfl
    refine Scanner.Reads.readAll ⟨?_, ?_⟩ _ h
    · split
      · exact hstart.next
      · exact hstart
    · intro t ht
      exact absurd ht (Array.not_mem_empty t)

end ComponentCatalog.Yaml
