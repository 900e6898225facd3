import ComponentCatalog.Text.Blank
import Mathlib.Data.List.Chain

/-!
# What collapsing does to a text

`collapse` cuts a text into words and joins them with single spaces. Seen character by character
it is a walk along the text (`squeeze`): a blank is dropped, and the next character that is not
blank gets one space before it if something stood before the blank.

So the words of a text are those of the collapsed one (`words_collapse`), and a stretch of the text
that neither begins nor ends with a blank is collapsed on its own, wherever it stands
(`collapse_append_append`). Such a stretch comes out as it was exactly if all blanks in it
are single spaces (`collapse_eq_self_iff`).
-/

namespace ComponentCatalog.Text

/-- The characters of a text that are not blank. -/
def unblanked (cs : List Char) : List Char :=
  cs.filter fun c => !isBlank c

/-- **The walk along a text** behind a word: blanks are dropped, and one space is put before the
next word if a blank has been met since the last one. -/
def squeeze (met : Bool) : List Char → List Char
  | [] => []
  | c :: cs =>
    if isBlank c then squeeze true cs
    else if met then ' ' :: c :: squeeze false cs else c :: squeeze false cs

/-- Whether a blank has been met since the last word, once a text has been walked along. -/
def metAfter (met : Bool) (cs : List Char) : Bool :=
  (cs.getLast?.map isBlank).getD met

/-- All blanks of a text are single spaces. -/
structure SingleSpaced (cs : List Char) : Prop where
  space : ∀ c ∈ cs, isBlank c = true → c = ' '
  single : cs.IsChain fun a b => isBlank a = true → isBlank b = false

/-- A character that is not blank is kept, after one space if blanks came before it. -/
theorem squeeze_of_not_isBlank {c : Char} (h : isBlank c = false) (met : Bool) (cs : List Char) :
    squeeze met (c :: cs) = (if met then [' '] else []) ++ c :: squeeze false cs := by
  cases met <;> simp [squeeze, h]

/-- Two texts are squeezed one after the other, the second with what the first ends in. -/
theorem squeeze_append (met : Bool) (as bs : List Char) :
    squeeze met (as ++ bs) = squeeze met as ++ squeeze (metAfter met as) bs := by
  induction as generalizing met with
  | nil => rfl
  | cons c as ih =>
    have hmet : metAfter met (c :: as) = metAfter (isBlank c) as := by
      simp only [metAfter, List.getLast?_cons]
      cases as.getLast? <;> simp
    by_cases hc : isBlank c = true
    · simp [squeeze, hc, ih, hmet]
    · rw [Bool.not_eq_true] at hc
      rw [List.cons_append, squeeze_of_not_isBlank hc, squeeze_of_not_isBlank hc, hmet, hc, ih]
      simp

/-- After a blank, the walk goes on as from the beginning, with a space before the next word. -/
theorem squeeze_true (cs : List Char) :
    squeeze true cs = if (cs.dropWhile isBlank).isEmpty then []
      else ' ' :: squeeze false (cs.dropWhile isBlank) := by
  induction cs with
  | nil => rfl
  | cons c cs ih =>
    by_cases hc : isBlank c = true
    · rw [squeeze, if_pos hc, ih, List.dropWhile_cons_of_pos hc]
    · rw [List.dropWhile_cons_of_neg hc]
      simp [squeeze, hc]

theorem unblanked_append (as bs : List Char) :
    unblanked (as ++ bs) = unblanked as ++ unblanked bs :=
  List.filter_append as bs

/-- Squeezing changes blanks only. -/
theorem unblanked_squeeze (met : Bool) (cs : List Char) :
    unblanked (squeeze met cs) = unblanked cs := by
  induction cs generalizing met with
  | nil => rfl
  | cons c cs ih =>
    have hspace : isBlank ' ' = true := by decide
    unfold unblanked at ih ⊢
    by_cases hc : isBlank c = true
    · simp [squeeze, hc, ih]
    · cases met <;> simp [squeeze, hc, ih, hspace]

theorem unblanked_dropWhile (cs : List Char) :
    unblanked (cs.dropWhile isBlank) = unblanked cs := by
  induction cs with
  | nil => rfl
  | cons c cs ih =>
    by_cases hc : isBlank c = true
    · rw [List.dropWhile_cons_of_pos hc, ih]
      simp [unblanked, hc]
    · rw [List.dropWhile_cons_of_neg hc]

/-! ## Words -/

theorem wordsFrom_ne_nil {run : List Char} (h : run ≠ []) (cs : List Char) :
    wordsFrom run cs ≠ [] := by
  induction cs generalizing run with
  | nil => simp [wordsFrom, h]
  | cons c cs ih =>
    by_cases hc : isBlank c = true
    · simp [wordsFrom, hc, h]
    · simpa [wordsFrom, hc] using ih (List.cons_ne_nil c run)

/-- A text has no words exactly if it is blank. -/
theorem wordsFrom_nil_eq_nil_iff {cs : List Char} :
    wordsFrom [] cs = [] ↔ cs.dropWhile isBlank = [] := by
  induction cs with
  | nil => simp [wordsFrom]
  | cons c cs ih =>
    by_cases hc : isBlank c = true
    · simpa [wordsFrom, hc] using ih
    · simp [wordsFrom, hc, wordsFrom_ne_nil]

/-- The words joined with spaces, from inside a word on or from the beginning. -/
theorem intercalate_wordsFrom (run cs : List Char) :
    [' '].intercalate (wordsFrom run cs)
      = if run.isEmpty then squeeze false (cs.dropWhile isBlank)
        else run.reverse ++ squeeze false cs := by
  fun_induction wordsFrom run cs with
  | case1 run h => simp [h, squeeze]
  | case2 run h => simp [h, squeeze]
  | case3 run c cs hc h ih => simpa [h, hc] using ih
  | case4 run c cs hc h ih =>
    rw [if_neg h, squeeze, if_pos hc, squeeze_true]
    by_cases hcs : cs.dropWhile isBlank = []
    · simp [wordsFrom_nil_eq_nil_iff.2 hcs, hcs]
    · have hne : wordsFrom [] cs ≠ [] := fun h => hcs (wordsFrom_nil_eq_nil_iff.1 h)
      rw [List.intercalate_cons_of_ne_nil hne, ih]
      simp [hcs]
  | case5 run c cs hc ih =>
    rw [ih]
    cases run <;> simp [squeeze, hc]

/-- A text that is collapsed is its words with one space between them. -/
theorem toList_collapse_eq_intercalate (s : String) :
    (collapse s).toList = [' '].intercalate (wordsFrom [] s.toList) := by
  have hwords : (words s).map String.toList = wordsFrom [] s.toList := by
    simp [words, Function.comp_def]
  rw [collapse, String.toList_intercalate, hwords]
  rfl

/-- **Collapsing is a walk along the text** from its first word on. -/
theorem toList_collapse (s : String) :
    (collapse s).toList = squeeze false (s.toList.dropWhile isBlank) := by
  rw [toList_collapse_eq_intercalate, intercalate_wordsFrom]
  rfl

/-- A word is not empty and has no blanks. -/
def IsWord (w : List Char) : Prop :=
  w ≠ [] ∧ ∀ c ∈ w, isBlank c = false

/-- The words of a text are words. -/
theorem isWord_of_mem_wordsFrom {run cs : List Char} (hrun : ∀ c ∈ run, isBlank c = false)
    {w : List Char} (hw : w ∈ wordsFrom run cs) : IsWord w := by
  fun_induction wordsFrom run cs with
  | case1 => cases hw
  | case2 run h =>
    obtain rfl := List.mem_singleton.1 hw
    exact ⟨by simpa using h, fun c hc => hrun c (List.mem_reverse.1 hc)⟩
  | case3 run c cs hc h ih => exact ih (by simp) hw
  | case4 run c cs hc h ih =>
    rcases List.mem_cons.1 hw with rfl | hw
    · exact ⟨by simpa using h, fun c hc => hrun c (List.mem_reverse.1 hc)⟩
    · exact ih (by simp) hw
  | case5 run c cs hc ih =>
    refine ih (fun d hd => ?_) hw
    rcases List.mem_cons.1 hd with rfl | hd
    · simpa using hc
    · exact hrun d hd

/-- What is not blank goes on with the word that has begun. -/
theorem wordsFrom_append {w : List Char} (hw : ∀ c ∈ w, isBlank c = false) (run cs : List Char) :
    wordsFrom run (w ++ cs) = wordsFrom (w.reverse ++ run) cs := by
  induction w generalizing run with
  | nil => rfl
  | cons c w ih =>
    rw [List.forall_mem_cons] at hw
    rw [List.cons_append, wordsFrom, if_neg (by simp [hw.1]), ih hw.2]
    simp

/-- Words joined with spaces are cut into the same words. -/
theorem wordsFrom_intercalate {ws : List (List Char)} (hws : ∀ w ∈ ws, IsWord w) :
    wordsFrom [] ([' '].intercalate ws) = ws := by
  induction ws with
  | nil => rfl
  | cons w ws ih =>
    rw [List.forall_mem_cons] at hws
    obtain ⟨⟨hne, hw⟩, hws⟩ := hws
    cases ws with
    | nil =>
      have happ := wordsFrom_append hw [] []
      simpa [wordsFrom, hne] using happ
    | cons v ws =>
      rw [List.intercalate_cons_of_ne_nil (by simp), List.append_assoc, wordsFrom_append hw]
      have hspace : isBlank ' ' = true := by decide
      simpa [wordsFrom, hspace, hne] using ih hws

/-- **The collapsed text has the same words.** -/
theorem words_collapse (s : String) : words (collapse s) = words s := by
  have hwords : ∀ w ∈ wordsFrom [] s.toList, IsWord w :=
    fun w hw => isWord_of_mem_wordsFrom (by simp) hw
  rw [words, toList_collapse_eq_intercalate, wordsFrom_intercalate hwords, words]

/-! ## Stretches of a text -/

/-- A stretch of a text that neither begins nor ends with a blank. -/
structure Enclosed (cs : List Char) : Prop where
  first : cs.head?.map isBlank = some false
  last : cs.getLast?.map isBlank = some false

/-- What is enclosed begins with a character that is not blank. -/
theorem Enclosed.exists_cons {cs : List Char} (h : Enclosed cs) :
    ∃ c rest, cs = c :: rest ∧ isBlank c = false := by
  cases cs with
  | nil => simpa using h.first
  | cons c rest => exact ⟨c, rest, rfl, by simpa using h.first⟩

theorem dropWhile_append_cons {p : Char → Bool} {c : Char} (hc : p c = false) (as bs : List Char) :
    (as ++ c :: bs).dropWhile p = as.dropWhile p ++ c :: bs := by
  rw [List.dropWhile_append]
  split
  · next has =>
    rw [List.isEmpty_iff.1 has, List.dropWhile_cons_of_neg (by simp [hc]), List.nil_append]
  · rfl

/-- Blanks are dropped up to what is enclosed and no further. -/
theorem Enclosed.dropWhile_append {cs : List Char} (h : Enclosed cs) (as bs : List Char) :
    (as ++ (cs ++ bs)).dropWhile isBlank = as.dropWhile isBlank ++ (cs ++ bs) := by
  obtain ⟨c, rest, rfl, hc⟩ := h.exists_cons
  exact dropWhile_append_cons hc as (rest ++ bs)

/-- What is enclosed has no blanks at its ends that could be dropped. -/
theorem Enclosed.toList_collapse {s : String} (h : Enclosed s.toList) :
    (collapse s).toList = squeeze false s.toList := by
  have hdrop := h.dropWhile_append [] []
  rw [Text.toList_collapse]
  simp only [List.nil_append, List.append_nil, List.dropWhile_nil] at hdrop
  rw [hdrop]

/-- **A stretch between words is collapsed on its own**: it stands in the collapsed text between
what becomes of the text before and after it. -/
theorem collapse_append_append (a m b : String) (hm : Enclosed m.toList) :
    ∃ a' b', collapse (a ++ m ++ b) = a' ++ collapse m ++ b'
      ∧ unblanked a'.toList = unblanked a.toList ∧ unblanked b'.toList = unblanked b.toList := by
  obtain ⟨c, rest, hcs, hc⟩ := hm.exists_cons
  have hlast : metAfter false m.toList = false := by
    simp [metAfter, hm.last]
  -- one space is left of the blanks between the text before and the stretch
  let start := a.toList.dropWhile isBlank
  let gap := if metAfter false start then [' '] else []
  refine ⟨String.ofList (squeeze false start ++ gap), String.ofList (squeeze false b.toList),
    ?_, ?_, ?_⟩
  · have hgap : squeeze (metAfter false start) (m.toList ++ b.toList)
        = gap ++ squeeze false (m.toList ++ b.toList) := by
      rw [hcs, List.cons_append, squeeze_of_not_isBlank hc, squeeze_of_not_isBlank hc]
      simp [gap]
    apply String.toList_injective
    rw [toList_collapse]
    simp only [String.toList_append, String.toList_ofList, List.append_assoc]
    rw [hm.dropWhile_append, hm.toList_collapse, squeeze_append, hgap, squeeze_append, hlast]
  · have hblank : unblanked gap = [] := by
      simp only [gap]
      split <;> rfl
    rw [String.toList_ofList, unblanked_append, hblank, List.append_nil, unblanked_squeeze,
      unblanked_dropWhile]
  · rw [String.toList_ofList, unblanked_squeeze]

/-- What has been squeezed has single spaces. -/
theorem singleSpaced_squeeze (met : Bool) (cs : List Char) : SingleSpaced (squeeze met cs) := by
  have hspace : isBlank ' ' = true := by decide
  induction cs generalizing met with
  | nil => exact ⟨by simp [squeeze], by simp [squeeze]⟩
  | cons c cs ih =>
    by_cases hc : isBlank c = true
    · simpa [squeeze, hc] using ih true
    · have hword : SingleSpaced (c :: squeeze false cs) :=
        ⟨List.forall_mem_cons.2 ⟨fun h => absurd h hc, (ih false).space⟩,
          List.isChain_cons.2 ⟨fun _ _ h => absurd h hc, (ih false).single⟩⟩
      cases met with
      | false => simpa [squeeze, hc] using hword
      | true =>
        have hgap : SingleSpaced (' ' :: c :: squeeze false cs) :=
          ⟨List.forall_mem_cons.2 ⟨fun _ => rfl, hword.space⟩,
            List.isChain_cons.2 ⟨by simpa [hspace] using hc, hword.single⟩⟩
        simpa [squeeze, hc] using hgap

/-- What has single spaces stays as it is. -/
theorem squeeze_of_singleSpaced {cs : List Char} (h : SingleSpaced cs)
    (hlast : metAfter false cs = false) : squeeze false cs = cs := by
  induction cs with
  | nil => rfl
  | cons c cs ih =>
    obtain ⟨hspace, hsingle⟩ := h
    rw [List.forall_mem_cons] at hspace
    rw [List.isChain_cons] at hsingle
    cases cs with
    | nil =>
      have hc : isBlank c = false := by simpa [metAfter] using hlast
      simp [squeeze, hc]
    | cons d rest =>
      have ih := ih ⟨hspace.2, hsingle.2⟩ (by simpa [metAfter, List.getLast?_cons] using hlast)
      by_cases hc : isBlank c = true
      · -- a blank is followed by a word, before which the walk puts the space back
        have hd : isBlank d = false := hsingle.1 d rfl hc
        rw [squeeze_of_not_isBlank hd] at ih
        rw [squeeze, if_pos hc, squeeze_of_not_isBlank hd, hspace.1 hc]
        simpa using ih
      · rw [Bool.not_eq_true] at hc
        rw [squeeze_of_not_isBlank hc, ih]
        simp

/-- **A stretch is left as it is exactly if all blanks in it are single spaces.** -/
theorem collapse_eq_self_iff {s : String} (h : Enclosed s.toList) :
    collapse s = s ↔ SingleSpaced s.toList := by
  rw [← String.toList_inj, h.toList_collapse]
  constructor
  · intro heq
    exact heq ▸ singleSpaced_squeeze false s.toList
  · intro hsingle
    exact squeeze_of_singleSpaced hsingle (by simp [metAfter, h.last])

end ComponentCatalog.Text
