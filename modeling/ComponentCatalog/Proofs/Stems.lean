import ComponentCatalog.Inheritance.Stem
import ComponentCatalog.Proofs.Names
import ComponentCatalog.Proofs.SmallLetters
import Mathlib.Data.List.Chain

/-!
# The spellings of a type name

A name in camel case falls into words, and its spelling with hyphens is its words in small
letters with a hyphen between each two of them (`kebab_eq_intercalate`). The words are told by the
places between them (`Divides`), where a hyphen is put and nowhere else (`IsDivision`).

The hyphens are put in first and the letters made small afterwards, and this order might matter:
whether a capital sigma becomes a final one depends on the letters around it, across characters
that do not count, and a hyphen is not one of those. It does not matter because of where the
hyphens are. On either side of one there is an ASCII letter or digit, and a search for a cased
letter that comes from the one side has ended before it gets to the other (`Separates`). So the
small letters of a name are those of its words, with hyphens or without, and deleting the hyphens
from a spelling gives back the name in small letters.

The stems of a type are at most four spellings of its name (`candidates_spellings`), each of them
that of the name without its ending, or of the same without its beginning.
-/

namespace ComponentCatalog.Text

/-! ## Small letters of two texts together -/

/-- **A character that keeps the letters on its sides apart**: its small letter does not depend on
them, and a search for a cased letter does not go past it. -/
structure Separates (c : Char) : Prop where
  ascii : c.toNat < 0x80
  counts : inRanges ignorableRanges c.toNat = false

/-- Two texts that meet at characters that keep their letters apart. -/
def Apart (as bs : List Char) : Prop :=
  ∃ x ∈ as.getLast?, ∃ y ∈ bs.head?, Separates x ∧ Separates y

/-- Words stay apart if the second one goes on. -/
theorem Apart.of_prefix {as bs cs : List Char} (h : Apart as bs) (hcs : bs <+: cs) :
    Apart as cs := by
  obtain ⟨x, hx, y, hy, hapart⟩ := h
  obtain ⟨rest, rfl⟩ := hcs
  exact ⟨x, hx, y, List.mem_head?_append_of_mem_head? hy, hapart⟩

theorem lowerChar_of_ascii {c : Char} (hc : c.toNat < 0x80) (before after : List Char) :
    lowerChar before c after = [c.toLower] := by
  rw [lowerChar, if_pos hc]

theorem lowerChar_ne_nil (before : List Char) (c : Char) (after : List Char) :
    lowerChar before c after ≠ [] := by
  unfold lowerChar
  dsimp only
  split_ifs <;> exact List.cons_ne_nil _ _

/-- All that a letter sees of its neighbours is whether the first one that counts is cased. -/
theorem lowerChar_congr {before before' after after' : List Char} (c : Char)
    (hbefore : casedFirst before = casedFirst before')
    (hafter : casedFirst after = casedFirst after') :
    lowerChar before c after = lowerChar before' c after' := by
  unfold lowerChar
  rw [hbefore, hafter]

/-- What comes after a character that counts is not looked at. -/
theorem casedFirst_append_cons {c : Char} (hc : Separates c) (as bs bs' : List Char) :
    casedFirst (as ++ c :: bs) = casedFirst (as ++ c :: bs') := by
  induction as with
  | nil => simp [casedFirst, hc.counts]
  | cons a as ih => rw [List.cons_append, List.cons_append, casedFirst, casedFirst, ih]

/-- Small letters are found on both sides of a character that separates them. -/
theorem smallLetters_append_cons {c : Char} (hc : Separates c) (before as bs : List Char) :
    smallLetters before (as ++ c :: bs)
      = smallLetters before (as ++ [c]) ++ smallLetters (c :: (as.reverse ++ before)) bs := by
  induction as generalizing before with
  | nil =>
    -- the separating character has the rest behind it on one side only, but does not look at it
    simp only [List.nil_append, smallLetters, lowerChar_of_ascii hc.ascii, List.reverse_nil,
      List.append_nil]
  | cons a as ih =>
    simp only [List.cons_append, smallLetters, ih, List.append_assoc, List.reverse_cons,
      List.nil_append]
    -- a letter before it looks no farther than to the separating character
    rw [lowerChar_congr a rfl (casedFirst_append_cons hc as bs [])]

/-- What stands before a character that counts changes nothing behind it. -/
theorem smallLetters_past {c : Char} (hc : Separates c) (as before before' cs : List Char) :
    smallLetters (as ++ c :: before) cs = smallLetters (as ++ c :: before') cs := by
  induction cs generalizing as with
  | nil => rfl
  | cons d cs ih =>
    rw [smallLetters, smallLetters,
      lowerChar_congr d (casedFirst_append_cons hc as before before') rfl]
    exact congrArg (lowerChar _ d cs ++ ·) (ih (d :: as))

/-- **The small letters of two texts that are apart** are those of the one and those of the
other. -/
theorem smallLetters_append {as bs : List Char} (h : Apart as bs) :
    smallLetters [] (as ++ bs) = smallLetters [] as ++ smallLetters [] bs := by
  obtain ⟨x, hx, y, hy, hxs, hys⟩ := h
  obtain ⟨as, rfl⟩ := List.getLast?_eq_some_iff.1 hx
  obtain ⟨bs, rfl⟩ := List.head?_eq_some_iff.1 hy
  rw [List.append_assoc, List.singleton_append, smallLetters_append_cons hxs]
  refine congrArg (smallLetters [] (as ++ [x]) ++ ·) ?_
  rw [smallLetters, smallLetters, lowerChar_of_ascii hys.ascii, lowerChar_of_ascii hys.ascii]
  exact congrArg ([y.toLower] ++ ·) (smallLetters_past hys [] _ _ bs)

theorem lower_eq_empty_iff {s : String} : lower s = "" ↔ s = "" := by
  rw [← String.toList_eq_nil_iff, toList_lower, ← String.toList_eq_nil_iff]
  cases s.toList with
  | nil => exact Iff.rfl
  | cons c cs => simp [smallLetters, lowerChar_ne_nil]

/-- The hyphen, the digits and the letters of ASCII count. -/
theorem checked_ignorableRanges :
    (ignorableRanges.all fun r => r.2.blt 0x2D || (Nat.blt 0x2D r.1 && r.2.blt 0x30)
      || (Nat.blt 0x39 r.1 && r.2.blt 0x41) || (Nat.blt 0x5A r.1 && r.2.blt 0x61)
      || Nat.blt 0x7A r.1) = true := by
  decide +kernel

/-- Hyphens, digits and ASCII letters separate. -/
theorem separates_of_toNat {c : Char} (h : c.toNat = 0x2D ∨ 0x30 ≤ c.toNat ∧ c.toNat ≤ 0x39
    ∨ 0x41 ≤ c.toNat ∧ c.toNat ≤ 0x5A ∨ 0x61 ≤ c.toNat ∧ c.toNat ≤ 0x7A) : Separates c where
  ascii := by omega
  counts := by
    refine List.any_eq_false.2 fun r hr hin => ?_
    have hrange := List.all_eq_true.1 checked_ignorableRanges r hr
    simp only [Bool.or_eq_true, Bool.and_eq_true, Nat.blt_eq, decide_eq_true_eq] at hrange hin
    omega

end ComponentCatalog.Text

namespace ComponentCatalog.Stem

open Text

/-! ## The words of a name -/

/-- **A place between two words of a name**: behind it is an ASCII capital, and before it is a
small letter or a digit, or else another capital if a small letter follows on the one behind. -/
def Divides (before after : List Char) : Prop :=
  ∃ x ∈ before.getLast?, ∃ y ∈ after.head?, isCapital y = true
    ∧ (isSmall x = true ∨ x.isDigit = true
      ∨ isCapital x = true ∧ ∃ z ∈ after[1]?, isSmall z = true)

/-- Some words meet behind a text: it is the first few of them, and others follow. -/
def MeetBehind (words : List (List Char)) (before : List Char) : Prop :=
  ∃ front back, front ++ back = words ∧ front ≠ [] ∧ back ≠ [] ∧ front.flatten = before

/-- **The division of a name into words**: none of them is empty, and they meet at the places
between words and nowhere else. -/
structure IsDivision (name : List Char) (words : List (List Char)) : Prop where
  flatten_eq : words.flatten = name
  ne_nil : [] ∉ words
  divides_iff : ∀ before after, before ++ after = name →
    (Divides before after ↔ MeetBehind words before)

theorem not_divides_nil (after : List Char) : ¬ Divides [] after := by
  rintro ⟨x, hx, -⟩
  cases hx

theorem divides_singleton_iff {c : Char} {after : List Char} :
    Divides [c] after ↔ isBoundary c after = true := by
  cases after with
  | nil => simp [Divides, isBoundary]
  | cons y after => cases after <;> simp [Divides, isBoundary, or_assoc]

/-- Whether a place divides is told by the last character before it. -/
theorem divides_cons_iff {c : Char} {before after : List Char} (h : before ≠ []) :
    Divides (c :: before) after ↔ Divides before after := by
  rw [Divides, Divides, ← List.singleton_append, List.getLast?_append_of_ne_nil _ h]

/-- Two words meet behind the first one or further on. -/
theorem meetBehind_cons_iff {w before : List Char} {words : List (List Char)} :
    MeetBehind (w :: words) before
      ↔ words ≠ [] ∧ w = before ∨ ∃ rest, MeetBehind words rest ∧ w ++ rest = before := by
  constructor
  · rintro ⟨front, back, hwords, hfront, hback, rfl⟩
    obtain ⟨v, front, rfl⟩ := List.exists_cons_of_ne_nil hfront
    obtain ⟨rfl, rfl⟩ := List.cons.inj hwords
    rw [List.flatten_cons]
    by_cases hone : front = []
    · exact .inl (by simp [hone, hback])
    · exact .inr ⟨_, ⟨front, back, rfl, hone, hback, rfl⟩, rfl⟩
  · rintro (⟨hwords, rfl⟩ | ⟨rest, ⟨front, back, rfl, -, hback, rfl⟩, rfl⟩)
    · exact ⟨[w], words, rfl, List.cons_ne_nil _ _, hwords, List.append_nil w⟩
    · exact ⟨w :: front, back, rfl, List.cons_ne_nil _ _, hback, rfl⟩

theorem not_meetBehind_of_nil (before : List Char) : ¬ MeetBehind [] before := by
  rintro ⟨front, back, hwords, hfront, -, -⟩
  exact hfront (List.append_eq_nil_iff.1 hwords).1

theorem not_meetBehind_nil {words : List (List Char)} (h : [] ∉ words) : ¬ MeetBehind words [] := by
  rintro ⟨front, back, rfl, hfront, -, hflatten⟩
  obtain ⟨w, front, rfl⟩ := List.exists_cons_of_ne_nil hfront
  have hw : w = [] := (List.append_eq_nil_iff.1 hflatten).1
  exact h (hw ▸ List.mem_cons_self)

namespace IsDivision

variable {c : Char} {name w : List Char} {words : List (List Char)}

theorem empty : IsDivision [] [] where
  flatten_eq := rfl
  ne_nil := List.not_mem_nil
  divides_iff before after h := by
    obtain ⟨rfl, -⟩ := List.append_eq_nil_iff.1 h
    exact iff_of_false (not_divides_nil after) (not_meetBehind_of_nil [])

/-- One more character in front moves all places by one, and there is a new one behind it. -/
theorem cons_of (h : IsDivision name words) {words' : List (List Char)}
    (hflatten : words'.flatten = c :: name) (hnil : [] ∉ words')
    (hnew : Divides [c] name ↔ MeetBehind words' [c])
    (hold : ∀ before, before ≠ [] → (MeetBehind words before ↔ MeetBehind words' (c :: before))) :
    IsDivision (c :: name) words' where
  flatten_eq := hflatten
  ne_nil := hnil
  divides_iff before after hsplit := by
    cases before with
    | nil => exact iff_of_false (not_divides_nil after) (not_meetBehind_nil hnil)
    | cons b before =>
      obtain ⟨rfl, hname⟩ := List.cons.inj hsplit
      by_cases hbefore : before = []
      · subst hbefore
        obtain rfl : after = name := hname
        exact hnew
      · rw [divides_cons_iff hbefore, h.divides_iff before after hname, hold before hbefore]

/-- A character before a place between words is a word of its own. -/
theorem cons_word (h : IsDivision name words) (hc : Divides [c] name) :
    IsDivision (c :: name) ([c] :: words) := by
  have hwords : words ≠ [] := by
    rintro rfl
    rw [← h.flatten_eq] at hc
    obtain ⟨x, -, y, hy, -⟩ := hc
    cases hy
  refine h.cons_of ?_ (by simpa using h.ne_nil) ?_ fun before hbefore => ?_
  · rw [List.flatten_cons, h.flatten_eq, List.singleton_append]
  · exact iff_of_true hc (meetBehind_cons_iff.2 (.inl ⟨hwords, rfl⟩))
  · simp [meetBehind_cons_iff, Ne.symm hbefore]

/-- Any other character belongs to the word behind it. -/
theorem cons_letter (h : IsDivision name (w :: words)) (hc : ¬ Divides [c] name) :
    IsDivision (c :: name) ((c :: w) :: words) := by
  have hnil := h.ne_nil
  have hmove : ∀ before, MeetBehind (w :: words) before
      ↔ MeetBehind ((c :: w) :: words) (c :: before) := by
    simp [meetBehind_cons_iff]
  refine h.cons_of ?_ (by simp_all) ?_ fun before _ => hmove before
  · rw [← h.flatten_eq]
    rfl
  · rw [← hmove]
    exact iff_of_false hc (not_meetBehind_nil hnil)

/-- The last character of a name has no place behind it. -/
theorem singleton (c : Char) : IsDivision [c] [[c]] := by
  refine empty.cons_of rfl (by simp) (iff_of_false ?_ ?_) fun before _ => ?_
  · rw [divides_singleton_iff]
    exact Bool.false_ne_true
  · simp [meetBehind_cons_iff, not_meetBehind_of_nil]
  · simp [meetBehind_cons_iff, not_meetBehind_of_nil]

end IsDivision

/-- **Hyphens are put between the words of a name.** -/
theorem exists_isDivision (cs : List Char) :
    ∃ words, IsDivision cs words ∧ hyphenate cs = ['-'].intercalate words := by
  induction cs with
  | nil => exact ⟨[], .empty, rfl⟩
  | cons c cs ih =>
    obtain ⟨words, hwords, hyphened⟩ := ih
    rw [hyphenate, hyphened]
    cases words with
    | nil =>
      -- there are no words only where there are no characters
      obtain rfl : cs = [] := hwords.flatten_eq.symm
      exact ⟨[[c]], .singleton c, by simp [isBoundary]⟩
    | cons w words =>
      split
      · next hc =>
        refine ⟨[c] :: w :: words, hwords.cons_word (divides_singleton_iff.2 hc), ?_⟩
        rw [List.intercalate_cons_cons]
        rfl
      · next hc =>
        refine ⟨(c :: w) :: words, hwords.cons_letter (mt divides_singleton_iff.1 hc), ?_⟩
        cases words <;> simp

/-! ## The spelling with hyphens -/

theorem isCapital_iff {c : Char} : isCapital c = true ↔ 0x41 ≤ c.toNat ∧ c.toNat ≤ 0x5A := by
  simp [isCapital, Char.le_def, UInt32.le_iff_toNat_le]

theorem isSmall_iff {c : Char} : isSmall c = true ↔ 0x61 ≤ c.toNat ∧ c.toNat ≤ 0x7A := by
  simp [isSmall, Char.le_def, UInt32.le_iff_toNat_le]

theorem isDigit_iff {c : Char} : c.isDigit = true ↔ 0x30 ≤ c.toNat ∧ c.toNat ≤ 0x39 := by
  simp [Char.isDigit, UInt32.le_iff_toNat_le]

/-- What a name is divided into is apart. -/
theorem Divides.apart {before after : List Char} (h : Divides before after) :
    Apart before after := by
  obtain ⟨x, hx, y, hy, hcapital, hrest⟩ := h
  refine ⟨x, hx, y, hy, separates_of_toNat ?_, separates_of_toNat ?_⟩
  · rw [isSmall_iff, isDigit_iff, isCapital_iff] at hrest
    omega
  · rw [isCapital_iff] at hcapital
    omega

/-- All words of a division are apart. -/
theorem IsDivision.isChain_apart {name : List Char} {words : List (List Char)}
    (h : IsDivision name words) : words.IsChain Apart := by
  refine List.isChain_iff_forall_rel_of_append_cons_cons.2 fun w w' front back hwords => ?_
  subst hwords
  have hw : w ≠ [] := by rintro rfl; exact h.ne_nil (by simp)
  have hw' : w' ≠ [] := by rintro rfl; exact h.ne_nil (by simp)
  have hdivides : Divides (front.flatten ++ w) (w' ++ back.flatten) := by
    refine (h.divides_iff _ _ ?_).2 ⟨front ++ [w], w' :: back, by simp, by simp, by simp, by simp⟩
    rw [← h.flatten_eq]
    simp
  obtain ⟨x, hx, y, hy, hapart⟩ := hdivides.apart
  rw [List.getLast?_append_of_ne_nil _ hw] at hx
  rw [List.head?_append_of_ne_nil _ hw'] at hy
  exact ⟨x, hx, y, hy, hapart⟩

/-- The hyphen keeps letters apart as well. -/
theorem separates_hyphen : Separates '-' :=
  separates_of_toNat (.inl rfl)

/-- The small letters of words that are put together are those of the words. -/
theorem smallLetters_flatten {words : List (List Char)} (h : words.IsChain Apart) :
    smallLetters [] words.flatten = (words.map (smallLetters [])).flatten := by
  induction h with
  | nil => rfl
  | singleton w => simp
  | @cons_cons w w' words hw h ih =>
    have hapart : Apart w (w' :: words).flatten := hw.of_prefix (List.prefix_append _ _)
    rw [List.flatten_cons, smallLetters_append hapart, ih]
    rfl

/-- So it is when hyphens are put between them. -/
theorem smallLetters_intercalate {words : List (List Char)} (h : words.IsChain Apart) :
    smallLetters [] (['-'].intercalate words)
      = ['-'].intercalate (words.map (smallLetters [])) := by
  induction h with
  | nil => rfl
  | singleton w => simp
  | @cons_cons w w' words hw h ih =>
    obtain ⟨x, hx, y, hy, hxs, hys⟩ := hw
    have hprefix : w' <+: ['-'].intercalate (w' :: words) := by
      cases words <;> simp
    have hback : Apart ['-'] (['-'].intercalate (w' :: words)) :=
      Apart.of_prefix ⟨'-', rfl, y, hy, separates_hyphen, hys⟩ hprefix
    have hfront : Apart w (['-'] ++ ['-'].intercalate (w' :: words)) :=
      ⟨x, hx, '-', rfl, hxs, separates_hyphen⟩
    have hhyphen : smallLetters [] ['-'] = ['-'] := rfl
    rw [List.intercalate_cons_cons, List.append_assoc, smallLetters_append hfront,
      smallLetters_append hback, ih, hhyphen]
    simp

/-- **The spelling of a name with hyphens** is its words in small letters with a hyphen between
each two of them. -/
theorem kebab_eq_intercalate (name : String) :
    ∃ words, IsDivision name.toList words
      ∧ kebab name = "-".intercalate (words.map fun w => lower (String.ofList w))
      ∧ lower name = String.join (words.map fun w => lower (String.ofList w)) := by
  obtain ⟨words, hwords, hyphened⟩ := exists_isDivision name.toList
  have hchain := hwords.isChain_apart
  have hlower : ∀ w, (lower (String.ofList w)).toList = smallLetters [] w := fun w => by
    rw [toList_lower, String.toList_ofList]
  refine ⟨words, hwords, String.toList_inj.1 ?_, String.toList_inj.1 ?_⟩
  · rw [kebab, toList_lower, String.toList_ofList, hyphened, smallLetters_intercalate hchain,
      String.toList_intercalate, List.map_map]
    simp only [Function.comp_def, hlower]
    rfl
  · rw [toList_lower, ← hwords.flatten_eq, smallLetters_flatten hchain, String.toList_join,
      List.flatMap_map]
    simp only [hlower, List.flatMap]

/-- A text without its hyphens. -/
def unhyphened (s : String) : String :=
  String.ofList (s.toList.filter (· != '-'))

/-- Hyphens between words are all that is added. -/
theorem filter_intercalate (words : List (List Char)) :
    (['-'].intercalate words).filter (· != '-') = words.flatten.filter (· != '-') := by
  induction words with
  | nil => rfl
  | cons w words ih =>
    cases words with
    | nil => simp
    | cons w' words => simp_all [List.intercalate_cons_cons]

/-- Without its hyphens, the spelling is the name in small letters. -/
theorem unhyphened_kebab (name : String) : unhyphened (kebab name) = unhyphened (lower name) := by
  obtain ⟨words, -, hkebab, hlower⟩ := kebab_eq_intercalate name
  rw [unhyphened, unhyphened, hkebab, hlower, String.toList_intercalate, String.toList_join]
  refine congrArg String.ofList ?_
  rw [List.flatMap]
  exact filter_intercalate _

/-! ### A second time -/

/-- A name without capitals is not divided. -/
theorem hyphenate_of_not_capital {cs : List Char} (h : ∀ c ∈ cs, isCapital c = false) :
    hyphenate cs = cs := by
  induction cs with
  | nil => rfl
  | cons c cs ih =>
    have hboundary : isBoundary c cs = false := by
      cases cs with
      | nil => rfl
      | cons d cs => simp [isBoundary, h d (by simp)]
    rw [hyphenate, hboundary, ih fun c' hc' => h c' (List.mem_cons_of_mem c hc')]
    rfl

/-- A small letter is no capital. -/
theorem not_isCapital_of_isSmall {c : Char} (h : Text.IsSmall c) : isCapital c = false := by
  rw [Bool.eq_false_iff]
  intro hc
  have hall : ∀ n < 0x80, isCapital (Char.ofNat n) = true →
      (Char.ofNat n).toLower ≠ Char.ofNat n := by decide
  have hascii : c.toNat < 0x80 := by
    rw [isCapital_iff] at hc
    omega
  have hlower := hall c.toNat hascii
  rw [Char.ofNat_toNat] at hlower
  have hsame := h [] []
  rw [lowerChar_of_ascii hascii] at hsame
  exact hlower hc (List.singleton_inj.1 hsame)

/-- **Spelling a name twice gives what spelling it once does.** -/
theorem kebab_kebab_eq (name : String) : kebab (kebab name) = kebab name := by
  have hsmall : ∀ c ∈ (kebab name).toList, isCapital c = false := by
    intro c hc
    rw [kebab, toList_lower] at hc
    exact not_isCapital_of_isSmall (isSmall_of_mem_smallLetters hc)
  rw [kebab, hyphenate_of_not_capital hsmall, String.ofList_toList, kebab, lower_lower]

/-! ## Endings and beginnings -/

/-- **A name without its usual ending**, which is cut off unless nothing would be left. -/
inductive WithoutEnding (suffix name : String) : String → Prop
  | cut {base : String} : base ≠ "" → name = base ++ suffix → WithoutEnding suffix name base
  | whole : (∀ base, base ≠ "" → name ≠ base ++ suffix) → WithoutEnding suffix name name

/-- A name that begins with something, neither of it nor of the rest being empty. -/
def BeginsWith (name start rest : String) : Prop :=
  start ≠ "" ∧ rest ≠ "" ∧ name = start ++ rest

/-- **A name without its beginning**, that is, without the first of several that it begins
with. -/
def WithoutBeginning (starts : List String) (name bare : String) : Prop :=
  ∃ before start after, starts = before ++ start :: after ∧ BeginsWith name start bare
    ∧ ∀ s ∈ before, ∀ rest, ¬ BeginsWith name s rest

theorem length_lt_append_iff {start rest : String} :
    start.length < (start ++ rest).length ↔ rest ≠ "" := by
  rw [String.length_append, ne_eq, ← String.length_eq_zero_iff]
  omega

/-- The test for a beginning says what it should. -/
theorem beginsWith_iff {name start : String} :
    (!start.isEmpty && startsWith name start && start.length < name.length) = true
      ↔ ∃ rest, BeginsWith name start rest := by
  simp only [Bool.and_eq_true, Bool.not_eq_true', decide_eq_true_eq, startsWith_iff,
    ← Bool.not_eq_true, String.isEmpty_iff]
  constructor
  · rintro ⟨⟨hstart, rest, rfl⟩, hlength⟩
    exact ⟨rest, hstart, length_lt_append_iff.1 hlength, rfl⟩
  · rintro ⟨rest, hstart, hrest, rfl⟩
    exact ⟨⟨hstart, rest, rfl⟩, length_lt_append_iff.2 hrest⟩

/-- A name without its beginning is the rest behind the first that fits. -/
theorem unprefixed?_eq_some_iff {starts : List String} {name bare : String} :
    unprefixed? starts name = some bare ↔ WithoutBeginning starts name bare := by
  unfold unprefixed?
  rw [Option.map_eq_some_iff]
  constructor
  · rintro ⟨start, hfind, rfl⟩
    obtain ⟨hstart, before, after, hstarts, hbefore⟩ := List.find?_eq_some_iff_append.1 hfind
    obtain ⟨rest, hbegins⟩ := beginsWith_iff.1 hstart
    refine ⟨before, start, after, hstarts, ?_, fun s hs rest' hrest' => ?_⟩
    · obtain ⟨-, -, rfl⟩ := id hbegins
      rwa [dropFirst_append]
    · have hno := hbefore s hs
      rw [beginsWith_iff.2 ⟨rest', hrest'⟩] at hno
      cases hno
  · rintro ⟨before, start, after, hstarts, hbegins, hbefore⟩
    refine ⟨start, List.find?_eq_some_iff_append.2
      ⟨beginsWith_iff.2 ⟨bare, hbegins⟩, before, after, hstarts, fun s hs => ?_⟩, ?_⟩
    · rw [Bool.not_eq_true', Bool.eq_false_iff]
      intro hs'
      obtain ⟨rest, hrest⟩ := beginsWith_iff.1 hs'
      exact hbefore s hs rest hrest
    · obtain ⟨-, -, rfl⟩ := hbegins
      exact dropFirst_append start bare

/-- A base name is the name without its ending. -/
theorem withoutEnding_baseName (suffix name : String) :
    WithoutEnding suffix name (baseName suffix name) := by
  unfold baseName
  split
  · next h =>
    simp only [Bool.and_eq_true, decide_eq_true_eq] at h
    obtain ⟨⟨-, hends⟩, hlength⟩ := h
    obtain ⟨front, rfl⟩ := endsWith_iff.1 hends
    rw [dropLast_append]
    refine .cut ?_ rfl
    rintro rfl
    simp at hlength
  · next h =>
    by_cases hcut : ∃ base, base ≠ "" ∧ name = base ++ suffix
    · -- an empty ending is not tested for, and there is nothing to cut off
      obtain ⟨base, hbase, rfl⟩ := hcut
      have hsuffix : suffix = "" := by
        by_contra hne
        refine h ?_
        simp only [Bool.and_eq_true, Bool.not_eq_true', decide_eq_true_eq, endsWith_iff,
          ← Bool.not_eq_true, String.isEmpty_iff]
        refine ⟨⟨hne, base, rfl⟩, ?_⟩
        rw [String.length_append]
        have := String.length_eq_zero_iff.not.2 hbase
        omega
      subst hsuffix
      exact .cut (by simpa using hbase) (by simp)
    · exact .whole fun base hbase hname => hcut ⟨base, hbase, hname⟩

theorem WithoutEnding.eq_empty_iff {suffix name base : String}
    (h : WithoutEnding suffix name base) : base = "" ↔ name = "" := by
  cases h with
  | whole => exact Iff.rfl
  | cut hbase hname =>
    rw [hname, String.append_eq_empty_iff]
    exact iff_of_false hbase fun h => hbase h.1

/-! ## The stems of a type -/

theorem distinct_eq_firstOfEachName (seen stems : List String) :
    distinct seen stems = firstOfEachName id ("" :: seen) stems := by
  induction stems generalizing seen with
  | nil => rfl
  | cons s stems ih =>
    have hseen : ("" :: seen).contains s = (s.isEmpty || seen.contains s) := by
      rw [Bool.eq_iff_iff]
      simp [String.isEmpty_iff]
    have hcongr : ∀ n, n ∈ "" :: s :: seen ↔ n ∈ s :: "" :: seen := by
      intro n
      simp only [List.mem_cons, or_left_comm]
    rw [distinct, firstOfEachName, id, hseen, ih, ih, firstOfEachName_congr id hcongr]

/-- The spellings that are tried, in their order. -/
theorem candidates_eq (starts : List String) (suffix name : String) :
    candidates starts suffix name = firstOfEachName id [""]
      (lower (baseName suffix name) :: kebab (baseName suffix name)
        :: (unprefixed? starts (baseName suffix name)).toList.flatMap
          fun bare => [lower bare, kebab bare]) := by
  unfold candidates spellings
  rw [distinct_eq_firstOfEachName]
  refine congrArg (firstOfEachName id [""]) ?_
  cases hbare : unprefixed? starts (baseName suffix name) with
  | none => rfl
  | some bare =>
    obtain ⟨-, start, -, -, ⟨-, hne, -⟩, -⟩ := unprefixed?_eq_some_iff.1 hbare
    have hkept : (some bare).filter (fun s => !s.isEmpty) = some bare := by
      simpa [Option.filter_some] using hne
    rw [hkept]
    rfl

/-- **The stems of a type**: a few distinct spellings of its name without its ending, and of
the same without its beginning. -/
structure Stems (starts : List String) (name base : String) (stems : List String) : Prop where
  length_le : stems.length ≤ 4
  nodup : stems.Nodup
  ne_empty : "" ∉ stems
  /-- The first stem is the name in small letters. -/
  head?_eq : name ≠ "" → stems.head? = some (lower base)
  mem_iff : ∀ s, s ∈ stems ↔ s ≠ "" ∧ (s = lower base ∨ s = kebab base
    ∨ ∃ bare, WithoutBeginning starts base bare ∧ (s = lower bare ∨ s = kebab bare))
  /-- All of them are the name in small letters, up to hyphens. -/
  unhyphened_eq : ∀ s ∈ stems, unhyphened s = unhyphened (lower base)
    ∨ ∃ bare, WithoutBeginning starts base bare ∧ unhyphened s = unhyphened (lower bare)

/-- **Which stems are tried** for the name of a type. -/
theorem mem_candidates_iff {starts : List String} {suffix name s : String} :
    s ∈ candidates starts suffix name ↔ s ≠ "" ∧ (s = lower (baseName suffix name)
      ∨ s = kebab (baseName suffix name) ∨ ∃ bare, WithoutBeginning starts (baseName suffix name)
        bare ∧ (s = lower bare ∨ s = kebab bare)) := by
  have hmem : ∀ stems : List String, s ∈ firstOfEachName id [""] stems ↔ s ≠ "" ∧ s ∈ stems := by
    intro stems
    constructor
    · intro h
      exact ⟨by simpa using not_mem_seen_of_mem_firstOfEachName id h,
        mem_of_mem_firstOfEachName id h⟩
    · rintro ⟨hne, h⟩
      have hnew : id s ∉ [""] := by simpa using hne
      obtain ⟨s', hs', rfl⟩ := exists_mem_firstOfEachName id h hnew
      exact hs'
  rw [candidates_eq, hmem]
  simp [← unprefixed?_eq_some_iff]

theorem stems_candidates (starts : List String) (suffix name : String) :
    Stems starts name (baseName suffix name) (candidates starts suffix name) where
  length_le := by
    rw [candidates_eq]
    refine (firstOfEachName_sublist id [""] _).length_le.trans ?_
    cases unprefixed? starts (baseName suffix name) <;> simp
  nodup := by
    rw [candidates_eq]
    simpa using nodup_map_firstOfEachName id [""] _
  ne_empty h := (mem_candidates_iff.1 h).1 rfl
  head?_eq hname := by
    have hbase : lower (baseName suffix name) ≠ "" := by
      rw [ne_eq, lower_eq_empty_iff, (withoutEnding_baseName suffix name).eq_empty_iff]
      exact hname
    rw [candidates_eq, firstOfEachName, if_neg (by simpa using hbase)]
    rfl
  mem_iff _ := mem_candidates_iff
  unhyphened_eq s hs := by
    obtain ⟨-, rfl | rfl | ⟨bare, hbare, rfl | rfl⟩⟩ := mem_candidates_iff.1 hs
    · exact .inl rfl
    · exact .inl (unhyphened_kebab _)
    · exact .inr ⟨bare, hbare, rfl⟩
    · exact .inr ⟨bare, hbare, unhyphened_kebab bare⟩

/-- **Stems are spellings of the type name.** The stems of a type are at most four distinct
spellings, the first one that of the name without its ending in small letters. The spelling with
hyphens has the words of the name in small letters, with single hyphens between them and no
others, and it is its own. -/
theorem candidates_spellings :
    (∀ (starts : List String) (suffix name : String), ∃ base, WithoutEnding suffix name base
        ∧ Stems starts name base (candidates starts suffix name))
      ∧ ∀ name : String,
        (∃ words, IsDivision name.toList words
          ∧ kebab name = "-".intercalate (words.map fun w => lower (String.ofList w))
          ∧ lower name = String.join (words.map fun w => lower (String.ofList w)))
        ∧ kebab (kebab name) = kebab name :=
  ⟨fun starts suffix name =>
      ⟨_, withoutEnding_baseName suffix name, stems_candidates starts suffix name⟩,
    fun name => ⟨kebab_eq_intercalate name, kebab_kebab_eq name⟩⟩

example : candidates ["Wm"] "Props" "WmHTMLInputProps"
    = ["wmhtmlinput", "wm-html-input", "htmlinput", "html-input"] := by decide

end ComponentCatalog.Stem
