import ComponentCatalog.Proofs.JsonText

/-!
# The smallest parts of JSON texts

Blanks, strings, numbers and words, each said by a rule that does not mention how a text is gone
through, and each with the two directions: what the rule allows is read to its end, and what is
read follows the rule.

A string is spelled unit by unit (`Units`). Two escaped units that make a surrogate pair are one
code point of its value (`joinPairs`).

A number ends where nothing more can belong to it (`EndsNumber`). An integer with more digits than
are read is no number for the reader, which stops there with an error of its own; `Overlong` says
that a text begins with one.
-/

namespace ComponentCatalog.Json

open Text

/-! ## Blanks -/

/-- A character that may stand between the parts of a text. -/
def IsBlank (c : Char) : Prop :=
  c = ' ' ∨ c = '\t' ∨ c = '\n' ∨ c = '\r'

/-- Only blanks stand before the rest of a text. -/
def Blanks (cs rest : List Char) : Prop :=
  ∃ blanks, (∀ c ∈ blanks, IsBlank c) ∧ cs = blanks ++ rest

theorem Blanks.refl (cs : List Char) : Blanks cs cs :=
  ⟨[], nofun, rfl⟩

/-- Skipping blanks leaves no more than there was. -/
theorem Blanks.length_le {cs rest : List Char} (h : Blanks cs rest) :
    rest.length ≤ cs.length := by
  obtain ⟨blanks, -, rfl⟩ := h
  rw [List.length_append]
  exact Nat.le_add_left _ _

theorem skipBlanks_blank {c : Char} (hc : IsBlank c) (cs : List Char) :
    skipBlanks (c :: cs) = skipBlanks cs := by
  obtain rfl | rfl | rfl | rfl := hc <;> rfl

theorem skipBlanks_of_not_isBlank {c : Char} (hc : ¬IsBlank c) (cs : List Char) :
    skipBlanks (c :: cs) = c :: cs := by
  simp only [IsBlank, not_or] at hc
  rw [skipBlanks, List.dropWhile_cons_of_neg]
  simpa [and_assoc] using hc

theorem Blanks.skipBlanks_eq {cs rest : List Char} (h : Blanks cs rest) :
    skipBlanks cs = skipBlanks rest := by
  obtain ⟨blanks, hblanks, rfl⟩ := h
  induction blanks with
  | nil => rfl
  | cons c blanks ih =>
    obtain ⟨hc, hblanks⟩ := List.forall_mem_cons.1 hblanks
    rw [List.cons_append, skipBlanks_blank hc, ih hblanks]

/-- Blanks are skipped up to the first character that is none. -/
theorem Blanks.skipBlanks_eq_cons {cs rest : List Char} {c : Char} (h : Blanks cs (c :: rest))
    (hc : ¬IsBlank c) : skipBlanks cs = c :: rest := by
  rw [h.skipBlanks_eq, skipBlanks_of_not_isBlank hc]

/-- What is skipped is blank. -/
theorem blanks_skipBlanks (cs : List Char) : Blanks cs (skipBlanks cs) := by
  induction cs with
  | nil => exact .refl []
  | cons c cs ih =>
    by_cases hc : IsBlank c
    · obtain ⟨blanks, hblanks, heq⟩ := ih
      rw [skipBlanks_blank hc]
      exact ⟨c :: blanks, List.forall_mem_cons.2 ⟨hc, hblanks⟩, congrArg _ heq⟩
    · rw [skipBlanks_of_not_isBlank hc]
      exact .refl _

/-! ## Strings -/

/-- **The inside of a string**: the code points that it spells, one for each character or escape,
up to the closing quote. -/
inductive Units : List Char → List CodePoint → List Char → Prop where
  | close {rest : List Char} : Units ('"' :: rest) [] rest
  | plain {c : Char} {cs rest : List Char} {us : List CodePoint} (hcontrol : 0x20 ≤ c.toNat)
      (hquote : c ≠ '"') (hbackslash : c ≠ '\\') (h : Units cs us rest) :
      Units (c :: cs) (.ofChar c :: us) rest
  | short {e x : Char} {cs rest : List Char} {us : List CodePoint} (he : shortEscape? e = some x)
      (h : Units cs us rest) : Units ('\\' :: e :: cs) (.ofChar x :: us) rest
  | unit {a b c d : Char} {n : Nat} {cs rest : List Char} {us : List CodePoint}
      (hn : hexUnit? a b c d = some n) (h : Units cs us rest) :
      Units ('\\' :: 'u' :: a :: b :: c :: d :: cs) (.ofNat n :: us) rest

theorem hexDigit?_lt {c : Char} {n : Nat} (h : hexDigit? c = some n) : n < 16 := by
  unfold hexDigit? at h
  split_ifs at h with hdigit hlower hupper
  · have hrange := Char.isDigit_iff_toNat.1 hdigit
    cases h
    change 48 ≤ c.toNat ∧ c.toNat ≤ 57 at hrange
    simp only [show '0'.toNat = 48 from rfl]
    omega
  · simp only [Bool.and_eq_true, decide_eq_true_eq, Char.le_def, UInt32.le_iff_toNat_le] at hlower
    cases h
    change 97 ≤ c.toNat ∧ c.toNat ≤ 102 at hlower
    simp only [show 'a'.toNat = 97 from rfl]
    omega
  · simp only [Bool.and_eq_true, decide_eq_true_eq, Char.le_def, UInt32.le_iff_toNat_le] at hupper
    cases h
    change 65 ≤ c.toNat ∧ c.toNat ≤ 70 at hupper
    simp only [show 'A'.toNat = 65 from rfl]
    omega

/-- Four digits are a number below 65536. -/
theorem hexUnit?_lt {a b c d : Char} {n : Nat} (h : hexUnit? a b c d = some n) : n < 0x10000 := by
  simp only [hexUnit?, Option.bind_eq_bind, Option.bind_eq_some_iff, Option.some.injEq] at h
  obtain ⟨n₁, h₁, n₂, h₂, n₃, h₃, n₄, h₄, rfl⟩ := h
  have := hexDigit?_lt h₁
  have := hexDigit?_lt h₂
  have := hexDigit?_lt h₃
  have := hexDigit?_lt h₄
  omega

/-- A character does not join what stands before it. -/
theorem pushUnit_ofChar (c : Char) (done : List CodePoint) :
    pushUnit (CodePoint.ofChar c).val done = .ofChar c :: done := by
  have hvalid := toNat_valid c
  rw [CodePoint.val_ofChar, pushUnit_of_not_low (by omega)]
  rfl

/-- A unit that does not go with the one before is added as it is. -/
theorem pushUnit_of_not_joined {u : CodePoint} {done : List CodePoint}
    (h : ∀ p ∈ done.head?, isHigh p = true → isLow u = false) :
    pushUnit u.val done = u :: done := by
  unfold pushUnit
  split
  case h_2 => rw [CodePoint.ofNat_val]
  case h_1 p before =>
    rw [if_neg, CodePoint.ofNat_val]
    have hp := h p rfl
    simp only [isHigh, isLow] at hp
    simp only [Bool.and_eq_true, decide_eq_true_eq] at hp ⊢
    rintro ⟨⟨⟨hleast, hmost⟩, hlow⟩, hlow'⟩
    simpa [hlow, hlow'] using hp ⟨hleast, hmost⟩

/-- A low surrogate after a high one makes one code point of the two. -/
theorem pushUnit_of_joined {p q : CodePoint} (hp : isHigh p = true) (hq : isLow q = true)
    (done : List CodePoint) :
    pushUnit q.val (p :: done) = .ofNat (joinSurrogates p.val q.val) :: done := by
  simp only [isHigh, isLow, Bool.and_eq_true, decide_eq_true_eq] at hp hq
  have hjoined := pushUnit_of_pair hp hq done
  rwa [CodePoint.ofNat_val] at hjoined

/-- What a pair makes is no surrogate, so it begins no other pair. -/
theorem isHigh_joinSurrogates {p q : CodePoint} (hp : isHigh p = true) (hq : isLow q = true) :
    isHigh (.ofNat (joinSurrogates p.val q.val)) = false := by
  simp only [isHigh, isLow, Bool.and_eq_true, decide_eq_true_eq] at hp hq
  have hjoined : 0x10000 ≤ joinSurrogates p.val q.val ∧ joinSurrogates p.val q.val < 0x110000 := by
    unfold joinSurrogates
    omega
  rw [isHigh, CodePoint.val_ofNat hjoined.2]
  simp only [Bool.and_eq_false_iff, decide_eq_false_iff_not]
  omega

/-- **Reading units one by one puts pairs together**, unless one was begun before. -/
theorem reverse_foldl_pushUnit (us done : List CodePoint)
    (hdone : ∀ p ∈ done.head?, isHigh p = true → ∀ u ∈ us.head?, isLow u = false) :
    (us.foldl (fun done u => pushUnit u.val done) done).reverse
      = done.reverse ++ joinPairs us := by
  fun_induction joinPairs us generalizing done with
  | case1 => simp
  | case2 p =>
    have hpush := pushUnit_of_not_joined fun q hq hhigh => hdone q hq hhigh p rfl
    simp [hpush]
  | case3 p q us hpair ih =>
    have hpush := pushUnit_of_not_joined fun q hq hhigh => hdone q hq hhigh p rfl
    rw [Bool.and_eq_true] at hpair
    rw [List.foldl_cons, List.foldl_cons, hpush, pushUnit_of_joined hpair.1 hpair.2, ih,
      List.reverse_cons, List.append_assoc, List.singleton_append]
    rintro r hr hhigh
    rw [List.head?_cons, Option.mem_some_iff] at hr
    rw [← hr, isHigh_joinSurrogates hpair.1 hpair.2] at hhigh
    cases hhigh
  | case4 p q us hpair ih =>
    have hpush := pushUnit_of_not_joined fun q hq hhigh => hdone q hq hhigh p rfl
    rw [List.foldl_cons, hpush, ih, List.reverse_cons, List.append_assoc, List.singleton_append]
    rintro r hr hhigh u hu
    cases hr
    cases hu
    simpa [hhigh] using hpair

/-- What reading the inside of a string comes to. -/
theorem Units.readString_eq {cs rest : List Char} {us : List CodePoint} (h : Units cs us rest)
    (done : List CodePoint) :
    readString done cs
      = .ok (⟨(us.foldl (fun done u => pushUnit u.val done) done).reverse⟩, rest) := by
  induction h generalizing done with
  | close => rfl
  | plain hcontrol hquote hbackslash _ ih =>
    rw [readString_plain hcontrol hquote hbackslash, ih, List.foldl_cons, pushUnit_ofChar]
  | short he _ ih => rw [readString_shortEscape he, ih, List.foldl_cons, pushUnit_ofChar]
  | unit hn _ ih =>
    have hlt := hexUnit?_lt hn
    rw [readString, List.foldl_cons, CodePoint.val_ofNat (by omega)]
    simp only [hn, ih]

/-- A string that is read has units, up to its closing quote. -/
theorem exists_units_of_readString {done : List CodePoint} {cs rest : List Char} {s : Wide}
    (h : readString done cs = .ok (s, rest)) : ∃ us, Units cs us rest := by
  fun_induction readString done cs with
  | case1 done => cases h
  | case2 done rest' =>
    cases h
    exact ⟨[], .close⟩
  | case3 done a b c d cs n hn ih =>
    obtain ⟨us, hus⟩ := ih h
    exact ⟨_, .unit hn hus⟩
  | case4 => cases h
  | case5 done e cs hu x hx ih =>
    obtain ⟨us, hus⟩ := ih h
    exact ⟨_, .short hx hus⟩
  | case6 => cases h
  | case7 => cases h
  | case8 done c cs hquote _ _ hplain ih =>
    obtain ⟨us, hus⟩ := ih h
    simp only [Bool.or_eq_true, decide_eq_true_eq, beq_iff_eq, not_or, Nat.not_lt] at hplain
    exact ⟨_, .plain hplain.1 hquote hplain.2 hus⟩

/-- **Strings are read exactly as they are spelled.** -/
theorem readString_eq_ok_iff {cs rest : List Char} {s : Wide} :
    readString [] cs = .ok (s, rest) ↔ ∃ us, Units cs us rest ∧ s = ⟨joinPairs us⟩ := by
  have hjoin (us : List CodePoint) :
      (us.foldl (fun done u => pushUnit u.val done) []).reverse = joinPairs us :=
    reverse_foldl_pushUnit us [] nofun
  constructor
  · intro h
    obtain ⟨us, hus⟩ := exists_units_of_readString h
    rw [hus.readString_eq, hjoin] at h
    cases h
    exact ⟨us, hus, rfl⟩
  · rintro ⟨us, hus, rfl⟩
    rw [hus.readString_eq, hjoin]

/-- A string has no number of too many digits. -/
theorem readString_ne_tooManyDigits (done : List CodePoint) (cs : List Char) :
    readString done cs ≠ .error .tooManyDigits := by
  fun_induction readString done cs <;> simp_all

/-! ## Numbers -/

/-- One or more digits. -/
def Digits (ds : List Char) : Prop :=
  ds ≠ [] ∧ ∀ d ∈ ds, d.isDigit = true

/-- The whole part of a number. -/
def Whole (ds : List Char) : Prop :=
  ds = ['0'] ∨ Digits ds ∧ ds.head? ≠ some '0'

/-- The fraction of a number, or nothing. -/
def Fraction (cs : List Char) : Prop :=
  cs = [] ∨ ∃ ds, Digits ds ∧ cs = '.' :: ds

/-- The exponent of a number, or nothing. -/
def Exponent (cs : List Char) : Prop :=
  cs = [] ∨ ∃ e sign ds, (e = 'e' ∨ e = 'E') ∧ (sign = [] ∨ sign = ['+'] ∨ sign = ['-'])
    ∧ Digits ds ∧ cs = e :: sign ++ ds

/-- **The parts of a number.** -/
structure IsNumber (sign whole frac exp : List Char) : Prop where
  sign : sign = [] ∨ sign = ['-']
  whole : Whole whole
  frac : Fraction frac
  exp : Exponent exp

/-- Nothing at the beginning of a text goes on with digits. -/
def EndsDigits (rest : List Char) : Prop :=
  ∀ c ∈ rest.head?, c.isDigit = false

/-- **Nothing at the beginning of a text belongs to a number before it.** -/
def EndsNumber (rest : List Char) : Prop :=
  ∀ c ∈ rest.head?, c.isDigit = false ∧ c ≠ '.' ∧ c ≠ 'e' ∧ c ≠ 'E'

/-- **An integer that is too long** stands at the beginning of a text: it has more digits than
are read, and nothing behind it makes it a longer number. -/
def Overlong (cs : List Char) : Prop :=
  ∃ sign whole rest, IsNumber sign whole [] [] ∧ cs = sign ++ whole ++ rest
    ∧ digitLimit < whole.length ∧ EndsDigits rest
    ∧ ∀ frac exp rest', Fraction frac → Exponent exp → rest = frac ++ exp ++ rest' →
        frac = [] ∧ exp = []

/-- Digits are taken up to the first character that is none. -/
theorem digits_append {ds rest : List Char} (hds : ∀ d ∈ ds, d.isDigit = true)
    (hrest : EndsDigits rest) : digits (ds ++ rest) = (ds, rest) := by
  have htake : rest.takeWhile Char.isDigit = [] := by
    cases rest with
    | nil => rfl
    | cons c rest => rw [List.takeWhile_cons_of_neg (by simp [hrest c rfl])]
  have hdrop : rest.dropWhile Char.isDigit = rest := by
    cases rest with
    | nil => rfl
    | cons c rest => rw [List.dropWhile_cons_of_neg (by simp [hrest c rfl])]
  rw [digits, List.takeWhile_append_of_pos hds, List.dropWhile_append_of_pos hds, htake, hdrop,
    List.append_nil]

/-- What is taken as digits are digits, and all of them. -/
theorem digits_spec (cs : List Char) :
    (∀ d ∈ (digits cs).1, d.isDigit = true) ∧ cs = (digits cs).1 ++ (digits cs).2
      ∧ EndsDigits (digits cs).2 := by
  refine ⟨List.all_eq_true.1 List.all_takeWhile, List.takeWhile_append_dropWhile.symm, ?_⟩
  intro c hc
  have hnot := List.head?_dropWhile_not Char.isDigit cs
  rwa [show (cs.dropWhile Char.isDigit).head? = some c from hc] at hnot

/-- A whole part is taken as it is. -/
theorem wholePart?_append {whole rest : List Char} (h : Whole whole) (hrest : EndsDigits rest) :
    wholePart? (whole ++ rest) = some (whole, rest) := by
  rcases h with rfl | ⟨⟨hne, hds⟩, hzero⟩
  · rfl
  · cases whole with
    | nil => exact absurd rfl hne
    | cons d ds =>
      rw [wholePart?.eq_def]
      split
      · next heq => simp_all
      · rw [digits_append hds hrest]

/-- What is taken as a whole part is one. -/
theorem wholePart?_spec {cs whole rest : List Char} (h : wholePart? cs = some (whole, rest)) :
    Whole whole ∧ cs = whole ++ rest ∧ (1 < whole.length → EndsDigits rest) := by
  obtain ⟨hds, heq, hends⟩ := digits_spec cs
  rw [wholePart?.eq_def] at h
  split at h
  · cases h
    exact ⟨.inl rfl, rfl, fun h => absurd h (Nat.lt_irrefl 1)⟩
  · next hzero =>
    split at h
    · cases h
    · next ds rest' hne hsplit =>
      cases h
      rw [hsplit] at hds heq hends
      refine ⟨.inr ⟨⟨hne, hds⟩, fun hhead => ?_⟩, heq, fun _ => hends⟩
      obtain ⟨ds', rfl⟩ := List.head?_eq_some_iff.1 hhead
      exact hzero _ heq

/-- A fraction is taken as it is. -/
theorem fraction_append {frac rest : List Char} (h : Fraction frac) (hrest : EndsDigits rest)
    (hdot : frac = [] → rest.head? ≠ some '.') : fraction (frac ++ rest) = (frac, rest) := by
  rcases h with rfl | ⟨ds, ⟨hne, hds⟩, rfl⟩
  · rw [List.nil_append, fraction.eq_def]
    split
    · exact absurd rfl (hdot rfl)
    · rfl
  · rw [List.cons_append, fraction, digits_append hds hrest]
    split
    · next heq => simp_all
    · next heq => simp_all

/-- What is taken as a fraction is one, or nothing. -/
theorem fraction_spec (cs : List Char) :
    Fraction (fraction cs).1 ∧ cs = (fraction cs).1 ++ (fraction cs).2 := by
  rw [fraction.eq_def]
  split
  · next rest =>
    obtain ⟨hds, heq, -⟩ := digits_spec rest
    split
    · exact ⟨.inl rfl, rfl⟩
    · next ds rest' hne hsplit =>
      rw [hsplit] at hds heq
      exact ⟨.inr ⟨ds, ⟨hne, hds⟩, rfl⟩, congrArg _ heq⟩
  · exact ⟨.inl rfl, rfl⟩

/-- The sign before the digits of an exponent, and the rest. -/
def exponentSign : List Char → List Char × List Char
  | s :: rest => if s == '+' || s == '-' then ([s], rest) else ([], s :: rest)
  | [] => ([], [])

theorem exponentSign_spec (cs : List Char) :
    ((exponentSign cs).1 = [] ∨ (exponentSign cs).1 = ['+'] ∨ (exponentSign cs).1 = ['-'])
      ∧ cs = (exponentSign cs).1 ++ (exponentSign cs).2 := by
  cases cs with
  | nil => exact ⟨.inl rfl, rfl⟩
  | cons s rest =>
    rw [exponentSign]
    split_ifs with hs
    · refine ⟨.inr ?_, rfl⟩
      simpa using hs
    · exact ⟨.inl rfl, rfl⟩

theorem exponent_cons (e : Char) (rest : List Char) :
    exponent (e :: rest)
      = if e = 'e' ∨ e = 'E' then
          if (digits (exponentSign rest).2).1 = [] then ([], e :: rest)
          else (e :: (exponentSign rest).1 ++ (digits (exponentSign rest).2).1,
            (digits (exponentSign rest).2).2)
        else ([], e :: rest) := by
  unfold exponent
  dsimp only
  by_cases he : e = 'e' ∨ e = 'E'
  · rw [if_pos (by simpa using he), if_pos he]
    cases rest with
    | nil => rfl
    | cons s rest =>
      unfold exponentSign
      dsimp only
      by_cases hs : (s == '+' || s == '-') = true
      · simp only [hs, if_true]
        generalize digits rest = run
        obtain ⟨_ | ⟨d, ds⟩, rest'⟩ := run <;> rfl
      · simp only [hs, Bool.false_eq_true, if_false]
        generalize digits (s :: rest) = run
        obtain ⟨_ | ⟨d, ds⟩, rest'⟩ := run <;> rfl
  · rw [if_neg (by simpa using he), if_neg he]

theorem exponentSign_append {sign ds : List Char}
    (hsign : sign = [] ∨ sign = ['+'] ∨ sign = ['-']) (hds : Digits ds) (rest : List Char) :
    exponentSign (sign ++ ds ++ rest) = (sign, ds ++ rest) := by
  rcases hsign with rfl | rfl | rfl
  · obtain ⟨hne, hds⟩ := hds
    cases ds with
    | nil => exact absurd rfl hne
    | cons d ds =>
      have hd := hds d (.head _)
      have hnot : ¬((d == '+' || d == '-') = true) := by
        rintro h
        rcases Bool.or_eq_true_iff.1 h with h | h <;> simp_all
      rw [List.nil_append, List.cons_append, exponentSign, if_neg hnot]
  · rfl
  · rfl

/-- An exponent is taken as it is. -/
theorem exponent_append {exp rest : List Char} (h : Exponent exp) (hrest : EndsNumber rest) :
    exponent (exp ++ rest) = (exp, rest) := by
  rcases h with rfl | ⟨e, sign, ds, he, hsign, ⟨hne, hds⟩, rfl⟩
  · cases rest with
    | nil => rfl
    | cons c rest =>
      obtain ⟨-, -, hlower, hupper⟩ := hrest c rfl
      rw [List.nil_append, exponent_cons, if_neg (by simp [hlower, hupper])]
  · have hends : EndsDigits rest := fun c hc => (hrest c hc).1
    rw [List.cons_append, List.cons_append, exponent_cons, if_pos he,
      exponentSign_append hsign ⟨hne, hds⟩, digits_append hds hends, if_neg hne]
    rfl

/-- What is taken as an exponent is one, or nothing. -/
theorem exponent_spec (cs : List Char) :
    Exponent (exponent cs).1 ∧ cs = (exponent cs).1 ++ (exponent cs).2 := by
  cases cs with
  | nil => exact ⟨.inl rfl, rfl⟩
  | cons e rest =>
    rw [exponent_cons]
    split_ifs with he hds
    · exact ⟨.inl rfl, rfl⟩
    · obtain ⟨hdigits, heq, -⟩ := digits_spec (exponentSign rest).2
      obtain ⟨hsign, hrest⟩ := exponentSign_spec rest
      refine ⟨.inr ⟨e, _, _, he, hsign, ⟨hds, hdigits⟩, rfl⟩, ?_⟩
      rw [List.cons_append, List.cons_append, List.append_assoc, ← heq, ← hrest]
    · exact ⟨.inl rfl, rfl⟩

/-- The sign of a number, and the rest. -/
def numberSign : List Char → List Char × List Char
  | '-' :: rest => (['-'], rest)
  | cs => ([], cs)

theorem numberSign_spec (cs : List Char) :
    ((numberSign cs).1 = [] ∨ (numberSign cs).1 = ['-'])
      ∧ cs = (numberSign cs).1 ++ (numberSign cs).2 := by
  rw [numberSign.eq_def]
  split
  · exact ⟨.inr rfl, rfl⟩
  · exact ⟨.inl rfl, rfl⟩

theorem Whole.head_isDigit {whole : List Char} (h : Whole whole) :
    ∃ d ds, whole = d :: ds ∧ d.isDigit = true := by
  rcases h with rfl | ⟨⟨hne, hds⟩, -⟩
  · exact ⟨'0', [], rfl, rfl⟩
  · obtain ⟨d, ds, rfl⟩ := List.exists_cons_of_ne_nil hne
    exact ⟨d, ds, rfl, hds d (.head _)⟩

/-- The sign of a number is taken as it is. -/
theorem numberSign_append {sign whole : List Char} (hsign : sign = [] ∨ sign = ['-'])
    (hwhole : Whole whole) (rest : List Char) :
    numberSign (sign ++ whole ++ rest) = (sign, whole ++ rest) := by
  rcases hsign with rfl | rfl
  · obtain ⟨d, ds, rfl, hd⟩ := hwhole.head_isDigit
    rw [List.nil_append, List.cons_append, numberSign.eq_def]
    split
    · next heq =>
      cases heq
      cases hd
    · rfl
  · rfl

theorem readNumber_eq_malformed {cs : List Char} (h : wholePart? (numberSign cs).2 = none) :
    readNumber cs = .error .malformed := by
  unfold readNumber numberSign at *
  split at h <;> simp_all

/-- **How a number is read**: sign, whole part, fraction and exponent, with a limit for the digits
of whole numbers. -/
theorem readNumber_eq {cs whole rest : List Char}
    (h : wholePart? (numberSign cs).2 = some (whole, rest)) :
    readNumber cs
      = if (fraction rest).1 = [] ∧ (exponent (fraction rest).2).1 = []
            ∧ digitLimit < whole.length then .error .tooManyDigits
        else .ok (.number (String.ofList ((numberSign cs).1 ++ whole ++ (fraction rest).1
          ++ (exponent (fraction rest).2).1)), (exponent (fraction rest).2).2) := by
  unfold readNumber numberSign at *
  split at h <;> simp_all [and_assoc]

theorem EndsNumber.endsDigits {rest : List Char} (h : EndsNumber rest) : EndsDigits rest :=
  fun c hc => (h c hc).1

/-- Digits end before an exponent, and it is no fraction. -/
theorem Exponent.endsDigits_append {exp rest : List Char} (h : Exponent exp)
    (hrest : EndsNumber rest) : EndsDigits (exp ++ rest) ∧ (exp ++ rest).head? ≠ some '.' := by
  rcases h with rfl | ⟨e, sign, ds, rfl | rfl, -, -, rfl⟩
  · exact ⟨hrest.endsDigits, fun hdot => (hrest '.' hdot).2.1 rfl⟩
  · exact ⟨fun c hc => by cases hc; rfl, by simp⟩
  · exact ⟨fun c hc => by cases hc; rfl, by simp⟩

theorem Fraction.endsDigits_append {frac rest : List Char} (h : Fraction frac)
    (hrest : EndsDigits rest) : EndsDigits (frac ++ rest) := by
  rcases h with rfl | ⟨ds, -, rfl⟩
  · exact hrest
  · exact fun c hc => by cases hc; rfl

/-- **A number is read to its end**, unless it is an integer that is too long. -/
theorem IsNumber.readNumber_eq {sign whole frac exp rest : List Char}
    (h : IsNumber sign whole frac exp) (hrest : EndsNumber rest) :
    readNumber (sign ++ whole ++ frac ++ exp ++ rest)
      = if frac = [] ∧ exp = [] ∧ digitLimit < whole.length then .error .tooManyDigits
        else .ok (.number (String.ofList (sign ++ whole ++ frac ++ exp)), rest) := by
  obtain ⟨hdigits, hdot⟩ := h.exp.endsDigits_append hrest
  have hsign := numberSign_append h.sign h.whole (frac ++ (exp ++ rest))
  have hwhole := wholePart?_append h.whole (h.frac.endsDigits_append hdigits)
  have hfrac := fraction_append h.frac hdigits fun _ => hdot
  rw [List.append_assoc _ exp, List.append_assoc _ frac,
    Json.readNumber_eq ((congrArg (wholePart? ·.2) hsign).trans hwhole), hsign, hfrac,
    exponent_append h.exp hrest]

/-- **What is read as a number is one**, and no integer that is too long. -/
theorem exists_isNumber_of_readNumber {cs rest : List Char} {v : Json}
    (h : readNumber cs = .ok (v, rest)) :
    ∃ sign whole frac exp, IsNumber sign whole frac exp
      ∧ cs = sign ++ whole ++ frac ++ exp ++ rest
      ∧ v = .number (String.ofList (sign ++ whole ++ frac ++ exp))
      ∧ (frac = [] → exp = [] → whole.length ≤ digitLimit) := by
  obtain ⟨hsign, hcs⟩ := numberSign_spec cs
  cases hpart : wholePart? (numberSign cs).2 with
  | none =>
    rw [readNumber_eq_malformed hpart] at h
    cases h
  | some part =>
    obtain ⟨whole, body⟩ := part
    obtain ⟨hwhole, hbody, -⟩ := wholePart?_spec hpart
    obtain ⟨hfrac, hfraction⟩ := fraction_spec body
    obtain ⟨hexp, hexponent⟩ := exponent_spec (fraction body).2
    rw [Json.readNumber_eq hpart] at h
    split_ifs at h with hlimit
    cases h
    refine ⟨_, whole, _, _, ⟨hsign, hwhole, hfrac, hexp⟩, ?_, rfl, ?_⟩
    · rw [List.append_assoc _ _ (exponent _).2, ← hexponent, List.append_assoc, ← hfraction,
        List.append_assoc, ← hbody, ← hcs]
    · intro hnofrac hnoexp
      exact Nat.le_of_not_lt fun hlong => hlimit ⟨hnofrac, hnoexp, hlong⟩

theorem Digits.digits_append_ne_nil {ds : List Char} (h : Digits ds) (rest : List Char) :
    (digits (ds ++ rest)).1 ≠ [] := by
  obtain ⟨hne, hds⟩ := h
  obtain ⟨d, ds, rfl⟩ := List.exists_cons_of_ne_nil hne
  rw [digits, List.cons_append, List.takeWhile_cons_of_pos (hds d (.head _))]
  exact List.cons_ne_nil _ _

/-- If no fraction is taken, there was none. -/
theorem eq_nil_of_fraction_eq_nil {frac rest : List Char} (h : Fraction frac)
    (hnone : (fraction (frac ++ rest)).1 = []) : frac = [] := by
  rcases h with rfl | ⟨ds, hds, rfl⟩
  · rfl
  · have hne := hds.digits_append_ne_nil rest
    rw [List.cons_append, fraction] at hnone
    split at hnone
    · next heq => exact absurd (congrArg Prod.fst heq) hne
    · cases hnone

/-- If no exponent is taken, there was none. -/
theorem eq_nil_of_exponent_eq_nil {exp rest : List Char} (h : Exponent exp)
    (hnone : (exponent (exp ++ rest)).1 = []) : exp = [] := by
  rcases h with rfl | ⟨e, sign, ds, he, hsign, hds, rfl⟩
  · rfl
  · rw [List.cons_append, List.cons_append, exponent_cons, if_pos he,
      exponentSign_append hsign hds, if_neg (hds.digits_append_ne_nil rest)] at hnone
    cases hnone

/-- **An integer is refused for its length exactly if it is too long.** -/
theorem readNumber_eq_tooManyDigits_iff {cs : List Char} :
    readNumber cs = .error .tooManyDigits ↔ Overlong cs := by
  constructor
  · intro h
    obtain ⟨hsign, hcs⟩ := numberSign_spec cs
    cases hpart : wholePart? (numberSign cs).2 with
    | none =>
      rw [readNumber_eq_malformed hpart] at h
      cases h
    | some part =>
      obtain ⟨whole, body⟩ := part
      obtain ⟨hwhole, hbody, hends⟩ := wholePart?_spec hpart
      obtain ⟨-, hfraction⟩ := fraction_spec body
      rw [Json.readNumber_eq hpart] at h
      -- only whole numbers are limited: neither a fraction nor an exponent was read
      split_ifs at h with hlimit
      obtain ⟨hnofrac, hnoexp, hlong⟩ := hlimit
      refine ⟨_, whole, body, ⟨hsign, hwhole, .inl rfl, .inl rfl⟩, ?_, hlong,
        hends (Nat.lt_trans (by decide) hlong), ?_⟩
      · rw [List.append_assoc, ← hbody, ← hcs]
      · rintro frac exp rest hfrac hexp rfl
        rw [List.append_assoc] at hnofrac hnoexp hfraction
        obtain rfl := eq_nil_of_fraction_eq_nil hfrac hnofrac
        rw [hnofrac, List.nil_append, List.nil_append] at hfraction
        rw [List.nil_append, ← hfraction] at hnoexp
        exact ⟨rfl, eq_nil_of_exponent_eq_nil hexp hnoexp⟩
  · rintro ⟨sign, whole, rest, hnumber, rfl, hlong, hends, hmax⟩
    have hsign := numberSign_append hnumber.sign hnumber.whole rest
    have hpart := wholePart?_append hnumber.whole hends
    obtain ⟨hfrac, hfraction⟩ := fraction_spec rest
    obtain ⟨hexp, hexponent⟩ := exponent_spec (fraction rest).2
    obtain ⟨hnofrac, hnoexp⟩ := hmax _ _ (exponent (fraction rest).2).2 hfrac hexp
      (by rw [List.append_assoc, ← hexponent, ← hfraction])
    rw [Json.readNumber_eq ((congrArg (wholePart? ·.2) hsign).trans hpart),
      if_pos ⟨hnofrac, hnoexp, hlong⟩]

/-! ## Words -/

/-- A word is passed exactly if it is there. -/
theorem after?_eq_some_iff {word : String} {cs rest : List Char} :
    after? word cs = some rest ↔ cs = word.toList ++ rest := by
  rw [after?, ← String.length_toList]
  split_ifs with h
  · obtain ⟨more, rfl⟩ := List.isPrefixOf_iff_prefix.1 h
    rw [List.drop_left, Option.some_inj, List.append_cancel_left_eq]
  · refine ⟨nofun, fun heq => absurd ?_ h⟩
    exact List.isPrefixOf_iff_prefix.2 ⟨rest, heq.symm⟩

/-- A word is read to its end: no other word begins as it does. -/
theorem readAtom_word {w : String} {v : Json} (h : (w, v) ∈ words) (rest : List Char) :
    readAtom (w.toList ++ rest) = .ok (v, rest) := by
  simp only [words, List.mem_cons, Prod.mk.injEq, List.not_mem_nil, or_false] at h
  rcases h with ⟨rfl, rfl⟩ | ⟨rfl, rfl⟩ | ⟨rfl, rfl⟩ | ⟨rfl, rfl⟩ | ⟨rfl, rfl⟩ | ⟨rfl, rfl⟩ <;> rfl

/-- What is no word is read as a number. -/
theorem readAtom_cases (cs : List Char) :
    (∃ w v rest, (w, v) ∈ words ∧ cs = w.toList ++ rest ∧ readAtom cs = .ok (v, rest))
      ∨ readAtom cs = readNumber cs := by
  unfold readAtom
  split
  · next r hfound =>
    obtain ⟨⟨w, v⟩, hmem, hafter⟩ := List.exists_of_findSome?_eq_some hfound
    obtain ⟨rest, hrest, rfl⟩ := Option.map_eq_some_iff.1 hafter
    exact .inl ⟨w, v, rest, hmem, after?_eq_some_iff.1 hrest, rfl⟩
  · exact .inr rfl

/-- No word begins as a number does. -/
theorem readAtom_number {sign whole : List Char} (hsign : sign = [] ∨ sign = ['-'])
    (hwhole : Whole whole) (rest : List Char) :
    readAtom (sign ++ whole ++ rest) = readNumber (sign ++ whole ++ rest) := by
  obtain ⟨w, v, more, hmem, heq, -⟩ | h := readAtom_cases (sign ++ whole ++ rest)
  · exfalso
    obtain ⟨d, ds, rfl, hd⟩ := hwhole.head_isDigit
    simp only [words, List.mem_cons, Prod.mk.injEq, List.not_mem_nil, or_false] at hmem
    rcases hmem with ⟨rfl, -⟩ | ⟨rfl, -⟩ | ⟨rfl, -⟩ | ⟨rfl, -⟩ | ⟨rfl, -⟩ | ⟨rfl, -⟩ <;>
      rcases hsign with rfl | rfl <;> simp at heq <;> simp [heq.1] at hd
  · exact h

end ComponentCatalog.Json
