import ComponentCatalog.Text.Lowercase

/-!
# Small letters stay small

Names are compared by their small letters, and a table that is kept under small letters may be
asked with small letters again. That this is the same as asking with the name itself is not a
matter of course: a capital letter is taken to its small one by a table of distances, two
letters are treated apart from the table, and a sigma looks at its neighbours. What comes out is
nevertheless left alone wherever it stands (`IsSmall`), because the small letters that the table
leads to lie beside the capital letters of the table, or between them (`CaseRun.avoids`).
-/

namespace ComponentCatalog.Text

/-- The small letters of a sequence of characters, given what precedes it, nearest first. -/
def smallLetters (before : List Char) : List Char → List Char
  | [] => []
  | c :: cs => lowerChar before c cs ++ smallLetters (c :: before) cs

theorem lowerFrom_eq_append (before done cs : List Char) :
    lowerFrom before done cs = done.reverse ++ smallLetters before cs := by
  induction cs generalizing before done with
  | nil => rw [lowerFrom, smallLetters, List.append_nil]
  | cons c cs ih =>
    rw [lowerFrom, ih, smallLetters, List.reverse_append, List.reverse_reverse, List.append_assoc]

/-- The small letters of a text. -/
theorem toList_lower (s : String) : (lower s).toList = smallLetters [] s.toList := by
  rw [lower, String.toList_ofList, lowerFrom_eq_append, List.reverse_nil, List.nil_append]

/-- **A character that is its own small letter**, whatever stands around it. -/
def IsSmall (c : Char) : Prop :=
  ∀ before after, lowerChar before c after = [c]

/-- Small letters stay as they are. -/
theorem smallLetters_of_isSmall {cs : List Char} (h : ∀ c ∈ cs, IsSmall c) (before : List Char) :
    smallLetters before cs = cs := by
  induction cs generalizing before with
  | nil => rfl
  | cons c cs ih =>
    rw [smallLetters, h c List.mem_cons_self before cs,
      ih (fun c' hc' => h c' (List.mem_cons_of_mem c hc')) (c :: before), List.singleton_append]

/-! ## Where the table leads -/

namespace CaseRun

/-- The small letter of the first capital letter of a run. -/
def firstImage (r : CaseRun) : Nat :=
  ((r.first : Int) + r.offset).toNat

/-- The small letter of the last capital letter of a run. -/
def lastImage (r : CaseRun) : Nat :=
  r.firstImage + (r.last - r.first)

/-- Whether the small letters of a run are no capital letters of another one: they lie before or
behind it, or between its letters. -/
def avoids (r r' : CaseRun) : Bool :=
  r.lastImage.blt r'.first || r'.last.blt r.firstImage ||
    (r'.step.beq 2 && (r.step.beq 2 || r.first.beq r.last) && r'.first.ble r.firstImage &&
      ((r.firstImage - r'.first) % 2).beq 1)

/-- Whether the small letters of a run are characters, none of them the capital I with a dot and
those of ASCII small ones. -/
def isPlaced (r : CaseRun) : Bool :=
  (0 ≤ (r.first : Int) + r.offset : Bool) && (r.lastImage < 0x130 || 0x130 < r.firstImage) &&
    (0x80 ≤ r.firstImage || (0x61 ≤ r.firstImage && r.lastImage ≤ 0x7A)) &&
    (r.lastImage < 0xD800 || (0xDFFF < r.firstImage && r.lastImage < 0x110000))

end CaseRun

/-- **The table of letters has been checked**: the small letters of each run are in no run. -/
theorem checked_caseRuns :
    caseRuns.all CaseRun.isPlaced = true ∧
      (caseRuns.all fun r => caseRuns.all r.avoids) = true := by
  decide +kernel

/-- Whether a code point is a capital letter of a run. -/
def CaseRun.Holds (r : CaseRun) (n : Nat) : Prop :=
  r.first ≤ n ∧ n ≤ r.last ∧ (n - r.first) % r.step = 0

/-- The small letter of a letter of one run is in no other run that it avoids. -/
theorem CaseRun.not_holds_of_avoids {r r' : CaseRun} (h : r.avoids r' = true)
    (hpos : 0 ≤ (r.first : Int) + r.offset) {n : Nat} (hn : r.Holds n) :
    ¬r'.Holds ((n : Int) + r.offset).toNat := by
  rintro ⟨hfirst', hlast', hstep'⟩
  obtain ⟨hfirst, hlast, hstep⟩ := hn
  simp only [avoids, lastImage, firstImage, Bool.or_eq_true, Bool.and_eq_true, Nat.blt_eq,
    Nat.ble_eq, Nat.beq_eq] at h
  obtain (h | h) | ⟨⟨⟨htwo, heven⟩, hle⟩, hodd⟩ := h
  · omega
  · omega
  · rw [htwo] at hstep'
    obtain heven | heven := heven
    · rw [heven] at hstep
      omega
    · omega

/-- A letter that has a small one is in a run of the table. -/
theorem smallLetter?_eq_some {n m : Nat} (h : smallLetter? n = some m) :
    ∃ r ∈ caseRuns, r.Holds n ∧ m = ((n : Int) + r.offset).toNat := by
  obtain ⟨r, hr, rfl⟩ := Option.map_eq_some_iff.1 h
  have hholds := List.find?_some hr
  simp only [Bool.and_eq_true, decide_eq_true_eq, beq_iff_eq] at hholds
  exact ⟨r, List.mem_of_find?_eq_some hr, ⟨hholds.1.1, hholds.1.2, hholds.2⟩, rfl⟩

theorem smallLetter?_eq_none {n : Nat} (h : ∀ r ∈ caseRuns, ¬r.Holds n) :
    smallLetter? n = none := by
  refine Option.map_eq_none_iff.2 (List.find?_eq_none.2 fun r hr hholds => h r hr ?_)
  simp only [Bool.and_eq_true, decide_eq_true_eq, beq_iff_eq] at hholds
  exact ⟨hholds.1.1, hholds.1.2, hholds.2⟩

/-- **A small letter is a character without another small letter.** -/
theorem smallLetter?_spec {n m : Nat} (h : smallLetter? n = some m) :
    smallLetter? m = none ∧ m.isValidChar ∧ m ≠ 0x130 ∧ (m < 0x80 → 0x61 ≤ m ∧ m ≤ 0x7A) := by
  obtain ⟨r, hr, hn, rfl⟩ := smallLetter?_eq_some h
  have hplaced := List.all_eq_true.1 checked_caseRuns.1 r hr
  simp only [CaseRun.isPlaced, Bool.or_eq_true, Bool.and_eq_true, decide_eq_true_eq] at hplaced
  unfold CaseRun.lastImage CaseRun.firstImage at hplaced
  obtain ⟨⟨⟨hpos, hdotted⟩, hascii⟩, hvalid⟩ := hplaced
  have havoids := List.all_eq_true.1 (List.all_eq_true.1 checked_caseRuns.2 r hr)
  refine ⟨smallLetter?_eq_none fun r' hr' => CaseRun.not_holds_of_avoids (havoids r' hr') hpos hn,
    ?_⟩
  obtain ⟨hfirst, hlast, -⟩ := hn
  unfold Nat.isValidChar
  omega

/-! ## Every small letter is left alone -/

/-- ASCII characters without capitals are small. -/
theorem isSmall_of_ascii {c : Char} (hascii : c.toNat < 0x80) (hlower : c.toLower = c) :
    IsSmall c := by
  intro before after
  rw [lowerChar, if_pos hascii, hlower]

theorem isSmall_of_smallLetter? {c : Char} (hascii : ¬c.toNat < 0x80) (hdotted : c.toNat ≠ 0x130)
    (hsigma : c.toNat ≠ 0x3A3) (h : smallLetter? c.toNat = none) : IsSmall c := by
  intro before after
  unfold lowerChar
  dsimp only
  rw [if_neg hascii, if_neg (by simpa using hdotted), if_neg (by simpa using hsigma), h,
    Option.getD_none, Char.ofNat_toNat]

/-- The small letters of ASCII are their own. -/
theorem toLower_ofNat {n : Nat} (h : 0x61 ≤ n ∧ n ≤ 0x7A) :
    (Char.ofNat n).toLower = Char.ofNat n := by
  have hall : ∀ k < 26, (Char.ofNat (0x61 + k)).toLower = Char.ofNat (0x61 + k) := by decide
  have hn := hall (n - 0x61) (by omega)
  rwa [Nat.add_sub_cancel' h.1] at hn

theorem toNat_ofNat_of_isValidChar {n : Nat} (h : n.isValidChar) : (Char.ofNat n).toNat = n := by
  rw [Char.ofNat, dif_pos h]
  rfl

/-- What the table gives is small. -/
theorem isSmall_ofNat {n m : Nat} (h : smallLetter? n = some m) : IsSmall (Char.ofNat m) := by
  obtain ⟨hnone, hvalid, hdotted, hascii⟩ := smallLetter?_spec h
  have hnat := toNat_ofNat_of_isValidChar hvalid
  by_cases hlow : m < 0x80
  · exact isSmall_of_ascii (by rwa [hnat]) (toLower_ofNat (hascii hlow))
  · have hsigma : m ≠ 0x3A3 := by
      rintro rfl
      exact absurd hnone (by decide)
    exact isSmall_of_smallLetter? (by rwa [hnat]) (by rwa [hnat]) (by rwa [hnat]) (by rwa [hnat])

/-- **What stands for a character in small letters is small.** -/
theorem isSmall_of_mem_lowerChar {before after : List Char} {c x : Char}
    (h : x ∈ lowerChar before c after) : IsSmall x := by
  unfold lowerChar at h
  dsimp only at h
  split at h
  · next hascii =>
    have hall : ∀ n < 0x80, (Char.ofNat n).toLower.toNat < 0x80 ∧
        (Char.ofNat n).toLower.toLower = (Char.ofNat n).toLower := by decide
    have hc := hall c.toNat hascii
    rw [Char.ofNat_toNat] at hc
    rw [List.mem_singleton.1 h]
    exact isSmall_of_ascii hc.1 hc.2
  · next hascii =>
    split at h
    · have hx : x = 'i' ∨ x = Char.ofNat 0x307 := by simpa using h
      obtain rfl | rfl := hx
      · exact isSmall_of_ascii (by decide) (by decide)
      · exact isSmall_of_smallLetter? (by decide) (by decide) (by decide) (by decide)
    · next hdotted =>
      split at h
      · -- both sigmas are small, so it does not matter which one stands here
        rw [List.mem_singleton.1 h]
        split <;> exact isSmall_of_smallLetter? (by decide) (by decide) (by decide) (by decide)
      · next hsigma =>
        rw [List.mem_singleton.1 h]
        cases hsmall : smallLetter? c.toNat with
        | none =>
          rw [Option.getD_none, Char.ofNat_toNat]
          exact isSmall_of_smallLetter? hascii (by simpa using hdotted) (by simpa using hsigma)
            hsmall
        | some m => exact isSmall_ofNat hsmall

/-- All letters are small afterwards. -/
theorem isSmall_of_mem_smallLetters {before cs : List Char} {x : Char}
    (h : x ∈ smallLetters before cs) : IsSmall x := by
  induction cs generalizing before with
  | nil => cases h
  | cons c cs ih =>
    rw [smallLetters, List.mem_append] at h
    exact h.elim isSmall_of_mem_lowerChar ih

/-- **Small letters stay small**: a text in small letters is its own text in small letters. -/
@[simp] theorem lower_lower (s : String) : lower (lower s) = lower s := by
  have hsmall : ∀ c ∈ (lower s).toList, IsSmall c := by
    intro c hc
    rw [toList_lower] at hc
    exact isSmall_of_mem_smallLetters hc
  rw [← String.toList_inj, toList_lower (lower s), smallLetters_of_isSmall hsmall]

end ComponentCatalog.Text
