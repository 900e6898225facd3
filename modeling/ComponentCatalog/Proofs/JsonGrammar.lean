import ComponentCatalog.Proofs.JsonTokens

/-!
# The grammar of JSON texts

What the reader accepts is said here a second time, by rules that do not mention how a text is
gone through. `Spells allowed cs part rest` says that a text `cs` begins with a value, or with the
inside of an array or of an object, and that `rest` is what stands behind it. A value may be
followed by anything; only a number has to end before it can be read, because what follows might
belong to it (`EndsNumber`).

The rules leave open how many digits an integer may have. Without a limit they are the rules of
JSON (and of the three words for numbers that are none). With the limit of the reader they are
what it reads (`read_eq_ok_iff`). What lies between the two is an integer that is too long, at
a place up to which the text follows the rules (`Stumbles`): there the reader stops with an error
of its own, whatever comes behind (`read_eq_tooManyDigits_iff`).
-/

namespace ComponentCatalog.Json

open Text

/-! ## Values -/

/-- What a stretch of a text may be. -/
inductive Part where
  | value (v : Json)
  /-- The items of an array, up to its closing bracket. -/
  | items (vs : List Json)
  /-- The members of an object, up to its closing bracket. -/
  | members (ms : List (Wide × Json))

/-- The fields of an object with the given members: of those with one key the last counts. -/
def fieldsOf (ms : List (Wide × Json)) : List (Wide × Json) :=
  ms.foldl (fun fields m => putField m.1 m.2 fields) []

/-- **The rules for texts.** An integer has as many digits as are allowed. -/
inductive Spells (allowed : Nat → Prop) : List Char → Part → List Char → Prop
  | word {w : String} {v : Json} (h : (w, v) ∈ words) (rest : List Char) :
      Spells allowed (w.toList ++ rest) (.value v) rest
  | number {sign whole frac exp : List Char} (h : IsNumber sign whole frac exp)
      (hallowed : frac = [] → exp = [] → allowed whole.length) (rest : List Char) :
      Spells allowed (sign ++ whole ++ frac ++ exp ++ rest)
        (.value (.number (String.ofList (sign ++ whole ++ frac ++ exp)))) rest
  | string {cs rest : List Char} {us : List CodePoint} (h : Units cs us rest) :
      Spells allowed ('"' :: cs) (.value (.string ⟨joinPairs us⟩)) rest
  | emptyArray {cs rest : List Char} (h : Blanks cs (']' :: rest)) :
      Spells allowed ('[' :: cs) (.value (.array [])) rest
  | array {cs inside rest : List Char} {vs : List Json} (h : Blanks cs inside)
      (hitems : Spells allowed inside (.items vs) rest) :
      Spells allowed ('[' :: cs) (.value (.array vs)) rest
  | emptyObject {cs rest : List Char} (h : Blanks cs ('\x7d' :: rest)) :
      Spells allowed ('\x7b' :: cs) (.value (.object [])) rest
  | object {cs inside rest : List Char} {ms : List (Wide × Json)} (h : Blanks cs inside)
      (hmembers : Spells allowed inside (.members ms) rest) :
      Spells allowed ('\x7b' :: cs) (.value (.object (fieldsOf ms))) rest
  | lastItem {cs after rest : List Char} {v : Json} (hv : Spells allowed cs (.value v) after)
      (h : Blanks after (']' :: rest)) : Spells allowed cs (.items [v]) rest
  | item {cs after next more rest : List Char} {v : Json} {vs : List Json}
      (hv : Spells allowed cs (.value v) after) (h : Blanks after (',' :: next))
      (hnext : Blanks next more) (hmore : Spells allowed more (.items vs) rest) :
      Spells allowed cs (.items (v :: vs)) rest
  | lastMember {cs behind next start after rest : List Char} {us : List CodePoint} {v : Json}
      (hkey : Units cs us behind) (hcolon : Blanks behind (':' :: next))
      (hstart : Blanks next start) (hv : Spells allowed start (.value v) after)
      (h : Blanks after ('\x7d' :: rest)) :
      Spells allowed ('"' :: cs) (.members [(⟨joinPairs us⟩, v)]) rest
  | member {cs behind next start after next' more rest : List Char} {us : List CodePoint} {v : Json}
      {ms : List (Wide × Json)}
      (hkey : Units cs us behind) (hcolon : Blanks behind (':' :: next))
      (hstart : Blanks next start) (hv : Spells allowed start (.value v) after)
      (h : Blanks after (',' :: next')) (hnext : Blanks next' more)
      (hmore : Spells allowed more (.members ms) rest) :
      Spells allowed ('"' :: cs) (.members ((⟨joinPairs us⟩, v) :: ms)) rest

/-- The kinds of parts. -/
inductive Place where
  | value
  | items
  | members

/-- **A text follows the rules up to an integer that is too long.** What comes behind that
integer does not matter. -/
inductive Stumbles : List Char → Place → Prop
  | number {cs : List Char} (h : Overlong cs) : Stumbles cs .value
  | array {cs inside : List Char} (h : Blanks cs inside) (hitems : Stumbles inside .items) :
      Stumbles ('[' :: cs) .value
  | object {cs inside : List Char} (h : Blanks cs inside) (hmembers : Stumbles inside .members) :
      Stumbles ('\x7b' :: cs) .value
  | item {cs : List Char} (hv : Stumbles cs .value) : Stumbles cs .items
  | laterItem {cs after next more : List Char} {v : Json}
      (hv : Spells (· ≤ digitLimit) cs (.value v) after) (h : Blanks after (',' :: next))
      (hnext : Blanks next more) (hmore : Stumbles more .items) : Stumbles cs .items
  | member {cs behind next start : List Char} {us : List CodePoint} (hkey : Units cs us behind)
      (hcolon : Blanks behind (':' :: next)) (hstart : Blanks next start)
      (hv : Stumbles start .value) : Stumbles ('"' :: cs) .members
  | laterMember {cs behind next start after next' more : List Char} {us : List CodePoint}
      {v : Json} (hkey : Units cs us behind) (hcolon : Blanks behind (':' :: next))
      (hstart : Blanks next start) (hv : Spells (· ≤ digitLimit) start (.value v) after)
      (h : Blanks after (',' :: next')) (hnext : Blanks next' more)
      (hmore : Stumbles more .members) : Stumbles ('"' :: cs) .members

/-- A character that may begin a value or the key of a member. -/
def IsStart (c : Char) : Prop :=
  ¬IsBlank c ∧ c ≠ ']' ∧ c ≠ '\x7d'

/-- A value or the key of a member may begin at the first character of a text. -/
def Starts (cs : List Char) : Prop :=
  ∃ c cs', cs = c :: cs' ∧ IsStart c

/-- A character that may begin a word or a number. -/
def StartsAtom (c : Char) : Prop :=
  IsStart c ∧ c ≠ '"' ∧ c ≠ '[' ∧ c ≠ '\x7b'

theorem startsAtom_of_isDigit {c : Char} (h : c.isDigit = true) : StartsAtom c := by
  have hne (d : Char) (hd : d.isDigit = false) : c ≠ d := by
    rintro rfl
    rw [h] at hd
    cases hd
  refine ⟨⟨?_, hne _ rfl, hne _ rfl⟩, hne _ rfl, hne _ rfl, hne _ rfl⟩
  rintro (rfl | rfl | rfl | rfl) <;> cases h

theorem exists_startsAtom_number {sign whole : List Char} (hsign : sign = [] ∨ sign = ['-'])
    (hwhole : Whole whole) (rest : List Char) :
    ∃ c cs, sign ++ whole ++ rest = c :: cs ∧ StartsAtom c := by
  obtain ⟨d, ds, rfl, hd⟩ := hwhole.head_isDigit
  rcases hsign with rfl | rfl
  · exact ⟨d, _, rfl, startsAtom_of_isDigit hd⟩
  · exact ⟨'-', _, rfl, by simp [StartsAtom, IsStart, IsBlank]⟩

theorem exists_startsAtom_word {w : String} {v : Json} (h : (w, v) ∈ words) (rest : List Char) :
    ∃ c cs, w.toList ++ rest = c :: cs ∧ StartsAtom c := by
  simp only [words, List.mem_cons, Prod.mk.injEq, List.not_mem_nil, or_false] at h
  rcases h with ⟨rfl, -⟩ | ⟨rfl, -⟩ | ⟨rfl, -⟩ | ⟨rfl, -⟩ | ⟨rfl, -⟩ | ⟨rfl, -⟩ <;>
    exact ⟨_, _, rfl, by unfold StartsAtom IsStart IsBlank; decide⟩

/-- What is spelt begins with a character that is not blank. -/
theorem Spells.starts {allowed : Nat → Prop} {cs rest : List Char} {part : Part}
    (h : Spells allowed cs part rest) : Starts cs := by
  have hquote : IsStart '"' := by simp [IsStart, IsBlank]
  have hsquare : IsStart '[' := by simp [IsStart, IsBlank]
  have hcurly : IsStart '\x7b' := by simp [IsStart, IsBlank]
  induction h with
  | word h rest =>
    obtain ⟨c, cs, heq, hc, -⟩ := exists_startsAtom_word h rest
    exact ⟨c, cs, heq, hc⟩
  | @number sign whole frac exp h _ rest =>
    obtain ⟨c, cs, heq, hc, -⟩ := exists_startsAtom_number h.sign h.whole (frac ++ (exp ++ rest))
    exact ⟨c, cs, by rw [← heq, List.append_assoc _ exp, List.append_assoc _ frac], hc⟩
  | string => exact ⟨_, _, rfl, hquote⟩
  | emptyArray => exact ⟨_, _, rfl, hsquare⟩
  | array => exact ⟨_, _, rfl, hsquare⟩
  | emptyObject => exact ⟨_, _, rfl, hcurly⟩
  | object => exact ⟨_, _, rfl, hcurly⟩
  | lastItem _ _ ih => exact ih
  | item _ _ _ _ ih => exact ih
  | lastMember => exact ⟨_, _, rfl, hquote⟩
  | member => exact ⟨_, _, rfl, hquote⟩

/-- What cannot be read begins with a character that is not blank. -/
theorem Stumbles.starts {cs : List Char} {place : Place} (h : Stumbles cs place) : Starts cs := by
  induction h with
  | number h =>
    obtain ⟨sign, whole, rest, h, rfl, -⟩ := h
    obtain ⟨c, cs, heq, hc, -⟩ := exists_startsAtom_number h.sign h.whole rest
    exact ⟨c, cs, heq, hc⟩
  | array => exact ⟨_, _, rfl, by simp [IsStart, IsBlank]⟩
  | object => exact ⟨_, _, rfl, by simp [IsStart, IsBlank]⟩
  | item _ ih => exact ih
  | laterItem hv => exact hv.starts
  | member => exact ⟨_, _, rfl, by simp [IsStart, IsBlank]⟩
  | laterMember => exact ⟨_, _, rfl, by simp [IsStart, IsBlank]⟩

/-- A string takes up at least its closing quote. -/
theorem Units.length_lt {cs rest : List Char} {us : List CodePoint} (h : Units cs us rest) :
    rest.length < cs.length := by
  induction h <;> simp only [List.length_cons] at * <;> omega

/-- What is spelt takes up something. -/
theorem Spells.length_lt {allowed : Nat → Prop} {cs rest : List Char} {part : Part}
    (h : Spells allowed cs part rest) : rest.length < cs.length := by
  induction h with
  | word h rest =>
    obtain ⟨c, cs, heq, -⟩ := exists_startsAtom_word h []
    rw [List.append_nil] at heq
    simp only [heq, List.length_append, List.length_cons]
    omega
  | number h _ rest =>
    obtain ⟨d, ds, rfl, -⟩ := h.whole.head_isDigit
    simp only [List.length_append, List.length_cons]
    omega
  | string h => grind [h.length_lt]
  | _ => grind [→ Blanks.length_le, → Units.length_lt]

/-! ## How a text is gone through -/

theorem Blanks.skipBlanks_eq_of_starts {cs rest : List Char} (h : Blanks cs rest)
    (hrest : Starts rest) : skipBlanks cs = rest := by
  obtain ⟨c, rest, rfl, hc⟩ := hrest
  exact h.skipBlanks_eq_cons hc.1

/-- A character that starts an atom has an atom read. -/
theorem readValue_atom {c : Char} (hc : StartsAtom c) (depth : Nat) (cs : List Char) :
    readValue (depth + 1) (c :: cs) = readAtom (c :: cs) := by
  obtain ⟨-, hquote, hsquare, hcurly⟩ := hc
  rw [readValue.eq_def]
  dsimp only
  split <;> simp_all

theorem readValue_string (depth : Nat) (cs : List Char) :
    readValue (depth + 1) ('"' :: cs)
      = (readString [] cs).map fun r => (.string r.1, r.2) := by
  rw [readValue]
  cases readString [] cs <;> rfl

/-- Brackets with nothing but blanks in them are an empty array. -/
theorem readValue_emptyArray {cs rest : List Char} (h : Blanks cs (']' :: rest)) (depth : Nat) :
    readValue (depth + 1) ('[' :: cs) = .ok (.array [], rest) := by
  rw [readValue, h.skipBlanks_eq_cons (by simp [IsBlank])]
  rfl

/-- Brackets around something have their items read, from where these begin. -/
theorem readValue_items {cs inside : List Char} (h : Blanks cs inside) (hinside : Starts inside)
    (depth : Nat) :
    readValue (depth + 1) ('[' :: cs)
      = (readItems depth [] inside).map fun r => (.array r.1, r.2) := by
  obtain ⟨c, inside, rfl, hc⟩ := hinside
  rw [readValue, h.skipBlanks_eq_cons hc.1]
  split
  · next heq => exact absurd (List.cons.inj heq).1 hc.2.1
  · cases readItems depth [] (c :: inside) <;> rfl

/-- Braces with nothing but blanks in them are an empty object. -/
theorem readValue_emptyObject {cs rest : List Char} (h : Blanks cs ('\x7d' :: rest))
    (depth : Nat) : readValue (depth + 1) ('\x7b' :: cs) = .ok (.object [], rest) := by
  rw [readValue, h.skipBlanks_eq_cons (by simp [IsBlank])]
  rfl

/-- Braces around something have their members read, from where these begin. -/
theorem readValue_members {cs inside : List Char} (h : Blanks cs inside) (hinside : Starts inside)
    (depth : Nat) :
    readValue (depth + 1) ('\x7b' :: cs)
      = (readFields depth [] inside).map fun r => (.object r.1, r.2) := by
  obtain ⟨c, inside, rfl, hc⟩ := hinside
  rw [readValue, h.skipBlanks_eq_cons hc.1]
  split
  · next heq => exact absurd (List.cons.inj heq).1 hc.2.2
  · cases readFields depth [] (c :: inside) <;> rfl

/-- An item is read, and then what comes after it. -/
theorem readItems_eq_bind (depth : Nat) (done : List Json) (cs : List Char) :
    readItems (depth + 1) done cs
      = (readValue depth cs).bind fun r => afterItem depth (r.1 :: done) r.2 := by
  rw [readItems_succ]
  cases readValue depth cs <;> rfl

/-- A key is read, then its value, and then what comes after that. -/
theorem readFields_eq_bind {cs behind next start : List Char} {us : List CodePoint}
    (hkey : Units cs us behind) (hcolon : Blanks behind (':' :: next))
    (hstart : Blanks next start) (hstarts : Starts start) (depth : Nat)
    (done : List (Wide × Json)) :
    readFields (depth + 1) done ('"' :: cs)
      = (readValue depth start).bind fun r =>
          afterField depth (putField ⟨joinPairs us⟩ r.1 done) r.2 := by
  rw [readFields_succ, readString_eq_ok_iff.2 ⟨us, hkey, rfl⟩]
  dsimp only
  rw [hcolon.skipBlanks_eq_cons (by simp [IsBlank])]
  split
  · next rest heq =>
    obtain ⟨-, rfl⟩ := List.cons.inj heq
    rw [hstart.skipBlanks_eq_of_starts hstarts]
    cases readValue depth start <;> rfl
  · next hnot => exact absurd rfl (hnot next)

/-- A bracket ends the items. -/
theorem afterItem_close {after rest : List Char} (h : Blanks after (']' :: rest)) (depth : Nat)
    (done : List Json) : afterItem depth done after = .ok (done.reverse, rest) := by
  rw [afterItem, h.skipBlanks_eq_cons (by simp [IsBlank])]
  rfl

/-- A comma makes the items go on. -/
theorem afterItem_more {after next more : List Char} (h : Blanks after (',' :: next))
    (hnext : Blanks next more) (hmore : Starts more) (depth : Nat) (done : List Json) :
    afterItem depth done after = readItems depth done more := by
  have hcomma : afterItem depth done after = afterItem depth done (',' :: next) := by
    unfold afterItem
    rw [h.skipBlanks_eq]
  rw [hcomma, afterItem_comma, hnext.skipBlanks_eq_of_starts hmore]

/-- A brace ends the members. -/
theorem afterField_close {after rest : List Char} (h : Blanks after ('\x7d' :: rest))
    (depth : Nat) (done : List (Wide × Json)) : afterField depth done after = .ok (done, rest) := by
  rw [afterField, h.skipBlanks_eq_cons (by simp [IsBlank])]
  rfl

/-- A comma makes the members go on. -/
theorem afterField_more {after next more : List Char} (h : Blanks after (',' :: next))
    (hnext : Blanks next more) (hmore : Starts more) (depth : Nat)
    (done : List (Wide × Json)) : afterField depth done after = readFields depth done more := by
  have hcomma : afterField depth done after = afterField depth done (',' :: next) := by
    unfold afterField
    rw [h.skipBlanks_eq]
  rw [hcomma, afterField_comma, hnext.skipBlanks_eq_of_starts hmore]

/-- No number goes on with a blank. -/
theorem Blanks.endsNumber {cs rest : List Char} (h : Blanks cs rest) (hrest : EndsNumber rest) :
    EndsNumber cs := by
  obtain ⟨_ | ⟨b, blanks⟩, hblanks, rfl⟩ := h
  · exact hrest
  · intro c hc
    cases hc
    obtain rfl | rfl | rfl | rfl := hblanks b (.head _) <;> decide

theorem endsNumber_cons {c : Char} (h : c.isDigit = false ∧ c ≠ '.' ∧ c ≠ 'e' ∧ c ≠ 'E')
    (rest : List Char) : EndsNumber (c :: rest) := by
  intro c' hc'
  cases hc'
  exact h

/-- **A part of a text is read to its end**, if the reader may go deep enough. -/
def Part.IsRead (cs rest : List Char) : Part → Prop
  | value v => EndsNumber rest → ∀ depth, 2 * cs.length + 1 ≤ depth →
      readValue depth cs = .ok (v, rest)
  | items vs => ∀ depth done, 2 * cs.length + 2 ≤ depth →
      readItems depth done cs = .ok (done.reverse ++ vs, rest)
  | members ms => ∀ depth done, 2 * cs.length + 2 ≤ depth →
      readFields depth done cs
        = .ok (ms.foldl (fun fields m => putField m.1 m.2 fields) done, rest)

/-- **What is spelt is read**, if no number in it has too many digits. The induction is on how it
is spelt, at any depth that is enough. -/
theorem Spells.isRead {cs rest : List Char} {part : Part}
    (h : Spells (· ≤ digitLimit) cs part rest) : part.IsRead cs rest := by
  -- One more level is spent on each value and on each separator behind one.
  induction h with
  | word h rest =>
    rintro - (_ | depth) hdepth
    · cases hdepth
    · obtain ⟨c, cs, heq, hc⟩ := exists_startsAtom_word h rest
      rw [heq, readValue_atom hc, ← heq, readAtom_word h]
  | @number sign whole frac exp h hallowed rest =>
    rintro hends (_ | depth) hdepth
    · cases hdepth
    · obtain ⟨c, cs, heq, hc⟩ := exists_startsAtom_number h.sign h.whole (frac ++ exp ++ rest)
      have hnumber := h.readNumber_eq hends
      rw [if_neg fun hlong => Nat.not_lt.2 (hallowed hlong.1 hlong.2.1) hlong.2.2] at hnumber
      have hassoc :
          sign ++ whole ++ frac ++ exp ++ rest = sign ++ whole ++ (frac ++ exp ++ rest) := by
        simp only [List.append_assoc]
      rw [← hnumber, hassoc, heq, readValue_atom hc, ← heq, readAtom_number h.sign h.whole]
  | string h =>
    rintro - (_ | depth) hdepth
    · cases hdepth
    · rw [readValue_string, readString_eq_ok_iff.2 ⟨_, h, rfl⟩]
      rfl
  | emptyArray h =>
    rintro - (_ | depth) hdepth
    · cases hdepth
    · exact readValue_emptyArray h depth
  | array h hitems ih =>
    rintro - (_ | depth) hdepth
    · cases hdepth
    · have hlength := h.length_le
      rw [List.length_cons] at hdepth
      rw [readValue_items h hitems.starts, ih depth [] (by omega)]
      rfl
  | emptyObject h =>
    rintro - (_ | depth) hdepth
    · cases hdepth
    · exact readValue_emptyObject h depth
  | object h hmembers ih =>
    rintro - (_ | depth) hdepth
    · cases hdepth
    · have hlength := h.length_le
      rw [List.length_cons] at hdepth
      rw [readValue_members h hmembers.starts, ih depth [] (by omega)]
      rfl
  | lastItem hv h ih =>
    rintro (_ | depth) done hdepth
    · cases hdepth
    · rw [readItems_eq_bind, ih (h.endsNumber (endsNumber_cons (by decide) _)) depth (by omega)]
      rw [Except.bind, afterItem_close h, List.reverse_cons]
  | item hv h hnext hmore ih ihmore =>
    rintro (_ | depth) done hdepth
    · cases hdepth
    · have hlength := hv.length_lt
      have hlength' := h.length_le
      have hlength'' := hnext.length_le
      rw [List.length_cons] at hlength'
      rw [readItems_eq_bind, ih (h.endsNumber (endsNumber_cons (by decide) _)) depth (by omega)]
      rw [Except.bind, afterItem_more h hnext hmore.starts, ihmore depth _ (by omega)]
      simp
  | lastMember hkey hcolon hstart hv h ih =>
    rintro (_ | depth) done hdepth
    · cases hdepth
    · have hlength := hkey.length_lt
      have hlength' := hcolon.length_le
      have hlength'' := hstart.length_le
      rw [List.length_cons] at hlength' hdepth
      rw [readFields_eq_bind hkey hcolon hstart hv.starts,
        ih (h.endsNumber (endsNumber_cons (by decide) _)) depth (by omega)]
      rw [Except.bind, afterField_close h]
      rfl
  | member hkey hcolon hstart hv h hnext hmore ih ihmore =>
    rintro (_ | depth) done hdepth
    · cases hdepth
    · have hlength := hkey.length_lt
      have hlength' := hcolon.length_le
      have hlength'' := hstart.length_le
      have hlengthv := hv.length_lt
      have hlengthh := h.length_le
      have hlengthn := hnext.length_le
      rw [List.length_cons] at hlength' hlengthh hdepth
      rw [readFields_eq_bind hkey hcolon hstart hv.starts,
        ih (h.endsNumber (endsNumber_cons (by decide) _)) depth (by omega)]
      rw [Except.bind, afterField_more h hnext hmore.starts, ihmore depth _ (by omega)]
      rfl

/-- **The reader stops at an integer that is too long**, if it may go deep enough. -/
def Place.IsRefused (cs : List Char) : Place → Prop
  | value => ∀ depth, 2 * cs.length + 1 ≤ depth → readValue depth cs = .error .tooManyDigits
  | items => ∀ depth done, 2 * cs.length + 2 ≤ depth →
      readItems depth done cs = .error .tooManyDigits
  | members => ∀ depth done, 2 * cs.length + 2 ≤ depth →
      readFields depth done cs = .error .tooManyDigits

/-- **Where a number has too many digits, this is the fault.** -/
theorem Stumbles.isRefused {cs : List Char} {place : Place} (h : Stumbles cs place) :
    place.IsRefused cs := by
  -- by the rules: where one goes deeper it takes characters, so the depth that is left is enough
  induction h with
  | number h =>
    rintro (_ | depth) hdepth
    · cases hdepth
    · rw [← readNumber_eq_tooManyDigits_iff] at h
      rw [← h]
      obtain ⟨sign, whole, rest, hnumber, rfl, -⟩ := readNumber_eq_tooManyDigits_iff.1 h
      obtain ⟨c, cs, heq, hc⟩ := exists_startsAtom_number hnumber.sign hnumber.whole rest
      rw [heq, readValue_atom hc, ← heq, readAtom_number hnumber.sign hnumber.whole]
  | array h hitems ih =>
    rintro (_ | depth) hdepth
    · cases hdepth
    · have hlength := h.length_le
      rw [List.length_cons] at hdepth
      rw [readValue_items h hitems.starts, ih depth [] (by omega)]
      rfl
  | object h hmembers ih =>
    rintro (_ | depth) hdepth
    · cases hdepth
    · have hlength := h.length_le
      rw [List.length_cons] at hdepth
      rw [readValue_members h hmembers.starts, ih depth [] (by omega)]
      rfl
  | item _ ih =>
    rintro (_ | depth) done hdepth
    · cases hdepth
    · rw [readItems_eq_bind, ih depth (by omega)]
      rfl
  | laterItem hv h hnext hmore ih =>
    rintro (_ | depth) done hdepth
    · cases hdepth
    · have hlength := hv.length_lt
      have hlength' := h.length_le
      have hlength'' := hnext.length_le
      rw [List.length_cons] at hlength'
      rw [readItems_eq_bind,
        hv.isRead (h.endsNumber (endsNumber_cons (by decide) _)) depth (by omega)]
      rw [Except.bind, afterItem_more h hnext hmore.starts, ih depth _ (by omega)]
  | member hkey hcolon hstart hv ih =>
    rintro (_ | depth) done hdepth
    · cases hdepth
    · have hlength := hkey.length_lt
      have hlength' := hcolon.length_le
      have hlength'' := hstart.length_le
      rw [List.length_cons] at hlength' hdepth
      rw [readFields_eq_bind hkey hcolon hstart hv.starts, ih depth (by omega)]
      rfl
  | laterMember hkey hcolon hstart hv h hnext hmore ih =>
    rintro (_ | depth) done hdepth
    · cases hdepth
    · have hlength := hkey.length_lt
      have hlength' := hcolon.length_le
      have hlength'' := hstart.length_le
      have hlengthv := hv.length_lt
      have hlengthh := h.length_le
      have hlengthn := hnext.length_le
      rw [List.length_cons] at hlength' hlengthh hdepth
      rw [readFields_eq_bind hkey hcolon hstart hv.starts,
        hv.isRead (h.endsNumber (endsNumber_cons (by decide) _)) depth (by omega)]
      rw [Except.bind, afterField_more h hnext hmore.starts, ih depth _ (by omega)]

/-! ## What was gone through -/

/-- What is known of the outcome of a reader: a value is spelled by the text, and the error about
digits has its reason. -/
def Justified {α : Type} (spelled : α → List Char → Prop) (stumbles : Prop) : Read α → Prop
  | .ok (a, rest) => spelled a rest
  | .error .tooManyDigits => stumbles
  | .error .malformed => True

section Justified

variable {α β : Type} {spelled : α → List Char → Prop} {spelled' : β → List Char → Prop}
  {stumbles stumbles' : Prop}

theorem Justified.imp {spelled' : α → List Char → Prop} {r : Read α}
    (h : Justified spelled stumbles r) (hok : ∀ a rest, spelled a rest → spelled' a rest)
    (herror : stumbles → stumbles') : Justified spelled' stumbles' r := by
  obtain (_ | _) | ⟨a, rest⟩ := r
  · trivial
  · exact herror h
  · exact hok a rest h

theorem Justified.map {r : Read α} (h : Justified spelled stumbles r) {f : α → β}
    (hok : ∀ a rest, spelled a rest → spelled' (f a) rest) (herror : stumbles → stumbles') :
    Justified spelled' stumbles' (r.map fun p => (f p.1, p.2)) := by
  obtain (_ | _) | ⟨a, rest⟩ := r
  · trivial
  · exact herror h
  · exact hok a rest h

/-- What is justified by the first part and what follows it. -/
theorem Justified.bind {r : Read α} (h : Justified spelled stumbles r)
    {f : α × List Char → Read β}
    (hok : ∀ a rest, spelled a rest → Justified spelled' stumbles' (f (a, rest)))
    (herror : stumbles → stumbles') : Justified spelled' stumbles' (r.bind f) := by
  obtain (_ | _) | ⟨a, rest⟩ := r
  · trivial
  · exact herror h
  · exact hok a rest h

end Justified

/-- A number that is read is spelt there. -/
theorem justified_readNumber (cs : List Char) :
    Justified (fun v rest => Spells (· ≤ digitLimit) cs (.value v) rest) (Stumbles cs .value)
      (readNumber cs) := by
  rcases hread : readNumber cs with (_ | _) | ⟨v, rest⟩
  · trivial
  · exact .number (readNumber_eq_tooManyDigits_iff.1 hread)
  · obtain ⟨sign, whole, frac, exp, h, rfl, rfl, hlimit⟩ := exists_isNumber_of_readNumber hread
    exact .number h hlimit rest

/-- An atom that is read is spelt there. -/
theorem justified_readAtom (cs : List Char) :
    Justified (fun v rest => Spells (· ≤ digitLimit) cs (.value v) rest) (Stumbles cs .value)
      (readAtom cs) := by
  obtain ⟨w, v, rest, h, rfl, hread⟩ | hread := readAtom_cases cs
  · rw [hread]
    exact .word h rest
  · rw [hread]
    exact justified_readNumber cs

/-- A string that is read is spelt there. -/
theorem justified_readString (cs : List Char) :
    Justified (fun s rest => ∃ us, Units cs us rest ∧ s = ⟨joinPairs us⟩) False
      (readString [] cs) := by
  rcases hread : readString [] cs with (_ | _) | ⟨s, rest⟩
  · trivial
  · exact readString_ne_tooManyDigits [] cs hread
  · exact readString_eq_ok_iff.1 hread

/-- What follows an opening bracket: the closing one, or the items. -/
theorem readValue_bracket (depth : Nat) (cs : List Char) :
    (∃ rest, Blanks cs (']' :: rest)
        ∧ readValue (depth + 1) ('[' :: cs) = .ok (.array [], rest))
      ∨ readValue (depth + 1) ('[' :: cs)
          = (readItems depth [] (skipBlanks cs)).map fun r => (.array r.1, r.2) := by
  have hblanks := blanks_skipBlanks cs
  rw [readValue]
  split
  · next rest heq => exact .inl ⟨rest, heq ▸ hblanks, rfl⟩
  · refine .inr ?_
    cases readItems depth [] (skipBlanks cs) <;> rfl

/-- What a brace begins: an empty object, or members. -/
theorem readValue_brace (depth : Nat) (cs : List Char) :
    (∃ rest, Blanks cs ('\x7d' :: rest)
        ∧ readValue (depth + 1) ('\x7b' :: cs) = .ok (.object [], rest))
      ∨ readValue (depth + 1) ('\x7b' :: cs)
          = (readFields depth [] (skipBlanks cs)).map fun r => (.object r.1, r.2) := by
  have hblanks := blanks_skipBlanks cs
  rw [readValue]
  split
  · next rest heq => exact .inl ⟨rest, heq ▸ hblanks, rfl⟩
  · refine .inr ?_
    cases readFields depth [] (skipBlanks cs) <;> rfl

/-- What a value begins with decides how it is read. -/
theorem readValue_cases (depth : Nat) (cs : List Char) :
    (∃ cs', cs = '"' :: cs') ∨ (∃ cs', cs = '[' :: cs') ∨ (∃ cs', cs = '\x7b' :: cs')
      ∨ readValue (depth + 1) cs = readAtom cs := by
  rw [readValue.eq_def]
  dsimp only
  split
  · exact .inl ⟨_, rfl⟩
  · exact .inr (.inl ⟨_, rfl⟩)
  · exact .inr (.inr (.inl ⟨_, rfl⟩))
  · exact .inr (.inr (.inr rfl))

/-- Members have a key, a colon and a value, or they are malformed. -/
theorem readFields_cases (depth : Nat) (done : List (Wide × Json)) (cs : List Char) :
    readFields (depth + 1) done cs = .error .malformed
      ∨ ∃ cs' us behind next, cs = '"' :: cs' ∧ Units cs' us behind
        ∧ Blanks behind (':' :: next)
        ∧ readFields (depth + 1) done cs
          = (readValue depth (skipBlanks next)).bind fun r =>
              afterField depth (putField ⟨joinPairs us⟩ r.1 done) r.2 := by
  by_cases hquote : ∃ cs', cs = '"' :: cs'
  · obtain ⟨cs, rfl⟩ := hquote
    have hstring := justified_readString cs
    rw [readFields_succ]
    rcases hread : readString [] cs with (_ | _) | ⟨s, behind⟩
    · exact .inl rfl
    · exact absurd hread (readString_ne_tooManyDigits [] cs)
    · rw [hread] at hstring
      obtain ⟨us, hus, rfl⟩ := hstring
      have hblanks := blanks_skipBlanks behind
      dsimp only
      split
      · next next heq =>
        rw [heq] at hblanks
        refine .inr ⟨cs, us, behind, next, rfl, hus, hblanks, ?_⟩
        cases readValue depth (skipBlanks next) <;> rfl
      · exact .inl rfl
  · refine .inl ?_
    rw [readFields.eq_def]
    dsimp only
    split
    · exact absurd ⟨_, rfl⟩ hquote
    · rfl

/-- After an item there is a bracket or a comma. -/
theorem afterItem_cases (depth : Nat) (done : List Json) (after : List Char) :
    afterItem depth done after = .error .malformed
      ∨ (∃ rest, Blanks after (']' :: rest) ∧ afterItem depth done after = .ok (done.reverse, rest))
      ∨ ∃ next, Blanks after (',' :: next)
        ∧ afterItem depth done after = readItems depth done (skipBlanks next) := by
  have hblanks := blanks_skipBlanks after
  unfold afterItem
  split
  · next next heq => exact .inr (.inr ⟨next, heq ▸ hblanks, rfl⟩)
  · next rest heq => exact .inr (.inl ⟨rest, heq ▸ hblanks, rfl⟩)
  · exact .inl rfl

/-- After a member there is a brace or a comma. -/
theorem afterField_cases (depth : Nat) (done : List (Wide × Json)) (after : List Char) :
    afterField depth done after = .error .malformed
      ∨ (∃ rest, Blanks after ('\x7d' :: rest) ∧ afterField depth done after = .ok (done, rest))
      ∨ ∃ next, Blanks after (',' :: next)
        ∧ afterField depth done after = readFields depth done (skipBlanks next) := by
  have hblanks := blanks_skipBlanks after
  unfold afterField
  split
  · next next heq => exact .inr (.inr ⟨next, heq ▸ hblanks, rfl⟩)
  · next rest heq => exact .inr (.inl ⟨rest, heq ▸ hblanks, rfl⟩)
  · exact .inl rfl

/-- **What the reader yields, the text spells; and it refuses no other integers than those that
are too long.** -/
theorem justified_read (depth : Nat) :
    (∀ cs, Justified (fun v rest => Spells (· ≤ digitLimit) cs (.value v) rest)
        (Stumbles cs .value) (readValue depth cs))
      ∧ (∀ done cs, Justified
          (fun vs rest => ∃ ws, vs = done.reverse ++ ws
            ∧ Spells (· ≤ digitLimit) cs (.items ws) rest)
          (Stumbles cs .items) (readItems depth done cs))
      ∧ ∀ done cs, Justified
          (fun fields rest => ∃ ms, fields = ms.foldl (fun fields m => putField m.1 m.2 fields) done
            ∧ Spells (· ≤ digitLimit) cs (.members ms) rest)
          (Stumbles cs .members) (readFields depth done cs) := by
  induction depth with
  | zero => exact ⟨fun _ => trivial, fun _ _ => trivial, fun _ _ => trivial⟩
  | succ depth ih =>
    obtain ⟨ihvalue, ihitems, ihmembers⟩ := ih
    refine ⟨fun cs => ?_, fun done cs => ?_, fun done cs => ?_⟩
    · obtain ⟨cs, rfl⟩ | ⟨cs, rfl⟩ | ⟨cs, rfl⟩ | hatom := readValue_cases depth cs
      · rw [readValue_string]
        refine (justified_readString cs).map (fun s rest => ?_) False.elim
        rintro ⟨us, hus, rfl⟩
        exact .string hus
      · obtain ⟨rest, hblanks, hread⟩ | hread := readValue_bracket depth cs
        · rw [hread]
          exact .emptyArray hblanks
        · rw [hread]
          refine (ihitems [] (skipBlanks cs)).map (fun vs rest => ?_) ?_
          · rintro ⟨ws, rfl, hws⟩
            exact .array (blanks_skipBlanks cs) hws
          · exact .array (blanks_skipBlanks cs)
      · obtain ⟨rest, hblanks, hread⟩ | hread := readValue_brace depth cs
        · rw [hread]
          exact .emptyObject hblanks
        · rw [hread]
          refine (ihmembers [] (skipBlanks cs)).map (fun fields rest => ?_) ?_
          · rintro ⟨ms, rfl, hms⟩
            exact .object (blanks_skipBlanks cs) hms
          · exact .object (blanks_skipBlanks cs)
      · rw [hatom]
        exact justified_readAtom cs
    · -- items, with those that are done carried along, last first
      rw [readItems_eq_bind]
      refine (ihvalue cs).bind (fun v after hv => ?_) .item
      obtain hread | ⟨rest, hblanks, hread⟩ | ⟨next, hblanks, hread⟩ :=
        afterItem_cases depth (v :: done) after
      · rw [hread]
        trivial
      · rw [hread]
        exact ⟨[v], List.reverse_cons, .lastItem hv hblanks⟩
      · rw [hread]
        refine (ihitems (v :: done) (skipBlanks next)).imp (fun vs rest => ?_) ?_
        · rintro ⟨ws, rfl, hws⟩
          exact ⟨v :: ws, by simp, .item hv hblanks (blanks_skipBlanks next) hws⟩
        · exact .laterItem hv hblanks (blanks_skipBlanks next)
    · -- members, put one by one into the fields there are
      obtain hread | ⟨cs, us, behind, start, rfl, hkey, hcolon, hread⟩ :=
        readFields_cases depth done cs
      · rw [hread]
        trivial
      rw [hread]
      have hstart := blanks_skipBlanks start
      refine (ihvalue (skipBlanks start)).bind (fun v after hv => ?_) (.member hkey hcolon hstart)
      obtain hread | ⟨rest, hblanks, hread⟩ | ⟨next, hblanks, hread⟩ :=
        afterField_cases depth (putField ⟨joinPairs us⟩ v done) after
      · rw [hread]
        trivial
      · rw [hread]
        exact ⟨[(⟨joinPairs us⟩, v)], rfl, .lastMember hkey hcolon hstart hv hblanks⟩
      · rw [hread]
        have hnext := blanks_skipBlanks next
        refine (ihmembers _ (skipBlanks next)).imp (fun fields rest => ?_) ?_
        · rintro ⟨ms, rfl, hms⟩
          exact ⟨(⟨joinPairs us⟩, v) :: ms, rfl, .member hkey hcolon hstart hv hblanks hnext hms⟩
        · exact .laterMember hkey hcolon hstart hv hblanks hnext

/-! ## Whole texts -/

/-- **A text that spells a value**, and nothing else. -/
def Document (allowed : Nat → Prop) (s : String) (v : Json) : Prop :=
  ∃ start rest, Blanks s.toList start ∧ Spells allowed start (.value v) rest ∧ Blanks rest []

/-- A text that follows the rules of JSON, which set integers no limit. -/
def IsJson (s : String) (v : Json) : Prop :=
  Document (fun _ => True) s v

/-- A text that follows the rules up to an integer that is too long. -/
def StumblesIn (s : String) : Prop :=
  ∃ start, Blanks s.toList start ∧ Stumbles start .value

theorem endsNumber_of_blanks_nil {rest : List Char} (h : Blanks rest []) : EndsNumber rest :=
  h.endsNumber nofun

theorem skipBlanks_eq_nil_iff {cs : List Char} : skipBlanks cs = [] ↔ Blanks cs [] :=
  ⟨fun h => h ▸ blanks_skipBlanks cs, fun h => h.skipBlanks_eq⟩

/-- **The reader accepts exactly what the rules allow.** -/
theorem read_eq_ok_iff {s : String} {v : Json} :
    read s = .ok v ↔ Document (· ≤ digitLimit) s v := by
  constructor
  · intro h
    have hjust := (justified_read (2 * s.toList.length + 2)).1 (skipBlanks s.toList)
    rw [read] at h
    split at h
    · cases h
    · next v' rest hread =>
      split_ifs at h with hrest
      cases h
      rw [hread] at hjust
      have hempty := List.isEmpty_iff.1 hrest
      exact ⟨_, rest, blanks_skipBlanks _, hjust, skipBlanks_eq_nil_iff.1 hempty⟩
  · rintro ⟨start, rest, hstart, hv, hrest⟩
    have hlength := hstart.length_le
    rw [read, hstart.skipBlanks_eq_of_starts hv.starts,
      hv.isRead (endsNumber_of_blanks_nil hrest) _ (by omega)]
    dsimp only
    rw [skipBlanks_eq_nil_iff.2 hrest]
    rfl

/-- **The reader objects to the length of an integer exactly if it gets to one that is too
long.** -/
theorem read_eq_tooManyDigits_iff {s : String} :
    read s = .error .tooManyDigits ↔ StumblesIn s := by
  constructor
  · intro h
    have hjust := (justified_read (2 * s.toList.length + 2)).1 (skipBlanks s.toList)
    rw [read] at h
    split at h
    · next e hread =>
      cases h
      rw [hread] at hjust
      exact ⟨_, blanks_skipBlanks _, hjust⟩
    · split_ifs at h
      cases h
  · rintro ⟨start, hstart, h⟩
    have hlength := hstart.length_le
    rw [read, hstart.skipBlanks_eq_of_starts h.starts, h.isRefused _ (by omega)]

/-- More digits may be allowed. -/
theorem Spells.mono {allowed allowed' : Nat → Prop} (hmono : ∀ n, allowed n → allowed' n)
    {cs rest : List Char} {part : Part} (h : Spells allowed cs part rest) :
    Spells allowed' cs part rest := by
  induction h with
  | word h rest => exact .word h rest
  | number h hallowed rest => exact .number h (fun hf he => hmono _ (hallowed hf he)) rest
  | string h => exact .string h
  | emptyArray h => exact .emptyArray h
  | array h _ ih => exact .array h ih
  | emptyObject h => exact .emptyObject h
  | object h _ ih => exact .object h ih
  | lastItem _ h ih => exact .lastItem ih h
  | item _ h hnext _ ih ihmore => exact .item ih h hnext ihmore
  | lastMember hkey hcolon hstart _ h ih => exact .lastMember hkey hcolon hstart ih h
  | member hkey hcolon hstart _ h hnext _ ih ihmore =>
    exact .member hkey hcolon hstart ih h hnext ihmore

/-- The kind of a part. -/
def Part.place : Part → Place
  | value _ => .value
  | items _ => .items
  | members _ => .members

/-- An integer that is followed by something else is all of it, and so too long or not. -/
theorem IsNumber.overlong {sign whole rest : List Char} (h : IsNumber sign whole [] [])
    (hlong : digitLimit < whole.length) (hrest : EndsNumber rest) :
    Overlong (sign ++ whole ++ rest) := by
  have hread := h.readNumber_eq hrest
  rw [if_pos ⟨rfl, rfl, hlong⟩, List.append_nil, List.append_nil] at hread
  exact readNumber_eq_tooManyDigits_iff.1 hread

/-- **Between the rules and what is read lie only the integers that are too long.** -/
theorem Spells.limited_or_stumbles {allowed : Nat → Prop} {cs rest : List Char} {part : Part}
    (h : Spells allowed cs part rest) (hrest : part.place = .value → EndsNumber rest) :
    Spells (· ≤ digitLimit) cs part rest ∨ Stumbles cs part.place := by
  -- what follows a value inside brackets does not go on a number
  have hclose (c : Char) (hc : c = ',' ∨ c = ']' ∨ c = '\x7d') (cs : List Char) :
      EndsNumber (c :: cs) := by
    rcases hc with rfl | rfl | rfl <;> exact endsNumber_cons (by decide) cs
  induction h with
  | word h rest => exact .inl (.word h rest)
  | @number sign whole frac exp h _ rest =>
    by_cases hlong : frac = [] ∧ exp = [] ∧ digitLimit < whole.length
    · obtain ⟨rfl, rfl, hlong⟩ := hlong
      rw [List.append_nil, List.append_nil]
      exact .inr (.number (h.overlong hlong (hrest rfl)))
    · refine .inl (.number h (fun hfrac hexp => ?_) rest)
      exact Nat.le_of_not_lt fun hlt => hlong ⟨hfrac, hexp, hlt⟩
  | string h => exact .inl (.string h)
  | emptyArray h => exact .inl (.emptyArray h)
  | array h _ ih => exact (ih nofun).imp (.array h) (.array h)
  | emptyObject h => exact .inl (.emptyObject h)
  | object h _ ih => exact (ih nofun).imp (.object h) (.object h)
  | lastItem _ h ih =>
    exact (ih fun _ => h.endsNumber (hclose _ (by simp) _)).imp (.lastItem · h) .item
  | item _ h hnext _ ih ihmore =>
    obtain hv | hv := ih fun _ => h.endsNumber (hclose _ (by simp) _)
    · exact (ihmore nofun).imp (.item hv h hnext) (.laterItem hv h hnext)
    · exact .inr (.item hv)
  | lastMember hkey hcolon hstart _ h ih =>
    exact (ih fun _ => h.endsNumber (hclose _ (by simp) _)).imp
      (.lastMember hkey hcolon hstart · h) (.member hkey hcolon hstart)
  | member hkey hcolon hstart _ h hnext _ ih ihmore =>
    obtain hv | hv := ih fun _ => h.endsNumber (hclose _ (by simp) _)
    · exact (ihmore nofun).imp (.member hkey hcolon hstart hv h hnext)
        (.laterMember hkey hcolon hstart hv h hnext)
    · exact .inr (.member hkey hcolon hstart hv)

/-- **A text that does not stumble is read exactly if it is JSON.** -/
theorem read_eq_ok_iff_isJson {s : String} {v : Json} (h : ¬StumblesIn s) :
    read s = .ok v ↔ IsJson s v := by
  rw [read_eq_ok_iff]
  constructor
  · rintro ⟨start, rest, hstart, hv, hrest⟩
    exact ⟨start, rest, hstart, hv.mono fun _ _ => trivial, hrest⟩
  · rintro ⟨start, rest, hstart, hv, hrest⟩
    obtain hv | hv := hv.limited_or_stumbles fun _ => endsNumber_of_blanks_nil hrest
    · exact ⟨start, rest, hstart, hv, hrest⟩
    · exact absurd ⟨start, hstart, hv⟩ h

/-! ## Objects -/

/-- **A text that is a JSON object with the given members**, in the order in which they stand
there. -/
def IsObject (s : String) (ms : List (Wide × Json)) : Prop :=
  ∃ inside rest, Blanks s.toList ('\x7b' :: inside) ∧ Blanks rest []
    ∧ (ms = [] ∧ Blanks inside ('\x7d' :: rest)
      ∨ ∃ first, Blanks inside first ∧ Spells (fun _ => True) first (.members ms) rest)

/-- A text of an object has the members of one, of which every key keeps the last value. -/
theorem isJson_object_iff {s : String} {fields : List (Wide × Json)} :
    IsJson s (.object fields) ↔ ∃ ms, IsObject s ms ∧ fields = fieldsOf ms := by
  constructor
  · rintro ⟨start, rest, hstart, hv, hrest⟩
    cases hv with
    | word h => simp [words] at h
    | emptyObject h => exact ⟨[], ⟨_, rest, hstart, hrest, .inl ⟨rfl, h⟩⟩, rfl⟩
    | @object _ first _ ms h hms => exact ⟨ms, ⟨_, rest, hstart, hrest, .inr ⟨first, h, hms⟩⟩, rfl⟩
  · rintro ⟨ms, ⟨inside, rest, hstart, hrest, ⟨rfl, h⟩ | ⟨first, h, hms⟩⟩, rfl⟩
    · exact ⟨_, rest, hstart, .emptyObject h, hrest⟩
    · exact ⟨_, rest, hstart, .object h hms, hrest⟩

/-- The value of the last member with a key. -/
def lastValue? (ms : List (Wide × Json)) (key : String) : Option Json :=
  (ms.reverse.find? fun m => m.1 = .ofString key).map Prod.snd

/-- A key that has been put has its value, and all others as before. -/
theorem find?_putField (key k : Wide) (v : Json) (fields : List (Wide × Json)) :
    (putField k v fields).find? (fun f => f.1 = key)
      = if k = key then some (k, v) else fields.find? fun f => f.1 = key := by
  induction fields with
  | nil => by_cases hkey : k = key <;> simp [putField, hkey]
  | cons f fields ih =>
    obtain ⟨k', v'⟩ := f
    rw [putField]
    split_ifs with hk hkey hkey
    · simp [hk, hkey]
    · simp [hk, hkey]
    · rw [List.find?_cons_of_neg (by simp [← hkey, hk]), ih, if_pos hkey]
    · rw [List.find?_cons, List.find?_cons, ih, if_neg hkey]

/-- Of several values of a key the last one counts. -/
theorem find?_foldl_putField (key : Wide) (ms fields : List (Wide × Json)) :
    (ms.foldl (fun fields m => putField m.1 m.2 fields) fields).find? (fun f => f.1 = key)
      = (ms.reverse.find? fun m => m.1 = key).or (fields.find? fun f => f.1 = key) := by
  induction ms generalizing fields with
  | nil => rfl
  | cons m ms ih =>
    rw [List.foldl_cons, ih, find?_putField, List.reverse_cons, List.find?_append, Option.or_assoc]
    obtain ⟨k, v⟩ := m
    by_cases hkey : k = key <;> simp [hkey]

/-- **The last member with a key counts.** -/
theorem field?_fieldsOf (ms : List (Wide × Json)) (key : String) :
    (Json.object (fieldsOf ms)).field? key = lastValue? ms key := by
  rw [field?, fieldsOf, find?_foldl_putField, List.find?_nil, Option.or_none, lastValue?]

end ComponentCatalog.Json
