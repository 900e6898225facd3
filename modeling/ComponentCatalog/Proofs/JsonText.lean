import ComponentCatalog.Json.Printer
import ComponentCatalog.Json.Reader
import ComponentCatalog.Text.Utf8
import Mathlib.Data.List.Nodup
import Mathlib.Tactic.FinCases

/-!
# JSON texts read back

What the printer writes, the reader takes apart again into the value that was written, with
every text in it and with the fields of every object in their order. This is shown for *plain*
values: their texts have no surrogates in them, an object has no key twice, and there are no
numbers, which are kept by their literals and need not be literals at all.

Strings are read point by point (`readString_escapePoint`): each point is written as one or two
escapes or as itself, and a pair of escaped surrogates comes back as the one point it was
written for. Values are read by recursion on the value. An item of an array is followed by
the items after it, so the statement about a list is about what stands behind an item
(`afterItem`, `afterField`). The reader counts down while it descends and while it goes along
a list; as long as the text is no longer than the count, there is enough of it.

A written text has nothing but printable ASCII characters and line feeds in it.
-/

namespace ComponentCatalog

open Text

namespace Text

/-- Whether a text of code points has no surrogate in it. -/
def Wide.IsText (w : Wide) : Prop :=
  ∀ p ∈ w.points, p.isSurrogate = false

theorem CodePoint.val_ofNat {n : Nat} (h : n < 0x110000) : (CodePoint.ofNat n).val = n :=
  Nat.mod_eq_of_lt h

theorem CodePoint.ofNat_val (p : CodePoint) : CodePoint.ofNat p.val = p :=
  Fin.ext (Nat.mod_eq_of_lt p.isLt)

/-- The number of a character is no surrogate and lies in the range of code points. -/
theorem toNat_valid (c : Char) :
    c.toNat < 0xD800 ∨ 0xDFFF < c.toNat ∧ c.toNat < 0x110000 :=
  c.valid

theorem toNat_ofNat {n : Nat} (h : n < 0xD800) : (Char.ofNat n).toNat = n := by
  rw [Char.ofNat, dif_pos (Or.inl h)]
  rfl

theorem CodePoint.val_ofChar (c : Char) : (CodePoint.ofChar c).val = c.toNat :=
  val_ofNat (by have := toNat_valid c; omega)

/-- A character is no surrogate. -/
theorem CodePoint.isSurrogate_ofChar (c : Char) : (CodePoint.ofChar c).isSurrogate = false := by
  have := toNat_valid c
  simp only [CodePoint.isSurrogate, CodePoint.val_ofChar, Bool.and_eq_false_iff,
    decide_eq_false_iff_not]
  omega

/-- A text of characters is text. -/
theorem Wide.isText_ofString (s : String) : (Wide.ofString s).IsText := by
  intro p hp
  obtain ⟨c, -, rfl⟩ := List.mem_map.1 hp
  exact CodePoint.isSurrogate_ofChar c

end Text

namespace Json

/-! ## Strings -/

/-- A digit that is written is read back. -/
theorem hexDigit?_hexChar {n : Nat} (h : n < 16) : hexDigit? (hexChar n) = some n := by
  have hall : ∀ k : Fin 16, hexDigit? (hexChar k) = some k.val := by decide
  exact hall ⟨n, h⟩

/-- An escaped unit is read as the unit. -/
theorem readString_escapeUnit {n : Nat} (h : n < 0x10000) (done : List CodePoint)
    (rest : List Char) :
    readString done (escapeUnit n ++ rest) = readString (pushUnit n done) rest := by
  have hunit : hexUnit? (hexChar (n / 4096 % 16)) (hexChar (n / 256 % 16)) (hexChar (n / 16 % 16))
      (hexChar (n % 16)) = some n := by
    simp only [hexUnit?, hexDigit?_hexChar (Nat.mod_lt _ (by decide : 0 < 16)), Option.bind_some,
      Option.bind_eq_bind, Option.some.injEq]
    omega
  simp only [escapeUnit, List.cons_append, List.nil_append, readString, hunit]

/-- A unit that is no low surrogate does not join the point before it. -/
theorem pushUnit_of_not_low {n : Nat} (h : n < 0xDC00 ∨ 0xDFFF < n) (done : List CodePoint) :
    pushUnit n done = .ofNat n :: done := by
  unfold pushUnit
  split
  · rw [if_neg]
    simp only [Bool.and_eq_true, decide_eq_true_eq]
    omega
  · rfl

/-- The two surrogates that a point is written with make the point. -/
theorem joinSurrogates_split {n : Nat} (h : 0x10000 ≤ n) :
    joinSurrogates (0xD800 + (n - 0x10000) / 0x400) (0xDC00 + (n - 0x10000) % 0x400) = n := by
  unfold joinSurrogates
  omega

/-- A low surrogate joins the high one that was read before it. -/
theorem pushUnit_of_pair {high low : Nat} (hhigh : 0xD800 ≤ high ∧ high ≤ 0xDBFF)
    (hlow : 0xDC00 ≤ low ∧ low ≤ 0xDFFF) (done : List CodePoint) :
    pushUnit low (.ofNat high :: done) = .ofNat (joinSurrogates high low) :: done := by
  have hval : (CodePoint.ofNat high).val = high := CodePoint.val_ofNat (by omega)
  simp only [pushUnit, hval]
  rw [if_pos]
  simp only [Bool.and_eq_true, decide_eq_true_eq]
  omega

/-- A character that is neither a control, a quote nor a backslash stands for itself. -/
theorem readString_plain {c : Char} (hcontrol : 0x20 ≤ c.toNat) (hquote : c ≠ '"')
    (hbackslash : c ≠ '\\') (done : List CodePoint) (rest : List Char) :
    readString done (c :: rest) = readString (CodePoint.ofChar c :: done) rest := by
  rw [readString]
  · rw [if_neg]
    simpa [hbackslash] using hcontrol
  · exact fun h => hquote h
  · exact fun _ _ _ _ _ h => absurd h hbackslash
  · exact fun _ _ h => absurd h hbackslash

/-- An escape of one letter is read as the character it stands for. -/
theorem readString_shortEscape {e x : Char} (h : shortEscape? e = some x)
    (done : List CodePoint) (rest : List Char) :
    readString done ('\\' :: e :: rest) = readString (CodePoint.ofChar x :: done) rest := by
  rw [readString]
  · simp only [h]
  · rintro a b c d rest' he -
    subst he
    cases h

/-- **How a point is written**: with a letter that stands for it, as itself, by its number, or by
the numbers of two surrogates. -/
theorem escapePoint_cases (p : CodePoint) :
    (∃ e x, shortEscape? e = some x ∧ p = .ofChar x ∧ escapePoint p = ['\\', e]) ∨
    (0x20 ≤ p.val ∧ p.val ≤ 0x7E ∧ p.val ≠ 0x22 ∧ p.val ≠ 0x5C ∧
      escapePoint p = [Char.ofNat p.val]) ∨
    (p.val < 0x10000 ∧ escapePoint p = escapeUnit p.val) ∨
    (0x10000 ≤ p.val ∧ escapePoint p = escapeUnit (0xD800 + (p.val - 0x10000) / 0x400) ++
      escapeUnit (0xDC00 + (p.val - 0x10000) % 0x400)) := by
  have hchar {x : Char} (h : p.val = x.toNat) : p = .ofChar x :=
    Fin.ext (h.trans (CodePoint.val_ofChar x).symm)
  unfold escapePoint
  simp only [beq_iff_eq, Bool.and_eq_true, decide_eq_true_eq]
  by_cases hquote : p.val = 0x22
  · exact .inl ⟨'"', '"', rfl, hchar hquote, if_pos hquote⟩
  rw [if_neg hquote]
  by_cases hbackslash : p.val = 0x5C
  · exact .inl ⟨'\\', '\\', rfl, hchar hbackslash, if_pos hbackslash⟩
  rw [if_neg hbackslash]
  by_cases hfeed : p.val = 0x0A
  · exact .inl ⟨'n', '\n', rfl, hchar hfeed, if_pos hfeed⟩
  rw [if_neg hfeed]
  by_cases hreturn : p.val = 0x0D
  · exact .inl ⟨'r', '\r', rfl, hchar hreturn, if_pos hreturn⟩
  rw [if_neg hreturn]
  by_cases htab : p.val = 0x09
  · exact .inl ⟨'t', '\t', rfl, hchar htab, if_pos htab⟩
  rw [if_neg htab]
  by_cases hback : p.val = 0x08
  · exact .inl ⟨'b', '\x08', rfl, hchar hback, if_pos hback⟩
  rw [if_neg hback]
  by_cases hform : p.val = 0x0C
  · exact .inl ⟨'f', '\x0c', rfl, hchar hform, if_pos hform⟩
  rw [if_neg hform]
  by_cases hplain : 0x20 ≤ p.val ∧ p.val ≤ 0x7E
  · exact .inr (.inl ⟨hplain.1, hplain.2, hquote, hbackslash, if_pos hplain⟩)
  rw [if_neg hplain]
  by_cases hunit : p.val < 0x10000
  · exact .inr (.inr (.inl ⟨hunit, if_pos hunit⟩))
  · exact .inr (.inr (.inr ⟨Nat.le_of_not_lt hunit, if_neg hunit⟩))

/-- **A point that is no surrogate reads back** from the way it is written. -/
theorem readString_escapePoint {p : CodePoint} (hp : p.isSurrogate = false)
    (done : List CodePoint) (rest : List Char) :
    readString done (escapePoint p ++ rest) = readString (p :: done) rest := by
  have hlt : p.val < 0x110000 := p.isLt
  have hrange : p.val < 0xD800 ∨ 0xDFFF < p.val := by
    simp only [CodePoint.isSurrogate, Bool.and_eq_false_iff, decide_eq_false_iff_not] at hp
    omega
  have hp : CodePoint.ofNat p.val = p := p.ofNat_val
  obtain ⟨e, x, hescape, hx, h⟩ | ⟨hleast, hmost, hquote, hbackslash, h⟩ | ⟨hunit, h⟩ |
    ⟨hlong, h⟩ := escapePoint_cases p
  · rw [h, List.cons_append, List.singleton_append, readString_shortEscape hescape, hx]
  · have hchar : (Char.ofNat p.val).toNat = p.val := toNat_ofNat (by omega)
    have hne (c : Char) (hc : p.val ≠ c.toNat) : Char.ofNat p.val ≠ c :=
      fun h => hc (h ▸ hchar.symm)
    rw [h, List.singleton_append, readString_plain (by omega) (hne _ hquote) (hne _ hbackslash),
      CodePoint.ofChar, hchar, hp]
  · rw [h, readString_escapeUnit hunit, pushUnit_of_not_low (by omega), hp]
  · generalize hn : p.val = n at *
    rw [h, List.append_assoc, readString_escapeUnit (by omega), pushUnit_of_not_low (by omega),
      readString_escapeUnit (by omega), pushUnit_of_pair (by omega) (by omega),
      joinSurrogates_split (by omega), hp]

/-- Points without surrogates read back, up to the quote behind them. -/
theorem readString_flatMap {ps : List CodePoint} (hps : ∀ p ∈ ps, p.isSurrogate = false)
    (done : List CodePoint) (rest : List Char) :
    readString done (ps.flatMap escapePoint ++ '"' :: rest) =
      .ok (⟨done.reverse ++ ps⟩, rest) := by
  induction ps generalizing done with
  | nil => simp only [List.flatMap_nil, List.nil_append, readString, List.append_nil]
  | cons p ps ih =>
    rw [List.flatMap_cons, List.append_assoc, readString_escapePoint (hps p (.head _)),
      ih fun q hq => hps q (.tail _ hq), List.reverse_cons, List.append_assoc,
      List.singleton_append]

/-- A written text, without its first quote. -/
def quoteTail (s : Wide) : List Char :=
  s.points.flatMap escapePoint ++ ['"']

theorem quote_eq (s : Wide) : quote s = '"' :: quoteTail s := rfl

/-- **A text that is quoted is read back**, whatever follows it. -/
theorem readString_quoteTail {s : Wide} (hs : s.IsText) (rest : List Char) :
    readString [] (quoteTail s ++ rest) = .ok (s, rest) := by
  rw [quoteTail, List.append_assoc, List.singleton_append, readString_flatMap hs]
  rfl

/-! ## Values -/

mutual

/-- A value without numbers and surrogates, in whose objects every key occurs once. -/
def Plain : Json → Prop
  | .null => True
  | .bool _ => True
  | .number _ => False
  | .string s => s.IsText
  | .array items => PlainAll items
  | .object fields => (fields.map Prod.fst).Nodup ∧ PlainFields fields

/-- The values of a list are plain. -/
def PlainAll : List Json → Prop
  | [] => True
  | v :: vs => Plain v ∧ PlainAll vs

/-- The keys and values of fields are plain. -/
def PlainFields : List (Wide × Json) → Prop
  | [] => True
  | (k, v) :: fs => k.IsText ∧ Plain v ∧ PlainFields fs

end

/-- Line breaks and indentation are blanks. -/
theorem skipBlanks_newLine (level : Nat) (cs : List Char) :
    skipBlanks (newLine level ++ cs) = skipBlanks cs := by
  have hblanks (n : Nat) : skipBlanks (List.replicate n ' ' ++ cs) = skipBlanks cs := by
    induction n with
    | zero => rfl
    | succ n ih => rw [List.replicate_succ, List.cons_append]; exact ih
  exact hblanks (2 * level)

/-- The characters with which plain values begin. -/
def starts : List Char := ['n', 't', 'f', '"', '[', '\x7b']

/-- A rendered value begins with a character that values begin with. -/
theorem renderAt_starts (level : Nat) {j : Json} (hj : Plain j) :
    ∃ c ∈ starts, ∃ cs, renderAt level j = c :: cs := by
  cases j with
  | null => exact ⟨'n', by decide, _, rfl⟩
  | bool b =>
    cases b with
    | false => exact ⟨'f', by decide, _, rfl⟩
    | true => exact ⟨'t', by decide, _, rfl⟩
  | number n => exact hj.elim
  | string s => exact ⟨'"', by decide, _, rfl⟩
  | array items =>
    cases items with
    | nil => exact ⟨'[', by decide, _, rfl⟩
    | cons v vs => exact ⟨'[', by decide, _, rfl⟩
  | object fields =>
    cases fields with
    | nil => exact ⟨'\x7b', by decide, _, rfl⟩
    | cons f fs => exact ⟨'\x7b', by decide, _, rfl⟩

theorem skipBlanks_starts {c : Char} (hc : c ∈ starts) (cs : List Char) :
    skipBlanks (c :: cs) = c :: cs := by
  fin_cases hc <;> rfl

/-- No blanks are skipped in front of a rendered value. -/
theorem skipBlanks_renderAt (level : Nat) {j : Json} (hj : Plain j) (rest : List Char) :
    skipBlanks (renderAt level j ++ rest) = renderAt level j ++ rest := by
  obtain ⟨c, hc, cs, h⟩ := renderAt_starts level hj
  rw [h, List.cons_append, skipBlanks_starts hc]

theorem skipBlanks_quote (k : Wide) (rest : List Char) :
    skipBlanks (quote k ++ rest) = quote k ++ rest := rfl

/-- What the reader does behind an item of an array. -/
def afterItem (depth : Nat) (done : List Json) (rest : List Char) : Read (List Json) :=
  match skipBlanks rest with
  | ',' :: rest => readItems depth done (skipBlanks rest)
  | ']' :: rest => .ok (done.reverse, rest)
  | _ => .error .malformed

/-- What the reader does behind a field of an object. -/
def afterField (depth : Nat) (done : List (Wide × Json)) (rest : List Char) :
    Read (List (Wide × Json)) :=
  match skipBlanks rest with
  | ',' :: rest => readFields depth done (skipBlanks rest)
  | '\x7d' :: rest => .ok (done, rest)
  | _ => .error .malformed

theorem afterItem_comma (depth : Nat) (done : List Json) (rest : List Char) :
    afterItem depth done (',' :: rest) = readItems depth done (skipBlanks rest) := rfl

theorem afterField_comma (depth : Nat) (done : List (Wide × Json)) (rest : List Char) :
    afterField depth done (',' :: rest) = readFields depth done (skipBlanks rest) := rfl

theorem readItems_succ (depth : Nat) (done : List Json) (cs : List Char) :
    readItems (depth + 1) done cs =
      match readValue depth cs with
      | .error e => .error e
      | .ok (v, rest) => afterItem depth (v :: done) rest := rfl

theorem readFields_succ (depth : Nat) (done : List (Wide × Json)) (cs : List Char) :
    readFields (depth + 1) done ('"' :: cs) =
      match readString [] cs with
      | .error e => .error e
      | .ok (k, rest) =>
        match skipBlanks rest with
        | ':' :: rest =>
          match readValue depth (skipBlanks rest) with
          | .error e => .error e
          | .ok (v, rest) => afterField depth (putField k v done) rest
        | _ => .error .malformed := rfl

/-- Where an item can be read, what comes after it is next. -/
theorem readItems_of_readValue {depth : Nat} {cs rest : List Char} {v : Json}
    (h : readValue depth cs = .ok (v, rest)) (done : List Json) :
    readItems (depth + 1) done cs = afterItem depth (v :: done) rest := by
  rw [readItems_succ, h]

/-- The same for a member with a quoted key. -/
theorem readFields_of_readValue {depth level : Nat} {k : Wide} {rest : List Char} {v : Json}
    (hk : k.IsText) (hv : Plain v)
    (h : readValue depth (renderAt level v ++ rest) = .ok (v, rest)) (done : List (Wide × Json)) :
    readFields (depth + 1) done (quote k ++ ':' :: ' ' :: (renderAt level v ++ rest)) =
      afterField depth (putField k v done) rest := by
  have hcolon (cs : List Char) : skipBlanks (':' :: cs) = ':' :: cs := rfl
  have hblank (cs : List Char) : skipBlanks (' ' :: cs) = skipBlanks cs := rfl
  simp only [quote_eq, List.cons_append, readFields_succ, readString_quoteTail hk, hcolon, hblank,
    skipBlanks_renderAt level hv, h]

/-- An array that is rendered over several lines has its items read. -/
theorem readValue_array {depth : Nat} {v : Json} (hv : Plain v) (level : Nat)
    (cs : List Char) :
    readValue (depth + 1) ('[' :: (newLine level ++ (renderAt level v ++ cs))) =
      (readItems depth [] (renderAt level v ++ cs)).map fun r => (.array r.1, r.2) := by
  obtain ⟨c, hc, tail, h⟩ := renderAt_starts level hv
  simp only [readValue, h, List.cons_append, skipBlanks_newLine, skipBlanks_starts hc]
  -- the value does not begin with the bracket that would close an empty array
  have hne : c ≠ ']' := by rintro rfl; exact absurd hc (by decide)
  split
  · rename_i heq
    exact absurd (List.cons.inj heq).1 hne
  · cases readItems depth [] (c :: (tail ++ cs)) <;> rfl

/-- An object that is rendered over several lines has its members read. -/
theorem readValue_object {depth : Nat} (k : Wide) (level : Nat) (cs : List Char) :
    readValue (depth + 1) ('\x7b' :: (newLine level ++ (quote k ++ cs))) =
      (readFields depth [] (quote k ++ cs)).map fun r => (.object r.1, r.2) := by
  have hquote : '"' ∈ starts := by decide
  simp only [readValue, quote_eq, List.cons_append, skipBlanks_newLine, skipBlanks_starts hquote]
  split
  · rename_i heq
    exact absurd (List.cons.inj heq).1 (by decide)
  · cases readFields depth [] ('"' :: (quoteTail k ++ cs)) <;> rfl

/-- A field with a new key comes last. -/
theorem putField_of_not_mem {k : Wide} (v : Json) {fields : List (Wide × Json)}
    (h : k ∉ fields.map Prod.fst) : putField k v fields = fields ++ [(k, v)] := by
  induction fields with
  | nil => rfl
  | cons f fs ih =>
    simp only [List.map_cons, List.mem_cons, not_or] at h
    simp only [putField, if_neg (Ne.symm h.1), ih h.2, List.cons_append]

mutual

/-- **A written plain value reads back**, whatever stands behind it. -/
theorem readValue_renderAt : (j : Json) → Plain j → ∀ {level depth : Nat} (rest : List Char),
    (renderAt level j).length ≤ depth → readValue depth (renderAt level j ++ rest) = .ok (j, rest)
  | .null, _, _, depth + 1, rest, _ => rfl
  | .bool true, _, _, depth + 1, rest, _ => rfl
  | .bool false, _, _, depth + 1, rest, _ => rfl
  | .number _, h, _, _, _, _ => h.elim
  | .string s, hs, _, depth + 1, rest, _ => by
    simp only [renderAt, quote_eq, List.cons_append, readValue, readString_quoteTail hs]
  | .array [], _, _, depth + 1, rest, _ => rfl
  | .array (v :: vs), ⟨hv, hvs⟩, level, depth, rest, hlen => by
    simp only [renderAt, newLine, List.length_append, List.length_cons] at hlen
    obtain ⟨depth, rfl⟩ : ∃ d, depth = d + 2 := ⟨depth - 2, by omega⟩
    simp only [renderAt, List.cons_append, List.append_assoc, List.nil_append]
    rw [readValue_array hv, readItems_of_readValue (readValue_renderAt v hv _ (by omega)),
      afterItem_renderItems vs hvs _ _ _ (by omega)]
    rfl
  | .object [], _, _, depth + 1, rest, _ => rfl
  | .object ((k, v) :: fs), ⟨hkeys, hk, hv, hfs⟩, level, depth, rest, hlen => by
    simp only [renderAt, newLine, List.length_append, List.length_cons] at hlen
    obtain ⟨depth, rfl⟩ : ∃ d, depth = d + 2 := ⟨depth - 2, by omega⟩
    simp only [renderAt, List.cons_append, List.append_assoc, List.nil_append]
    rw [readValue_object,
      readFields_of_readValue hk hv (readValue_renderAt v hv _ (by omega)),
      afterField_renderFields fs hfs _ _ _ hkeys (by omega)]
    rfl
  termination_by structural j => j

/-- As `readValue_renderAt`, for the items behind one that has been read. -/
theorem afterItem_renderItems : (vs : List Json) → PlainAll vs → ∀ {level depth : Nat}
    (outer : Nat) (done : List Json) (rest : List Char), (renderItems level vs).length ≤ depth →
    afterItem depth done (renderItems level vs ++ (newLine outer ++ ']' :: rest)) =
      .ok (done.reverse ++ vs, rest)
  | [], _, _, depth, outer, done, rest, _ => by
    simp only [renderItems, List.nil_append, afterItem, skipBlanks_newLine, List.append_nil]
    rfl
  | v :: vs, ⟨hv, hvs⟩, level, depth, outer, done, rest, hlen => by
    simp only [renderItems, newLine, List.length_append, List.length_cons] at hlen
    obtain ⟨depth, rfl⟩ : ∃ d, depth = d + 1 := ⟨depth - 1, by omega⟩
    simp only [renderItems, List.cons_append, List.append_assoc]
    rw [afterItem_comma, skipBlanks_newLine, skipBlanks_renderAt level hv,
      readItems_of_readValue (readValue_renderAt v hv _ (by omega)),
      afterItem_renderItems vs hvs _ _ _ (by omega), List.reverse_cons, List.append_assoc,
      List.singleton_append]
  termination_by structural vs => vs

/-- As `readValue_renderAt`, for the fields behind one that has been read. -/
theorem afterField_renderFields : (fs : List (Wide × Json)) → PlainFields fs →
    ∀ {level depth : Nat} (outer : Nat) (done : List (Wide × Json)) (rest : List Char),
    ((done ++ fs).map Prod.fst).Nodup → (renderFields level fs).length ≤ depth →
    afterField depth done (renderFields level fs ++ (newLine outer ++ '\x7d' :: rest)) =
      .ok (done ++ fs, rest)
  | [], _, _, depth, outer, done, rest, _, _ => by
    simp only [renderFields, List.nil_append, afterField, skipBlanks_newLine, List.append_nil]
    rfl
  | (k, v) :: fs, ⟨hk, hv, hfs⟩, level, depth, outer, done, rest, hkeys, hlen => by
    simp only [renderFields, newLine, List.length_append, List.length_cons] at hlen
    obtain ⟨depth, rfl⟩ : ∃ d, depth = d + 1 := ⟨depth - 1, by omega⟩
    have hnew : k ∉ done.map Prod.fst := by
      rw [List.map_append, List.nodup_append] at hkeys
      exact fun hmem => hkeys.2.2 _ hmem _ (.head _) rfl
    have happend : done ++ (k, v) :: fs = putField k v done ++ fs := by
      rw [putField_of_not_mem v hnew, List.append_assoc, List.singleton_append]
    rw [happend] at hkeys ⊢
    simp only [renderFields, List.cons_append, List.append_assoc, List.nil_append]
    rw [afterField_comma, skipBlanks_newLine, skipBlanks_quote,
      readFields_of_readValue hk hv (readValue_renderAt v hv _ (by omega)),
      afterField_renderFields fs hfs _ _ _ hkeys (by omega)]
  termination_by structural fs => fs

end

/-- What is read of a text that begins with a written value: the value, if only blanks stand
behind it. -/
theorem read_render_append {j : Json} (hj : Plain j) (s : String) :
    read (render j ++ s) = if (skipBlanks s.toList).isEmpty then .ok j else .error .malformed := by
  have hdepth : (renderAt 0 j).length ≤ 2 * (renderAt 0 j ++ s.toList).length + 2 := by
    rw [List.length_append]
    omega
  have hread := readValue_renderAt j hj s.toList hdepth
  simp only [read, render, String.toList_append, String.toList_ofList, skipBlanks_renderAt 0 hj,
    hread]

/-- **A value that is rendered is read back.** -/
theorem read_render {j : Json} (hj : Plain j) : read (render j) = .ok j := by
  rw [← String.append_empty (s := render j), read_render_append hj]
  rfl

/-! ## Characters -/

/-- The characters that are written: the printable ones of ASCII and the line feed. -/
def IsWritten (c : Char) : Prop :=
  c = '\n' ∨ 0x20 ≤ c.toNat ∧ c.toNat ≤ 0x7E

instance : DecidablePred IsWritten := fun c =>
  inferInstanceAs (Decidable (c = '\n' ∨ 0x20 ≤ c.toNat ∧ c.toNat ≤ 0x7E))

/-- Characters that are written are ASCII. -/
theorem IsWritten.toNat_lt {c : Char} (h : IsWritten c) : c.toNat < 0x80 := by
  obtain rfl | h := h
  · decide
  · omega

theorem isWritten_hexChar {n : Nat} (h : n < 16) : IsWritten (hexChar n) := by
  have hall : ∀ k : Fin 16, IsWritten (hexChar k) := by decide
  exact hall ⟨n, h⟩

/-- Whether a text has only characters that are written. -/
def AllWritten (cs : List Char) : Prop :=
  ∀ c ∈ cs, IsWritten c

theorem allWritten_append {cs ds : List Char} :
    AllWritten (cs ++ ds) ↔ AllWritten cs ∧ AllWritten ds :=
  List.forall_mem_append

theorem allWritten_cons {c : Char} {cs : List Char} :
    AllWritten (c :: cs) ↔ IsWritten c ∧ AllWritten cs :=
  List.forall_mem_cons

instance (cs : List Char) : Decidable (AllWritten cs) :=
  List.decidableBAll IsWritten cs

theorem allWritten_escapeUnit (n : Nat) : AllWritten (escapeUnit n) := by
  have hhex (m : Nat) : IsWritten (hexChar (m % 16)) := isWritten_hexChar (Nat.mod_lt _ (by decide))
  simp only [escapeUnit, allWritten_cons, hhex, true_and]
  decide

theorem isWritten_of_shortEscape? {e x : Char} (h : shortEscape? e = some x) : IsWritten e := by
  unfold shortEscape? at h
  split at h
  iterate 8 decide
  cases h

/-- The escape of a code point has written characters only. -/
theorem allWritten_escapePoint (p : CodePoint) : AllWritten (escapePoint p) := by
  obtain ⟨e, x, hescape, -, h⟩ | ⟨hleast, hmost, -, -, h⟩ | ⟨-, h⟩ | ⟨-, h⟩ :=
    escapePoint_cases p <;> rw [h]
  · have hletter := isWritten_of_shortEscape? hescape
    exact allWritten_cons.2 ⟨by decide, allWritten_cons.2 ⟨hletter, nofun⟩⟩
  · have hwritten : IsWritten (Char.ofNat p.val) := by
      rw [IsWritten, toNat_ofNat (by omega)]
      exact .inr ⟨hleast, hmost⟩
    exact allWritten_cons.2 ⟨hwritten, nofun⟩
  · exact allWritten_escapeUnit _
  · exact allWritten_append.2 ⟨allWritten_escapeUnit _, allWritten_escapeUnit _⟩

/-- A quoted text has written characters only. -/
theorem allWritten_quote (s : Wide) : AllWritten (quote s) := by
  have hpoints : AllWritten (s.points.flatMap escapePoint) := by
    intro c hc
    obtain ⟨p, -, hc⟩ := List.mem_flatMap.1 hc
    exact allWritten_escapePoint p c hc
  simp only [quote, List.cons_append, allWritten_cons, allWritten_append, hpoints, true_and]
  decide

theorem allWritten_newLine (level : Nat) : AllWritten (newLine level) := by
  refine allWritten_cons.2 ⟨.inl rfl, fun c hc => ?_⟩
  rw [List.eq_of_mem_replicate hc]
  decide

mutual

/-- **A written plain value has nothing but printable characters and line feeds in it.** -/
theorem allWritten_renderAt : (j : Json) → Plain j → ∀ level : Nat, AllWritten (renderAt level j)
  | .null, _, _ => by unfold renderAt; decide
  | .bool true, _, _ => by unfold renderAt; decide
  | .bool false, _, _ => by unfold renderAt; decide
  | .number _, h, _ => h.elim
  | .string s, _, _ => allWritten_quote s
  | .array [], _, _ => by unfold renderAt; decide
  | .array (v :: vs), ⟨hv, hvs⟩, level => by
    simp only [renderAt, List.cons_append, allWritten_append, allWritten_cons, allWritten_newLine,
      allWritten_renderAt v hv, allWritten_renderItems vs hvs, true_and]
    decide
  | .object [], _, _ => by unfold renderAt; decide
  | .object ((k, v) :: fs), ⟨_, _, hv, hfs⟩, level => by
    simp only [renderAt, List.cons_append, allWritten_append, allWritten_cons, allWritten_newLine,
      allWritten_quote, allWritten_renderAt v hv, allWritten_renderFields fs hfs, true_and]
    decide
  termination_by structural j => j

/-- As `allWritten_renderAt`, for the items of an array after the first. -/
theorem allWritten_renderItems : (vs : List Json) → PlainAll vs → ∀ level : Nat,
    AllWritten (renderItems level vs)
  | [], _, _ => by unfold renderItems; decide
  | v :: vs, ⟨hv, hvs⟩, level => by
    simp only [renderItems, List.cons_append, allWritten_append, allWritten_cons,
      allWritten_newLine, allWritten_renderAt v hv, allWritten_renderItems vs hvs, and_true]
    decide
  termination_by structural vs => vs

/-- As `allWritten_renderAt`, for the fields of an object after the first. -/
theorem allWritten_renderFields : (fs : List (Wide × Json)) → PlainFields fs → ∀ level : Nat,
    AllWritten (renderFields level fs)
  | [], _, _ => by unfold renderFields; decide
  | (k, v) :: fs, ⟨_, hv, hfs⟩, level => by
    simp only [renderFields, List.cons_append, allWritten_append, allWritten_cons,
      allWritten_newLine, allWritten_quote, allWritten_renderAt v hv,
      allWritten_renderFields fs hfs, and_true, true_and]
    decide
  termination_by structural fs => fs

end

end Json

/-! ## Files -/

namespace Text

theorem toList_loop (bs : ByteArray) (i : Nat) (r : List UInt8) :
    ByteArray.toList.loop bs i r = r.reverse ++ bs.data.toList.drop i := by
  fun_induction ByteArray.toList.loop bs i r with
  | case1 i r h ih =>
    have hget : bs.get! i = bs.data.toList[i] := getElem!_pos bs.data i h
    rw [ih, hget, List.reverse_cons, List.append_assoc, List.singleton_append,
      ← List.drop_eq_getElem_cons]
  | case2 i r h => rw [List.drop_eq_nil_of_le (Nat.le_of_not_lt h), List.append_nil]

/-- The bytes of a text are those of its characters. -/
theorem encode_ofList (cs : List Char) :
    encode (String.ofList cs) = cs.flatMap String.utf8EncodeChar := by
  rw [encode, String.toUTF8_eq_toByteArray, String.toByteArray_ofList, List.utf8Encode,
    ByteArray.toList, toList_loop, List.toList_data_toByteArray]
  rfl

/-- Texts are encoded one after the other. -/
theorem encode_append (s t : String) : encode (s ++ t) = encode s ++ encode t := by
  rw [← String.ofList_toList (s := s), ← String.ofList_toList (s := t), ← String.ofList_append,
    encode_ofList, encode_ofList, encode_ofList, List.flatMap_append]

/-- A text of ASCII has a byte for every character. -/
theorem encode_ascii {cs : List Char} (hcs : ∀ c ∈ cs, c.toNat < 0x80) :
    encode (String.ofList cs) = cs.map fun c => c.val.toUInt8 := by
  rw [encode_ofList]
  induction cs with
  | nil => rfl
  | cons c cs ih =>
    have hsize : c.utf8Size = 1 := by
      rw [Char.utf8Size_eq_one_iff, UInt32.le_iff_toNat_le]
      exact Nat.le_of_lt_succ (hcs c (.head _))
    rw [List.flatMap_cons, String.utf8EncodeChar_eq_singleton hsize,
      ih fun d hd => hcs d (.tail _ hd), List.singleton_append, List.map_cons]

/-- An ASCII character is its own byte. -/
theorem nextChar_ascii {c : Char} (hc : c.toNat < 0x80) (rest : List UInt8) :
    nextChar c.val.toUInt8 rest = (some c, rest) := by
  have hbyte : c.val.toUInt8.toNat = c.toNat := by
    rw [UInt32.toNat_toUInt8, Char.toNat_val]
    omega
  simp only [nextChar, leadByte?, hbyte, if_pos hc, continueChar, Option.map_some,
    Char.ofNat_toNat]

/-- ASCII characters are decoded one by one. -/
theorem decodeFrom_ascii {cs : List Char} (hcs : ∀ c ∈ cs, c.toNat < 0x80)
    (done : List (Option Char)) (limit : Nat) (rest : List UInt8) :
    decodeFrom done (cs.length + limit) (cs.map (fun c => c.val.toUInt8) ++ rest) =
      decodeFrom ((cs.map some).reverse ++ done) limit rest := by
  induction cs generalizing done with
  | nil => rw [List.length_nil, Nat.zero_add]; rfl
  | cons c cs ih =>
    rw [List.length_cons, Nat.add_right_comm]
    simp only [List.map_cons, List.cons_append, decodeFrom, nextChar_ascii (hcs c (.head _))]
    rw [ih fun d hd => hcs d (.tail _ hd), List.reverse_cons, List.append_assoc,
      List.singleton_append]

/-- What has been decoded stays in front. -/
theorem decodeFrom_eq (done : List (Option Char)) (limit : Nat) (bytes : List UInt8) :
    decodeFrom done limit bytes = done.reverse ++ decodeFrom [] limit bytes := by
  induction limit generalizing done bytes with
  | zero => simp only [decodeFrom, List.reverse_nil, List.append_nil]
  | succ limit ih =>
    cases bytes with
    | nil => simp only [decodeFrom, List.reverse_nil, List.append_nil]
    | cons b rest =>
      simp only [decodeFrom]
      rw [ih, ih [_], List.reverse_cons, List.append_assoc, List.reverse_singleton]

/-- Bytes after a text of ASCII are decoded as they are by themselves. -/
theorem decode?_ascii_append {cs : List Char} (hcs : ∀ c ∈ cs, c.toNat < 0x80)
    (bytes : List UInt8) :
    decode? (encode (String.ofList cs) ++ bytes) =
      (decode? bytes).map (String.ofList cs ++ ·) := by
  have hsome (ds : List (Option Char)) :
      (cs.map some ++ ds).mapM id = (ds.mapM id).map (cs ++ ·) := by
    clear hcs
    induction cs with
    | nil => simp only [List.map_nil, List.nil_append, Option.map_id']
    | cons c cs ih =>
      simp only [List.map_cons, List.cons_append, List.mapM_cons, ih]
      cases ds.mapM id <;> rfl
  rw [decode?, encode_ascii hcs, List.length_append, List.length_map, decodeFrom_ascii hcs,
    decodeFrom_eq, List.append_nil, List.reverse_reverse, hsome, decode?, Option.map_map,
    Option.map_map]
  simp only [Function.comp_def, String.ofList_append]

theorem unifyLineEnds_append_done (done more cs : List Char) :
    unifyLineEnds (done ++ more) cs = more.reverse ++ unifyLineEnds done cs := by
  fun_induction unifyLineEnds done cs with
  | case1 done => rw [unifyLineEnds, List.reverse_append]
  | case2 done rest ih => rw [unifyLineEnds, ← ih, List.cons_append]
  | case3 done rest h ih => rw [unifyLineEnds, ← ih, List.cons_append]; exact h
  | case4 done c rest h h' ih => rw [unifyLineEnds, ← ih, List.cons_append] <;> assumption

/-- Where there is no carriage return, line ends stay as they are. -/
theorem unifyLineEnds_append {cs : List Char} (hcs : '\r' ∉ cs) (done rest : List Char) :
    unifyLineEnds done (cs ++ rest) = unifyLineEnds (cs.reverse ++ done) rest := by
  induction cs generalizing done with
  | nil => rfl
  | cons c cs ih =>
    rw [List.mem_cons, not_or] at hcs
    rw [List.cons_append, unifyLineEnds, ih hcs.2, List.reverse_cons, List.append_assoc,
      List.singleton_append]
    · exact fun _ h => absurd h.symm hcs.1
    · exact fun h => absurd h.symm hcs.1

/-- **A written text is what a file with its bytes holds**, and more bytes come behind it. -/
theorem ofFile?_written_append {cs : List Char} (hcs : Json.AllWritten cs) (bytes : List UInt8) :
    ofFile? (encode (String.ofList cs) ++ bytes) = (ofFile? bytes).map (String.ofList cs ++ ·) := by
  have hascii : ∀ c ∈ cs, c.toNat < 0x80 := fun c hc => (hcs c hc).toNat_lt
  have hreturn : '\r' ∉ cs := fun h => absurd (hcs _ h) (by decide)
  rw [ofFile?, decode?_ascii_append hascii, ofFile?, Option.map_map, Option.map_map]
  refine congrArg (Option.map · (decode? bytes)) (funext fun s => ?_)
  simp only [Function.comp_apply, String.toList_append, String.toList_ofList]
  rw [unifyLineEnds_append hreturn, ← List.nil_append (cs.reverse ++ []),
    unifyLineEnds_append_done, List.append_nil, List.reverse_reverse, String.ofList_append]

/-- **What is written is read back from a file.** -/
theorem ofFile?_written {cs : List Char} (hcs : Json.AllWritten cs) :
    ofFile? (encode (String.ofList cs)) = some (String.ofList cs) := by
  have hempty : ofFile? [] = some "" := rfl
  rw [← List.append_nil (encode _), ofFile?_written_append hcs, hempty, Option.map_some,
    String.append_empty]

end Text

namespace Json

/-- **A plain value that is written to a file reads back from it**, as long as only blanks are
added. -/
theorem read_file_append {j : Json} (hj : Plain j) (bytes : List UInt8) :
    (ofFile? (encode (render j) ++ bytes)).map read =
      (ofFile? bytes).map fun s =>
        if (skipBlanks s.toList).isEmpty then .ok j else .error .malformed := by
  rw [render, ofFile?_written_append (allWritten_renderAt j hj 0), Option.map_map]
  congr 1
  funext s
  exact read_render_append hj s

/-- A value is read back from the file it is rendered to. -/
theorem read_file {j : Json} (hj : Plain j) :
    (ofFile? (encode (render j))).map read = some (.ok j) := by
  rw [render, ofFile?_written (allWritten_renderAt j hj 0), Option.map_some, ← render,
    read_render hj]

end Json

end ComponentCatalog
