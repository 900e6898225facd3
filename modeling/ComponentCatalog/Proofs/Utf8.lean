import ComponentCatalog.Proofs.JsonText

/-!
# Bytes that spell a text

Decoding is strict: bytes are the text that they decode to, written out, and nothing else
decodes (`decode?_eq_some_iff`). What the decoder checks on the way, the range of the first byte
and that of the second, is there to keep out a second way of writing a character, the surrogates
and what lies behind the last code point. So one character has to be looked at in both
directions: its own bytes are read as it (`nextChar_utf8EncodeChar`), and whatever bytes are read
as it are its own (`eq_append_of_nextChar`).
-/

namespace ComponentCatalog.Text

theorem toNat_ofNat_byte {n : Nat} (h : n < 256) : (UInt8.ofNat n).toNat = n := by
  rw [UInt8.toNat_ofNat', Nat.mod_eq_of_lt h]

/-! ## First bytes -/

/-- **What a first byte says**, by the number of bytes that follow it: the bits it holds, and
with that which second bytes are refused. -/
inductive FirstByte : (bits count : Nat) → (lo hi : UInt8) → Prop where
  | one (bits : Nat) (h : bits < 0x80) : FirstByte bits 0 0x80 0xBF
  | two (bits : Nat) (h : 2 ≤ bits ∧ bits < 0x20) : FirstByte bits 1 0x80 0xBF
  | three (bits : Nat) (h : bits < 0x10) :
      FirstByte bits 2 (if bits = 0 then 0xA0 else 0x80) (if bits = 13 then 0x9F else 0xBF)
  | four (bits : Nat) (h : bits ≤ 4) :
      FirstByte bits 3 (if bits = 0 then 0x90 else 0x80) (if bits = 4 then 0x8F else 0xBF)

/-- The first byte with given bits, before a number of bytes. -/
def leadByte (bits : Nat) : (count : Nat) → UInt8
  | 0 => .ofNat bits
  | 1 => .ofNat (bits + 192)
  | 2 => .ofNat (bits + 224)
  | _ => .ofNat (bits + 240)

/-- The first byte of a character tells how many follow. -/
theorem leadByte?_leadByte {bits count : Nat} {lo hi : UInt8} (h : FirstByte bits count lo hi) :
    leadByte? (leadByte bits count) = some (bits, count, lo, hi) := by
  cases h with
  | one h =>
    have hall : ∀ k : Fin 0x80, leadByte? (leadByte k 0) = some (k.val, 0, 0x80, 0xBF) := by
      decide
    exact hall ⟨bits, h⟩
  | two h =>
    have hall : ∀ k : Fin 0x20, 2 ≤ k.val →
        leadByte? (leadByte k 1) = some (k.val, 1, 0x80, 0xBF) := by decide
    exact hall ⟨bits, h.2⟩ h.1
  | three h =>
    have hall : ∀ k : Fin 0x10, leadByte? (leadByte k 2) = some (k.val, 2,
        if k.val = 0 then 0xA0 else 0x80, if k.val = 13 then 0x9F else 0xBF) := by decide
    exact hall ⟨bits, h⟩
  | four h =>
    have hall : ∀ k : Fin 5, leadByte? (leadByte k 3) = some (k.val, 3,
        if k.val = 0 then 0x90 else 0x80, if k.val = 4 then 0x8F else 0xBF) := by decide
    exact hall ⟨bits, Nat.lt_succ_of_le h⟩

/-- There are no other first bytes. -/
theorem firstByte_of_leadByte? {b : UInt8} {bits count : Nat} {lo hi : UInt8}
    (h : leadByte? b = some (bits, count, lo, hi)) :
    FirstByte bits count lo hi ∧ b = leadByte bits count := by
  have hbyte (k : Nat) (hk : k ≤ b.toNat) : b = .ofNat (b.toNat - k + k) := by
    rw [Nat.sub_add_cancel hk, UInt8.ofNat_toNat]
  have hlast : b.toNat < 256 := b.toNat_lt
  unfold leadByte? at h
  simp only [beq_iff_eq] at h
  split_ifs at h with h1 h2 h3 h4 h5 h6 h7 h8 h9 <;>
    simp only [Option.some.injEq, Prod.mk.injEq] at h <;>
    obtain ⟨rfl, rfl, rfl, rfl⟩ := h
  · exact ⟨.one _ h1, (UInt8.ofNat_toNat).symm⟩
  · exact ⟨.two _ (by omega), hbyte 192 (by omega)⟩
  · exact ⟨by simpa using FirstByte.three 0 (by omega), UInt8.toNat_inj.1 (h4.trans rfl)⟩
  · exact ⟨by simpa using FirstByte.three 13 (by omega), UInt8.toNat_inj.1 (h5.trans rfl)⟩
  · have hthree := FirstByte.three (b.toNat - 224) (by omega)
    rw [if_neg (by omega), if_neg (by omega)] at hthree
    exact ⟨hthree, hbyte 224 (by omega)⟩
  · exact ⟨by simpa using FirstByte.four 0 (by omega), UInt8.toNat_inj.1 (h7.trans rfl)⟩
  · have hfour := FirstByte.four (b.toNat - 240) (by omega)
    rw [if_neg (by omega), if_neg (by omega)] at hfour
    exact ⟨hfour, hbyte 240 (by omega)⟩
  · exact ⟨by simpa using FirstByte.four 4 (by omega), UInt8.toNat_inj.1 (h9.trans rfl)⟩

/-! ## The bytes behind them -/

/-- A byte that follows adds six bits. -/
theorem continueChar_cons {bits count m : Nat} {lo hi : UInt8} (hm : m < 64)
    (hlo : lo.toNat ≤ m + 128) (hhi : m + 128 ≤ hi.toNat) (rest : List UInt8) :
    continueChar bits lo hi (count + 1) (.ofNat (m + 128) :: rest)
      = continueChar (bits * 64 + m) 0x80 0xBF count rest := by
  have hbyte : (UInt8.ofNat (m + 128)).toNat = m + 128 := toNat_ofNat_byte (by omega)
  rw [continueChar, if_pos, hbyte, Nat.add_sub_cancel]
  simp only [Bool.and_eq_true, decide_eq_true_eq, UInt8.le_iff_toNat_le, hbyte]
  exact ⟨hlo, hhi⟩

/-- Where a character goes on, there is a byte that says so. -/
theorem exists_of_continueChar {bits count n : Nat} {lo hi : UInt8} {bytes rest : List UInt8}
    (hlo : 128 ≤ lo.toNat) (hhi : hi.toNat ≤ 191)
    (h : continueChar bits lo hi (count + 1) bytes = (some n, rest)) :
    ∃ m bytes', bytes = .ofNat (m + 128) :: bytes' ∧ m < 64 ∧ lo.toNat ≤ m + 128
      ∧ m + 128 ≤ hi.toNat
      ∧ continueChar (bits * 64 + m) 0x80 0xBF count bytes' = (some n, rest) := by
  cases bytes with
  | nil => cases h
  | cons b bytes =>
    rw [continueChar] at h
    split_ifs at h with hrange
    case neg => simp at h
    simp only [Bool.and_eq_true, decide_eq_true_eq, UInt8.le_iff_toNat_le] at hrange
    refine ⟨b.toNat - 128, bytes, ?_, by omega, by omega, by omega, h⟩
    rw [Nat.sub_add_cancel (by omega), UInt8.ofNat_toNat]

/-! ## One character -/

/-- The next character begins with its first byte. -/
theorem nextChar_leadByte {bits count : Nat} {lo hi : UInt8} (h : FirstByte bits count lo hi)
    (rest : List UInt8) :
    nextChar (leadByte bits count) rest
      = ((continueChar bits lo hi count rest).1.map Char.ofNat,
          (continueChar bits lo hi count rest).2) := by
  rw [nextChar, leadByte?_leadByte h]

/-- **The bytes of a character are read as it**, whatever stands behind them. -/
theorem nextChar_utf8EncodeChar (c : Char) (rest : List UInt8) :
    ∃ b bs, String.utf8EncodeChar c = b :: bs ∧ nextChar b (bs ++ rest) = (some c, rest) := by
  have hvalid := toNat_valid c
  have hnat : c.val.toNat = c.toNat := rfl
  have hchar : Char.ofNat c.toNat = c := Char.ofNat_toNat c
  unfold String.utf8EncodeChar
  simp only [hnat]
  generalize c.toNat = v at hvalid hchar
  -- by the number of bytes; the bits that were cut apart are put together again
  split_ifs with h1 h2 h3
  · refine ⟨_, _, rfl, ?_⟩
    rw [show UInt8.ofNat v = leadByte v 0 from rfl, nextChar_leadByte (.one _ (by omega))]
    simp only [continueChar, Option.map_some, hchar, List.nil_append]
  · refine ⟨_, _, rfl, ?_⟩
    rw [show UInt8.ofNat (v / 64 % 32 + 192) = leadByte (v / 64 % 32) 1 from rfl,
      nextChar_leadByte (.two _ (by omega)), List.singleton_append,
      continueChar_cons (by omega) (by simp) (by simp; omega)]
    have hbits : v / 64 % 32 * 64 + v % 64 = v := by omega
    simp only [continueChar, Option.map_some, hbits, hchar]
  · refine ⟨_, _, rfl, ?_⟩
    rw [show UInt8.ofNat (v / 4096 % 16 + 224) = leadByte (v / 4096 % 16) 2 from rfl,
      nextChar_leadByte (.three _ (by omega)), List.cons_append, List.singleton_append,
      continueChar_cons (by omega) (by split_ifs <;> simp; omega) (by split_ifs <;> simp <;> omega),
      continueChar_cons (by omega) (by simp) (by simp; omega)]
    have hbits : (v / 4096 % 16 * 64 + v / 64 % 64) * 64 + v % 64 = v := by omega
    simp only [continueChar, Option.map_some, hbits, hchar]
  · refine ⟨_, _, rfl, ?_⟩
    rw [show UInt8.ofNat (v / 262144 % 8 + 240) = leadByte (v / 262144 % 8) 3 from rfl,
      nextChar_leadByte (.four _ (by omega)), List.cons_append, List.cons_append,
      List.singleton_append,
      continueChar_cons (by omega) (by split_ifs <;> simp; omega) (by split_ifs <;> simp <;> omega),
      continueChar_cons (by omega) (by simp) (by simp; omega),
      continueChar_cons (by omega) (by simp) (by simp; omega)]
    have hbits : ((v / 262144 % 8 * 64 + v / 4096 % 64) * 64 + v / 64 % 64) * 64 + v % 64 = v := by
      omega
    simp only [continueChar, Option.map_some, hbits, hchar]

theorem utf8EncodeChar_ofNat {n : Nat} (h : n < 0xD800 ∨ 0xDFFF < n ∧ n < 0x110000) :
    String.utf8EncodeChar (Char.ofNat n)
      = if n ≤ 127 then [.ofNat n]
        else if n ≤ 2047 then [.ofNat (n / 64 % 32 + 192), .ofNat (n % 64 + 128)]
        else if n ≤ 65535 then
          [.ofNat (n / 4096 % 16 + 224), .ofNat (n / 64 % 64 + 128), .ofNat (n % 64 + 128)]
        else [.ofNat (n / 262144 % 8 + 240), .ofNat (n / 4096 % 64 + 128),
          .ofNat (n / 64 % 64 + 128), .ofNat (n % 64 + 128)] := by
  have hnat : (Char.ofNat n).val.toNat = n := by
    rw [Char.ofNat, dif_pos h]
    rfl
  unfold String.utf8EncodeChar
  simp only [hnat]

/-- **Bytes that are read as a character are its own.** -/
theorem eq_append_of_nextChar {b : UInt8} {bytes rest : List UInt8} {c : Char}
    (h : nextChar b bytes = (some c, rest)) : b :: bytes = String.utf8EncodeChar c ++ rest := by
  cases hlead : leadByte? b with
  | none =>
    rw [nextChar, hlead] at h
    simp at h
  | some said =>
    obtain ⟨bits, count, lo, hi⟩ := said
    obtain ⟨hfirst, rfl⟩ := firstByte_of_leadByte? hlead
    rw [nextChar_leadByte hfirst] at h
    obtain ⟨hread, hrest⟩ := Prod.mk.inj h
    obtain ⟨n, hn, rfl⟩ := Option.map_eq_some_iff.1 hread
    have hcontinue : continueChar bits lo hi count bytes = (some n, rest) :=
      Prod.ext hn hrest
    clear h hread hn hrest hlead
    cases hfirst with
    | one hbits =>
      cases hcontinue
      rw [utf8EncodeChar_ofNat (.inl (by omega)), if_pos (by omega)]
      rfl
    | two hbits =>
      obtain ⟨m, bytes, rfl, hm, -, -, hcontinue⟩ :=
        exists_of_continueChar (by simp) (by simp) hcontinue
      cases hcontinue
      have hlead : (bits * 64 + m) / 64 % 32 = bits := by omega
      have hlast : (bits * 64 + m) % 64 = m := by omega
      rw [utf8EncodeChar_ofNat (.inl (by omega)), if_neg (by omega), if_pos (by omega), hlead,
        hlast]
      rfl
    | three hbits =>
      obtain ⟨m, bytes, rfl, hm, hlo, hhi, hcontinue⟩ :=
        exists_of_continueChar (by split_ifs <;> simp) (by split_ifs <;> simp) hcontinue
      obtain ⟨k, bytes, rfl, hk, -, -, hcontinue⟩ :=
        exists_of_continueChar (by simp) (by simp) hcontinue
      cases hcontinue
      -- the bounds of the second byte keep out longer spellings and surrogates
      have hleast : bits = 0 → 32 ≤ m := fun h => by
        simp [h] at hlo
        omega
      have hmost : bits = 13 → m < 32 := fun h => by
        simp [h] at hhi
        omega
      have hlead : ((bits * 64 + m) * 64 + k) / 4096 % 16 = bits := by omega
      have hmiddle : ((bits * 64 + m) * 64 + k) / 64 % 64 = m := by omega
      have hlast : ((bits * 64 + m) * 64 + k) % 64 = k := by omega
      rw [utf8EncodeChar_ofNat (by omega), if_neg (by omega), if_neg (by omega),
        if_pos (by omega), hlead, hmiddle, hlast]
      rfl
    | four hbits =>
      obtain ⟨m, bytes, rfl, hm, hlo, hhi, hcontinue⟩ :=
        exists_of_continueChar (by split_ifs <;> simp) (by split_ifs <;> simp) hcontinue
      obtain ⟨k, bytes, rfl, hk, -, -, hcontinue⟩ :=
        exists_of_continueChar (by simp) (by simp) hcontinue
      obtain ⟨j, bytes, rfl, hj, -, -, hcontinue⟩ :=
        exists_of_continueChar (by simp) (by simp) hcontinue
      cases hcontinue
      have hleast : bits = 0 → 16 ≤ m := fun h => by
        simp [h] at hlo
        omega
      have hmost : bits = 4 → m < 16 := fun h => by
        simp [h] at hhi
        omega
      have hlead : (((bits * 64 + m) * 64 + k) * 64 + j) / 262144 % 8 = bits := by omega
      have hsecond : (((bits * 64 + m) * 64 + k) * 64 + j) / 4096 % 64 = m := by omega
      have hthird : (((bits * 64 + m) * 64 + k) * 64 + j) / 64 % 64 = k := by omega
      have hlast : (((bits * 64 + m) * 64 + k) * 64 + j) % 64 = j := by omega
      rw [utf8EncodeChar_ofNat (by omega), if_neg (by omega), if_neg (by omega),
        if_neg (by omega), hlead, hsecond, hthird, hlast]
      rfl

/-! ## Whole texts -/

/-- Bytes are decoded if the first character is and all others are. -/
theorem mapM_decodeFrom_cons (limit : Nat) (b : UInt8) (rest : List UInt8) :
    (decodeFrom [] (limit + 1) (b :: rest)).mapM id
      = (nextChar b rest).1.bind fun c =>
          ((decodeFrom [] limit (nextChar b rest).2).mapM id).map (c :: ·) := by
  show (decodeFrom [(nextChar b rest).1] limit (nextChar b rest).2).mapM id = _
  rw [decodeFrom_eq, List.reverse_singleton, List.singleton_append, List.mapM_cons]
  cases (nextChar b rest).1 with
  | none => rfl
  | some c => cases List.mapM id (decodeFrom [] limit (nextChar b rest).2) <;> rfl

theorem eq_nil_of_flatMap_utf8EncodeChar {cs : List Char}
    (h : cs.flatMap String.utf8EncodeChar = []) : cs = [] := by
  cases cs with
  | nil => rfl
  | cons c cs =>
    obtain ⟨b, bs, hc, -⟩ := nextChar_utf8EncodeChar c []
    rw [List.flatMap_cons, hc] at h
    cases h

/-- As long as the limit is not below the number of bytes, decoding gives the characters whose
bytes these are. -/
theorem mapM_decodeFrom_eq_some_iff {limit : Nat} {bytes : List UInt8} {cs : List Char}
    (hlimit : bytes.length ≤ limit) :
    (decodeFrom [] limit bytes).mapM id = some cs ↔ bytes = cs.flatMap String.utf8EncodeChar := by
  induction limit generalizing bytes cs with
  | zero =>
    cases List.eq_nil_of_length_eq_zero (Nat.le_zero.1 hlimit)
    refine ⟨fun h => ?_, fun h => ?_⟩
    · cases h
      rfl
    · cases eq_nil_of_flatMap_utf8EncodeChar h.symm
      rfl
  | succ limit ih =>
    cases bytes with
    | nil =>
      refine ⟨fun h => ?_, fun h => ?_⟩
      · cases h
        rfl
      · cases eq_nil_of_flatMap_utf8EncodeChar h.symm
        rfl
    | cons b rest =>
      rw [mapM_decodeFrom_cons]
      constructor
      · intro h
        obtain ⟨c, hc, htail⟩ := Option.bind_eq_some_iff.1 h
        obtain ⟨cs, hcs, rfl⟩ := Option.map_eq_some_iff.1 htail
        have hbytes : b :: rest = String.utf8EncodeChar c ++ (nextChar b rest).2 :=
          eq_append_of_nextChar (Prod.ext hc rfl)
        -- a character has a byte at least, so the limit is enough for the rest
        obtain ⟨b', bs, hencode, -⟩ := nextChar_utf8EncodeChar c []
        have hlength := congrArg List.length hbytes
        rw [hencode] at hlength
        simp only [List.length_cons, List.length_append] at hlength hlimit
        rw [List.flatMap_cons, ← (ih (by omega)).1 hcs]
        exact hbytes
      · intro h
        cases cs with
        | nil => cases h
        | cons c cs =>
          obtain ⟨b', bs, hencode, hnext⟩ :=
            nextChar_utf8EncodeChar c (cs.flatMap String.utf8EncodeChar)
          rw [List.flatMap_cons, hencode, List.cons_append] at h
          cases h
          simp only [List.length_cons, List.length_append] at hlimit
          rw [hnext, Option.bind_some, (ih (by omega)).2 rfl, Option.map_some]

/-- **Bytes decode to a text exactly if they are its bytes.** -/
theorem decode?_eq_some_iff {bytes : List UInt8} {s : String} :
    decode? bytes = some s ↔ bytes = encode s := by
  rw [decode?, Option.map_eq_some_iff]
  constructor
  · rintro ⟨cs, hcs, rfl⟩
    rw [encode_ofList]
    exact (mapM_decodeFrom_eq_some_iff le_rfl).1 hcs
  · intro h
    refine ⟨s.toList, (mapM_decodeFrom_eq_some_iff le_rfl).2 ?_, String.ofList_toList⟩
    rw [h, ← encode_ofList, String.ofList_toList]

/-- **The text of a file** is the one whose bytes it holds, with its line ends unified. -/
theorem ofFile?_eq_some_iff {bytes : List UInt8} {text : String} :
    ofFile? bytes = some text
      ↔ ∃ s, bytes = encode s ∧ text = .ofList (unifyLineEnds [] s.toList) := by
  rw [ofFile?, Option.map_eq_some_iff]
  exact exists_congr fun s => and_congr decode?_eq_some_iff eq_comm

end ComponentCatalog.Text
