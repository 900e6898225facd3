import ComponentCatalog.Proofs.Utf8
import ComponentCatalog.Proofs.JsonGrammar
import ComponentCatalog.Proofs.Listing

/-!
# What is found in source maps

A source map is asked for as a whole, for the content at a place, or for the file name at a place.
This module says for every disk and every path which of these there are, by what stands in the
file: the bytes have to be those of a text, the text a JSON object, the last member with the key a
list, and its item at the place a string that is not empty. An item that is something else keeps
its place, so names and contents at one place belong together.

Everything that is missing is an answer, with two exceptions (`Breaks`). A path with the character
that ends names cannot be looked up, and an integer can be too long to be read, in a text that
is JSON up to there and may be JSON altogether. In both cases there is no answer at all.
-/

namespace ComponentCatalog.SourceMap

open Text Json

/-! ## Files with texts -/

/-- **The text in a file**: its bytes are those of a text, of which the line ends are unified. -/
def TextIn (d : Disk) (path : Path) (text : String) : Prop :=
  ∃ s, d.readFile path = .ok (encode s) ∧ text = .ofList (unifyLineEnds [] s.toList)

/-- A file holds a text if its bytes decode to it. -/
theorem textIn_iff {d : Disk} {path : Path} {text : String} :
    TextIn d path text ↔ ∃ bytes, d.readFile path = .ok bytes ∧ ofFile? bytes = some text := by
  constructor
  · rintro ⟨s, hread, htext⟩
    exact ⟨encode s, hread, ofFile?_eq_some_iff.2 ⟨s, rfl, htext⟩⟩
  · rintro ⟨bytes, hread, hfile⟩
    obtain ⟨s, rfl, htext⟩ := ofFile?_eq_some_iff.1 hfile
    exact ⟨s, hread, htext⟩

theorem TextIn.unique {d : Disk} {path : Path} {text text' : String} (h : TextIn d path text)
    (h' : TextIn d path text') : text = text' := by
  obtain ⟨bytes, hread, hfile⟩ := textIn_iff.1 h
  obtain ⟨bytes', hread', hfile'⟩ := textIn_iff.1 h'
  obtain rfl := Except.ok.inj (hread.symm.trans hread')
  exact Option.some.inj (hfile.symm.trans hfile')

/-! ## What is there -/

/-- **Why there is no answer.** -/
inductive Breaks (d : Disk) (path : Path) : Fault → Prop
  | zeroCharacter (h : Disk.hasZero (d.fullParts path) = true) :
      Breaks d path (.badPath .zeroCharacter)
  | oversized {text : String} (h : TextIn d path text) (hlong : StumblesIn text) :
      Breaks d path .oversizedNumber

/-- The items of the list that the last member with a key is; none if it is not a list. -/
def itemsOf (ms : List (Wide × Json)) (key : String) : List Json :=
  match lastValue? ms key with
  | some (.array items) => items
  | _ => []

/-- The source map with the given members. -/
def ofMembers (ms : List (Wide × Json)) : SourceMap :=
  { names := (itemsOf ms "sources").map fun v => (text? v).getD ⟨[]⟩
    contents := (itemsOf ms "sourcesContent").map text? }

/-- **The source map in a file.** -/
def IsMap (d : Disk) (path : Path) (m : SourceMap) : Prop :=
  ∃ text ms, TextIn d path text ∧ IsObject text ms ∧ m = ofMembers ms

/-- **A text at a place of a source map**, in the list with the given key. -/
def IsTextAt (d : Disk) (path : Path) (key : String) (index : Int) (t : Wide) : Prop :=
  ∃ text ms items, TextIn d path text ∧ IsObject text ms
    ∧ lastValue? ms key = some (.array items)
    ∧ 0 ≤ index ∧ index < items.length ∧ items[index.toNat]? = some (.string t)
    ∧ t.isEmpty = false

/-- **The answer to a question about something that may be missing.** -/
structure Answers {α : Type} (r : Except Fault (Option α)) (breaks : Fault → Prop)
    (found : α → Prop) : Prop where
  error_iff : ∀ f, r = .error f ↔ breaks f
  some_iff : ∀ a, r = .ok (some a) ↔ (∀ f, ¬breaks f) ∧ found a
  none_iff : r = .ok none ↔ (∀ f, ¬breaks f) ∧ ∀ a, ¬found a

/-! ## Reading a map -/

theorem ofJson_object (ms : List (Wide × Json)) :
    ofJson (.object (fieldsOf ms)) = ofMembers ms := by
  have hlist (key : String) : listAt (.object (fieldsOf ms)) key = itemsOf ms key := by
    rw [listAt, field?_fieldsOf]
    rfl
  rw [ofJson, hlist, hlist]
  rfl

/-- **When bytes are a map**: they are a text of an object, without numbers of too many digits. -/
theorem ofBytes_eq_ok_iff {path : String} {bytes : List UInt8} {m : SourceMap} :
    ofBytes path bytes = .ok m
      ↔ ∃ text ms, ofFile? bytes = some text ∧ ¬StumblesIn text ∧ IsObject text ms
        ∧ m = ofMembers ms := by
  unfold ofBytes
  cases hfile : ofFile? bytes with
  | none => exact ⟨nofun, by rintro ⟨text, ms, htext, -⟩; cases htext⟩
  | some text =>
    dsimp only
    constructor
    · intro h
      split at h <;> cases h
      next fields hread =>
      have hnot : ¬StumblesIn text := fun hlong => by
        rw [read_eq_tooManyDigits_iff.2 hlong] at hread
        cases hread
      obtain ⟨ms, hms, rfl⟩ := isJson_object_iff.1 ((read_eq_ok_iff_isJson hnot).1 hread)
      exact ⟨text, ms, rfl, hnot, hms, ofJson_object ms⟩
    · rintro ⟨text', ms, htext, hnot, hms, rfl⟩
      cases htext
      rw [(read_eq_ok_iff_isJson hnot).2 (isJson_object_iff.2 ⟨ms, hms, rfl⟩)]
      exact congrArg _ (ofJson_object ms)

/-- Bytes fail for a number of too many digits only. -/
theorem ofBytes_fault_iff {path : String} {bytes : List UInt8} {f : Fault} :
    (∃ p, ofBytes path bytes = .error p ∧ p.fault? = some f)
      ↔ f = .oversizedNumber ∧ ∃ text, ofFile? bytes = some text ∧ StumblesIn text := by
  unfold ofBytes
  cases hfile : ofFile? bytes with
  | none =>
    constructor
    · rintro ⟨p, h, hf⟩
      cases h
      cases hf
    · rintro ⟨-, text, htext, -⟩
      cases htext
  | some text =>
    dsimp only
    constructor
    · rintro ⟨p, h, hf⟩
      split at h <;> cases h <;> cases hf
      next hread => exact ⟨rfl, text, rfl, read_eq_tooManyDigits_iff.1 hread⟩
    · rintro ⟨rfl, text', htext, hlong⟩
      cases htext
      rw [read_eq_tooManyDigits_iff.2 hlong]
      exact ⟨.oversized, rfl, rfl⟩

theorem load_of_readFile {d : Disk} {path : Path} {bytes : List UInt8}
    (h : d.readFile path = .ok bytes) : load d path = ofBytes path.toString bytes := by
  rw [load, h]

/-- No answer to the question what stands in a file that can be read is for an integer. -/
theorem breaks_iff_of_readFile {d : Disk} {path : Path} {bytes : List UInt8}
    (h : d.readFile path = .ok bytes) {f : Fault} :
    Breaks d path f
      ↔ f = .oversizedNumber ∧ ∃ text, ofFile? bytes = some text ∧ StumblesIn text := by
  constructor
  · rintro (hzero | ⟨htext, hlong⟩)
    · rw [← Disk.readFile_eq_zeroCharacter_iff, h] at hzero
      cases hzero
    · obtain ⟨bytes', hread, hfile⟩ := textIn_iff.1 htext
      obtain rfl := Except.ok.inj (h.symm.trans hread)
      exact ⟨rfl, _, hfile, hlong⟩
  · rintro ⟨rfl, text, hfile, hlong⟩
    exact .oversized (textIn_iff.2 ⟨bytes, h, hfile⟩) hlong

/-- A file that cannot be read has no text in it. -/
theorem breaks_iff_of_readFile_error {d : Disk} {path : Path} {e : PathFault}
    (h : d.readFile path = .error e) {f : Fault} :
    Breaks d path f ↔ f = .badPath .zeroCharacter ∧ e = .zeroCharacter := by
  constructor
  · rintro (hzero | ⟨htext, -⟩)
    · rw [← Disk.readFile_eq_zeroCharacter_iff, h] at hzero
      exact ⟨rfl, Except.error.inj hzero⟩
    · obtain ⟨bytes, hread, -⟩ := textIn_iff.1 htext
      rw [h] at hread
      cases hread
  · rintro ⟨rfl, rfl⟩
    exact .zeroCharacter (Disk.readFile_eq_zeroCharacter_iff.1 h)

/-- **A source map is read exactly if there is one**, and nothing breaks off the reading. -/
theorem load_eq_ok_iff {d : Disk} {path : Path} {m : SourceMap} :
    load d path = .ok m ↔ (∀ f, ¬Breaks d path f) ∧ IsMap d path m := by
  cases h : d.readFile path with
  | error e =>
    constructor
    · intro hload
      rw [load, h] at hload
      cases e <;> cases hload
    · rintro ⟨-, text, ms, htext, -⟩
      obtain ⟨bytes, hread, -⟩ := textIn_iff.1 htext
      rw [h] at hread
      cases hread
  | ok bytes =>
    rw [load_of_readFile h, ofBytes_eq_ok_iff]
    constructor
    · rintro ⟨text, ms, hfile, hnot, hms, rfl⟩
      refine ⟨fun f hbreaks => ?_, text, ms, textIn_iff.2 ⟨bytes, h, hfile⟩, hms, rfl⟩
      obtain ⟨-, text', hfile', hlong⟩ := (breaks_iff_of_readFile h).1 hbreaks
      rw [hfile] at hfile'
      exact hnot (Option.some.inj hfile' ▸ hlong)
    · rintro ⟨hbreaks, text, ms, htext, hms, rfl⟩
      obtain ⟨bytes', hread, hfile⟩ := textIn_iff.1 htext
      obtain rfl := Except.ok.inj (h.symm.trans hread)
      exact ⟨text, ms, hfile, fun hlong => hbreaks _ (.oversized htext hlong), hms, rfl⟩

/-- A map that cannot be loaded breaks for the reasons there are. -/
theorem load_fault_iff {d : Disk} {path : Path} {f : Fault} :
    (∃ p, load d path = .error p ∧ p.fault? = some f) ↔ Breaks d path f := by
  cases h : d.readFile path with
  | error e =>
    rw [breaks_iff_of_readFile_error h]
    by_cases he : e = .zeroCharacter
    · obtain rfl := he
      rw [load, h]
      constructor
      · rintro ⟨p, hp, hf⟩
        cases hp
        cases hf
        exact ⟨rfl, rfl⟩
      · rintro ⟨rfl, -⟩
        exact ⟨.zeroCharacter, rfl, rfl⟩
    · rw [load_of_error h he]
      constructor
      · rintro ⟨p, hp, hf⟩
        cases hp
        cases hf
      · rintro ⟨-, rfl⟩
        exact absurd rfl he
  | ok bytes => rw [load_of_readFile h, ofBytes_fault_iff, breaks_iff_of_readFile h]

/-! ## Going on without -/

section OrNote

variable {α : Type}

/-- Only faults end a computation. -/
theorem result_orNote_eq_error_iff {r : Except Shortfall α} {s : Session} {f : Fault} :
    (orNote r).result s = .error f ↔ ∃ short, r = .error short ∧ short.fault? = some f := by
  cases r with
  | ok a => exact ⟨nofun, by rintro ⟨short, h, -⟩; cases h⟩
  | error short =>
    cases hfault : short.fault? with
    | some f' =>
      have hresult : (orNote (.error short : Except _ α)).result s = .error f' := by
        unfold orNote
        simp only [hfault]
        rfl
      rw [hresult]
      constructor
      · rintro h
        cases h
        exact ⟨short, rfl, hfault⟩
      · rintro ⟨short', h, hf⟩
        cases h
        exact congrArg _ (Option.some.inj (hfault.symm.trans hf))
    | none =>
      have hresult : (orNote (.error short : Except _ α)).result s = .ok none := by
        unfold orNote
        simp only [hfault]
        cases short.message? <;> rfl
      rw [hresult]
      constructor
      · rintro h
        cases h
      · rintro ⟨short', h, hf⟩
        cases h
        rw [hfault] at hf
        cases hf

/-- There is an answer exactly if nothing is missing. -/
theorem result_orNote_eq_some_iff {r : Except Shortfall α} {s : Session} {a : α} :
    (orNote r).result s = .ok (some a) ↔ r = .ok a := by
  cases r with
  | ok b =>
    constructor
    · intro h
      cases h
      rfl
    · intro h
      cases h
      rfl
  | error short =>
    refine ⟨fun h => ?_, nofun⟩
    unfold orNote at h
    dsimp only at h
    split at h <;> cases h

/-- What is noted and gone on without is missing. -/
theorem answers_orNote {r : Except Shortfall α} {breaks : Fault → Prop} {found : α → Prop}
    (s : Session) (hok : ∀ a, r = .ok a ↔ (∀ f, ¬breaks f) ∧ found a)
    (herror : ∀ f, (∃ short, r = .error short ∧ short.fault? = some f) ↔ breaks f) :
    Answers ((orNote r).result s) breaks found := by
  have hbreaks (f : Fault) : (orNote r).result s = .error f ↔ breaks f :=
    result_orNote_eq_error_iff.trans (herror f)
  have hfound (a : α) : (orNote r).result s = .ok (some a) ↔ (∀ f, ¬breaks f) ∧ found a :=
    result_orNote_eq_some_iff.trans (hok a)
  refine ⟨hbreaks, hfound, ?_⟩
  rcases hresult : (orNote r).result s with f | _ | a
  · exact ⟨nofun, fun h => absurd ((hbreaks f).1 hresult) (h.1 f)⟩
  · have hgoes (f : Fault) (hf : breaks f) : False := by
      rw [(hbreaks f).2 hf] at hresult
      cases hresult
    refine ⟨fun _ => ⟨hgoes, fun a ha => ?_⟩, fun _ => rfl⟩
    rw [(hfound a).2 ⟨hgoes, ha⟩] at hresult
    cases hresult
  · exact ⟨nofun, fun h => absurd ((hfound a).1 hresult).2 (h.2 a)⟩

end OrNote

/-! ## Texts at places -/

/-- An item at an index that is not negative. -/
theorem itemAt?_eq_some_iff {β : Type} {items : List β} {index : Int} {b : β} :
    itemAt? items index = some b ↔ 0 ≤ index ∧ items[index.toNat]? = some b := by
  rw [itemAt?]
  split_ifs with h
  · exact ⟨nofun, fun hb => absurd h (Int.not_lt.2 hb.1)⟩
  · exact ⟨fun hb => ⟨Int.not_lt.1 h, hb⟩, fun hb => hb.2⟩

theorem text?_eq_some_iff {v : Json} {t : Wide} : text? v = some t ↔ v = .string t := by
  cases v <;> simp [text?]

theorem itemAt?_map {β γ : Type} (g : β → γ) (items : List β) (index : Int) :
    itemAt? (items.map g) index = (itemAt? items index).map g := by
  rw [itemAt?, itemAt?]
  split_ifs
  · rfl
  · exact List.getElem?_map

theorem itemAt?_eq_none_of_isEmpty {β : Type} {items : List β} (h : items.isEmpty = true)
    (index : Int) : itemAt? items index = none := by
  rw [List.isEmpty_iff.1 h, itemAt?]
  split_ifs <;> rfl

/-- A map holds a source at an index if the item there is a text and not empty. -/
theorem contentIn_eq_ok_iff {m : SourceMap} {path : String} {index : Int} {t : Wide} :
    m.contentIn path index = .ok t
      ↔ itemAt? m.contents index = some (some t) ∧ t.isEmpty = false := by
  unfold contentIn
  split_ifs with hempty
  · rw [itemAt?_eq_none_of_isEmpty hempty]
    exact ⟨nofun, nofun⟩
  · rcases itemAt? m.contents index with _ | _ | u
    · exact ⟨nofun, nofun⟩
    · exact ⟨nofun, nofun⟩
    · cases hu : u.isEmpty with
      | true =>
        simp only [Option.filter_some, hu, Bool.not_true, Bool.false_eq_true, if_false]
        refine ⟨nofun, ?_⟩
        rintro ⟨heq, ht⟩
        cases heq
        rw [hu] at ht
        cases ht
      | false =>
        simp only [Option.filter_some, hu, Bool.not_false, if_true]
        constructor
        · intro h
          cases h
          exact ⟨rfl, hu⟩
        · rintro ⟨h, -⟩
          cases h
          rfl

/-- A map holds a name at an index if the item there is not empty. -/
theorem nameIn_eq_ok_iff {m : SourceMap} {path : String} {index : Int} {t : Wide} :
    m.nameIn path index = .ok t ↔ itemAt? m.names index = some t ∧ t.isEmpty = false := by
  unfold nameIn
  split_ifs with hempty
  · rw [itemAt?_eq_none_of_isEmpty hempty]
    exact ⟨nofun, nofun⟩
  · cases itemAt? m.names index with
    | none => exact ⟨nofun, nofun⟩
    | some u =>
      dsimp only
      split_ifs with hu
      · refine ⟨nofun, ?_⟩
        rintro ⟨heq, ht⟩
        cases heq
        rw [hu] at ht
        cases ht
      · constructor
        · intro h
          cases h
          exact ⟨rfl, Bool.eq_false_iff.2 hu⟩
        · rintro ⟨h, -⟩
          cases h
          rfl

/-- A text stands at a place of the list with a key if it is an item there and not empty. -/
theorem isTextAt_iff {d : Disk} {path : Path} {key : String} {index : Int} {t : Wide} :
    IsTextAt d path key index t
      ↔ ∃ text ms, TextIn d path text ∧ IsObject text ms
        ∧ itemAt? (itemsOf ms key) index = some (.string t) ∧ t.isEmpty = false := by
  constructor
  · rintro ⟨text, ms, items, htext, hms, hitems, hindex, -, hitem, ht⟩
    refine ⟨text, ms, htext, hms, itemAt?_eq_some_iff.2 ⟨hindex, ?_⟩, ht⟩
    rwa [itemsOf, hitems]
  · rintro ⟨text, ms, htext, hms, hitem, ht⟩
    obtain ⟨hindex, hitem⟩ := itemAt?_eq_some_iff.1 hitem
    unfold itemsOf at hitem
    split at hitem
    · next items hitems =>
      obtain ⟨hlt, -⟩ := List.getElem?_eq_some_iff.1 hitem
      exact ⟨text, ms, items, htext, hms, hitems, hindex, by omega, hitem, ht⟩
    · cases hitem

/-- The source at an index in terms of the members of the object. -/
theorem contentIn_ofMembers {ms : List (Wide × Json)} {path : String} {index : Int} {t : Wide} :
    (ofMembers ms).contentIn path index = .ok t
      ↔ itemAt? (itemsOf ms "sourcesContent") index = some (.string t) ∧ t.isEmpty = false := by
  rw [contentIn_eq_ok_iff, ofMembers, itemAt?_map]
  refine and_congr_left fun _ => ?_
  rw [Option.map_eq_some_iff]
  constructor
  · rintro ⟨v, hv, htext⟩
    rwa [text?_eq_some_iff.1 htext] at hv
  · exact fun hv => ⟨_, hv, rfl⟩

/-- An item that is no string counts as an empty name, so no name is found there. -/
theorem nameIn_ofMembers {ms : List (Wide × Json)} {path : String} {index : Int} {t : Wide} :
    (ofMembers ms).nameIn path index = .ok t
      ↔ itemAt? (itemsOf ms "sources") index = some (.string t) ∧ t.isEmpty = false := by
  rw [nameIn_eq_ok_iff, ofMembers, itemAt?_map]
  refine and_congr_left fun ht => ?_
  rw [Option.map_eq_some_iff]
  constructor
  · rintro ⟨v, hv, htext⟩
    cases hcase : text? v with
    | none =>
      rw [hcase] at htext
      cases htext
      cases ht
    | some u =>
      rw [hcase] at htext
      cases htext
      rwa [text?_eq_some_iff.1 hcase] at hv
  · exact fun hv => ⟨_, hv, rfl⟩

/-- A source that is missing is no fault. -/
theorem fault?_contentIn {m : SourceMap} {path : String} {index : Int} {short : Shortfall}
    (h : m.contentIn path index = .error short) : short.fault? = none := by
  unfold contentIn at h
  split_ifs at h
  · cases h
    rfl
  · split at h
    · cases h
      rfl
    · split at h <;> cases h
      rfl

theorem fault?_nameIn {m : SourceMap} {path : String} {index : Int} {short : Shortfall}
    (h : m.nameIn path index = .error short) : short.fault? = none := by
  unfold nameIn at h
  split_ifs at h
  · cases h
    rfl
  · split at h
    · cases h
      rfl
    · split_ifs at h
      cases h
      rfl

theorem contentAt_eq_bind (d : Disk) (path : Path) (index : Int) :
    contentAt d path index
      = ((load d path).mapError .problem).bind (contentIn · path.toString index) := by
  unfold contentAt
  cases load d path <;> rfl

theorem nameAt_eq_bind (d : Disk) (path : Path) (index : Int) :
    nameAt d path index
      = ((load d path).mapError .problem).bind (nameIn · path.toString index) := by
  unfold nameAt
  cases load d path <;> rfl

/-- A map is loaded exactly if it is one and nothing breaks. -/
theorem mapError_load_eq_ok_iff {d : Disk} {path : Path} {m : SourceMap} :
    (load d path).mapError Shortfall.problem = .ok m
      ↔ (∀ f, ¬Breaks d path f) ∧ IsMap d path m := by
  rw [← load_eq_ok_iff]
  cases load d path with
  | error p => exact ⟨nofun, nofun⟩
  | ok m' => exact ⟨fun h => congrArg _ (Except.ok.inj h), fun h => congrArg _ (Except.ok.inj h)⟩

theorem mapError_load_fault_iff {d : Disk} {path : Path} {f : Fault} :
    (∃ short, (load d path).mapError Shortfall.problem = .error short ∧ short.fault? = some f)
      ↔ Breaks d path f := by
  rw [← load_fault_iff]
  cases load d path with
  | error p =>
    constructor
    · rintro ⟨short, h, hf⟩
      cases h
      exact ⟨p, rfl, hf⟩
    · rintro ⟨p', h, hf⟩
      cases h
      exact ⟨.problem p, rfl, hf⟩
  | ok m => exact ⟨fun ⟨_, h, _⟩ => (nomatch h), fun ⟨_, h, _⟩ => (nomatch h)⟩

/-- **A question about a place is one about the map.** What a map does not hold is no fault. -/
theorem answers_bind_load {d : Disk} {path : Path} {key : String} {index : Int}
    {ask : SourceMap → Except Shortfall Wide} (s : Session)
    (hok : ∀ ms t, ask (ofMembers ms) = .ok t
      ↔ itemAt? (itemsOf ms key) index = some (.string t) ∧ t.isEmpty = false)
    (hfault : ∀ m short, ask m = .error short → short.fault? = none) :
    Answers ((orNote (((load d path).mapError .problem).bind ask)).result s) (Breaks d path)
      (IsTextAt d path key index) := by
  refine answers_orNote s (fun t => ?_) fun f => ?_
  · rw [isTextAt_iff]
    constructor
    · intro h
      cases hload : (load d path).mapError Shortfall.problem with
      | error short =>
        rw [hload] at h
        cases h
      | ok m =>
        rw [hload] at h
        obtain ⟨hgoes, text, ms, htext, hms, rfl⟩ := mapError_load_eq_ok_iff.1 hload
        exact ⟨hgoes, text, ms, htext, hms, (hok ms t).1 h⟩
    · rintro ⟨hgoes, text, ms, htext, hms, hitem⟩
      rw [mapError_load_eq_ok_iff.2 ⟨hgoes, text, ms, htext, hms, rfl⟩]
      exact (hok ms t).2 hitem
  · rw [← mapError_load_fault_iff]
    cases hload : (load d path).mapError Shortfall.problem with
    | error short => simp [Except.bind]
    | ok m =>
      constructor
      · rintro ⟨short, h, hf⟩
        rw [hfault m short h] at hf
        cases hf
      · rintro ⟨short, h, -⟩
        cases h

/-- **The source at an index of a map**, in whichever session. -/
theorem answers_content? (d : Disk) (path : Path) (index : Int) (s : Session) :
    Answers ((content? d path index).result s) (Breaks d path)
      (IsTextAt d path "sourcesContent" index) := by
  rw [content?, contentAt_eq_bind]
  exact answers_bind_load s (fun _ _ => contentIn_ofMembers) fun _ _ => fault?_contentIn

/-- **Its name**, in whichever session. -/
theorem answers_name? (d : Disk) (path : Path) (index : Int) (s : Session) :
    Answers ((name? d path index).result s) (Breaks d path) (IsTextAt d path "sources" index) := by
  rw [name?, nameAt_eq_bind]
  exact answers_bind_load s (fun _ _ => nameIn_ofMembers) fun _ _ => fault?_nameIn

/-- **What is found in source maps.** On every disk, for every path and every place, a source map,
the content at the place and the file name at the place are found exactly if they are there; all
that is missing is answered with nothing; and there is no answer only for a path with the
character that ends names and for a text with an integer that is too long. -/
theorem sourceMap_answers (d : Disk) (path : Path) (s : Session) :
    Answers ((map? d path).result s) (Breaks d path) (IsMap d path)
      ∧ ∀ index : Int,
        Answers ((content? d path index).result s) (Breaks d path)
            (IsTextAt d path "sourcesContent" index)
          ∧ Answers ((name? d path index).result s) (Breaks d path)
            (IsTextAt d path "sources" index) :=
  ⟨answers_orNote s (fun _ => mapError_load_eq_ok_iff) fun _ => mapError_load_fault_iff,
    fun index => ⟨answers_content? d path index s, answers_name? d path index s⟩⟩

/-! ## An integer that is too long -/

/-- A source map whose version has a number of digits. -/
def versioned (count : Nat) : List Char :=
  '\x7b' :: '"' :: ("version\":".toList ++ (List.replicate count '1'
    ++ ",\"sourcesContent\":[\"x\"]\x7d".toList))

/-- A disk with one file. -/
def holding (text : List Char) : Disk :=
  { tree := .directory [("a.props.js.map", .file (encode (.ofList text)))]
    cwd := .ofString "/"
    home := .ofString "/" }

theorem allWritten_versioned (count : Nat) : AllWritten (versioned count) := by
  have hdigits : AllWritten (List.replicate count '1') := by
    intro c hc
    obtain ⟨-, rfl⟩ := List.mem_replicate.1 hc
    decide
  rw [versioned, allWritten_cons, allWritten_cons, allWritten_append, allWritten_append]
  exact ⟨by decide, by decide, by decide, hdigits, by decide⟩

theorem textIn_holding {text : List Char} (h : AllWritten text) :
    TextIn (holding text) (.ofString "a.props.js.map") (.ofList text) :=
  textIn_iff.2 ⟨encode (.ofList text), rfl, ofFile?_written h⟩

theorem isNumber_ones {count : Nat} (hcount : 0 < count) :
    IsNumber [] (List.replicate count '1') [] [] := by
  refine ⟨.inl rfl, .inr ⟨⟨?_, fun d hd => ?_⟩, ?_⟩, .inl rfl, .inl rfl⟩
  · exact List.ne_nil_of_length_pos (by rwa [List.length_replicate])
  · obtain ⟨-, rfl⟩ := List.mem_replicate.1 hd
    rfl
  · rw [List.head?_replicate, if_neg (Nat.ne_of_gt hcount)]
    decide

theorem blanks_ofList (cs : List Char) : Blanks (String.ofList cs).toList cs := by
  rw [String.toList_ofList]
  exact .refl cs

theorem units_version (rest : List Char) :
    ∃ us, Units ("version\":".toList ++ rest) us (':' :: rest)
      ∧ Wide.ofString "version" = ⟨joinPairs us⟩ :=
  readString_eq_ok_iff.1 rfl

/-- The members of such a map are spelled, however many digits there are. -/
theorem isObject_versioned {count : Nat} (hcount : 0 < count) :
    IsObject (.ofList (versioned count))
      [(.ofString "version", .number (.ofList (List.replicate count '1'))),
        (.ofString "sourcesContent", .array [.string (.ofString "x")])] := by
  have hnumber (rest : List Char) : Spells (fun _ => True) (List.replicate count '1' ++ rest)
      (.value (.number (.ofList (List.replicate count '1')))) rest := by
    have h : Spells (fun _ => True) _ _ _ :=
      .number (isNumber_ones hcount) (fun _ _ => trivial) rest
    rwa [List.append_nil, List.append_nil, List.nil_append] at h
  have harray : Spells (· ≤ digitLimit) "[\"x\"]\x7d".toList
      (.value (.array [.string (.ofString "x")])) ['\x7d'] :=
    (justified_read 9).1 "[\"x\"]\x7d".toList
  obtain ⟨us, hus, hversion⟩ := units_version
    (List.replicate count '1' ++ ",\"sourcesContent\":[\"x\"]\x7d".toList)
  have hkey : ∃ us, Units "sourcesContent\":[\"x\"]\x7d".toList us ":[\"x\"]\x7d".toList
      ∧ Wide.ofString "sourcesContent" = ⟨joinPairs us⟩ := readString_eq_ok_iff.1 rfl
  obtain ⟨us', hus', hcontents⟩ := hkey
  rw [hversion, hcontents]
  refine ⟨_, [], blanks_ofList _, .refl _, .inr ⟨_, .refl _, ?_⟩⟩
  exact .member hus (.refl _) (.refl _) (hnumber _) (.refl _) (.refl _)
    (.lastMember hus' (.refl _) (.refl _) (harray.mono fun _ _ => trivial) (.refl _))

/-- A version with too many digits cannot be read. -/
theorem stumblesIn_versioned {count : Nat} (hcount : digitLimit < count) :
    StumblesIn (.ofList (versioned count)) := by
  have hlong : digitLimit < (List.replicate count '1').length := by
    rwa [List.length_replicate]
  obtain ⟨us, hus, -⟩ := units_version
    (List.replicate count '1' ++ ",\"sourcesContent\":[\"x\"]\x7d".toList)
  refine ⟨versioned count, blanks_ofList _, .object (.refl _) ?_⟩
  refine .member hus (.refl _) (.refl _) (.number ?_)
  exact (isNumber_ones (Nat.zero_lt_of_lt hcount)).overlong hlong (endsNumber_cons (by decide) _)

/-- **A content that is there is not found** in a map whose version is an integer that is too
long. -/
theorem overlongVersion_hides_content :
    IsTextAt (holding (versioned 4301)) (.ofString "a.props.js.map") "sourcesContent" 0
        (.ofString "x")
      ∧ (content? (holding (versioned 4301)) (.ofString "a.props.js.map") 0).result {}
        = .error .oversizedNumber := by
  have htext := textIn_holding (allWritten_versioned 4301)
  refine ⟨⟨_, _, _, htext, isObject_versioned (by decide), rfl, by decide, by decide, rfl, rfl⟩, ?_⟩
  exact ((answers_content? _ _ _ _).error_iff _).2
    (.oversized htext (stumblesIn_versioned (by decide)))

end ComponentCatalog.SourceMap
