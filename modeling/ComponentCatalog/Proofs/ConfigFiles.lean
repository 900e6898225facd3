import ComponentCatalog.Config.Load
import ComponentCatalog.Proofs.SourceMaps
import ComponentCatalog.Proofs.YamlFaults

/-!
# Which files are configurations

A file that exists is read as a text, the text as a YAML value, and the value as a configuration.
`load_existing_file` says when that succeeds, when it is refused with a message, and what else can
happen. A message is only there for a text that is malformed and for a root that is neither a
mapping nor counts as nothing. An empty list, an empty text, zero and false count as nothing, so
they pass for an empty configuration, as does every blank text.

Three things are faults without a message (`Escapes`): bytes that are those of no text, a text that
stumbles (`Yaml.Value.Stumbles`), mostly over a part that is not what its tag says, and a whole
number that has to be shown and has too many digits (`Yaml.Value.TooLong`).
-/

namespace ComponentCatalog

open Text

/-! ## Numbers that are too long to be shown -/

namespace Yaml.Value

/-- **A part of a value**: the value itself, and what its items, keys and values consist of. -/
inductive IsPart : Value → Value → Prop
  | self (v : Value) : IsPart v v
  | item {u w : Value} {items : List Value} (hw : w ∈ items) (hu : IsPart u w) :
      IsPart u (.list items)
  | key {u k w : Value} {pairs : List (Value × Value)} (hk : (k, w) ∈ pairs) (hu : IsPart u k) :
      IsPart u (.mapping pairs)
  | value {u k w : Value} {pairs : List (Value × Value)} (hw : (k, w) ∈ pairs)
      (hu : IsPart u w) : IsPart u (.mapping pairs)

/-- A part of a part is a part. -/
theorem IsPart.trans {u v w : Value} (hu : u.IsPart v) (hv : v.IsPart w) : u.IsPart w := by
  induction hv with
  | self => exact hu
  | item hw _ ih => exact .item hw ih
  | key hk _ ih => exact .key hk ih
  | value hw _ ih => exact .value hw ih

/-- The pairs of a value are parts of it. -/
theorem isPart_of_mem_pairs {v : Value} {e : Value × Value} (he : e ∈ v.pairs) :
    e.1.IsPart v ∧ e.2.IsPart v := by
  cases v with
  | mapping pairs => exact ⟨.key he (.self _), .value he (.self _)⟩
  | _ => exact absurd he List.not_mem_nil

/-- The value of a key is a part. -/
theorem isPart_of_get? {v w : Value} {key : String} (h : v.get? key = some w) : w.IsPart v := by
  obtain ⟨e, he, rfl⟩ := Option.map_eq_some_iff.1 h
  exact (isPart_of_mem_pairs (List.mem_of_find?_eq_some he)).2

/-- **A whole number in a value has too many digits to be shown.** -/
def TooLong (v : Value) (f : Fault) : Prop :=
  f = .outOfRange ∧ ∃ n : Int, (Value.int n).IsPart v ∧
    digitLimit < (Nat.toDigits 10 n.natAbs).length

/-- **Something that a value is made into**, which fails only for a number that is too long. -/
def Makes {α : Type} (v : Value) (r : Except Fault α) : Prop :=
  Outcome (fun _ => True) v.TooLong r

section Makes

variable {α β : Type} {v w : Value}

theorem Makes.pure (a : α) : v.Makes (Pure.pure a : Except Fault α) :=
  trivial

/-- Settings are made one after the other. -/
theorem Makes.bind {r : Except Fault α} {k : α → Except Fault β} (hr : v.Makes r)
    (hk : ∀ a, v.Makes (k a)) : v.Makes (r >>= k) :=
  Outcome.bind hr fun a _ => hk a

theorem Makes.map {r : Except Fault α} (hr : v.Makes r) (g : α → β) : v.Makes (r.map g) :=
  Outcome.map hr fun _ _ => trivial

theorem Makes.ite {p : Prop} [Decidable p] {r r' : Except Fault α} (h : v.Makes r)
    (h' : v.Makes r') : v.Makes (if p then r else r') :=
  Outcome.ite h h'

theorem Makes.mapM {f : α → Except Fault β} {l : List α} (h : ∀ a ∈ l, v.Makes (f a)) :
    v.Makes (l.mapM f) :=
  (Outcome.mapM _ h).imp (fun _ _ => trivial) fun _ hf => hf

/-- Settings are made along a list, each with what has been made so far. -/
theorem Makes.foldlM {f : β → α → Except Fault β} {l : List α}
    (h : ∀ b, ∀ a ∈ l, v.Makes (f b a)) (b : β) : v.Makes (l.foldlM f b) :=
  Outcome.foldlM (fun b a ha _ => h b a ha) trivial

/-- A number in a part is one in the whole. -/
theorem Makes.of_isPart {r : Except Fault α} (h : w.Makes r) (hw : w.IsPart v) : v.Makes r :=
  h.imp (fun _ h => h) fun _ ⟨hf, n, hn, hlong⟩ => ⟨hf, n, hn.trans hw, hlong⟩

/-- A value is shown as text, unless it is a number with too many digits. -/
theorem makes_plainText? (v : Value) : v.Makes v.plainText? := by
  cases v with
  | int n =>
    have hn : (Value.int n).Makes (intText n) :=
      Outcome.ite_of (fun hlong => ⟨rfl, n, .self _, hlong⟩) fun _ => trivial
    exact hn.map some
  | _ => trivial

theorem makes_keyText (v : Value) : v.Makes v.keyText := by
  cases v with
  | int n => exact (makes_plainText? (.int n)).map _
  | _ => trivial

/-- The values of a list are shown as texts. -/
theorem makes_texts (v : Value) : v.Makes v.texts := by
  cases v with
  | list items =>
    have hitems : (Value.list items).Makes (items.mapM plainText?) := .mapM fun w hw =>
      w.makes_plainText?.of_isPart (.item hw (.self w))
    exact hitems.map _
  | _ => trivial

end Makes

end Yaml.Value

namespace Config

open SourceMap (TextIn textIn_iff)
open Yaml (Outcome)
open Yaml.Value (Makes isPart_of_mem_pairs isPart_of_get? makes_plainText? makes_texts)

/-! ## Parts of configurations -/

section Values

variable {α : Type} {v : Yaml.Value}

/-- What is made of the part that a key leads to. -/
theorem makes_part {key : String} {r : Except Yaml.Fault α} (h : (part v key).Makes r) :
    v.Makes r := by
  unfold part at h
  cases hw : v.get? key with
  | none =>
    rw [hw] at h
    refine h.imp (fun _ h => h) fun _ ⟨_, n, hn, _⟩ => ?_
    cases hn
  | some w =>
    rw [hw] at h
    exact Makes.of_isPart h (isPart_of_get? hw)

theorem makes_listOr (v : Yaml.Value) (key : String) (default : List String) :
    v.Makes (listOr v key default) := by
  unfold listOr
  split
  · next w hw => exact w.makes_texts.of_isPart (isPart_of_get? hw)
  · trivial

theorem makes_textOr (v : Yaml.Value) (key default : String) :
    v.Makes (textOr v key default) :=
  Makes.map (makes_part (makes_plainText? _)) _

/-- The keys and values of a table are shown as texts. -/
theorem makes_textTable (v : Yaml.Value) : v.Makes (textTable v) := by
  refine Makes.foldlM (fun table e he => ?_) []
  obtain ⟨hkey, hvalue⟩ := isPart_of_mem_pairs he
  refine (e.2.makes_plainText?.of_isPart hvalue).bind fun text? => ?_
  cases text? with
  | none => exact .pure _
  | some text => exact .ite (.pure _) ((e.1.makes_keyText.of_isPart hkey).bind fun _ => .pure _)

/-- A table of tables is read table by table. -/
theorem makes_childTable (v : Yaml.Value) : v.Makes (childTable v) := by
  refine Makes.foldlM (fun table e he => ?_) []
  obtain ⟨hkey, hvalue⟩ := isPart_of_mem_pairs he
  exact ((makes_textTable e.2).of_isPart hvalue).bind fun _ =>
    .ite (.pure _) ((e.1.makes_keyText.of_isPart hkey).bind fun _ => .pure _)

theorem makes_childrenOr (v : Yaml.Value) (key : String)
    (default : List (String × List (String × String))) : v.Makes (childrenOr v key default) := by
  unfold childrenOr
  split
  · next w hw => exact (makes_childTable w).of_isPart (isPart_of_get? hw)
  · trivial

theorem makes_overrideOf (v : Yaml.Value) : v.Makes (overrideOf v) :=
  (makes_part (makes_texts _)).bind fun _ => (makes_part (makes_texts _)).bind fun _ =>
    (makes_part (makes_texts _)).bind fun _ => .pure _

/-- Of all that a policy is made of, numbers alone can fail. -/
theorem makes_policyOf (v : Yaml.Value) : v.Makes (policyOf v) := by
  have hoverrides : (part v "component_overrides").Makes
      ((part v "component_overrides").pairs.foldlM (fun table e => do
        return putKey (← e.1.keyText) (← overrideOf e.2) table) []) := by
    refine Makes.foldlM (fun table e he => ?_) []
    obtain ⟨hkey, hvalue⟩ := isPart_of_mem_pairs he
    exact (e.1.makes_keyText.of_isPart hkey).bind fun _ =>
      ((makes_overrideOf e.2).of_isPart hvalue).bind fun _ => .pure _
  exact (makes_part hoverrides).bind fun _ => (makes_listOr v _ _).bind fun _ =>
    (makes_listOr v _ _).bind fun _ => (makes_listOr v _ _).bind fun _ =>
      (makes_listOr v _ _).bind fun _ => .pure _

theorem makes_inheritanceOf (v : Yaml.Value) : v.Makes (inheritanceOf v) :=
  (makes_textOr v _ _).bind fun _ => (makes_textOr v _ _).bind fun _ =>
    (makes_listOr v _ _).bind fun _ => (makes_listOr v _ _).bind fun _ =>
      (makes_textOr v _ _).bind fun _ => .pure _

theorem makes_namesOf (v : Yaml.Value) : v.Makes (namesOf v) :=
  (makes_listOr v _ _).bind fun _ => (makes_listOr v _ _).bind fun _ =>
    (makes_textOr v _ _).bind fun _ => (makes_listOr v _ _).bind fun _ =>
      (makes_listOr v _ _).bind fun _ => .pure _

theorem makes_addPages (pages : List (String × List String)) (v : Yaml.Value) :
    v.Makes (addPages pages v.pairs) := by
  refine Makes.foldlM (fun table e he => ?_) pages
  obtain ⟨hkey, hvalue⟩ := isPart_of_mem_pairs he
  exact (e.2.makes_texts.of_isPart hvalue).bind fun _ =>
    .ite (.pure _) ((e.1.makes_keyText.of_isPart hkey).bind fun _ => .pure _)

/-- The settings of the manual fail at numbers alone. -/
theorem makes_manualOf (v : Yaml.Value) : v.Makes (manualOf v) :=
  (makes_textOr v _ _).bind fun _ => (makes_part (makes_addPages _ _)).bind fun _ => .pure _

/-- **Every value makes a configuration**, but for a number that is too long. -/
theorem makes_ofValue (v : Yaml.Value) : v.Makes (ofValue v) :=
  (makes_part (makes_listOr _ _ _)).bind fun _ => (makes_part (makes_listOr _ _ _)).bind fun _ =>
    (makes_part (makes_listOr _ _ _)).bind fun _ =>
    (makes_part (makes_part (makes_textTable _))).bind fun _ =>
    (makes_part (makes_childrenOr _ _ _)).bind fun _ =>
    (makes_part (makes_policyOf _)).bind fun _ => (makes_part (makes_inheritanceOf _)).bind fun _ =>
    (makes_part (makes_namesOf _)).bind fun _ => (makes_part (makes_manualOf _)).bind fun _ =>
    .pure _

end Values

/-! ## Texts of configurations -/

/-- Whether a text is blank. -/
abbrev IsBlank (text : String) : Prop :=
  (trimChars text.toList).isEmpty = true

/-- **The mapping at the root of a text.** A blank text and a value that counts as nothing stand
for an empty one. -/
inductive Roots (text : String) : Yaml.Value → Prop
  | blank (h : IsBlank text) : Roots text (.mapping [])
  | mapping {pairs : List (Yaml.Value × Yaml.Value)} (hblank : ¬IsBlank text)
      (h : Yaml.Value.read text = .ok (.mapping pairs)) : Roots text (.mapping pairs)
  | nothing {v : Yaml.Value} (hblank : ¬IsBlank text) (h : Yaml.Value.read text = .ok v)
      (hv : v.isNothing = true) : Roots text (.mapping [])

/-- **A text is refused with a message**, in a file of a name: it is malformed, or its value is
neither a mapping nor nothing. -/
inductive Refuses (name text : String) : String → Prop
  | unparsable (hblank : ¬IsBlank text) (h : Yaml.Value.read text = .error .malformed) :
      Refuses name text ("Failed to parse " ++ name)
  | notMapping {v : Yaml.Value} (hblank : ¬IsBlank text) (h : Yaml.Value.read text = .ok v)
      (hmapping : ∀ pairs, v ≠ .mapping pairs) (hv : v.isNothing = false) :
      Refuses name text (name ++ " must contain a mapping at the root")

section Roots

variable {name text : String}

/-- Whatever is at the root of a text. -/
theorem rootValue_outcome (name text : String) :
    Outcome (Roots text)
      (fun f => (∃ m, f.message? = some m ∧ Refuses name text m) ∨
        ∃ g, f = .badValue g ∧ ¬IsBlank text ∧ Yaml.Value.read text = .error g ∧ g ≠ .malformed)
      (rootValue name text) := by
  unfold rootValue
  refine .ite_of (fun hblank => .blank hblank) fun hblank => ?_
  split
  · next h => exact .inl ⟨_, rfl, .unparsable hblank h⟩
  · next f hf h => exact .inr ⟨f, rfl, hblank, h, fun heq => hf heq⟩
  · next pairs h => exact .mapping hblank h
  · next v hv h =>
    refine .ite_of (fun hnothing => .nothing hblank h hnothing) fun hsome => ?_
    exact .inl ⟨_, rfl, .notMapping hblank h hv (Bool.eq_false_iff.2 hsome)⟩

/-- A text has the root that it is said to have. -/
theorem Roots.rootValue_eq {v : Yaml.Value} (h : Roots text v) : rootValue name text = .ok v := by
  cases h with
  | blank h => exact if_pos h
  | mapping hblank h => rw [rootValue, if_neg hblank, h]
  | nothing hblank h hv =>
    rw [rootValue, if_neg hblank, h]
    rename_i w
    cases w with
    | mapping pairs =>
      cases pairs with
      | nil => rfl
      | cons e pairs => cases hv
    | _ => exact if_pos hv

/-- A text that is refused has no root value, and the message says why. -/
theorem Refuses.rootValue_eq {m : String} (h : Refuses name text m) :
    ∃ f, rootValue name text = .error f ∧ f.message? = some m := by
  cases h with
  | unparsable hblank h => exact ⟨.unparsable name, by rw [rootValue, if_neg hblank, h], rfl⟩
  | notMapping hblank h hmapping hv =>
    refine ⟨.notMapping name, ?_, rfl⟩
    rw [rootValue, if_neg hblank, h]
    rename_i w
    cases w with
    | mapping pairs => exact absurd rfl (hmapping pairs)
    | _ => exact if_neg (Bool.eq_false_iff.1 hv)

/-- A text that fails otherwise has no root value either, and there is no message. -/
theorem rootValue_eq_badValue (name : String) {f : Yaml.Fault} (hblank : ¬IsBlank text)
    (h : Yaml.Value.read text = .error f) (hf : f ≠ .malformed) :
    rootValue name text = .error (.badValue f) := by
  rw [rootValue, if_neg hblank, h]
  cases f with
  | malformed => exact absurd rfl hf
  | _ => rfl

end Roots

/-! ## Files -/

/-- **What is wrong with a file for which there is no message.** -/
inductive Escapes (d : Disk) (file : Path) : Fault → Prop
  /-- Its bytes are those of no text. -/
  | undecodable (h : ∀ text, ¬TextIn d file text) : Escapes d file .undecodable
  /-- Its text stumbles. -/
  | stumbles {text : String} {f : Yaml.Fault} (htext : TextIn d file text)
      (hblank : ¬IsBlank text) (hread : Yaml.Value.read text = .error f)
      (h : Yaml.Value.Stumbles text f) : Escapes d file (.badValue f)
  /-- A whole number in it cannot be shown. -/
  | tooLong {text : String} {v : Yaml.Value} {f : Yaml.Fault} (htext : TextIn d file text)
      (hroot : Roots text v) (hvalue : ofValue v = .error f) (h : v.TooLong f) :
      Escapes d file (.badValue f)

section Files

variable {d : Disk} {path file : Path} {bytes : List UInt8}

theorem exists?_of_readFile (h : d.readFile file = .ok bytes) : d.exists? file = .ok true := by
  unfold Disk.readFile at h
  unfold Disk.exists?
  cases hfind : d.find file with
  | ok t => rfl
  | error f =>
    rw [hfind] at h
    cases h

/-- What is loaded depends on the bytes of the file and on its name. -/
theorem load_of_readFile (hfile : fileAt d path = .ok file) (hbytes : d.readFile file = .ok bytes) :
    load d (some path) = ofBytes file.name bytes := by
  unfold load
  dsimp only
  rw [hfile]
  change (d.exists? file).mapError Fault.badPath >>= _ = _
  rw [exists?_of_readFile hbytes]
  change (d.readFile file).mapError Fault.badPath >>= _ = _
  rw [hbytes]
  rfl

/-- Where the bytes of the file are a text, this text is loaded. -/
theorem load_of_textIn (hfile : fileAt d path = .ok file) {text : String}
    (htext : TextIn d file text) : load d (some path) = ofText file.name text := by
  obtain ⟨bytes, hbytes, hfound⟩ := textIn_iff.1 htext
  rw [load_of_readFile hfile hbytes, ofBytes, hfound]

/-- A root value is taken for a configuration. -/
theorem ofText_of_rootValue {name text : String} {v : Yaml.Value}
    (h : rootValue name text = .ok v) : ofText name text = (ofValue v).mapError .badValue := by
  rw [ofText, h]
  rfl

theorem ofText_of_rootValue_error {name text : String} {f : Fault}
    (h : rootValue name text = .error f) : ofText name text = .error f := by
  rw [ofText, h]
  rfl

/-- A text that spells nothing is the default configuration. -/
theorem Roots.load_eq_default {text : String} (h : Roots text (.mapping []))
    (hfile : fileAt d path = .ok file) (htext : TextIn d file text) :
    load d (some path) = .ok {} := by
  rw [load_of_textIn hfile htext, ofText_of_rootValue h.rootValue_eq]
  rfl

/-- **What becomes of a file.** -/
theorem load_outcome (hfile : fileAt d path = .ok file) (hbytes : d.readFile file = .ok bytes) :
    Outcome (fun c => ∃ text v, TextIn d file text ∧ Roots text v ∧ ofValue v = .ok c)
      (fun f => (∃ m text, f.message? = some m ∧ TextIn d file text ∧ Refuses file.name text m) ∨
        f.message? = none ∧ Escapes d file f)
      (load d (some path)) := by
  rw [load_of_readFile hfile hbytes, ofBytes]
  split
  · next text h =>
    have htext : TextIn d file text := textIn_iff.2 ⟨bytes, hbytes, h⟩
    refine Outcome.bind ((rootValue_outcome file.name text).imp (fun _ h => h) ?_) fun v hroot => ?_
    · rintro f (⟨m, hm, hrefuses⟩ | ⟨g, rfl, hblank, hread, hg⟩)
      · exact .inl ⟨m, text, hm, htext, hrefuses⟩
      · have hstumbles := Yaml.Value.read_outcome text
        rw [hread] at hstumbles
        exact .inr ⟨rfl, .stumbles htext hblank hread (hstumbles.resolve_left hg)⟩
    · -- the root is a mapping, but a number in it may be too long to be shown
      have hmakes := makes_ofValue v
      cases hvalue : ofValue v with
      | ok c => exact ⟨text, v, htext, hroot, hvalue⟩
      | error f =>
        rw [hvalue] at hmakes
        exact .inr ⟨rfl, .tooLong htext hroot hvalue hmakes⟩
  · next h =>
    refine .inr ⟨rfl, .undecodable fun text htext => ?_⟩
    obtain ⟨bytes', hbytes', hfound⟩ := textIn_iff.1 htext
    rw [hbytes] at hbytes'
    cases hbytes'
    rw [h] at hfound
    cases hfound

/-- The other direction: nothing of the kind goes through. -/
theorem Escapes.load_eq (hfile : fileAt d path = .ok file) (hbytes : d.readFile file = .ok bytes)
    {f : Fault} (h : Escapes d file f) : load d (some path) = .error f ∧ f.message? = none := by
  cases h with
  | undecodable h =>
    refine ⟨?_, rfl⟩
    rw [load_of_readFile hfile hbytes, ofBytes]
    split
    · next text htext => exact absurd (textIn_iff.2 ⟨bytes, hbytes, htext⟩) (h text)
    · rfl
  | stumbles htext hblank hread h =>
    have hroot := rootValue_eq_badValue file.name hblank hread h.ne_malformed
    exact ⟨(load_of_textIn hfile htext).trans (ofText_of_rootValue_error hroot), rfl⟩
  | tooLong htext hroot hvalue h =>
    refine ⟨?_, rfl⟩
    rw [load_of_textIn hfile htext, ofText_of_rootValue hroot.rootValue_eq, hvalue]
    rfl

/-- **Which files are configurations.** A file that exists is one exactly if its bytes are those of
a text, the text has a mapping at its root, and all numbers that are shown can be. It is refused
with a message exactly if its text is malformed or has something at its root that is neither a
mapping nor counts as nothing. Whatever else is wrong is at fault without a message. -/
theorem load_existing_file (hfile : fileAt d path = .ok file)
    (hbytes : d.readFile file = .ok bytes) :
    (∀ c, load d (some path) = .ok c
        ↔ ∃ text v, TextIn d file text ∧ Roots text v ∧ ofValue v = .ok c)
      ∧ (∀ m, (∃ f, load d (some path) = .error f ∧ f.message? = some m)
        ↔ ∃ text, TextIn d file text ∧ Refuses file.name text m)
      ∧ ∀ f, (load d (some path) = .error f ∧ f.message? = none) ↔ Escapes d file f := by
  have houtcome := load_outcome hfile hbytes
  refine ⟨fun c => ⟨fun h => ?_, ?_⟩, fun m => ⟨?_, ?_⟩, fun f => ⟨?_, ?_⟩⟩
  · rwa [h] at houtcome
  · rintro ⟨text, v, htext, hroot, hvalue⟩
    rw [load_of_textIn hfile htext, ofText_of_rootValue hroot.rootValue_eq, hvalue]
    rfl
  · rintro ⟨f, hload, hm⟩
    rw [hload] at houtcome
    rcases houtcome with ⟨m', text, hm', htext, hrefuses⟩ | ⟨hnone, -⟩
    · cases hm.symm.trans hm'
      exact ⟨text, htext, hrefuses⟩
    · cases hm.symm.trans hnone
  · rintro ⟨text, htext, hrefuses⟩
    obtain ⟨f, hroot, hm⟩ := hrefuses.rootValue_eq
    exact ⟨f, (load_of_textIn hfile htext).trans (ofText_of_rootValue_error hroot), hm⟩
  · rintro ⟨hload, hnone⟩
    rw [hload] at houtcome
    rcases houtcome with ⟨m, -, hm, -⟩ | ⟨-, hescapes⟩
    · cases hm.symm.trans hnone
    · exact hescapes
  · exact fun h => h.load_eq hfile hbytes

end Files

/-! ## Files that are no configurations -/

/-- A disk with one configuration file. -/
def holdingConfig (bytes : List UInt8) : Disk :=
  { tree := .directory [(configFileName, .file bytes)]
    cwd := .ofString "/"
    home := .ofString "/" }

/-- The file of such a disk is found in its working directory. -/
theorem fileAt_holdingConfig (bytes : List UInt8) :
    fileAt (holdingConfig bytes) (.ofString ".") = .ok (.ofString "/.compdoc.yml") :=
  rfl

theorem readFile_holdingConfig (bytes : List UInt8) :
    (holdingConfig bytes).readFile (.ofString "/.compdoc.yml") = .ok bytes :=
  rfl

theorem textIn_holdingConfig {bytes : List UInt8} {text : String} (h : ofFile? bytes = some text) :
    TextIn (holdingConfig bytes) (.ofString "/.compdoc.yml") text :=
  textIn_iff.2 ⟨bytes, readFile_holdingConfig bytes, h⟩

/-- A word where the tag asks for a number fails without a message. -/
theorem load_word_for_number :
    load (holdingConfig (encode "x: !!float abc")) (some (.ofString "."))
      = .error (.badValue .outOfRange) := by
  decide +kernel

/-- A word where a tag asks for a number escapes. -/
theorem escapes_of_word_for_number :
    fileAt (holdingConfig (encode "x: !!float abc")) (.ofString ".")
        = .ok (.ofString "/.compdoc.yml")
      ∧ (holdingConfig (encode "x: !!float abc")).readFile (.ofString "/.compdoc.yml")
        = .ok (encode "x: !!float abc")
      ∧ Escapes (holdingConfig (encode "x: !!float abc")) (.ofString "/.compdoc.yml")
        (.badValue .outOfRange) := by
  refine ⟨fileAt_holdingConfig _, readFile_holdingConfig _, ?_⟩
  exact ((load_existing_file (fileAt_holdingConfig _) (readFile_holdingConfig _)).2.2 _).1
    ⟨load_word_for_number, rfl⟩

/-- **Not all that is wrong with a file is refused with a message**: bytes that are no text and a
word where a tag asks for a number are at fault without one, and an empty list and a blank text
that is malformed pass. -/
theorem wrong_files_not_refused :
    (load (holdingConfig [0xFF]) (some (.ofString ".")) = .error .undecodable
        ∧ Fault.undecodable.message? = none)
      ∧ (load (holdingConfig (encode "x: !!float abc")) (some (.ofString "."))
          = .error (.badValue .outOfRange)
        ∧ (Fault.badValue .outOfRange).message? = none)
      ∧ (Yaml.Value.read "[]" = .ok (.list [])
        ∧ load (holdingConfig (encode "[]")) (some (.ofString ".")) = .ok {})
      ∧ Yaml.Value.read "\t" = .error .malformed
        ∧ load (holdingConfig (encode "\t")) (some (.ofString ".")) = .ok {} := by
  have hlist : Yaml.Value.read "[]" = .ok (.list []) := rfl
  refine ⟨⟨?_, rfl⟩, ⟨load_word_for_number, rfl⟩, ⟨hlist, ?_⟩, rfl, ?_⟩
  · exact load_of_readFile (fileAt_holdingConfig _) (readFile_holdingConfig _)
  · have htext : ofFile? (encode "[]") = some "[]" := by decide +kernel
    exact (Roots.nothing (by decide +kernel) hlist rfl).load_eq_default (fileAt_holdingConfig _)
      (textIn_holdingConfig htext)
  · have htext : ofFile? (encode "\t") = some "\t" := by decide +kernel
    exact (Roots.blank (by decide +kernel)).load_eq_default (fileAt_holdingConfig _)
      (textIn_holdingConfig htext)

end Config

end ComponentCatalog
