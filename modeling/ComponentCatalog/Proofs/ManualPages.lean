import ComponentCatalog.Manual.Fetch
import ComponentCatalog.Proofs.ConfigFiles
import ComponentCatalog.Proofs.SmallLetters

/-!
# The pages of a component

A configuration adds pages of the manual to those that are known by default. Its entries are
keyed by whatever YAML has for a key, several keys may spell one name, and an entry may hold no
pages at all. The pages that a component ends up with are those of the last entry that gives it
any (`LastGiven`), and without such an entry the default ones stand.

Keys are put into small letters when the table is made and names when it is asked. So the answer
depends on neither spelling: entries with other spellings of their keys make the same table
(`addPages_of_respelled`), and a name finds what its small letters find, since these stay as they
are.
-/

namespace ComponentCatalog.Config

open Text

/-- **An entry gives a component pages**: its key, shown as a text, is the name of the component
apart from case, and the texts of its value are not none. -/
structure GivesPages (component : String) (e : Yaml.Value × Yaml.Value) (pages : List String) :
    Prop where
  key : ∃ key, e.1.keyText = .ok key ∧ lower key = lower component
  texts : e.2.texts = .ok pages
  nonempty : pages ≠ []

/-- **The last entry that gives a component pages** gives it these. -/
def LastGiven (component : String) (entries : List (Yaml.Value × Yaml.Value))
    (pages : List String) : Prop :=
  ∃ before e after, entries = before ++ e :: after ∧ GivesPages component e pages ∧
    ∀ e' ∈ after, ∀ others, ¬GivesPages component e' others

/-- What was given last stays so with more in front. -/
theorem LastGiven.cons {component : String} {entries : List (Yaml.Value × Yaml.Value)}
    {pages : List String} (h : LastGiven component entries pages) (e : Yaml.Value × Yaml.Value) :
    LastGiven component (e :: entries) pages := by
  obtain ⟨before, e', after, rfl, hgives, hlast⟩ := h
  exact ⟨e :: before, e', after, rfl, hgives, hlast⟩

/-! ## One entry after the other -/

/-- A sequence of two computations has a result if both have. -/
theorem bind_eq_ok_iff {ε α β : Type} {r : Except ε α} {f : α → Except ε β} {b : β} :
    r >>= f = .ok b ↔ ∃ a, r = .ok a ∧ f a = .ok b := by
  cases r with
  | error e =>
    constructor
    · intro h
      cases h
    · rintro ⟨a, ha, -⟩
      cases ha
  | ok a =>
    refine ⟨fun h => ⟨a, rfl, h⟩, ?_⟩
    rintro ⟨a', ha, h⟩
    cases ha
    exact h

/-- A table of pages with those of an entry. -/
def addEntry (table : List (String × List String)) (e : Yaml.Value × Yaml.Value) :
    Except Yaml.Fault (List (String × List String)) := do
  let added ← e.2.texts
  if added.isEmpty then return table else return putKey (lower (← e.1.keyText)) added table

theorem addPages_eq_foldlM (table : List (String × List String))
    (entries : List (Yaml.Value × Yaml.Value)) :
    addPages table entries = entries.foldlM addEntry table := rfl

/-- Entries are added one after the other. -/
theorem addPages_cons (table : List (String × List String)) (e : Yaml.Value × Yaml.Value)
    (entries : List (Yaml.Value × Yaml.Value)) :
    addPages table (e :: entries) = addEntry table e >>= fun table' => addPages table' entries := by
  rw [addPages_eq_foldlM, List.foldlM_cons]
  rfl

/-- **What one entry does**: a component that it gives pages has these, and every other one has
what it had. -/
theorem lookup_addEntry {table table' : List (String × List String)} {e : Yaml.Value × Yaml.Value}
    (h : addEntry table e = .ok table') (component : String) :
    (∃ pages, GivesPages component e pages ∧ table'.lookup (lower component) = some pages) ∨
      (∀ pages, ¬GivesPages component e pages) ∧
        table'.lookup (lower component) = table.lookup (lower component) := by
  obtain ⟨added, htexts, h⟩ := bind_eq_ok_iff.1 h
  split at h
  · next hempty =>
    cases h
    refine .inr ⟨fun pages hgives => hgives.nonempty ?_, rfl⟩
    rw [Except.ok.inj (hgives.texts.symm.trans htexts)]
    exact List.isEmpty_iff.1 hempty
  · next hempty =>
    obtain ⟨key, hkey, h⟩ := bind_eq_ok_iff.1 h
    cases h
    rw [lookup_putKey]
    by_cases hsame : lower component = lower key
    · refine .inl ⟨added, ⟨⟨key, hkey, hsame.symm⟩, htexts, ?_⟩, if_pos (beq_iff_eq.2 hsame)⟩
      exact fun hnil => hempty (List.isEmpty_iff.2 hnil)
    · refine .inr ⟨fun pages hgives => ?_, if_neg (by simpa using hsame)⟩
      obtain ⟨key', hkey', hlower⟩ := hgives.key
      rw [Except.ok.inj (hkey'.symm.trans hkey)] at hlower
      exact hsame hlower.symm

/-- **What all entries do**: a component has the pages of the last entry that gives it any, and
without such an entry those that it had. -/
theorem lookup_addPages {table table' : List (String × List String)}
    {entries : List (Yaml.Value × Yaml.Value)} (h : addPages table entries = .ok table')
    (component : String) :
    (∃ pages, LastGiven component entries pages ∧
        table'.lookup (lower component) = some pages) ∨
      (∀ e ∈ entries, ∀ pages, ¬GivesPages component e pages) ∧
        table'.lookup (lower component) = table.lookup (lower component) := by
  induction entries generalizing table with
  | nil =>
    cases h
    exact .inr ⟨fun e he => absurd he List.not_mem_nil, rfl⟩
  | cons e entries ih =>
    rw [addPages_cons] at h
    obtain ⟨table₁, hfirst, h⟩ := bind_eq_ok_iff.1 h
    obtain ⟨pages, hlast, hlookup⟩ | ⟨hnone, hlookup⟩ := ih h
    · exact .inl ⟨pages, hlast.cons e, hlookup⟩
    · rw [hlookup]
      refine (lookup_addEntry hfirst component).imp ?_ ?_
      · rintro ⟨pages, hgives, hfound⟩
        exact ⟨pages, ⟨[], e, entries, rfl, hgives, hnone⟩, hfound⟩
      · rintro ⟨hnot, hsame⟩
        exact ⟨List.forall_mem_cons.2 ⟨hnot, hnone⟩, hsame⟩

/-! ## Texts that are shown -/

/-- A character is the character that it is. -/
theorem toChar?_ofChar (c : Char) : (CodePoint.ofChar c).toChar? = some c := by
  rw [CodePoint.toChar?, if_neg (by rw [CodePoint.isSurrogate_ofChar]; exact Bool.false_ne_true),
    CodePoint.val_ofChar, Char.ofNat_toNat]

theorem display_ofString (s : String) : (Wide.ofString s).display = s := by
  rw [Wide.display, Wide.ofString, List.map_map]
  have hsame :
      (fun p : CodePoint => p.toChar?.getD (Char.ofNat 0xFFFD)) ∘ CodePoint.ofChar = id :=
    funext fun c => by rw [Function.comp_apply, toChar?_ofChar, Option.getD_some, id]
  rw [hsame, List.map_id, String.ofList_toList]

/-- Where there are no surrogates, there are no pairs of them. -/
theorem joinPairs_eq_self {points : List CodePoint} (h : ∀ p ∈ points, p.isSurrogate = false) :
    joinPairs points = points := by
  fun_induction joinPairs points with
  | case1 => rfl
  | case2 => rfl
  | case3 p q rest hpair _ =>
    have hp := h p List.mem_cons_self
    simp only [CodePoint.isSurrogate, Bool.and_eq_false_iff, decide_eq_false_iff_not] at hp
    simp only [isHigh, Bool.and_eq_true, decide_eq_true_eq] at hpair
    omega
  | case4 p q rest _ ih => rw [ih fun r hr => h r (List.mem_cons_of_mem _ hr)]

/-- An ordinary text is shown as it is. -/
theorem shown_ofString (s : String) : Yaml.Value.shown (.ofString s) = s := by
  rw [Yaml.Value.shown, joinPairs_eq_self (Wide.isText_ofString s)]
  exact display_ofString s

/-! ## Other spellings -/

/-- **Two entries differ in the spelling of their keys only**: they hold the same, and the texts
of their keys are the same in small letters. -/
def Respelled (e e' : Yaml.Value × Yaml.Value) : Prop :=
  e'.1.keyText.map lower = e.1.keyText.map lower ∧ e'.2 = e.2

/-- An entry may be spelt in another way. -/
theorem addEntry_of_respelled {e e' : Yaml.Value × Yaml.Value} (h : Respelled e e')
    (table : List (String × List String)) : addEntry table e' = addEntry table e := by
  obtain ⟨hkey, htexts⟩ := h
  have hput (k : Yaml.Value) (added : List String) :
      (k.keyText >>= fun key => Except.ok (putKey (lower key) added table)) =
        k.keyText.map lower >>= fun key => .ok (putKey key added table) := by
    cases k.keyText <;> rfl
  unfold addEntry
  rw [htexts]
  refine congrArg (e.2.texts >>= ·) (funext fun added => ?_)
  split
  · rfl
  · exact (hput e'.1 added).trans ((congrArg (· >>= _) hkey).trans (hput e.1 added).symm)

/-- All entries may be spelt in another way. -/
theorem addPages_of_respelled {entries entries' : List (Yaml.Value × Yaml.Value)}
    (h : List.Forall₂ Respelled entries entries') (table : List (String × List String)) :
    addPages table entries' = addPages table entries := by
  induction h generalizing table with
  | nil => rfl
  | cons he _ ih =>
    rw [addPages_cons, addPages_cons, addEntry_of_respelled he]
    exact congrArg (_ >>= ·) (funext fun table' => ih table')

/-- Keys can be put into small letters beforehand. -/
theorem respelled_lower {e : Yaml.Value × Yaml.Value} {key : String} (h : e.1.keyText = .ok key) :
    Respelled e (.text (.ofString (lower key)), e.2) := by
  refine ⟨?_, rfl⟩
  rw [h]
  change Except.ok (lower (Yaml.Value.shown (.ofString (lower key)))) = .ok (lower key)
  rw [shown_ofString, lower_lower]

/-! ## The pages of a configuration -/

/-- The entries with pages of a configuration. -/
def pageEntries (v : Yaml.Value) : List (Yaml.Value × Yaml.Value) :=
  (part (part v "docs") "paths").pairs

/-- The manual that a configuration leads to. -/
def manualSource (config : Config) : Manual.Source :=
  { baseUrl := config.manual.baseUrl, pages := config.manual.pages }

/-- The settings of the manual are those under their key. -/
theorem manual_of_ofValue {v : Yaml.Value} {config : Config} (h : ofValue v = .ok config) :
    manualOf (part v "docs") = .ok config.manual := by
  obtain ⟨_, -, h⟩ := bind_eq_ok_iff.1 h
  obtain ⟨_, -, h⟩ := bind_eq_ok_iff.1 h
  obtain ⟨_, -, h⟩ := bind_eq_ok_iff.1 h
  obtain ⟨_, -, h⟩ := bind_eq_ok_iff.1 h
  obtain ⟨_, -, h⟩ := bind_eq_ok_iff.1 h
  obtain ⟨_, -, h⟩ := bind_eq_ok_iff.1 h
  obtain ⟨_, -, h⟩ := bind_eq_ok_iff.1 h
  obtain ⟨_, -, h⟩ := bind_eq_ok_iff.1 h
  obtain ⟨manual, hmanual, h⟩ := bind_eq_ok_iff.1 h
  cases h
  exact hmanual

/-- The table of pages starts out from the default one. -/
theorem pages_of_ofValue {v : Yaml.Value} {config : Config} (h : ofValue v = .ok config) :
    addPages Manual.defaultPages (pageEntries v) = .ok config.manual.pages := by
  obtain ⟨_, -, h⟩ := bind_eq_ok_iff.1 (manual_of_ofValue h)
  obtain ⟨pages, hpages, h⟩ := bind_eq_ok_iff.1 h
  rw [← Except.ok.inj h]
  exact hpages

/-- Three spellings of one name, the last without pages, and a key that is no text. -/
def spellings : Yaml.Value :=
  let word := fun s => Yaml.Value.text (.ofString s)
  .mapping [(word "docs", .mapping [(word "paths", .mapping
    [(word "Card", word "a.md"), (word "CARD", .list [word "b.md", .int 3, .null]),
      (word "card", .list []), (.bool true, word "c.md")])])]

example : (ofValue spellings).map (fun config =>
      ["cARD", "TRUE", "Tabs", "other"].map config.manualSource.pagesOf) =
    .ok [["b.md", "3"], ["c.md"], ["container/tabs.md"], []] := rfl

end ComponentCatalog.Config
