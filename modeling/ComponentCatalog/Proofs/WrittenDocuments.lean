import ComponentCatalog.Output
import ComponentCatalog.Proofs.Files
import ComponentCatalog.Proofs.JsonText
import ComponentCatalog.Proofs.Names

/-!
# Documents read back

A document is written as JSON, and what is written reads back: from the text, and from the file
it has been saved in. The JSON of a document is plain, because its texts are texts and its keys
are a few fixed ones in a fixed order (`plain_toJson`).

Of a component, the JSON shows everything but the difference between a text that is missing and
one that is empty, where nothing is meant by an empty one. `Component.withoutEmpty` is the
component without such texts, at every level, and two components are written alike exactly if
they are the same without them. What a field of the JSON says is read off by its key
(`field?_ofFields`), so the argument does not depend on which of the fields before it are there.
-/

namespace ComponentCatalog

open Text

theorem Text.CodePoint.ofChar_injective : Function.Injective CodePoint.ofChar := by
  intro c c' h
  have hval := congrArg Fin.val h
  rw [CodePoint.val_ofChar, CodePoint.val_ofChar] at hval
  exact Char.toNat_inj.1 hval

/-- Texts are the same if their code points are. -/
theorem Text.Wide.ofString_inj {s t : String} : Wide.ofString s = Wide.ofString t ↔ s = t := by
  rw [Wide.ofString, Wide.ofString, Wide.mk.injEq,
    List.map_inj_right fun _ _ h => CodePoint.ofChar_injective h, String.toList_inj]

namespace Json

theorem text_inj {s t : String} : text s = text t ↔ s = t := by
  rw [text, text, Json.string.injEq, Wide.ofString_inj]

/-! ## Objects of fields -/

theorem plain_text (s : String) : Plain (text s) :=
  Wide.isText_ofString s

theorem plainAll_iff {vs : List Json} : PlainAll vs ↔ ∀ v ∈ vs, Plain v := by
  induction vs with
  | nil => simp [PlainAll]
  | cons v vs ih => simp [PlainAll, ih]

theorem plainFields_iff {fs : List (Wide × Json)} :
    PlainFields fs ↔ ∀ f ∈ fs, f.1.IsText ∧ Plain f.2 := by
  induction fs with
  | nil => simp [PlainFields]
  | cons f fs ih => simp [PlainFields, ih, and_assoc]

/-- An array of plain values is plain. -/
theorem plain_array {α : Type} {toJson : α → Json} (h : ∀ a, Plain (toJson a)) (as : List α) :
    Plain (.array (as.map toJson)) :=
  plainAll_iff.2 fun _ hv => by
    obtain ⟨a, -, rfl⟩ := List.mem_map.1 hv
    exact h a

/-- Fields with some of a few distinct keys, in their order, and plain values. -/
def Among (keys : List String) (fields : List (String × Json)) : Prop :=
  (fields.map Prod.fst).Sublist keys ∧ ∀ f ∈ fields, Plain f.2

/-- Fields one after the other have the keys of both. -/
theorem Among.append {keys keys' : List String} {fields fields' : List (String × Json)}
    (h : Among keys fields) (h' : Among keys' fields') :
    Among (keys ++ keys') (fields ++ fields') := by
  refine ⟨?_, fun f hf => (List.mem_append.1 hf).elim (h.2 f) (h'.2 f)⟩
  rw [List.map_append]
  exact h.1.append h'.1

theorem Among.nil (keys : List String) : Among keys [] :=
  ⟨List.nil_sublist keys, by simp⟩

theorem Among.none : Among [] [] :=
  .nil []

theorem Among.cons {key : String} {v : Json} {keys : List String} {fields : List (String × Json)}
    (hv : Plain v) (h : Among keys fields) : Among (key :: keys) ((key, v) :: fields) :=
  ⟨h.1.cons_cons key, List.forall_mem_cons.2 ⟨hv, h.2⟩⟩

theorem Among.unlessEmpty (key : String) (text? : Option String) :
    Among [key] (unlessEmpty key text?) := by
  unfold Json.unlessEmpty
  split
  · split
    · exact .nil _
    · exact .cons (plain_text _) (.nil _)
  · exact .nil _

/-- An object with distinct keys and plain values is plain. -/
theorem plain_ofFields {keys : List String} {fields : List (String × Json)}
    (h : Among keys fields) (hkeys : keys.Nodup) : Plain (ofFields fields) := by
  refine ⟨?_, plainFields_iff.2 fun f hf => ?_⟩
  · rw [List.map_map]
    have hwide : ((fields.map Prod.fst).map Wide.ofString).Nodup :=
      (h.1.nodup hkeys).map fun _ _ => Wide.ofString_inj.1
    rwa [List.map_map] at hwide
  · obtain ⟨g, hg, rfl⟩ := List.mem_map.1 hf
    exact ⟨Wide.isText_ofString _, h.2 g hg⟩

/-- The value of a key is that of the first field with it. -/
theorem field?_ofFields (fields : List (String × Json)) (key : String) :
    (ofFields fields).field? key = fields.lookup key := by
  induction fields with
  | nil => rfl
  | cons f fields ih =>
    obtain ⟨k, v⟩ := f
    simp only [ofFields, field?, List.map_cons, List.find?_cons, Wide.ofString_inj] at ih ⊢
    rw [lookup_cons_eq]
    by_cases h : k = key
    · rw [if_pos h.symm, decide_eq_true h, Option.map_some]
    · rw [if_neg (Ne.symm h), decide_eq_false h, ih]

/-- A text, unless it is empty. -/
def nonEmpty? (text? : Option String) : Option String :=
  text?.filter fun s => !s.isEmpty

theorem unlessEmpty_eq (key : String) (text? : Option String) :
    unlessEmpty key text? = ((nonEmpty? text?).map fun s => (key, text s)).toList := by
  cases text? with
  | none => rfl
  | some s =>
    by_cases h : s.isEmpty = true <;> simp [unlessEmpty, nonEmpty?, Option.filter, h]

theorem nonEmpty?_nonEmpty? (text? : Option String) :
    nonEmpty? (nonEmpty? text?) = nonEmpty? text? := by
  simp [nonEmpty?, Option.filter_filter]

/-- A field that may be there is found under its key, and under no other. -/
theorem lookup_toList (key : String) (v? : Option Json) (k : String) :
    (v?.map fun v => (key, v)).toList.lookup k = if k = key then v? else none := by
  cases v? with
  | none => simp
  | some v => rw [Option.map_some, Option.toList_some, lookup_cons_eq, List.lookup_nil]

/-- A text that is empty has no field. -/
theorem lookup_unlessEmpty (key : String) (text? : Option String) (k : String) :
    (unlessEmpty key text?).lookup k = if k = key then (nonEmpty? text?).map text else none := by
  rw [unlessEmpty_eq, ← lookup_toList, Option.map_map]
  rfl

theorem map_text_inj {s? t? : Option String} : s?.map text = t?.map text ↔ s? = t? :=
  (Option.map_injective fun _ _ => text_inj.1).eq_iff

/-- Lists that are written alike agree in everything that single values show. -/
theorem map_eq_of_map_toJson {α β : Type} {toJson : α → Json} {shown : α → β}
    (h : ∀ a a', toJson a = toJson a' → shown a = shown a') {as as' : List α}
    (has : as.map toJson = as'.map toJson) : as.map shown = as'.map shown := by
  induction as generalizing as' with
  | nil => rw [List.map_eq_nil_iff.1 has.symm]
  | cons a as ih =>
    cases as' with
    | nil => cases has
    | cons a' as' =>
      obtain ⟨ha, has⟩ := List.cons.inj has
      rw [List.map_cons, List.map_cons, h a a' ha, ih has]

/-- Lists are written in different ways if their elements are. -/
theorem eq_of_map_toJson {α : Type} {toJson : α → Json}
    (h : ∀ a a', toJson a = toJson a' → a = a') {as as' : List α}
    (has : as.map toJson = as'.map toJson) : as = as' := by
  have hid : as.map id = as'.map id := map_eq_of_map_toJson h has
  rwa [List.map_id, List.map_id] at hid

end Json

open Json

/-! ## The JSON of documents -/

theorem Property.toJson_eq (p : Property) : p.toJson = .ofFields (
    [("name", .text p.name), ("type", .text p.type), ("optional", .bool p.optional)] ++
      ((p.default?.map Json.text).map fun v => ("defaultValue", v)).toList ++
      [("inherited", .bool p.inherited)] ++ unlessEmpty "inheritedFrom" p.origin?) := by
  unfold Property.toJson
  cases p.default? <;> rfl

/-- A property is written as a plain value. -/
theorem Property.plain_toJson (p : Property) : Plain p.toJson := by
  have hdefault : Among ["defaultValue"]
      ((p.default?.map Json.text).map fun v => ("defaultValue", v)).toList := by
    cases p.default? with
    | none => exact .nil _
    | some s => exact .cons (plain_text s) .none
  have hhead : Among ["name", "type", "optional"]
      [("name", .text p.name), ("type", .text p.type), ("optional", .bool p.optional)] :=
    .cons (plain_text _) (.cons (plain_text _) (.cons trivial .none))
  have hinherited : Among ["inherited"] [("inherited", .bool p.inherited)] := .cons trivial .none
  rw [Property.toJson_eq]
  exact plain_ofFields
    (((hhead.append hdefault).append hinherited).append (.unlessEmpty "inheritedFrom" _))
    (by decide)

theorem Parameter.plain_toJson (p : Parameter) : Plain p.toJson :=
  plain_ofFields (.cons (plain_text _) (.cons (plain_text _) (.cons trivial (.none)))) (by decide)

theorem Method.plain_toJson (m : Method) : Plain m.toJson :=
  plain_ofFields (.cons (plain_text _)
    (.cons (plain_array Parameter.plain_toJson _) (.cons (plain_text _) .none))) (by decide)

theorem Event.plain_toJson (e : Event) : Plain e.toJson :=
  plain_ofFields (.cons (plain_text _) (.cons (plain_text _) (.cons (plain_text _) .none)))
    (by decide)

theorem Style.plain_toJson (s : Style) : Plain s.toJson :=
  plain_ofFields (Among.append (.cons (plain_text _) .none) (.unlessEmpty "description" _))
    (by decide)

namespace Component

mutual

/-- **A component is written as a plain value**, with all the components in it. -/
theorem plain_toJson : (c : Component) → Plain c.toJson
  | ⟨name, path, category, props, methods, events, styles, base?, children, description?⟩ => by
    have hhead : Among ["componentName", "componentPath", "category", "props", "methods", "events",
        "styles"] [("componentName", .text name), ("componentPath", .text path),
        ("category", .text category), ("props", .array (props.map Property.toJson)),
        ("methods", .array (methods.map Method.toJson)),
        ("events", .array (events.map Event.toJson)),
        ("styles", .array (styles.map Style.toJson))] :=
      .cons (plain_text _) (.cons (plain_text _) (.cons (plain_text _)
        (.cons (plain_array Property.plain_toJson _) (.cons (plain_array Method.plain_toJson _)
          (.cons (plain_array Event.plain_toJson _)
            (.cons (plain_array Style.plain_toJson _) .none))))))
    have hchildren : Among ["children"]
        (if children.isEmpty then [] else [("children", .array (allToJson children))]) := by
      split
      · exact .nil _
      · exact .cons (plainAll_allToJson children) .none
    exact plain_ofFields (((hhead.append (.unlessEmpty "baseClass" _)).append hchildren).append
      (.unlessEmpty "description" _)) (by decide)
  termination_by structural c => c

theorem plainAll_allToJson : (cs : List Component) → PlainAll (allToJson cs)
  | [] => trivial
  | c :: cs => ⟨plain_toJson c, plainAll_allToJson cs⟩
  termination_by structural cs => cs

end

end Component

theorem Json.mem_putField {k : Wide} {v : Json} {fields : List (Wide × Json)} {f : Wide × Json}
    (h : f ∈ putField k v fields) : f = (k, v) ∨ f ∈ fields := by
  induction fields with
  | nil => exact .inl (List.mem_singleton.1 h)
  | cons g fields ih =>
    rw [putField] at h
    split at h
    · next hg =>
      exact (List.mem_cons.1 h).imp (fun h => h.trans (by rw [hg])) fun h => .tail _ h
    · obtain rfl | h := List.mem_cons.1 h
      · exact .inr (.head _)
      · exact (ih h).imp id fun h => .tail _ h

/-- A field takes the place of one of its key. -/
theorem Json.nodup_putField {k : Wide} (v : Json) {fields : List (Wide × Json)}
    (h : (fields.map Prod.fst).Nodup) : ((putField k v fields).map Prod.fst).Nodup := by
  induction fields with
  | nil => exact List.nodup_singleton k
  | cons g fields ih =>
    rw [putField]
    split
    · exact h
    · next hg =>
      rw [List.map_cons, List.nodup_cons] at h ⊢
      refine ⟨fun hmem => ?_, ih h.2⟩
      obtain ⟨f, hf, hfg⟩ := List.mem_map.1 hmem
      obtain rfl | hf := mem_putField hf
      · exact hg hfg.symm
      · exact h.1 (hfg ▸ List.mem_map_of_mem hf)

theorem Json.plain_withField {j v : Json} (hj : Plain j) (key : String) (hv : Plain v) :
    Plain (j.withField key v) := by
  cases j with
  | object fields =>
    refine ⟨nodup_putField v hj.1, plainFields_iff.2 fun f hf => ?_⟩
    obtain rfl | hf := mem_putField hf
    · exact ⟨Wide.isText_ofString key, hv⟩
    · exact plainFields_iff.1 hj.2 f hf
  | null => exact hj
  | bool b => exact hj
  | number n => exact hj
  | string s => exact hj
  | array items => exact hj

/-- **A document is written as a plain value.** -/
theorem Document.plain_toJson (doc : Document) : Plain doc.toJson := by
  cases doc with
  | component c => exact c.plain_toJson
  | renamed name source description =>
    exact plain_withField (plain_withField source.plain_toJson _ (plain_text name)) _
      (plain_text description)

/-! ## Empty texts -/

/-- A property without an origin that is empty. -/
def Property.withoutEmpty (p : Property) : Property :=
  { p with origin? := nonEmpty? p.origin? }

/-- A style class without a description that is empty. -/
def Style.withoutEmpty (s : Style) : Style :=
  { s with description? := nonEmpty? s.description? }

namespace Component

mutual

/-- A component without the texts that are empty where nothing is meant by it: the origins of
properties, the descriptions of style classes, the base class and the description, here and in
the components it is built from. -/
def withoutEmpty : Component → Component
  | ⟨name, path, category, props, methods, events, styles, base?, children, description?⟩ =>
    { name := name, path := path, category := category
      props := props.map Property.withoutEmpty, methods := methods, events := events
      styles := styles.map Style.withoutEmpty, base? := nonEmpty? base?
      children := allWithoutEmpty children, description? := nonEmpty? description? }

/-- As `withoutEmpty`, for several components. -/
def allWithoutEmpty : List Component → List Component
  | [] => []
  | c :: cs => withoutEmpty c :: allWithoutEmpty cs

end

end Component

/-- Empty texts are not written. -/
theorem Property.toJson_withoutEmpty (p : Property) : p.withoutEmpty.toJson = p.toJson := by
  simp only [Property.toJson, Property.withoutEmpty, unlessEmpty_eq, nonEmpty?_nonEmpty?]

theorem Style.toJson_withoutEmpty (s : Style) : s.withoutEmpty.toJson = s.toJson := by
  simp only [Style.toJson, Style.withoutEmpty, unlessEmpty_eq, nonEmpty?_nonEmpty?]

/-- Of a property, the JSON shows all but an empty origin. -/
theorem Property.withoutEmpty_eq_of_toJson {p q : Property} (h : p.toJson = q.toJson) :
    p.withoutEmpty = q.withoutEmpty := by
  have hfield (key : String) : p.toJson.field? key = q.toJson.field? key := by rw [h]
  simp only [Property.toJson_eq, field?_ofFields, List.lookup_append, lookup_unlessEmpty,
    lookup_toList, lookup_cons_eq, List.lookup_nil] at hfield
  have hname : p.name = q.name := by simpa [text_inj] using hfield "name"
  have htype : p.type = q.type := by simpa [text_inj] using hfield "type"
  have hoptional : p.optional = q.optional := by simpa using hfield "optional"
  have hdefault : p.default? = q.default? := by simpa [map_text_inj] using hfield "defaultValue"
  have hinherited : p.inherited = q.inherited := by simpa using hfield "inherited"
  have horigin : nonEmpty? p.origin? = nonEmpty? q.origin? := by
    simpa [map_text_inj] using hfield "inheritedFrom"
  simp only [withoutEmpty, hname, htype, hoptional, hdefault, hinherited, horigin]

theorem Parameter.eq_of_toJson {p q : Parameter} (h : p.toJson = q.toJson) : p = q := by
  have hfield (key : String) : p.toJson.field? key = q.toJson.field? key := by rw [h]
  simp only [Parameter.toJson, field?_ofFields, lookup_cons_eq, List.lookup_nil] at hfield
  have hname : p.name = q.name := by simpa [text_inj] using hfield "name"
  have htype : p.type = q.type := by simpa [text_inj] using hfield "type"
  have hoptional : p.optional = q.optional := by simpa using hfield "optional"
  cases p
  cases q
  simp_all

/-- Methods that are written alike are equal. -/
theorem Method.eq_of_toJson {m n : Method} (h : m.toJson = n.toJson) : m = n := by
  have hfield (key : String) : m.toJson.field? key = n.toJson.field? key := by rw [h]
  simp only [Method.toJson, field?_ofFields, lookup_cons_eq, List.lookup_nil] at hfield
  have hname : m.name = n.name := by simpa [text_inj] using hfield "name"
  have hparameters : m.parameters = n.parameters :=
    eq_of_map_toJson (fun _ _ => Parameter.eq_of_toJson) (by simpa using hfield "parameters")
  have hreturn : m.returnType = n.returnType := by simpa [text_inj] using hfield "returnType"
  cases m
  cases n
  simp_all

/-- Events that are written alike are equal. -/
theorem Event.eq_of_toJson {e f : Event} (h : e.toJson = f.toJson) : e = f := by
  have hfield (key : String) : e.toJson.field? key = f.toJson.field? key := by rw [h]
  simp only [Event.toJson, field?_ofFields, lookup_cons_eq, List.lookup_nil] at hfield
  have hname : e.name = f.name := by simpa [text_inj] using hfield "name"
  have htype : e.type = f.type := by simpa [text_inj] using hfield "type"
  have hparameters : e.parameters = f.parameters := by simpa [text_inj] using hfield "parameters"
  cases e
  cases f
  simp_all

/-- Styles that are written alike are the same without empty texts. -/
theorem Style.withoutEmpty_eq_of_toJson {s t : Style} (h : s.toJson = t.toJson) :
    s.withoutEmpty = t.withoutEmpty := by
  have hfield (key : String) : s.toJson.field? key = t.toJson.field? key := by rw [h]
  simp only [Style.toJson, field?_ofFields, List.lookup_append, lookup_unlessEmpty,
    lookup_cons_eq, List.lookup_nil] at hfield
  have hname : s.className = t.className := by simpa [text_inj] using hfield "className"
  have hdescription : nonEmpty? s.description? = nonEmpty? t.description? := by
    simpa [map_text_inj] using hfield "description"
  simp only [withoutEmpty, hname, hdescription]

namespace Component

theorem toJson_eq (c : Component) : c.toJson = .ofFields (
    [("componentName", .text c.name), ("componentPath", .text c.path),
      ("category", .text c.category), ("props", .array (c.props.map Property.toJson)),
      ("methods", .array (c.methods.map Method.toJson)),
      ("events", .array (c.events.map Event.toJson)),
      ("styles", .array (c.styles.map Style.toJson))] ++ unlessEmpty "baseClass" c.base? ++
    ((if c.children.isEmpty then none else some (.array (allToJson c.children))).map
      fun v => ("children", v)).toList ++ unlessEmpty "description" c.description?) := by
  cases c
  rw [toJson]
  split <;> rfl

theorem allToJson_eq_of_field {cs cs' : List Component}
    (h : (if cs.isEmpty then none else some (Json.array (allToJson cs))) =
      if cs'.isEmpty then none else some (Json.array (allToJson cs'))) :
    allToJson cs = allToJson cs' := by
  cases cs with
  | nil =>
    cases cs' with
    | nil => rfl
    | cons c' cs' => cases h
  | cons c cs =>
    cases cs' with
    | nil => cases h
    | cons c' cs' => exact Json.array.inj (Option.some.inj h)

mutual

/-- **Of a component, the JSON shows all but empty texts.** -/
theorem withoutEmpty_eq_of_toJson : (c c' : Component) → c.toJson = c'.toJson →
    withoutEmpty c = withoutEmpty c'
  | ⟨name, path, category, props, methods, events, styles, base?, children, description?⟩,
      c', h => by
    -- equal objects have equal values under every key
    have hfield (key : String) := congrArg (Json.field? · key) h
    simp only [toJson_eq, field?_ofFields, List.lookup_append, lookup_unlessEmpty,
      lookup_toList, lookup_cons_eq, List.lookup_nil] at hfield
    have hname : name = c'.name := by simpa [text_inj] using hfield "componentName"
    have hpath : path = c'.path := by simpa [text_inj] using hfield "componentPath"
    have hcategory : category = c'.category := by simpa [text_inj] using hfield "category"
    have hprops : props.map Property.withoutEmpty = c'.props.map Property.withoutEmpty :=
      map_eq_of_map_toJson (fun _ _ => Property.withoutEmpty_eq_of_toJson)
        (by simpa using hfield "props")
    have hmethods : methods = c'.methods :=
      eq_of_map_toJson (fun _ _ => Method.eq_of_toJson) (by simpa using hfield "methods")
    have hevents : events = c'.events :=
      eq_of_map_toJson (fun _ _ => Event.eq_of_toJson) (by simpa using hfield "events")
    have hstyles : styles.map Style.withoutEmpty = c'.styles.map Style.withoutEmpty :=
      map_eq_of_map_toJson (fun _ _ => Style.withoutEmpty_eq_of_toJson)
        (by simpa using hfield "styles")
    have hbase : nonEmpty? base? = nonEmpty? c'.base? := by
      simpa [map_text_inj] using hfield "baseClass"
    have hdescription : nonEmpty? description? = nonEmpty? c'.description? := by
      simpa [map_text_inj] using hfield "description"
    have hchildren : allWithoutEmpty children = allWithoutEmpty c'.children := by
      refine allWithoutEmpty_eq_of_toJson children c'.children (allToJson_eq_of_field ?_)
      simpa using hfield "children"
    cases c'
    simp only at hname hpath hcategory hprops hmethods hevents hstyles hbase hdescription hchildren
    simp only [withoutEmpty, hname, hpath, hcategory, hprops, hmethods, hevents, hstyles, hbase,
      hdescription, hchildren]
  termination_by structural c => c

theorem allWithoutEmpty_eq_of_toJson : (cs cs' : List Component) →
    allToJson cs = allToJson cs' → allWithoutEmpty cs = allWithoutEmpty cs'
  | [], [], _ => rfl
  | c :: cs, c' :: cs', h => by
    obtain ⟨hc, hcs⟩ := List.cons.inj h
    rw [allWithoutEmpty, allWithoutEmpty, withoutEmpty_eq_of_toJson c c' hc,
      allWithoutEmpty_eq_of_toJson cs cs' hcs]
  termination_by structural cs => cs

end

theorem isEmpty_allWithoutEmpty (cs : List Component) :
    (allWithoutEmpty cs).isEmpty = cs.isEmpty := by
  cases cs <;> rfl

mutual

/-- Empty texts are not written for a component, and for none in it. -/
theorem toJson_withoutEmpty : (c : Component) → (withoutEmpty c).toJson = c.toJson
  | ⟨name, path, category, props, methods, events, styles, base?, children, description?⟩ => by
    simp only [withoutEmpty, toJson_eq, List.map_map, Function.comp_def,
      Property.toJson_withoutEmpty, Style.toJson_withoutEmpty, unlessEmpty_eq, nonEmpty?_nonEmpty?,
      isEmpty_allWithoutEmpty, allToJson_allWithoutEmpty children]
  termination_by structural c => c

theorem allToJson_allWithoutEmpty : (cs : List Component) →
    allToJson (allWithoutEmpty cs) = allToJson cs
  | [] => rfl
  | c :: cs => by
    rw [allWithoutEmpty, allToJson, allToJson, toJson_withoutEmpty c, allToJson_allWithoutEmpty cs]
  termination_by structural cs => cs

end

/-- **Components are written alike** exactly if they are the same without empty texts. -/
theorem toJson_eq_iff {c c' : Component} :
    c.toJson = c'.toJson ↔ withoutEmpty c = withoutEmpty c' := by
  refine ⟨withoutEmpty_eq_of_toJson c c', fun h => ?_⟩
  rw [← toJson_withoutEmpty c, h, toJson_withoutEmpty]

end Component

/-! ## Files -/

namespace Output

/-- **A text that is written as a value is a text of it**: it has nothing but ASCII characters, it
reads as the value, and so do the bytes of a file that it is stored in. -/
structure ReadsBack (text : String) (j : Json) : Prop where
  ascii : ∀ c ∈ text.toList, c.toNat < 0x80
  read : Json.read text = .ok j
  stored : ofFile? (encode text) = some text

/-- A plain value is read back from what it is rendered to. -/
theorem readsBack_render {j : Json} (hj : Plain j) : ReadsBack (render j) j where
  ascii c hc := by
    rw [render, String.toList_ofList] at hc
    exact (allWritten_renderAt j hj 0 c hc).toNat_lt
  read := read_render hj
  stored := ofFile?_written (allWritten_renderAt j hj 0)

/-- A document is read back from its text. -/
theorem readsBack_documentText (doc : Document) : ReadsBack (documentText doc) doc.toJson :=
  readsBack_render doc.plain_toJson

/-- All documents are read back from the text of one file. -/
theorem readsBack_catalogText (docs : List Document) :
    ReadsBack (catalogText docs) (.array (docs.map Document.toJson)) :=
  readsBack_render (plain_array Document.plain_toJson docs)

/-- Components are written alike exactly if they are the same without empty texts. -/
theorem documentText_eq_iff {c c' : Component} :
    documentText (.component c) = documentText (.component c') ↔
      c.withoutEmpty = c'.withoutEmpty := by
  rw [← Component.toJson_eq_iff]
  refine ⟨fun h => ?_, fun h => congrArg render h⟩
  have hread : Except.ok c.toJson = Except.ok c'.toJson :=
    (readsBack_documentText (.component c)).read.symm.trans
      (h ▸ (readsBack_documentText (.component c')).read)
  exact Except.ok.inj hread

/-- A text that has been written stands where its path leads, and only there something has
changed. -/
theorem writeText_spec {d d' : Disk} {dir path : Path} {text : String}
    (h : writeText d dir path text = .ok d') :
    Disk.Changed (· = d.place path) d d' ∧
      ∃ inner name, d'.Entry path inner name ∧
        d'.content? (d.place path) = some (encode text) := by
  unfold writeText at h
  cases hmake : d.makeDirectories dir with
  | error f =>
    rw [hmake] at h
    cases h
  | ok d₁ =>
    rw [hmake] at h
    have hwrite : d₁.updateFile path (fun _ => encode text) = .ok d' := h
    have hmade := Disk.changed_makeDirectories hmake
    have hwritten := Disk.changed_updateFile hwrite
    obtain ⟨inner, name, hentry, -, -⟩ := Disk.updateFile_eq_ok.1 hwrite
    rw [hmade.place] at hwritten
    refine ⟨(hmade.mono fun _ => False.elim).trans hwritten, inner, name, hwritten.entry hentry, ?_⟩
    rw [Disk.content?, Disk.look_of_updateFile hwrite, if_pos (hmade.place path).symm]
    rfl

/-- A text that is written is read back from its file. -/
theorem readFile_of_writeText {d d' : Disk} {dir path : Path} {text : String}
    (h : writeText d dir path text = .ok d') : d'.readFile path = .ok (encode text) := by
  obtain ⟨hchanged, inner, name, hentry, hcontent⟩ := writeText_spec h
  rw [← hchanged.place, hentry.place_eq] at hcontent
  exact Disk.readFile_of_entry hentry hcontent

theorem isEnding_json : Path.IsEnding ".json" :=
  ⟨by decide, 'n', by decide, by decide⟩

theorem isEnding_manualSuffix : Path.IsEnding manualSuffix :=
  ⟨by decide, 'd', by decide, by decide⟩

/-- The file of a document is not one that holds a text of the manual. -/
theorem place_documentPath_ne (d : Disk) (dir dir' : Path) (name name' : String) :
    d.place (documentPath dir name) ≠ d.place (manualPath dir' name') := by
  intro h
  obtain ⟨stem, hstem⟩ := d.exists_place_child isEnding_json dir name
  obtain ⟨stem', hstem'⟩ := d.exists_place_child isEnding_manualSuffix dir' name'
  rw [documentPath, manualPath] at h
  rw [h, hstem', Option.some.injEq] at hstem
  have hlast := congrArg (fun s : String => s.toList.getLast?) hstem
  simp [manualSuffix, List.getLast?_append] at hlast

/-- A document is saved by writing its text, and then perhaps a text of the manual. -/
theorem exists_of_saveDocument {d d' : Disk} {dir : Path} {doc : Document}
    {manual? : Option String} (h : saveDocument d dir doc manual? = .ok d') :
    ∃ d₁, writeText d dir (documentPath dir doc.name) (documentText doc) = .ok d₁ ∧
      (d' = d₁ ∨ ∃ text ∈ manual?, saveManual d₁ dir doc.name text = .ok d') := by
  unfold saveDocument at h
  cases hwrite : writeText d dir (documentPath dir doc.name) (documentText doc) with
  | error f =>
    rw [hwrite] at h
    cases h
  | ok d₁ =>
    rw [hwrite] at h
    refine ⟨d₁, rfl, ?_⟩
    cases manual? with
    | none =>
      cases h
      exact .inl rfl
    | some text =>
      change (if text.isEmpty then Except.ok d₁ else saveManual d₁ dir doc.name text) = .ok d' at h
      split_ifs at h
      · cases h
        exact .inl rfl
      · exact .inr ⟨text, rfl, h⟩

/-- A document that has been saved is read from its file, whatever text of the manual has been
saved with it. -/
theorem readFile_of_saveDocument {d d' : Disk} {dir : Path} {doc : Document}
    {manual? : Option String} (h : saveDocument d dir doc manual? = .ok d') :
    d'.readFile (documentPath dir doc.name) = .ok (encode (documentText doc)) := by
  obtain ⟨d₁, hwrite, heq | ⟨text, -, hmanual⟩⟩ := exists_of_saveDocument h
  · rw [heq]
    exact readFile_of_writeText hwrite
  · -- the text of the manual goes to another place
    obtain ⟨hchanged, -⟩ := writeText_spec hmanual
    obtain ⟨hdocument, inner, name, hentry, hcontent⟩ := writeText_spec hwrite
    rw [← hdocument.place] at hcontent
    rw [← hchanged.kept _ (place_documentPath_ne d₁ dir dir doc.name doc.name),
      hentry.place_eq] at hcontent
    exact Disk.readFile_of_entry (hchanged.entry hentry) hcontent

/-- **Documents read back.** The text of a document is ASCII and reads as the JSON of the
document, with the fields in their order, and so does the text of several documents. The file
that they are saved in holds that text. And components have the same text exactly if they are
the same, except for empty texts where missing ones are meant. -/
theorem documents_readBack :
    (∀ doc, ReadsBack (documentText doc) doc.toJson) ∧
    (∀ docs, ReadsBack (catalogText docs) (.array (docs.map Document.toJson))) ∧
    (∀ (d d' : Disk) (dir : Path) (doc : Document) (manual? : Option String),
      saveDocument d dir doc manual? = .ok d' →
        d'.readFile (documentPath dir doc.name) = .ok (encode (documentText doc))) ∧
    (∀ (d d' : Disk) (docs : List Document) (path : Path), saveAll d docs path = .ok d' →
      d'.readFile path = .ok (encode (catalogText docs))) ∧
    ∀ c c' : Component, documentText (.component c) = documentText (.component c') ↔
      c.withoutEmpty = c'.withoutEmpty :=
  ⟨readsBack_documentText, readsBack_catalogText, fun _ _ _ _ _ => readFile_of_saveDocument,
    fun _ _ _ _ => readFile_of_writeText, fun _ _ => documentText_eq_iff⟩

end Output

end ComponentCatalog
