import ComponentCatalog.Proofs.Nesting
import ComponentCatalog.Proofs.OneByOne
import ComponentCatalog.Proofs.Runs
import ComponentCatalog.Proofs.WrittenDocuments

/-!
# A file for each document

Documents that are written one by one each get a file that is named after the document. The name
of an alias is any text, and a text can lead anywhere: to the file of another document, or out of
the directory that the files are meant for. So a document is found in its file exactly if the
places that the names lead to are apart (`Apart`): inside the directory, the same for two
documents only if these are written alike, and none of them that of the log file.

The places are known beforehand, since a path resolves to its place without a look at the tree.
One document changes what stands at its own place and at that of the log file (`Wrote`); the
others leave it alone unless they go to the same place, and what comes after them, the texts of
the manual, goes to places of another ending.
-/

namespace ComponentCatalog

open Text

/-! ## The name that a document shows -/

theorem Json.field?_putField (k key : String) (v : Json) (fields : List (Wide × Json)) :
    (Json.object (putField (.ofString k) v fields)).field? key =
      if k = key then some v else (Json.object fields).field? key := by
  induction fields with
  | nil => by_cases hkey : k = key <;> simp [putField, field?, Wide.ofString_inj, hkey]
  | cons f fields ih =>
    obtain ⟨k', v'⟩ := f
    simp only [field?] at ih
    by_cases hk : k' = .ofString k
    · by_cases hkey : k = key <;> simp [putField, field?, Wide.ofString_inj, hk, hkey]
    · by_cases hk' : k' = .ofString key
      · have hne : k ≠ key := fun h => hk (h ▸ hk')
        simp [putField, field?, hk', hne, Wide.ofString_inj, hne.symm]
      · simp [putField, field?, hk, hk', ih]

/-- A document shows its name. -/
theorem Document.field?_componentName (doc : Document) :
    doc.toJson.field? "componentName" = some (.text doc.name) := by
  cases doc with
  | component c =>
    show c.toJson.field? _ = _
    rw [Component.toJson_eq, Json.field?_ofFields]
    rfl
  | renamed name source description =>
    show ((source.toJson.withField _ _).withField _ _).field? _ = _
    rw [Component.toJson_eq, Json.ofFields, Json.withField, Json.withField, Json.field?_putField,
      if_neg (by decide), Json.field?_putField, if_pos rfl]
    rfl

/-- Documents that are written alike have the same name. -/
theorem Document.name_eq_of_toJson {doc doc' : Document} (h : doc.toJson = doc'.toJson) :
    doc.name = doc'.name := by
  have hname := congrArg (Json.field? · "componentName") h
  simp only [field?_componentName, Option.some.injEq] at hname
  exact Json.text_inj.1 hname

namespace Command

open Output

/-- **A document is filed**: its file lies inside a directory, and what stands in the file reads
as the JSON of the document. -/
def Filed (d : Disk) (dir : Path) (doc : Document) : Prop :=
  d.place dir <+: d.place (documentPath dir doc.name) ∧
    ∃ bytes, d.readFile (documentPath dir doc.name) = .ok bytes ∧
      (ofFile? bytes).map Json.read = some (.ok doc.toJson)

/-- **The files of documents are apart**: they lie inside a directory, documents that are not
written alike have different ones, and none is the log file. -/
structure Apart (d : Disk) (dir : Path) (docs : List Document) (log? : Option Path) : Prop where
  inside : ∀ doc ∈ docs, d.place dir <+: d.place (documentPath dir doc.name)
  distinct : ∀ doc ∈ docs, ∀ doc' ∈ docs,
    d.place (documentPath dir doc'.name) = d.place (documentPath dir doc.name) →
      doc'.toJson = doc.toJson
  log : ∀ file ∈ log?, ∀ doc ∈ docs, d.place (documentPath dir doc.name) ≠ d.place file

theorem Filed.exists_content? {d : Disk} {dir : Path} {doc : Document} (h : Filed d dir doc) :
    ∃ bytes, d.content? (d.place (documentPath dir doc.name)) = some bytes ∧
      (ofFile? bytes).map Json.read = some (.ok doc.toJson) := by
  obtain ⟨-, bytes, hbytes, hjson⟩ := h
  exact ⟨bytes, Disk.content?_of_readFile hbytes, hjson⟩

/-! ## One document after the other -/

/-- **What saving a document does**: the document stands in its file, and no other file has
changed. -/
structure Saved (dir : Path) (doc : Document) (o o' : Log.Outlets) : Prop where
  kept : Log.Outlets.Kept (· = o.disk.place (documentPath dir doc.name)) o o'
  entry : ∃ inner name, o'.disk.Entry (documentPath dir doc.name) inner name
  content?_eq : o'.disk.content? (o.disk.place (documentPath dir doc.name)) =
    some (encode (documentText doc))

/-- A document has been written and this has been noted. -/
def Wrote (dir : Path) (doc : Document) (h h' : Host) : Prop :=
  ∃ o, Saved dir doc h.toOutlets o ∧
    h'.toOutlets = o.send (savedNote (documentPath dir doc.name))

section Wrote

variable {dir : Path} {doc : Document} {h h' : Host}

/-- A document that is saved has its own file written, and nothing else. -/
theorem saved_of_saveDocument {o : Log.Outlets} {disk : Disk}
    (hs : saveDocument o.disk dir doc none = .ok disk) :
    Saved dir doc o { o with disk := disk } := by
  obtain ⟨d, hwrite, rfl | ⟨text, htext, -⟩⟩ := exists_of_saveDocument hs
  · obtain ⟨hchanged, inner, name, hentry, hcontent⟩ := writeText_spec hwrite
    exact ⟨⟨hchanged, rfl⟩, ⟨inner, name, hentry⟩, hcontent⟩
  · exact absurd htext (Option.not_mem_none text)

/-- What one document changes: its own file and the log file. -/
theorem Wrote.kept (hw : Wrote dir doc h h') :
    Log.Outlets.Kept (fun place => h.toOutlets.IsLog place ∨
      place = h.disk.place (documentPath dir doc.name)) h.toOutlets h'.toOutlets := by
  obtain ⟨o, hsaved, hsend⟩ := hw
  rw [hsend]
  refine (hsaved.kept.mono fun _ => .inr).trans ((o.kept_send _).mono fun place hplace => ?_)
  exact .inl ((hsaved.kept.isLog_iff place).1 hplace)

theorem Wrote.entry (hw : Wrote dir doc h h') :
    ∃ inner name, h'.disk.Entry (documentPath dir doc.name) inner name := by
  obtain ⟨o, hsaved, hsend⟩ := hw
  obtain ⟨inner, name, hentry⟩ := hsaved.entry
  refine ⟨inner, name, ?_⟩
  rw [hsend]
  exact (o.kept_send _).disk.entry hentry

/-- The document stands in its file, unless that is the log file. -/
theorem Wrote.content? (hw : Wrote dir doc h h')
    (hlog : ¬h.toOutlets.IsLog (h.disk.place (documentPath dir doc.name))) :
    h'.disk.content? (h.disk.place (documentPath dir doc.name)) =
      some (encode (documentText doc)) := by
  obtain ⟨o, hsaved, hsend⟩ := hw
  rw [hsend, (o.kept_send _).disk.kept _ fun hplace => hlog ((hsaved.kept.isLog_iff _).1 hplace)]
  exact hsaved.content?_eq

/-- A written value with a record behind it. -/
def Noted (content? : Option (List UInt8)) : Prop :=
  ∃ j more, Json.Plain j ∧ content? = some (encode (Json.render j) ++ (encode "INFO" ++ more))

/-- That is no JSON. -/
theorem Noted.not_read {bytes : List UInt8} (hn : Noted (some bytes)) (j : Json) :
    (ofFile? bytes).map Json.read ≠ some (.ok j) := by
  obtain ⟨j', more, hj', hbytes⟩ := hn
  have hinfo : Json.AllWritten "INFO".toList := by decide
  have hrecord : ofFile? (encode "INFO" ++ more) = (ofFile? more).map ("INFO" ++ ·) :=
    ofFile?_written_append hinfo more
  rw [Option.some.inj hbytes, Json.read_file_append hj', hrecord, Option.map_map]
  cases ofFile? more with
  | none => nofun
  | some s =>
    -- what stands behind the value begins with a letter, so it is not blank
    rw [Option.map_some, Function.comp_apply, String.toList_append]
    exact nofun

theorem Noted.sendAll {o : Log.Outlets} (ho : o.Ready) {place : List String}
    (hn : Noted (o.disk.content? place)) (rs : List Log.Record) :
    Noted ((o.sendAll rs).disk.content? place) := by
  induction rs generalizing o with
  | nil => exact hn
  | cons r rs ih =>
    refine ih ((o.kept_send r).ready ho) ?_
    by_cases hlog : o.IsLog place
    · obtain ⟨j, more, hj, hcontent⟩ := hn
      refine ⟨j, more ++ encode r.fileLine, hj, ?_⟩
      rw [Log.Outlets.content?_send ho hlog, hcontent, Option.getD_some, List.append_assoc,
        List.append_assoc]
    · rw [(o.kept_send r).disk.kept place hlog]
      exact hn

/-- What stands in the log file is no JSON after the document has been written to it, and stays
none if the document goes elsewhere. -/
theorem Wrote.noted (hw : Wrote dir doc h h') (hready : h.toOutlets.Ready) {place : List String}
    (hlog : h.toOutlets.IsLog place)
    (hplace : place = h.disk.place (documentPath dir doc.name) ∨ Noted (h.disk.content? place)) :
    Noted (h'.disk.content? place) := by
  obtain ⟨o, hsaved, hsend⟩ := hw
  have hready' : o.Ready := hsaved.kept.ready hready
  rw [hsend]
  by_cases hown : place = h.disk.place (documentPath dir doc.name)
  · -- the record that notes the document is the first one behind it
    obtain ⟨rest, hline⟩ : ∃ rest,
        (savedNote (documentPath dir doc.name)).fileLine = "INFO" ++ rest :=
      ⟨_, by simp only [Log.Record.fileLine, String.append_assoc]; rfl⟩
    rw [Log.Outlets.content?_send hready' ((hsaved.kept.isLog_iff _).2 hlog)]
    refine ⟨doc.toJson, encode rest, doc.plain_toJson, ?_⟩
    rw [hline, encode_append, hown, hsaved.content?_eq, Option.getD_some]
    rfl
  · have hnoted : Noted (o.disk.content? place) := by
      rw [hsaved.kept.disk.kept place hown]
      exact hplace.resolve_left hown
    exact hnoted.sendAll hready' [_]

end Wrote

section WriteEach

variable {dir : Path} {docs : List Document} {h h' : Host} {u : Unit}

/-- Documents are written one after the other. -/
theorem yields_writeEach_cons {doc : Document}
    (hy : Yields (writeEach dir (doc :: docs)) h u h') :
    ∃ h₁, Wrote dir doc h h₁ ∧ Yields (writeEach dir docs) h₁ u h' := by
  rw [writeEach] at hy
  obtain ⟨_, h₁, hchange, hy⟩ := yields_bind.1 hy
  obtain ⟨_, h₂, hsend, hy⟩ := yields_bind.1 hy
  obtain ⟨disk, hsave, rfl⟩ := yields_change.1 hchange
  cases yields_sendAll.1 hsend
  exact ⟨_, ⟨_, saved_of_saveDocument hsave, rfl⟩, hy⟩

/-- Documents change their own files and the log file. -/
theorem kept_writeEach (hy : Yields (writeEach dir docs) h u h') :
    Log.Outlets.Kept (fun place => h.toOutlets.IsLog place ∨
      ∃ doc ∈ docs, place = h.disk.place (documentPath dir doc.name))
      h.toOutlets h'.toOutlets := by
  induction docs generalizing h with
  | nil =>
    obtain ⟨-, rfl⟩ := yields_pure.1 hy
    exact .refl _
  | cons doc docs ih =>
    obtain ⟨h₁, hwrote, hrest⟩ := yields_writeEach_cons hy
    have hfirst := hwrote.kept
    refine (hfirst.mono fun place => .imp id fun hplace => ⟨doc, .head _, hplace⟩).trans
      ((ih hrest).mono fun place hplace => ?_)
    obtain hlog | ⟨doc', hmem, hplace⟩ := hplace
    · exact .inl ((hfirst.isLog_iff place).1 hlog)
    · exact .inr ⟨doc', .tail _ hmem, hplace.trans (hfirst.disk.place _)⟩

/-- Each document that has been written has its file. -/
theorem entry_writeEach (hy : Yields (writeEach dir docs) h u h') {doc : Document}
    (hdoc : doc ∈ docs) : ∃ inner name, h'.disk.Entry (documentPath dir doc.name) inner name := by
  induction docs generalizing h with
  | nil => cases hdoc
  | cons doc' docs ih =>
    obtain ⟨h₁, hwrote, hrest⟩ := yields_writeEach_cons hy
    obtain rfl | hdoc := List.mem_cons.1 hdoc
    · obtain ⟨inner, name, hentry⟩ := hwrote.entry
      exact ⟨inner, name, (kept_writeEach hrest).disk.entry hentry⟩
    · exact ih hrest hdoc

/-- **A document stands in its file**, if that is not the log file and all documents that go there
are written alike. -/
theorem content?_writeEach (hy : Yields (writeEach dir docs) h u h') {doc : Document}
    (hdoc : doc ∈ docs) (hlog : ¬h.toOutlets.IsLog (h.disk.place (documentPath dir doc.name)))
    (hsame : ∀ doc' ∈ docs, h.disk.place (documentPath dir doc'.name) =
      h.disk.place (documentPath dir doc.name) → doc'.toJson = doc.toJson) :
    h'.disk.content? (h.disk.place (documentPath dir doc.name)) =
      some (encode (documentText doc)) := by
  induction docs generalizing h doc with
  | nil => cases hdoc
  | cons first docs ih =>
    obtain ⟨h₁, hwrote, hrest⟩ := yields_writeEach_cons hy
    have hfirst := hwrote.kept
    have hplace (p : Path) : h₁.disk.place p = h.disk.place p := hfirst.disk.place p
    by_cases hlater : ∃ doc' ∈ docs, h.disk.place (documentPath dir doc'.name) =
        h.disk.place (documentPath dir doc.name)
    · -- the last document that goes there is among the rest
      obtain ⟨doc', hmem, hequal⟩ := hlater
      have htext : documentText doc' = documentText doc :=
        congrArg Json.render (hsame doc' (.tail _ hmem) hequal)
      have hcontent := ih hrest hmem (by rw [hplace, hequal, hfirst.isLog_iff]; exact hlog)
        fun doc'' hmem' hequal' => by
          rw [hplace, hplace, hequal] at hequal'
          rw [hsame doc'' (.tail _ hmem') hequal', hsame doc' (.tail _ hmem) hequal]
      rwa [hplace, hequal, htext] at hcontent
    · -- no later document goes there, so this one is the first
      obtain rfl | hdoc := List.mem_cons.1 hdoc
      · rw [(kept_writeEach hrest).disk.kept]
        · exact hwrote.content? hlog
        · rintro (hislog | ⟨doc', hmem, hequal⟩)
          · exact hlog ((hfirst.isLog_iff _).1 hislog)
          · exact hlater ⟨doc', hmem, by rw [← hplace, ← hequal]⟩
      · exact absurd ⟨doc, hdoc, rfl⟩ hlater

/-- A document whose file is the log file is followed by records there. -/
theorem noted_writeEach (hy : Yields (writeEach dir docs) h u h') (hready : h.toOutlets.Ready)
    {place : List String} (hlog : h.toOutlets.IsLog place)
    (hplace : (∃ doc ∈ docs, place = h.disk.place (documentPath dir doc.name)) ∨
      Noted (h.disk.content? place)) :
    Noted (h'.disk.content? place) := by
  induction docs generalizing h with
  | nil =>
    obtain ⟨-, rfl⟩ := yields_pure.1 hy
    exact hplace.resolve_left (by simp)
  | cons first docs ih =>
    obtain ⟨h₁, hwrote, hrest⟩ := yields_writeEach_cons hy
    have hfirst := hwrote.kept
    refine ih hrest (hfirst.ready hready) ((hfirst.isLog_iff place).2 hlog) ?_
    obtain ⟨doc, hmem, hown⟩ | hnoted := hplace
    · obtain rfl | hmem := List.mem_cons.1 hmem
      · exact .inr (hwrote.noted hready hlog (.inl hown))
      · exact .inl ⟨doc, hmem, hown.trans (hfirst.disk.place _).symm⟩
    · exact .inr (hwrote.noted hready hlog (.inr hnoted))

end WriteEach

/-! ## The texts of the manual -/

section Manual

variable {dir : Path} {h h' : Host} {u : Unit}

/-- A place where a text of the manual goes. -/
def IsManual (d : Disk) (dir : Path) (place : List String) : Prop :=
  ∃ name, place = d.place (manualPath dir name)

/-- Texts of the manual go to files of their own. -/
theorem kept_writeManual {texts : List (String × String)}
    (hy : Yields (writeManual dir texts) h u h') :
    Log.Outlets.Kept (IsManual h.disk dir) h.toOutlets h'.toOutlets := by
  induction texts generalizing h with
  | nil =>
    obtain ⟨-, rfl⟩ := yields_pure.1 hy
    exact .refl _
  | cons entry texts ih =>
    obtain ⟨name, text⟩ := entry
    rw [writeManual] at hy
    obtain ⟨_, h₁, hchange, hrest⟩ := yields_bind.1 hy
    obtain ⟨disk, hsave, rfl⟩ := yields_change.1 hchange
    obtain ⟨hchanged, -⟩ := writeText_spec hsave
    have hfirst : Log.Outlets.Kept (IsManual h.disk dir) h.toOutlets
        { h.toOutlets with disk := disk } := ⟨hchanged.mono fun _ hplace => ⟨name, hplace⟩, rfl⟩
    refine hfirst.trans ((ih hrest).mono fun place hmanual => ?_)
    obtain ⟨name', hplace⟩ := hmanual
    exact ⟨name', hplace.trans (hchanged.place _)⟩

/-- What comes after the documents: records are sent, and texts of the manual are written. -/
def Followed (dir : Path) (h h' : Host) : Prop :=
  ∃ rs, Log.Outlets.Kept (IsManual h.disk dir) (h.toOutlets.sendAll rs) h'.toOutlets

theorem followed_fetchManual {web : Manual.Web} {settings : ManualSettings} {docs : List Document}
    (hy : Yields (fetchManual web settings dir docs) h u h') : Followed dir h h' := by
  unfold fetchManual at hy
  obtain ⟨texts, h₁, hvisit, hy⟩ := yields_bind.1 hy
  obtain ⟨_, h₂, hwrite, hprint⟩ := yields_bind.1 hy
  obtain ⟨rs, hrecords⟩ := toOutlets_of_yields_visit hvisit
  have hplace (p : Path) : h₁.disk.place p = h.disk.place p := by
    rw [hrecords]
    exact (h.toOutlets.kept_sendAll rs).disk.place p
  refine ⟨rs, ?_⟩
  rw [toOutlets_of_yields_print hprint, ← hrecords]
  refine (kept_writeManual hwrite).mono fun place hmanual => ?_
  obtain ⟨name, hname⟩ := hmanual
  exact ⟨name, hname.trans (hplace _)⟩

/-- The texts of the manual leave the files of documents alone. -/
theorem content?_of_kept_manual {o o' : Log.Outlets} {d : Disk}
    (hd : ∀ p, o.disk.place p = d.place p)
    (hkept : Log.Outlets.Kept (IsManual d dir) o o') (name : String) :
    o'.disk.content? (o.disk.place (documentPath dir name)) =
      o.disk.content? (o.disk.place (documentPath dir name)) := by
  refine hkept.disk.kept _ ?_
  rintro ⟨name', hequal⟩
  rw [hd] at hequal
  exact place_documentPath_ne d dir dir name name' hequal

end Manual

/-! ## All documents -/

section All

variable {dir : Path} {docs : List Document} {h h₁ h' : Host} {u : Unit}

/-- What comes after the documents changes none of their files but the log file. -/
theorem Followed.content?_eq (hf : Followed dir h h') (name : String)
    (hlog : ¬h.toOutlets.IsLog (h.disk.place (documentPath dir name))) :
    h'.disk.content? (h.disk.place (documentPath dir name)) =
      h.disk.content? (h.disk.place (documentPath dir name)) := by
  obtain ⟨rs, hafter⟩ := hf
  have hsent := h.toOutlets.kept_sendAll rs
  have hleft := content?_of_kept_manual hsent.disk.place hafter name
  rw [hsent.disk.place] at hleft
  exact hleft.trans (hsent.disk.kept _ hlog)

/-- **A document stands in its file in the end**, if that is not the log file and all documents
that go there are written alike. -/
theorem content?_of_followed (hy : Yields (writeEach dir docs) h u h₁) (hf : Followed dir h₁ h')
    {doc : Document} (hdoc : doc ∈ docs)
    (hlog : ¬h.toOutlets.IsLog (h.disk.place (documentPath dir doc.name)))
    (hsame : ∀ doc' ∈ docs, h.disk.place (documentPath dir doc'.name) =
      h.disk.place (documentPath dir doc.name) → doc'.toJson = doc.toJson) :
    h'.disk.content? (h.disk.place (documentPath dir doc.name)) =
      some (encode (documentText doc)) := by
  have hwritten := kept_writeEach hy
  have hplace := hwritten.disk.place (documentPath dir doc.name)
  have hkept := hf.content?_eq doc.name
    (by rw [hplace]; exact fun h => hlog ((hwritten.isLog_iff _).1 h))
  rw [hplace] at hkept
  exact hkept.trans (content?_writeEach hy hdoc hlog hsame)

/-- **Every document is filed exactly if the files are apart.** -/
theorem filed_iff_apart (hready : h.toOutlets.Ready)
    (hy : Yields (writeEach dir docs) h u h₁) (hf : Followed dir h₁ h') :
    (∀ doc ∈ docs, Filed h'.disk dir doc) ↔ Apart h.disk dir docs h.routing.file? := by
  obtain ⟨rs, hafter⟩ := hf
  have hwritten := kept_writeEach hy
  have hsent := h₁.toOutlets.kept_sendAll rs
  have hplace (p : Path) : h'.disk.place p = h.disk.place p :=
    (hafter.disk.place p).trans ((hsent.disk.place p).trans (hwritten.disk.place p))
  have hmanual (name : String) : h'.disk.content? (h.disk.place (documentPath dir name)) =
      (h₁.toOutlets.sendAll rs).disk.content? (h.disk.place (documentPath dir name)) := by
    have hleft := content?_of_kept_manual hsent.disk.place hafter name
    rwa [hsent.disk.place, hwritten.disk.place] at hleft
  constructor
  · intro hfiled
    have hread (doc : Document) (hdoc : doc ∈ docs) := (hfiled doc hdoc).exists_content?
    simp only [hplace] at hread
    refine ⟨fun doc hdoc => ?_, fun doc hdoc doc' hdoc' hequal => ?_,
      fun file hfile doc hdoc hequal => ?_⟩
    · have hinside := (hfiled doc hdoc).1
      rwa [hplace, hplace] at hinside
    · -- one file cannot hold two documents
      obtain ⟨bytes, hbytes, hjson⟩ := hread doc hdoc
      obtain ⟨bytes', hbytes', hjson'⟩ := hread doc' hdoc'
      rw [hequal, hbytes, Option.some.injEq] at hbytes'
      rw [← hbytes', hjson, Option.some.injEq, Except.ok.injEq] at hjson'
      exact hjson'.symm
    · -- a document in the log file is followed by the record that notes it
      obtain ⟨bytes, hbytes, hjson⟩ := hread doc hdoc
      have hnoted := noted_writeEach hy hready ⟨file, hfile, hequal⟩ (.inl ⟨doc, hdoc, rfl⟩)
      have hlast := hnoted.sendAll (hwritten.ready hready) rs
      rw [← hmanual, hbytes] at hlast
      exact hlast.not_read _ hjson
  · intro hapart doc hdoc
    have hlog : ¬h.toOutlets.IsLog (h.disk.place (documentPath dir doc.name)) := by
      rintro ⟨file, hfile, hequal⟩
      exact hapart.log file hfile doc hdoc hequal
    have hcontent := content?_of_followed hy ⟨rs, hafter⟩ hdoc hlog (hapart.distinct doc hdoc)
    obtain ⟨inner, name, hentry⟩ := entry_writeEach hy hdoc
    have hentry' := hafter.disk.entry (hsent.disk.entry hentry)
    rw [← hplace, hentry'.place_eq] at hcontent
    refine ⟨?_, _, Disk.readFile_of_entry hentry' hcontent, Json.read_file doc.plain_toJson⟩
    rw [hplace, hplace]
    exact hapart.inside doc hdoc

end All

/-! ## Names that lead to places of their own -/

/-- A name without a slash in it leads into the directory. -/
theorem place_documentPath {name : String} (hslash : '/' ∉ name.toList) (d : Disk) (dir : Path) :
    d.place (documentPath dir name) = d.place dir ++ [name ++ ".json"] := by
  obtain ⟨hempty, hdot, hup⟩ := isEnding_json.append_ne name
  have hslash' : '/' ∉ (name ++ ".json").toList := by
    rw [String.toList_append, List.mem_append, not_or]
    exact ⟨hslash, isEnding_json.slash⟩
  rw [documentPath, Path.child_eq_below dir hempty hdot hslash']
  rw [Disk.place_eq_settle, Disk.fullParts_below, Disk.settle_concat hup, ← Disk.place_eq_settle]

/-- The last name of the place tells the name of the document. -/
theorem name_eq_of_place_documentPath {name name' : String} (hslash : '/' ∉ name.toList)
    (hslash' : '/' ∉ name'.toList) {d d' : Disk} {dir dir' : Path}
    (h : d.place (documentPath dir name) = d'.place (documentPath dir' name')) : name = name' := by
  rw [place_documentPath hslash, place_documentPath hslash'] at h
  have hfile := List.singleton_inj.1 (List.append_inj_right' h rfl)
  rw [← String.toList_inj, String.toList_append, String.toList_append] at hfile
  exact String.toList_inj.1 (List.append_cancel_right hfile)

/-- Documents of different names are apart, if no name has a slash in it and the log is
elsewhere. -/
theorem apart_of_nodup {d : Disk} {dir : Path} {docs : List Document} {log? : Option Path}
    (hnodup : (docs.map Document.name).Nodup) (hslash : ∀ doc ∈ docs, '/' ∉ doc.name.toList)
    (hlog : ∀ file ∈ log?, ∀ doc ∈ docs, d.place (documentPath dir doc.name) ≠ d.place file) :
    Apart d dir docs log? where
  inside doc hdoc := by
    rw [place_documentPath (hslash doc hdoc)]
    exact List.prefix_append _ _
  distinct doc hdoc doc' hdoc' hequal := by
    have hname := name_eq_of_place_documentPath (hslash doc' hdoc') (hslash doc hdoc) hequal
    rw [List.inj_on_of_nodup_map hnodup hdoc' hdoc hname]
  log := hlog

section DocumentNames

variable {l : Library}

/-- A document has the name that it was asked for by. -/
theorem name_of_componentOf {path category name : String} {c : Component}
    (h : l.componentOf path category name = some c) (hne : name ≠ "") : c.name = name := by
  have hgives : Gives l (l.componentDocument path category (some name))
      (.ok ((l.built category (l.disk.tree.directoryCount + 1) (some name) []
        (.ofString path)).map l.config.policy.applyTo)) :=
    (gives_build l _ _ _ _ _).bind (.pure _)
  rw [Library.componentOf, hgives.fresh_eq, toOption_join_eq_some_iff, Except.ok.injEq,
    Option.map_eq_some_iff] at h
  obtain ⟨c', hbuilt, rfl⟩ := h
  rw [built_succ, toOption_join_eq_some_iff, assembled_eq_some_iff] at hbuilt
  obtain ⟨_, facets, _, -, -, -, -, rfl⟩ := hbuilt
  rw [Policy.name_applyTo]
  show documentedName (some name) _ = name
  rw [documentedName, Option.filter_some, if_pos (by simpa using hne), Option.getD_some]

/-- The document of a candidate has its name. -/
theorem name_of_documentOf {c : Candidate} {doc : Document} (h : l.documentOf c = some doc)
    (hne : c.aliasOf? = none → c.name ≠ "") : doc.name = c.name := by
  unfold Library.documentOf at h
  split at h
  · next hnone =>
    obtain ⟨component, hcomponent, rfl⟩ := Option.map_eq_some_iff.1 h
    exact name_of_componentOf hcomponent (hne hnone)
  · obtain ⟨source, -, rfl⟩ := Option.map_eq_some_iff.1 h
    rfl

/-- The names of documents are those of their candidates, in order. -/
theorem map_name_sublist (l : Library) {cs : List Candidate} (hne : ∀ c ∈ cs, c.name ≠ "") :
    ((cs.filterMap l.documentOf).map Document.name).Sublist (cs.map Candidate.name) := by
  induction cs with
  | nil => exact .slnil
  | cons c cs ih =>
    have hrest := ih fun c' hc' => hne c' (.tail _ hc')
    rw [List.filterMap_cons]
    split
    · exact hrest.cons _
    · next doc hdoc =>
      rw [List.map_cons, List.map_cons, name_of_documentOf hdoc fun _ => hne c (.head _)]
      exact hrest.cons_cons _

/-- **The names of all documents** are names of components that are found, and are distinct. -/
theorem names_of_allDocuments {cs : List Candidate} {docs : List Document}
    (hcs : l.findComponents.fresh = .ok cs) (hdocs : l.allDocuments.fresh = .ok docs)
    (hne : ∀ c ∈ cs, c.name ≠ "") :
    (docs.map Document.name).Nodup ∧
      (docs.map Document.name).Sublist (cs.map Candidate.name) := by
  obtain hf | ⟨cs', hcatalogued, hfound⟩ := gives_findComponents l
  · rw [hf.fresh_eq] at hcs
    cases hcs
  · rw [hfound.fresh_eq] at hcs
    cases hcs
    rw [(gives_allDocuments l hcatalogued hfound).fresh_eq] at hdocs
    cases hdocs
    have hsublist := (map_name_sublist l fun c hc => hne c (List.mem_of_mem_filter hc)).trans
      ((List.filter_sublist (p := fun c => !isChained cs c)).map Candidate.name)
    exact ⟨hcatalogued.nodup.sublist hsublist, hsublist⟩

end DocumentNames

/-! ## A run -/

/-- Whether files are apart depends on where paths lead to. -/
theorem apart_congr {d d' : Disk} (hplace : ∀ p, d'.place p = d.place p) {dir : Path}
    {docs : List Document} {log? : Option Path} :
    Apart d' dir docs log? ↔ Apart d dir docs log? := by
  constructor
  · rintro ⟨hinside, hdistinct, hlog⟩
    simp only [hplace] at hinside hdistinct hlog
    exact ⟨hinside, hdistinct, hlog⟩
  · rintro ⟨hinside, hdistinct, hlog⟩
    refine ⟨?_, ?_, ?_⟩ <;> simp only [hplace] <;> assumption

/-- Where all documents are asked for, they are those of the library. -/
theorem yields_documents_all {l : Library} {s : Settings} {h h' : Host} {docs : List Document}
    (hall : s.all = true) (hy : Yields (documents l s) h docs h') :
    l.allDocuments.fresh = .ok docs ∧ ∃ rs, h'.toOutlets = h.toOutlets.sendAll rs := by
  unfold documents at hy
  rw [if_pos hall] at hy
  obtain ⟨made, h₁, hcatalog, hpure⟩ := yields_bind.1 hy
  obtain ⟨rfl, rfl⟩ := yields_pure.1 hpure
  exact yields_catalog hcatalog

/-- All documents are made, then written one by one, and then texts of the manual may follow. -/
theorem yields_generate_each {web : Manual.Web} {l : Library} {s : Settings} {h h' : Host}
    (hall : s.all = true) (heach : s.singleFile = false) {u : Unit}
    (hy : Yields (generate web l s) h u h') :
    ∃ docs rs h₁ h₂, l.allDocuments.fresh = .ok docs ∧
      h₁.toOutlets = h.toOutlets.sendAll rs ∧
      Yields (writeEach (argumentPath h.disk s.output) docs) h₁ () h₂ ∧
      Followed (argumentPath h.disk s.output) h₂ h' := by
  unfold generate at hy
  obtain ⟨_, h₀, hget, hy⟩ := yields_bind.1 hy
  obtain ⟨rfl, rfl⟩ := yields_get.1 hget
  obtain ⟨docs, h₁, hdocs, hy⟩ := yields_bind.1 hy
  obtain ⟨_, h₂, hwrite, hmanual⟩ := yields_bind.1 hy
  obtain ⟨hmade, rs, hsent⟩ := yields_documents_all hall hdocs
  unfold writeDocuments at hwrite
  obtain ⟨_, h₄, hget, hwrite⟩ := yields_bind.1 hwrite
  obtain ⟨rfl, rfl⟩ := yields_get.1 hget
  rw [if_neg (by simp [heach])] at hwrite
  obtain ⟨_, h₅, heach, hprint⟩ := yields_bind.1 hwrite
  have hprinted := toOutlets_of_yields_print hprint
  refine ⟨_, rs, _, h₅, hmade, hsent, heach, ?_⟩
  split at hmanual
  · obtain ⟨rs', hkept⟩ := followed_fetchManual hmanual
    refine ⟨rs', ?_⟩
    rwa [hprinted] at hkept
  · obtain ⟨-, rfl⟩ := yields_pure.1 hmanual
    exact ⟨[], by rw [hprinted]; exact .refl _⟩

/-- A run that writes all documents one by one files each of them exactly if the files are
apart. -/
theorem exists_filed_iff_apart {web : Manual.Web} {words : List String} {d : Disk} {s : Settings}
    {h : Host} (hparse : parse words = .ok (.generate, s)) (hall : s.all = true)
    (heach : s.singleFile = false) (hrun : run web words d = (none, h)) :
    ∃ o l docs, Reads d s o l ∧ l.allDocuments.fresh = .ok docs ∧
      ((∀ doc ∈ docs, Filed h.disk (argumentPath d s.output) doc) ↔
        Apart d (argumentPath d s.output) docs (s.logFile?.map d.resolve)) := by
  obtain ⟨h₀, l, hreads, hy⟩ := exists_reads_of_run hparse hrun
  obtain ⟨docs, rs, h₁, h₂, hdocs, hsent, hwrite, hfollowed⟩ := yields_generate_each hall heach hy
  have hrouted := Log.Outlets.routed_configure hreads.routed
  have hkept := h₀.toOutlets.kept_sendAll rs
  rw [← hsent] at hkept
  have hdir : argumentPath h₀.disk s.output = argumentPath d s.output :=
    argumentPath_of_changed hrouted.changed s.output
  have hplace (p : Path) : h₁.disk.place p = d.place p :=
    (hkept.disk.place p).trans (hrouted.changed.place p)
  have hlog : h₁.routing.file? = s.logFile?.map d.resolve := by
    rw [hkept.routing]
    exact hrouted.file?_eq
  rw [hdir] at hwrite hfollowed
  have hiff := filed_iff_apart (hkept.ready hrouted.ready) hwrite hfollowed
  rw [hlog, apart_congr hplace] at hiff
  exact ⟨_, l, docs, hreads, hdocs, hiff⟩

/-- **Writing all documents one by one.** The command reads a library, and each of the documents
of that library can be read from its own file in the output directory exactly if the files are
apart. They are if no name has a slash in it and the log goes elsewhere. -/
theorem generate_files_iff_apart (web : Manual.Web) {words : List String} {d : Disk}
    {s : Settings} {h : Host} (hparse : parse words = .ok (.generate, s)) (hall : s.all = true)
    (heach : s.singleFile = false) (hrun : run web words d = (none, h)) :
    ∃ o l docs, Reads d s o l ∧ l.allDocuments.fresh = .ok docs ∧
      ((∀ doc ∈ docs, Filed h.disk (argumentPath d s.output) doc) ↔
        Apart d (argumentPath d s.output) docs (s.logFile?.map d.resolve)) ∧
      ∀ cs, l.findComponents.fresh = .ok cs →
        (∀ c ∈ cs, c.name ≠ "" ∧ '/' ∉ c.name.toList) →
        (∀ file ∈ s.logFile?.map d.resolve, ∀ doc ∈ docs,
          d.place (documentPath (argumentPath d s.output) doc.name) ≠ d.place file) →
        ∀ doc ∈ docs, Filed h.disk (argumentPath d s.output) doc := by
  obtain ⟨o, l, docs, hreads, hdocs, hiff⟩ := exists_filed_iff_apart hparse hall heach hrun
  refine ⟨o, l, docs, hreads, hdocs, hiff, fun cs hcs hnames helsewhere => hiff.2 ?_⟩
  obtain ⟨hnodup, hsublist⟩ := names_of_allDocuments hcs hdocs fun c hc => (hnames c hc).1
  refine apart_of_nodup hnodup (fun doc hdoc => ?_) helsewhere
  obtain ⟨c, hc, hname⟩ := List.mem_map.1 (hsublist.subset (List.mem_map_of_mem hdoc))
  rw [← hname]
  exact (hnames c hc).2

/-! ### A component and an alias -/

/-- A component in the working directory, and a configuration with an alias for it. -/
def withAlias (name : String) : Disk where
  tree := .directory
    [(".compdoc.yml", .file (encode
      ("components: \x7binclude: [a], aliases: \x7b" ++ name ++ ": a\x7d\x7d\n"))),
    ("components", .directory [("g", .directory [("a", .directory
      [("a.props.js.map", sourceMapFile "class AProps\x7bb\x7d")])])])]
  cwd := ⟨"/", []⟩
  home := ⟨"/", []⟩

/-- That component and that alias as a library. -/
def aliasLibrary (name : String) : Library where
  disk := withAlias name
  path := ⟨"/", []⟩
  config := { includeComponents := ["a"], aliases := [(name, "a")] }

/-- A command that writes all documents of the working directory one by one. -/
def eachWords : List String := ["generate", "--all", "-l", ".", "-o", "out"]

def eachSettings : Settings := { all := true, library := ".", output := "out" }

theorem parse_eachWords : parse eachWords = .ok (.generate, eachSettings) := rfl

/-- Nothing answers. -/
def offline : Manual.Web := fun _ => .unreachable "offline"

theorem Reads.eq_aliasLibrary {name : String} {o : Log.Outlets} {l : Library}
    (hreads : Reads (withAlias name) eachSettings o l)
    (hload : Config.load (withAlias name) (some ⟨"/", []⟩) = .ok (aliasLibrary name).config) :
    l = aliasLibrary name := by
  have hpath : ⟨"/", []⟩ = Path.resolve ⟨"/", []⟩ (Path.expandHome ⟨"/", []⟩ (Path.ofString ".")) :=
    by decide
  exact hreads.unique ⟨rfl, rfl, hpath, hload⟩

theorem generate_files_iff_apart_otherName :
    (run offline eachWords (withAlias "z")).1 = none ∧
      ∃ o docs, Reads (withAlias "z") eachSettings o (aliasLibrary "z") ∧
        (aliasLibrary "z").allDocuments.fresh = .ok docs ∧
        docs.map Document.name = ["a", "z"] ∧
        ∀ doc ∈ docs, Filed (run offline eachWords (withAlias "z")).2.disk
          (argumentPath (withAlias "z") "out") doc := by
  have hrun : (run offline eachWords (withAlias "z")).1 = none := by decide +kernel
  have hload : Config.load (withAlias "z") (some ⟨"/", []⟩) = .ok (aliasLibrary "z").config := by
    decide +kernel
  have hfound : (aliasLibrary "z").findComponents.fresh.map (·.map Candidate.name) =
      .ok ["a", "z"] := by decide +kernel
  have hmade : (aliasLibrary "z").allDocuments.fresh.map (·.map Document.name) =
      .ok ["a", "z"] := by decide +kernel
  obtain ⟨o, l, docs, hreads, hdocs, -, hplain⟩ :=
    generate_files_iff_apart offline parse_eachWords rfl rfl (Prod.fst_eq_iff.1 hrun)
  cases hreads.eq_aliasLibrary hload
  rw [hdocs] at hmade
  obtain ⟨cs, hcs, hnames⟩ : ∃ cs, (aliasLibrary "z").findComponents.fresh = .ok cs ∧
      cs.map Candidate.name = ["a", "z"] := by
    cases hcs : (aliasLibrary "z").findComponents.fresh with
    | error f =>
      rw [hcs] at hfound
      cases hfound
    | ok cs =>
      rw [hcs] at hfound
      exact ⟨cs, rfl, Except.ok.inj hfound⟩
  refine ⟨hrun, o, docs, hreads, hdocs, Except.ok.inj hmade, hplain cs hcs (fun c hc => ?_) nofun⟩
  have hname : c.name ∈ ["a", "z"] := hnames ▸ List.mem_map_of_mem hc
  revert hname
  generalize c.name = name
  revert name
  decide

/-- **An alias can take the place of what it stands for**: its name leads to the file of the
other document, so that one of the two documents is lost, though the command ends well. -/
theorem generate_overwritten :
    (run offline eachWords (withAlias "./a")).1 = none ∧
      (withAlias "./a").exists? (argumentPath (withAlias "./a") "out") = .ok false ∧
      ∃ o docs, Reads (withAlias "./a") eachSettings o (aliasLibrary "./a") ∧
        (aliasLibrary "./a").allDocuments.fresh = .ok docs ∧
        docs.map Document.name = ["a", "./a"] ∧
        ¬∀ doc ∈ docs, Filed (run offline eachWords (withAlias "./a")).2.disk
          (argumentPath (withAlias "./a") "out") doc := by
  have hrun : (run offline eachWords (withAlias "./a")).1 = none := by decide +kernel
  have hload : Config.load (withAlias "./a") (some ⟨"/", []⟩) =
      .ok (aliasLibrary "./a").config := by decide +kernel
  have hmade : (aliasLibrary "./a").allDocuments.fresh.map (·.map Document.name) =
      .ok ["a", "./a"] := by decide +kernel
  have hplace : (withAlias "./a").place (documentPath (argumentPath (withAlias "./a") "out") "./a")
      = (withAlias "./a").place (documentPath (argumentPath (withAlias "./a") "out") "a") := by
    decide +kernel
  obtain ⟨o, l, docs, hreads, hdocs, hiff⟩ :=
    exists_filed_iff_apart parse_eachWords rfl rfl (Prod.fst_eq_iff.1 hrun)
  cases hreads.eq_aliasLibrary hload
  rw [hdocs] at hmade
  have hnames : docs.map Document.name = ["a", "./a"] := Except.ok.inj hmade
  refine ⟨hrun, by decide +kernel, o, docs, hreads, hdocs, hnames, fun hfiled => ?_⟩
  obtain ⟨doc, hdoc, hname⟩ : ∃ doc ∈ docs, doc.name = "a" :=
    List.mem_map.1 (hnames ▸ .head _)
  obtain ⟨doc', hdoc', hname'⟩ : ∃ doc' ∈ docs, doc'.name = "./a" :=
    List.mem_map.1 (hnames ▸ .tail _ (.head _))
  have hequal := Document.name_eq_of_toJson
    ((hiff.1 hfiled).distinct doc hdoc doc' hdoc' (by rw [hname, hname']; exact hplace))
  rw [hname, hname'] at hequal
  exact absurd hequal (by decide)

end Command

end ComponentCatalog
