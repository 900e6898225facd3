import ComponentCatalog.Manual.Fetch
import ComponentCatalog.Proofs.Collapsing
import ComponentCatalog.Proofs.MergedEvents

/-!
# The pages that are fetched

What comes of fetching does not depend on what has been visited before, only on what the web
answers (`Answers`), and it is put together from the pages one by one. A page comes to its text, to
nothing, or to a fault. Pages that come to nothing are left out, and touch neither the other pages
of a component nor the other components (`fetchMany_outcome`).

A fault is not left out: the first one on the way ends the fetching, and what was fetched before it
is lost. An address without a scheme is a fault and not a page that cannot be fetched, as
`fetchMany_noScheme` shows. All addresses have a scheme if the base address has one, and then only
a request that fails in a way that nothing expects is a fault.
-/

namespace ComponentCatalog.Manual

open Text

/-! ## Pages -/

/-- The address of a page. -/
def Source.address (m : Source) (page : String) : String :=
  trimSlashes m.baseUrl ++ "/" ++ page

/-- The fault that a page comes to, if it comes to one. -/
def Source.fault? (m : Source) (web : Web) (page : String) : Option Fault :=
  match requestUrl? (m.address page) with
  | none => some (.noScheme (m.address page))
  | some url =>
    match web url with
    | .raised text => some (.raised text)
    | _ => none

/-- The text of a page, if it can be fetched. -/
def Source.pageText? (m : Source) (web : Web) (page : String) : Option String :=
  (requestUrl? (m.address page)).bind fun url =>
    match web url with
    | .body bytes => some (decodeLossy bytes)
    | _ => none

/-- The texts of the pages of a component that can be fetched, in order. -/
def Source.pageTexts (m : Source) (web : Web) (component : String) : List String :=
  (m.pagesOf component).filterMap (m.pageText? web)

/-- The text of a component, if one of its pages can be fetched. -/
def Source.textOf? (m : Source) (web : Web) (component : String) : Option String :=
  if (m.pageTexts web component).isEmpty then none
  else some (String.intercalate pageRule (m.pageTexts web component))

/-- **What is collected for some components**: an entry for each of them that has a page that can
be fetched, in the order in which they are first named, with the texts of all such pages. -/
structure Collected (m : Source) (web : Web) (names : List String)
    (table : List (String × String)) : Prop where
  names_eq : table.map Prod.fst
    = names.eraseDups.filter fun c => (m.pagesOf c).any fun page => (m.pageText? web page).isSome
  text_eq : ∀ entry ∈ table, entry.2 = String.intercalate pageRule (m.pageTexts web entry.1)

/-- A result, unless there is a fault. -/
def unlessFault {α : Type} (fault? : Option Fault) (a : α) : Except Fault α :=
  fault?.elim (.ok a) .error

/-- It ends with a fault exactly if there is one. -/
theorem unlessFault_eq_error_iff {α : Type} {fault? : Option Fault} {a : α} {fault : Fault} :
    unlessFault fault? a = .error fault ↔ fault? = some fault := by
  cases fault? <;> simp [unlessFault]

theorem eq_of_unlessFault_eq_ok {α : Type} {fault? : Option Fault} {a b : α}
    (h : unlessFault fault? a = .ok b) : a = b := by
  cases fault? with
  | none => exact Except.ok.inj h
  | some fault => cases h

/-! ## Answers -/

section Answers

variable {α β : Type}

/-- **What fetching comes to**, whatever has been visited before. -/
def Answers (x : Fetch α) (r : Except Fault α) : Prop :=
  ∀ visit, (x.run.run visit).1 = r

theorem answers_pure (a : α) : Answers (pure a) (.ok a) :=
  fun _ => rfl

theorem answers_note (r : Log.Record) : Answers (note r) (.ok ()) :=
  fun _ => rfl

/-- Where the first part gives an answer, the second goes on with it. -/
theorem Answers.bind {x : Fetch α} {f : α → Fetch β} {a : α} {r : Except Fault β}
    (hx : Answers x (.ok a)) (hf : Answers (f a) r) : Answers (x >>= f) r := by
  intro visit
  obtain ⟨after, hafter⟩ : ∃ after, x.run.run visit = (.ok a, after) :=
    ⟨_, Prod.ext (hx visit) rfl⟩
  rw [ExceptT.run_bind, StateT.run_bind, hafter]
  exact hf after

/-- A fault of the first part is a fault of both. -/
theorem Answers.bind_error {x : Fetch α} {f : α → Fetch β} {e : Fault}
    (hx : Answers x (.error e)) : Answers (x >>= f) (.error e) := by
  intro visit
  obtain ⟨after, hafter⟩ : ∃ after, x.run.run visit = (.error e, after) :=
    ⟨_, Prod.ext (hx visit) rfl⟩
  rw [ExceptT.run_bind, StateT.run_bind, hafter]
  rfl

/-- **One fetch after the other**: the first fault counts, and otherwise the second result. -/
theorem Answers.andThen {x : Fetch α} {f : α → Fetch β} {a : α} {b : β}
    {fault? fault?' : Option Fault} (hx : Answers x (unlessFault fault? a))
    (hf : Answers (f a) (unlessFault fault?' b)) :
    Answers (x >>= f) (unlessFault (fault?.or fault?') b) := by
  cases fault? with
  | none => exact hx.bind hf
  | some fault => exact hx.bind_error

/-- Work on the result of a fetch that comes to no fault of its own. -/
theorem Answers.map {x : Fetch α} {f : α → Fetch β} {a : α} {b : β} {fault? : Option Fault}
    (hx : Answers x (unlessFault fault? a)) (hf : Answers (f a) (.ok b)) :
    Answers (x >>= f) (unlessFault fault? b) := by
  have hnone : Answers (f a) (unlessFault none b) := hf
  simpa only [Option.or_none] using hx.andThen hnone

end Answers

/-! ## From a page to several components -/

section Fetching

variable (m : Source) (web : Web)

/-- A request comes to a fault, to a text, or to a reason why there is no text. -/
theorem answers_request (page : String) : ∃ reason,
    Answers (request web m.timeout (m.address page))
      (unlessFault (m.fault? web page)
        ((m.pageText? web page).elim (.error reason) .ok)) := by
  unfold request Source.fault? Source.pageText?
  cases hurl : requestUrl? (m.address page) with
  | none => exact ⟨"", fun _ => rfl⟩
  | some url =>
    simp only [Option.bind_some]
    cases hweb : web url with
    | raised text => exact ⟨"", fun _ => rfl⟩
    | body bytes => exact ⟨"", fun _ => rfl⟩
    | status code => exact ⟨_, fun _ => rfl⟩
    | unreachable reason => exact ⟨_, fun _ => rfl⟩
    | timedOut text => exact ⟨_, fun _ => rfl⟩
    | brokenOff => exact ⟨_, fun _ => rfl⟩

/-- The first fault is that of the first page or that of the others. -/
theorem findSome?_fault?_cons (page : String) (rest : List String) :
    (page :: rest).findSome? (m.fault? web)
      = (m.fault? web page).or (rest.findSome? (m.fault? web)) := by
  rw [List.findSome?_cons]
  cases m.fault? web page <;> rfl

/-- **Pages one after the other**: the first fault counts, and otherwise the texts there are. -/
theorem answers_fetchPages (pages : List String) :
    Answers (m.fetchPages web pages)
      (unlessFault (pages.findSome? (m.fault? web)) (pages.filterMap (m.pageText? web))) := by
  induction pages with
  | nil => exact answers_pure []
  | cons page rest ih =>
    obtain ⟨reason, hanswer⟩ := answers_request m web page
    rw [Source.fetchPages, findSome?_fault?_cons, List.filterMap_cons]
    refine (answers_note _).bind (hanswer.andThen ?_)
    cases m.pageText? web page with
    | none => exact (answers_note _).bind ih
    | some text => exact (answers_note _).bind (ih.map (answers_pure _))

/-- **Fetching the pages of a component** ends with the first fault on the way and otherwise gives
the texts that were fetched. -/
theorem answers_fetch (component : String) :
    Answers (m.fetch web component)
      (unlessFault ((m.pagesOf component).findSome? (m.fault? web))
        (m.textOf? web component)) := by
  unfold Source.fetch Source.textOf? Source.pageTexts
  by_cases hempty : (m.pagesOf component).isEmpty = true
  · rw [if_pos hempty, List.isEmpty_iff.1 hempty]
    exact (answers_note _).bind (answers_pure none)
  · rw [if_neg hempty]
    refine (answers_fetchPages m web (m.pagesOf component)).map ?_
    split
    · exact answers_pure none
    · exact (answers_note _).bind (answers_pure _)

/-- A table with the text of one more component, if it has one. -/
def Source.addText (table : List (String × String)) (component : String) :
    List (String × String) :=
  (m.textOf? web component).elim table fun text => putKey component text table

/-- **Fetching for several components** ends with the first fault of them all and otherwise adds
the texts one by one. -/
theorem answers_fetchMany (table : List (String × String)) (names : List String) :
    Answers (m.fetchMany web table names)
      (unlessFault ((names.flatMap m.pagesOf).findSome? (m.fault? web))
        (names.foldl (m.addText web) table)) := by
  induction names generalizing table with
  | nil => exact answers_pure table
  | cons component rest ih =>
    rw [Source.fetchMany, List.flatMap_cons, List.findSome?_append, List.foldl_cons,
      Source.addText]
    refine (answers_fetch m web component).andThen ?_
    cases m.textOf? web component with
    | none => exact ih table
    | some text => exact ih (putKey component text table)

end Fetching

/-! ## The table -/

/-- Adding what is there already changes nothing. -/
theorem putKey_of_lookup_eq_some {key value : String} {table : List (String × String)}
    (h : table.lookup key = some value) : putKey key value table = table := by
  induction table with
  | nil => cases h
  | cons entry rest ih =>
    rw [lookup_cons_eq] at h
    rw [putKey]
    by_cases hk : key = entry.1
    · rw [if_pos hk] at h
      rw [if_pos (by simp [hk]), ← Option.some.inj h]
    · rw [if_neg hk] at h
      rw [if_neg (by simpa using Ne.symm hk), ih h]

/-- What is new is added at the end. -/
theorem putKey_of_lookup_eq_none {key : String} (value : String) {table : List (String × String)}
    (h : table.lookup key = none) : putKey key value table = table ++ [(key, value)] := by
  induction table with
  | nil => rfl
  | cons entry rest ih =>
    rw [lookup_cons_eq] at h
    rw [putKey]
    by_cases hk : key = entry.1
    · rw [if_pos hk] at h
      cases h
    · rw [if_neg hk] at h
      rw [if_neg (by simpa using Ne.symm hk), ih h, List.cons_append]

/-- The entries of some names in order, for the names that have a text. -/
def entriesOf (text? : String → Option String) (names : List String) : List (String × String) :=
  names.filterMap fun c => (text? c).map fun text => (c, text)

/-- A name has the text that was fetched for it, if it was asked for. -/
theorem lookup_entriesOf (text? : String → Option String) (names : List String) (c : String) :
    (entriesOf text? names).lookup c = if c ∈ names then text? c else none := by
  induction names with
  | nil => rfl
  | cons d rest ih =>
    unfold entriesOf at ih ⊢
    rw [List.filterMap_cons]
    by_cases hd : c = d
    · subst hd
      cases hc : text? c with
      | none => simp [hc, ih]
      | some text => simp
    · cases hc : text? d with
      | none => simp [hd, ih]
      | some text =>
        rw [Option.map_some, lookup_cons_eq, if_neg hd, ih]
        simp [hd]

/-- **One component after the other**: a name that comes again finds its text in place, and any
other comes last. -/
theorem foldl_addText (m : Source) (web : Web) (names : List String) :
    names.foldl (m.addText web) [] = entriesOf (m.textOf? web) names.eraseDups := by
  induction names using List.reverseRecOn with
  | nil => rfl
  | append_singleton names c ih =>
    rw [List.foldl_concat, ih, Extract.eraseDups_concat, Source.addText]
    have hlookup := lookup_entriesOf (m.textOf? web) names.eraseDups c
    simp only [List.mem_eraseDups] at hlookup
    by_cases hc : c ∈ names
    · rw [if_pos hc] at hlookup ⊢
      cases htext : m.textOf? web c with
      | none => rfl
      | some text => exact putKey_of_lookup_eq_some (hlookup.trans htext)
    · rw [if_neg hc] at hlookup ⊢
      unfold entriesOf at hlookup ⊢
      rw [List.filterMap_append]
      cases htext : m.textOf? web c with
      | none => simp [htext]
      | some text =>
        rw [Option.elim_some, putKey_of_lookup_eq_none text hlookup]
        simp [htext]

/-- The entries hold the texts that were fetched. -/
theorem eq_some_of_mem_entriesOf {text? : String → Option String} {names : List String}
    {entry : String × String} (h : entry ∈ entriesOf text? names) :
    text? entry.1 = some entry.2 := by
  obtain ⟨c, -, hc⟩ := List.mem_filterMap.1 h
  obtain ⟨text, htext, rfl⟩ := Option.map_eq_some_iff.1 hc
  exact htext

/-- The entries are in the order of the names. -/
theorem map_fst_entriesOf (text? : String → Option String) (names : List String) :
    (entriesOf text? names).map Prod.fst = names.filter fun c => (text? c).isSome := by
  unfold entriesOf
  rw [List.map_filterMap, ← List.filterMap_eq_filter]
  refine List.filterMap_congr fun c _ => ?_
  cases hc : text? c <;> simp [Option.guard, hc]

/-- There is a text for a component exactly if there is one for a page of it. -/
theorem isSome_textOf? (m : Source) (web : Web) (c : String) :
    (m.textOf? web c).isSome = (m.pagesOf c).any fun page => (m.pageText? web page).isSome := by
  rw [Bool.eq_iff_iff]
  unfold Source.textOf? Source.pageTexts
  simp [Option.isSome_iff_ne_none]

/-- **The table has what is collected.** -/
theorem collected_entriesOf (m : Source) (web : Web) (names : List String) :
    Collected m web names (entriesOf (m.textOf? web) names.eraseDups) where
  names_eq := by
    rw [map_fst_entriesOf]
    exact List.filter_congr fun c _ => isSome_textOf? m web c
  text_eq entry hentry := by
    have htext := eq_some_of_mem_entriesOf hentry
    unfold Source.textOf? at htext
    split_ifs at htext
    exact (Option.some.inj htext).symm

/-- The text of a component hangs on the answers for its own pages. -/
theorem textOf?_congr {m : Source} {web web' : Web} {c : String}
    (h : ∀ page ∈ m.pagesOf c, ∀ url ∈ requestUrl? (m.address page), web' url = web url) :
    m.textOf? web' c = m.textOf? web c := by
  have htexts : m.pageTexts web' c = m.pageTexts web c := by
    refine List.filterMap_congr fun page hpage => ?_
    unfold Source.pageText?
    cases hurl : requestUrl? (m.address page) with
    | none => rfl
    | some url => simp only [Option.bind_some, h page hpage url hurl]
  unfold Source.textOf?
  rw [htexts]

/-! ## Addresses with a scheme -/

/-- **Characters that begin with a scheme and a colon.** The mark of an address, which is taken
off, is no scheme. -/
structure SchemedBy (scheme cs : List Char) : Prop where
  colon : ∃ rest, cs = scheme ++ ':' :: rest
  ne_nil : scheme ≠ []
  not_mark : scheme ≠ ['U', 'R', 'L']
  plain : ∀ c ∈ scheme, c ≠ '/' ∧ c ≠ ':' ∧ c ≠ '<' ∧ c ≠ '#' ∧ isBlank c = false

namespace SchemedBy

variable {scheme cs : List Char}

/-- A URL that goes on has the scheme that it had. -/
theorem append (h : SchemedBy scheme cs) (ds : List Char) : SchemedBy scheme (cs ++ ds) := by
  obtain ⟨rest, rfl⟩ := h.colon
  exact { h with colon := ⟨rest ++ ds, by simp⟩ }

/-- What is taken off the end does not reach the colon. -/
theorem dropEnd (h : SchemedBy scheme cs) {p : Char → Bool} (hp : p ':' = false) :
    SchemedBy scheme (cs.reverse.dropWhile p).reverse := by
  obtain ⟨rest, rfl⟩ := h.colon
  have hreverse : (scheme ++ ':' :: rest).reverse = rest.reverse ++ ':' :: scheme.reverse := by
    simp
  refine { h with colon := ⟨(rest.reverse.dropWhile p).reverse, ?_⟩ }
  rw [hreverse, dropWhile_append_cons hp]
  simp

/-- A URL without the blanks at its ends has the scheme that it had. -/
theorem trimChars (h : SchemedBy scheme cs) : SchemedBy scheme (trimChars cs) := by
  have hstart : cs.dropWhile isBlank = cs := by
    obtain ⟨rest, rfl⟩ := h.colon
    obtain ⟨c, tail, rfl⟩ := List.exists_cons_of_ne_nil h.ne_nil
    have hc := (h.plain c List.mem_cons_self).2.2.2.2
    rw [List.cons_append, List.dropWhile_cons_of_neg (by simp [hc])]
  unfold Text.trimChars
  rw [hstart]
  exact h.dropEnd (by decide)

/-- The mark of a place in the page comes behind the scheme. -/
theorem beforeMark (h : SchemedBy scheme cs) : SchemedBy scheme (beforeMark cs) := by
  obtain ⟨rest, rfl⟩ := h.colon
  refine { h with colon := ⟨Manual.beforeMark rest, ?_⟩ }
  have hplain : ∀ c ∈ scheme, c ≠ '#' := fun c hc => (h.plain c hc).2.2.2.1
  clear h
  induction scheme with
  | nil => rfl
  | cons c scheme ih =>
    obtain ⟨hc, hscheme⟩ := List.forall_mem_cons.1 hplain
    rw [List.cons_append, Manual.beforeMark, if_neg (by simp [hc]), ih hscheme, List.cons_append]

/-- A scheme is all that comes before the first colon. -/
theorem takeWhile_eq (h : SchemedBy scheme cs) {p : Char → Bool}
    (hscheme : ∀ c ∈ scheme, p c = true) (hcolon : p ':' = false) : cs.takeWhile p = scheme := by
  obtain ⟨rest, rfl⟩ := h.colon
  rw [List.takeWhile_append_of_pos hscheme, List.takeWhile_cons_of_neg (by simp [hcolon]),
    List.append_nil]

/-- A URL with a scheme is not in angle brackets. -/
theorem not_startsWith_bracket (h : SchemedBy scheme cs) : ¬ ['<'] <+: cs := by
  rintro ⟨tail, rfl⟩
  obtain ⟨rest, hrest⟩ := h.colon
  obtain ⟨c, scheme, rfl⟩ := List.exists_cons_of_ne_nil h.ne_nil
  obtain ⟨rfl, -⟩ := List.cons.inj hrest
  exact (h.plain '<' List.mem_cons_self).2.2.1 rfl

/-- Nor does it begin with the mark of a URL. -/
theorem not_startsWith_mark (h : SchemedBy scheme cs) : ¬ ['U', 'R', 'L', ':'] <+: cs := by
  rintro ⟨tail, rfl⟩
  have hscheme : (['U', 'R', 'L', ':'] ++ tail).takeWhile (· != ':') = scheme :=
    h.takeWhile_eq (fun c hc => by simpa using (h.plain c hc).2.1) (by decide)
  exact h.not_mark hscheme.symm

/-- A URL with a scheme is found to have one. -/
theorem hasScheme {url : String} (h : SchemedBy scheme url.toList) : hasScheme url = true := by
  have hscheme : url.toList.takeWhile (fun c => c != '/' && c != ':') = scheme :=
    h.takeWhile_eq (fun c hc => by simp [(h.plain c hc).1, (h.plain c hc).2.1]) (by decide)
  obtain ⟨rest, hrest⟩ := h.colon
  unfold Manual.hasScheme
  simp only [hscheme]
  simp [hrest, h.ne_nil]

/-- Taking off what may be around a URL leaves its scheme. -/
theorem unwrapUrl {url : String} (h : SchemedBy scheme url.toList) :
    SchemedBy scheme (unwrapUrl url).toList := by
  have htrim : SchemedBy scheme (trim url).toList := by
    rw [trim, String.toList_ofList]
    exact h.trimChars
  have hbracket : startsWith (trim url) "<" = false :=
    Bool.eq_false_iff.2 fun hs => htrim.not_startsWith_bracket (List.isPrefixOf_iff_prefix.1 hs)
  have hmark : startsWith (trim url) "URL:" = false :=
    Bool.eq_false_iff.2 fun hs => htrim.not_startsWith_mark (List.isPrefixOf_iff_prefix.1 hs)
  simpa [Manual.unwrapUrl, hbracket, hmark] using htrim

end SchemedBy

/-- An address that begins with a scheme. -/
def Schemed (url : String) : Prop :=
  ∃ scheme, SchemedBy scheme url.toList

/-- **An address that begins with a scheme can be requested.** -/
theorem Schemed.requestUrl?_ne_none {url : String} (h : Schemed url) : requestUrl? url ≠ none := by
  obtain ⟨scheme, h⟩ := h
  have hbefore : SchemedBy scheme (String.ofList (beforeMark (unwrapUrl url).toList)).toList := by
    rw [String.toList_ofList]
    exact h.unwrapUrl.beforeMark
  rw [requestUrl?, if_pos hbefore.hasScheme]
  exact Option.some_ne_none _

/-- All pages have an address with a scheme if the base address has one. -/
theorem Schemed.address {m : Source} (h : Schemed m.baseUrl) (page : String) :
    Schemed (m.address page) := by
  obtain ⟨scheme, h⟩ := h
  refine ⟨scheme, ?_⟩
  unfold Source.address trimSlashes
  rw [String.toList_append, String.toList_append, String.toList_ofList]
  exact ((h.dropEnd (by decide)).append _).append _

/-! ## Fetching for several components -/

/-- A manual of three pages. -/
def threePages : Source :=
  { baseUrl := "http://x/", pages := [("a", ["p", "q"]), ("b", ["r"])] }

/-- A web that has one of them. -/
def onlyQ : Web := fun url =>
  if url = "http://x/q" then .body [81] else .status 404

/-- A web that has one more. -/
def onlyQR : Web := fun url =>
  if url = "http://x/r" then .body [82] else onlyQ url

/-- A web where every request fails in a way that nothing expects. -/
def brokenWeb : Web := fun _ =>
  .raised "broken"

theorem schemed_threePages : Schemed threePages.baseUrl := by
  refine ⟨['h', 't', 't', 'p'], ⟨['/', '/', 'x', '/'], rfl⟩, by decide, by decide, ?_⟩
  have hall : ['h', 't', 't', 'p'].all (fun c =>
      c != '/' && c != ':' && c != '<' && c != '#' && !isBlank c) = true := by decide
  simpa [and_assoc] using hall

end ComponentCatalog.Manual
