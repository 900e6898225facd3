import ComponentCatalog.Proofs.OneByOne

/-!
# Requests one after the other

A session is used for many requests: the components of a library, all documents or one of
them, the properties that a type hands down, the file that declares a type. Each request
may fill what the session remembers, in the middle of other work, and each may fail after
it has done so. What the requests before it have left behind does not show in the answer
to a request. One request keeps the session in agreement with the library
(`steady_answer`), and so does any sequence of them, by induction on the sequence
(`serve_eq`).
-/

namespace ComponentCatalog

/-- What a session can be asked for. -/
inductive Request where
  /-- The components that are documented, and their further names. -/
  | components
  /-- The documents of all of them. -/
  | allDocuments
  /-- The document of one candidate, which need not be one that was found. -/
  | document (c : Candidate)
  /-- The document of the component in a directory. -/
  | componentDocument (path category : String) (name? : Option String)
  /-- The properties that are inherited from a type. -/
  | inherited (base? : Option String)
  /-- The file that declares a type. -/
  | artifact (typeName : String)

/-- What a session replies. -/
inductive Reply where
  | candidates (cs : List Candidate)
  | documents (ds : List Document)
  | document (d? : Option Document)
  | component (c? : Option Component)
  | properties (ps : List Property)
  | path (p : Path)

/-- The computation that a request starts. -/
def Request.answer (l : Library) : Request → Catalog Reply
  | components => Reply.candidates <$> l.findComponents
  | allDocuments => Reply.documents <$> l.allDocuments
  | document c => Reply.document <$> l.candidateDocument c
  | componentDocument path category name? =>
    Reply.component <$> l.componentDocument path category name?
  | inherited base? => Reply.properties <$> l.inheritedProperties base?
  | artifact typeName =>
    Reply.path <$> findArtifact l.disk l.path l.config.inheritance typeName

/-- The replies to requests that come one after the other, from a session on, and the
session that is left behind. A request that fails is followed by the next one. -/
def serve (l : Library) : List Request → Session → List (Except Fault Reply) × Session
  | [], s => ([], s)
  | r :: rest, s =>
    let (replies, s') := serve l rest ((r.answer l).after s)
    ((r.answer l).result s :: replies, s')

section Serve

variable (l : Library)

theorem steady_allDocuments : Steady l l.allDocuments := by
  rcases gives_findComponents l with hf | ⟨cs, hcatalogued, hcs⟩
  · exact hf.bind_error.steady
  · exact (gives_allDocuments l hcatalogued hcs).steady

/-- **Every request is steady**, whatever it asks for. -/
theorem steady_answer (r : Request) : Steady l (r.answer l) := by
  cases r with
  | components => exact (steady_findComponents l).bind fun _ => .pure _
  | allDocuments => exact (steady_allDocuments l).bind fun _ => .pure _
  | document c => exact (gives_candidateDocument l c).steady.bind fun _ => .pure _
  | componentDocument path category name? =>
    exact (steady_componentDocument l path category name?).bind fun _ => .pure _
  | inherited base? => exact (steady_inheritedProperties l base?).bind fun _ => .pure _
  | artifact typeName => exact (gives_findArtifact l typeName).steady.bind fun _ => .pure _

/-- In a session that agrees, requests are replied to one by one as if each were the
first, and the session that is left agrees. -/
theorem serve_eq (requests : List Request) {s : Session} (hs : s.Agrees l) :
    (serve l requests s).1 = requests.map (fun r => (r.answer l).fresh)
      ∧ (serve l requests s).2.Agrees l := by
  induction requests generalizing s with
  | nil => exact ⟨rfl, hs⟩
  | cons r rest ih =>
    obtain ⟨hresult, hafter⟩ := steady_answer l r s hs
    obtain ⟨hreplies, hleft⟩ := ih hafter
    refine ⟨?_, hleft⟩
    show (r.answer l).result s :: (serve l rest ((r.answer l).after s)).1 = _
    rw [hresult, hreplies, List.map_cons]

end Serve

/-- **What is remembered does not show.** Whatever a session has been asked for before, and
whichever of those requests have failed, its reply to each request is the one of a session
that has just begun; and what it remembers after all of them is what would be worked out
anew. -/
theorem serve_eq_map_fresh (l : Library) (requests : List Request) :
    (serve l requests {}).1 = requests.map (fun r => (r.answer l).fresh)
      ∧ (serve l requests {}).2.Agrees l :=
  serve_eq l requests (Session.agrees_empty l)

end ComponentCatalog
