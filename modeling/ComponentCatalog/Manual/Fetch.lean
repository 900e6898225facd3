import ComponentCatalog.Config
import ComponentCatalog.Log
import ComponentCatalog.Table
import ComponentCatalog.Text.Affix
import ComponentCatalog.Text.Blank
import ComponentCatalog.Text.Lowercase
import ComponentCatalog.Text.Utf8

/-!
# Fetching pages of the manual

The pages that describe a component are fetched one by one and joined, with a rule
between them. A page that cannot be fetched is noted and left out; if none can be
fetched there is nothing. An address without a scheme is no address at all, and that
ends the fetching, as does a request that fails in a way that nothing expects.

What the web answers is a parameter, `Web`, so that fetching is a function of it.
-/

namespace ComponentCatalog.Manual

open Text

/-- A request for a page. -/
structure Request where
  url : String
  /-- How long an answer is waited for, in seconds. -/
  timeout : Nat
  deriving DecidableEq, Repr

/-- The method of requests. -/
def Request.method : String := "GET"

/-- The kind of content that is asked for. -/
def Request.accept : String := "text/plain"

/-- An answer to a request. -/
inductive Response where
  | body (bytes : List UInt8)
  | status (code : Int)
  | unreachable (reason : String)
  /-- No answer came in time; the text tells more, unless it is empty. -/
  | timedOut (text : String)
  /-- The answer broke off. -/
  | brokenOff
  /-- The request failed in a way that nothing expects. -/
  | raised (text : String)
  deriving DecidableEq, Repr

/-- Why fetching ended. -/
inductive Fault where
  /-- An address has no scheme. -/
  | noScheme (url : String)
  /-- A request failed in a way that nothing expects. -/
  | raised (text : String)
  deriving DecidableEq, Repr

/-- The text of an answer, or why there is none, unless the answer is a fault. -/
def Response.text : Response → Except Fault (Except String String)
  | body bytes => .ok (.ok (decodeLossy bytes))
  | status code => .ok (.error ("status " ++ code.repr))
  | unreachable reason => .ok (.error reason)
  | timedOut text => .ok (.error (if text.isEmpty then "TimeoutError" else text))
  | brokenOff => .ok (.error "IncompleteRead(0 bytes read)")
  | raised text => .error (.raised text)

/-- The answers to all requests. -/
abbrev Web := String → Response

/-- A manual: where it is, what its pages are, and how long to wait for one. -/
structure Source where
  baseUrl : String := defaultBaseUrl
  pages : List (String × List String) := defaultPages
  timeout : Nat := 30

/-- A base address without slashes at its end. -/
def trimSlashes (url : String) : String :=
  String.ofList ((url.toList.reverse.dropWhile (· == '/')).reverse)

/-- The pages that describe a component, whatever the case of its name. -/
def Source.pagesOf (m : Source) (component : String) : List String :=
  (m.pages.lookup (lower component)).getD []

/-- An address without blanks, angle brackets and the mark of an address around it. -/
def unwrapUrl (url : String) : String :=
  let url := trim url
  let url :=
    if startsWith url "<" && endsWith url ">" then trim (dropFirst (dropLast url 1) 1) else url
  if startsWith url "URL:" then trim (dropFirst url 4) else url

/-- Whether an address starts with a scheme. -/
def hasScheme (url : String) : Bool :=
  let cs := url.toList
  let scheme := cs.takeWhile fun c => c != '/' && c != ':'
  !scheme.isEmpty && (cs.drop scheme.length).head? == some ':'

/-- What precedes the mark of a place in the page, which is the last of its kind. -/
def beforeMark : List Char → List Char
  | [] => []
  | c :: cs => if c == '#' && !cs.contains '#' then [] else c :: beforeMark cs

/-- The address that is requested for an address that was written, if it is one: a scheme
has to precede the mark of a place in the page. A mark of nothing is dropped. -/
def requestUrl? (url : String) : Option String :=
  let url := unwrapUrl url
  if hasScheme (String.ofList (beforeMark url.toList)) then
    some (if endsWith url "#" then dropLast url 1 else url)
  else none

/-- What has happened while pages were fetched. -/
structure Visit where
  /-- The log, latest record first. -/
  log : List Log.Record := []
  /-- The requests, latest first. -/
  requests : List Request := []

/-- A computation that fetches pages. -/
abbrev Fetch := ExceptT Fault (StateM Visit)

/-- Adds a record to the log. -/
def note (r : Log.Record) : Fetch Unit :=
  modify fun v => { v with log := r :: v.log }

/-- The page at an address, or why there is none. -/
def request (web : Web) (timeout : Nat) (url : String) : Fetch (Except String String) := do
  match requestUrl? url with
  | none => throw (.noScheme url)
  | some url =>
    modify fun v => { v with requests := ⟨url, timeout⟩ :: v.requests }
    ofExcept (web url).text

/-- The pages of a list that can be fetched, in order. -/
def Source.fetchPages (m : Source) (web : Web) : List String → Fetch (List String)
  | [] => return []
  | page :: rest => do
    note (Log.debug "docs" ("Fetching docs from " ++ page))
    match ← request web m.timeout (trimSlashes m.baseUrl ++ "/" ++ page) with
    | .error reason =>
      note (Log.warning "docs" ("Failed to fetch docs from " ++ page ++ ": " ++ reason))
      m.fetchPages web rest
    | .ok content =>
      note (Log.debug "docs" ("Fetched " ++ content.length.repr ++ " bytes from " ++ page))
      return content :: (← m.fetchPages web rest)

/-- What stands between two pages. -/
def pageRule : String := "\n\n---\n\n"

/-- The pages that describe a component, in one text. -/
def Source.fetch (m : Source) (web : Web) (component : String) : Fetch (Option String) := do
  let pages := m.pagesOf component
  if pages.isEmpty then
    note (Log.info "docs" ("No documentation mapping found for " ++ component))
    return none
  let contents ← m.fetchPages web pages
  if contents.isEmpty then return none
  let text := String.intercalate pageRule contents
  note (Log.info "docs"
    ("Fetched " ++ text.length.repr ++ " bytes of documentation for " ++ component))
  return some text

/-- The texts of several components that have one, by their names. A name that is
given again gets the text that was fetched last. -/
def Source.fetchMany (m : Source) (web : Web) (done : List (String × String)) :
    List String → Fetch (List (String × String))
  | [] => return done
  | component :: rest => do
    match ← m.fetch web component with
    | some text => m.fetchMany web (putKey component text done) rest
    | none => m.fetchMany web done rest

end ComponentCatalog.Manual
