import ComponentCatalog.Path
import ComponentCatalog.Text.Affix
import ComponentCatalog.Text.Quoted

/-!
# Command-line arguments

A command line names a command, `generate` or `list`, and has options before and
behind the name. An option has a long name and often a short one. A long name may be
cut short as long as it is the beginning of one name only, and its value may follow
an equals sign; short names may be run together, and a value may follow them directly
or behind an equals sign.

The words of a command line are first told apart (`Word`), all of them before any
takes effect, so that an ambiguous option is found even behind a faulty one. Then
they take effect one after the other. Words that mean nothing are collected, and told
only if nothing else was wrong.
-/

namespace ComponentCatalog.Command

open Text

/-- What an option is about. -/
inductive Topic where
  | help
  | verbose
  | logFile
  | library
  | config
  | all
  | component
  | output
  | singleFile
  | fetchDocs
  deriving DecidableEq, Repr

/-- An option. -/
structure Flag where
  topic : Topic
  names : List String
  /-- Whether the option has a value. -/
  hasValue : Bool
  deriving DecidableEq, Repr

/-- The name of an option in messages. -/
def Flag.title (f : Flag) : String :=
  String.intercalate "/" f.names

/-- Asks for help. -/
def helpFlag : Flag := ⟨.help, ["-h", "--help"], false⟩

/-- Asks for all log records on the console. -/
def verboseFlag : Flag := ⟨.verbose, ["-v", "--verbose"], false⟩

/-- Gives the log file. -/
def logFileFlag : Flag := ⟨.logFile, ["--log-file"], true⟩

/-- Gives the directory of the library. -/
def libraryFlag : Flag := ⟨.library, ["-l", "--library"], true⟩

/-- Gives the configuration. -/
def configFlag : Flag := ⟨.config, ["--config"], true⟩

/-- Asks for all components. -/
def allFlag : Flag := ⟨.all, ["-a", "--all"], false⟩

/-- Asks for one component. -/
def componentFlag : Flag := ⟨.component, ["-c", "--component"], true⟩

/-- Gives the directory for documents. -/
def outputFlag : Flag := ⟨.output, ["-o", "--output"], true⟩

/-- Asks for one file that holds all documents. -/
def singleFileFlag : Flag := ⟨.singleFile, ["--single-file"], false⟩

/-- Asks for the texts of the manual. -/
def fetchDocsFlag : Flag := ⟨.fetchDocs, ["--fetch-docs"], false⟩

/-- The options that stand before the name of a command. -/
def commonFlags : List Flag := [helpFlag, verboseFlag, logFileFlag]

/-- The options of the command that lists components. -/
def listFlags : List Flag := commonFlags ++ [libraryFlag, configFlag]

/-- The options of the command that generates documents. -/
def generateFlags : List Flag :=
  listFlags ++ [allFlag, componentFlag, outputFlag, singleFileFlag, fetchDocsFlag]

/-! ## Faults of a command line -/

/-- What is wrong with a command line. -/
inductive Problem where
  | ambiguous (word : String) (candidates : List String)
  | noValue (f : Flag)
  | unwantedValue (f : Flag) (value : String)
  | conflict (f other : Flag)
  | unknownCommand (word : String)
  | noCommand
  | noTarget
  | unrecognized (words : List String)
  deriving DecidableEq, Repr

/-- The names of the commands. -/
def commandNames : List String := ["generate", "list"]

/-- What is said about a faulty command line. -/
def Problem.message : Problem → String
  | ambiguous word candidates =>
    "ambiguous option: " ++ word ++ " could match " ++ String.intercalate ", " candidates
  | noValue f => "argument " ++ f.title ++ ": expected one argument"
  | unwantedValue f value =>
    "argument " ++ f.title ++ ": ignored explicit argument " ++ quoted value
  | conflict f other => "argument " ++ f.title ++ ": not allowed with argument " ++ other.title
  | unknownCommand word =>
    "argument command: invalid choice: " ++ quoted word ++ " (choose from " ++
      String.intercalate ", " (commandNames.map quoted) ++ ")"
  | noCommand => "the following arguments are required: command"
  | noTarget =>
    "one of the arguments " ++ allFlag.title ++ " " ++ componentFlag.title ++ " is required"
  | unrecognized words => "unrecognized arguments: " ++ String.intercalate " " words

/-- Why a command line is not carried out. -/
inductive Stop where
  /-- Help was asked for, on the program or on a command. -/
  | help (command? : Option String)
  | problem (command? : Option String) (p : Problem)
  deriving DecidableEq, Repr

/-- The name of the program, or of one of its commands. -/
def programName : Option String → String
  | none => "compdoc"
  | some command => "compdoc " ++ command

/-! ## Words -/

/-- A value that is part of the word of its option. -/
structure Attached where
  value : String
  /-- Whether it stands behind an equals sign. -/
  marked : Bool
  deriving DecidableEq, Repr

/-- What a word of a command line is. -/
inductive Word where
  /-- A name or a value. -/
  | plain
  /-- The mark behind which no options stand. -/
  | divider
  /-- An option, with the name it was found by and the value that was given in the
  same word. -/
  | option (f : Flag) (name : String) (attached? : Option Attached)
  /-- Something that looks like an option and is none. -/
  | unknown
  deriving DecidableEq, Repr

/-- The names of options, each with the option, in order. -/
def namesOf (flags : List Flag) : List (String × Flag) :=
  flags.flatMap fun f => f.names.map fun n => (n, f)

/-- A word cut at its first equals sign. -/
def splitAtEquals (word : String) : String × Option Attached :=
  let before := word.toList.takeWhile (· != '=')
  match word.toList.drop before.length with
  | _ :: value => (String.ofList before, some ⟨String.ofList value, true⟩)
  | [] => (word, none)

/-- Whether a word is a negative number. -/
def isNegativeNumber (word : String) : Bool :=
  match word.toList with
  | '-' :: cs =>
    let whole := cs.takeWhile Char.isDigit
    match cs.drop whole.length with
    | [] => !whole.isEmpty
    | '.' :: fraction => !fraction.isEmpty && fraction.all Char.isDigit
    | _ => false
  | _ => false

/-- The options that a word may be short for, with their names and values. -/
def readings (flags : List Flag) (word : String) : List (Flag × String × Option Attached) :=
  if startsWith word "--" then
    let (start, attached?) := splitAtEquals word
    (namesOf flags).filterMap fun (n, f) =>
      if startsWith n start then some (f, n, attached?) else none
  else
    let short := String.ofList (word.toList.take 2)
    (namesOf flags).filterMap fun (n, f) =>
      if n == short then some (f, n, some ⟨dropFirst word 2, false⟩)
      else if startsWith n word then some (f, n, none)
      else none

/-- A word that starts with a hyphen and is not the name of an option. -/
def classifyOther (flags : List Flag) (word : String) : Except Problem Word :=
  let (name, attached?) := splitAtEquals word
  match attached?, (namesOf flags).lookup name with
  | some attached, some f => .ok (.option f name (some attached))
  | _, _ =>
    match readings flags word with
    | [(f, name, attached?)] => .ok (.option f name attached?)
    | [] => .ok (if isNegativeNumber word || word.toList.contains ' ' then .plain else .unknown)
    | several => .error (.ambiguous word (several.map fun (_, n, _) => n))

/-- What a word is among the words of a command. -/
def classify (flags : List Flag) (word : String) : Except Problem Word :=
  if !startsWith word "-" || word == "-" then .ok .plain
  else match (namesOf flags).lookup word with
    | some f => .ok (.option f word none)
    | none => classifyOther flags word

/-- What the words of a command are. Behind a divider all are plain. -/
def classifyAll (flags : List Flag) : List String → Except Problem (List (String × Word))
  | [] => .ok []
  | word :: rest =>
    if word == "--" then .ok ((word, .divider) :: rest.map fun w => (w, .plain))
    else do
      let w ← classify flags word
      return (word, w) :: (← classifyAll flags rest)

/-! ## Options that take effect -/

/-- The options of a word, each with its value. The last one may lack its value. -/
structure Uses where
  options : List (Flag × Option String)
  /-- What is left of the word when no option starts with its next character. -/
  left? : Option String := none

/-- The options with one more in front of them, which has no value. -/
def Uses.after (u : Uses) (f : Flag) : Uses :=
  { u with options := (f, none) :: u.options }

/-- A short option and those that follow it in its word. -/
def unpack (flags : List Flag) (f : Flag) (marked : Bool) : List Char → Except Problem Uses
  | [] => if f.hasValue then .ok { options := [(f, some "")] } else .error (.unwantedValue f "")
  | c :: cs =>
    let word := String.ofList (c :: cs)
    if f.hasValue then .ok { options := [(f, some word)] }
    else if marked || c == '-' then .error (.unwantedValue f word)
    else match (namesOf flags).lookup (String.ofList ['-', c]) with
      | none => .ok { options := [(f, none)], left? := some ("-" ++ word) }
      | some g =>
        match cs with
        | [] => .ok { options := [(f, none), (g, none)] }
        | d :: value =>
          if d == '=' then (unpack flags g true value).map (·.after f)
          else (unpack flags g false (d :: value)).map (·.after f)

/-- The options that a word holds. -/
def usesOf (flags : List Flag) (f : Flag) (name : String) (attached? : Option Attached) :
    Except Problem Uses :=
  match attached? with
  | none => .ok { options := [(f, none)] }
  | some attached =>
    if startsWith name "--" && !f.hasValue then .error (.unwantedValue f attached.value)
    else unpack flags f attached.marked attached.value.toList

/-- What the options of a command line ask for. -/
structure Settings where
  verbose : Bool := false
  logFile? : Option Path := none
  library : String := "node_modules/@wavemaker/app-rn-runtime"
  config? : Option String := none
  all : Bool := false
  component? : Option String := none
  output : String := "output"
  singleFile : Bool := false
  fetchDocs : Bool := false
  deriving DecidableEq, Repr

/-- The settings after an option has taken effect. -/
def Settings.use (s : Settings) (command? : Option String) (f : Flag) (value : String) :
    Except Stop Settings :=
  match f.topic with
  | .help => .error (.help command?)
  | .verbose => .ok { s with verbose := true }
  | .logFile => .ok { s with logFile? := some (Path.ofString value) }
  | .library => .ok { s with library := value }
  | .config => .ok { s with config? := some value }
  | .all =>
    if s.component?.isSome then .error (.problem command? (.conflict f componentFlag))
    else .ok { s with all := true }
  | .component =>
    if s.all then .error (.problem command? (.conflict f allFlag))
    else .ok { s with component? := some value }
  | .output => .ok { s with output := value }
  | .singleFile => .ok { s with singleFile := true }
  | .fetchDocs => .ok { s with fetchDocs := true }

/-- The settings after several options have taken effect. -/
def Settings.useAll (s : Settings) (command? : Option String) :
    List (Flag × Option String) → Except Stop Settings
  | [] => .ok s
  | (f, value?) :: rest => do (← s.use command? f (value?.getD "")).useAll command? rest

/-- Options with the value that the last of them lacks, taken from the words behind
them, and the words behind that. -/
def complete (uses : List (Flag × Option String)) (rest : List (String × Word)) :
    Except Problem (List (Flag × Option String) × List (String × Word)) :=
  match uses.getLast? with
  | some (f, none) =>
    if !f.hasValue then .ok (uses, rest)
    else match rest with
      | (value, .plain) :: rest => .ok (uses.dropLast ++ [(f, some value)], rest)
      | _ => .error (.noValue f)
  | _ => .ok (uses, rest)

/-- What is left when the options of a command have taken effect: the settings, and
the words that mean nothing. -/
structure Outcome where
  settings : Settings
  extras : List String := []

/-- A problem of a command. -/
def raise {α : Type} (command? : Option String) (x : Except Problem α) : Except Stop α :=
  match x with
  | .ok a => .ok a
  | .error p => .error (.problem command? p)

/-- Lets the options take effect one after the other, up to the name of a command if
one is looked for. The name and the words behind it are left over. -/
def takeEffect (flags : List Flag) (command? : Option String) (stopAtName : Bool) (o : Outcome) :
    (limit : Nat) → List (String × Word) → Except Stop (Outcome × List String)
  | 0, words => .ok (o, words.map Prod.fst)
  | _ + 1, [] => .ok (o, [])
  | limit + 1, (text, w) :: rest => do
    match w with
    | .option f name attached? =>
      let uses ← raise command? (usesOf flags f name attached?)
      let (options, rest) ← raise command? (complete uses.options rest)
      let settings ← o.settings.useAll command? options
      let o := { settings := settings, extras := o.extras ++ uses.left?.toList }
      takeEffect flags command? stopAtName o limit rest
    | .unknown =>
      takeEffect flags command? stopAtName { o with extras := o.extras ++ [text] } limit rest
    | .plain =>
      if stopAtName then return (o, text :: rest.map Prod.fst)
      else takeEffect flags command? stopAtName { o with extras := o.extras ++ [text] } limit rest
    | .divider =>
      -- where a name is looked for, the mark is taken for one if a word follows it
      if stopAtName && !rest.isEmpty then return (o, text :: rest.map Prod.fst)
      else takeEffect flags command? stopAtName { o with extras := o.extras ++ [text] } limit rest

/-- The words of a command, or of what stands before it, taking effect. -/
def level (flags : List Flag) (command? : Option String) (stopAtName : Bool) (settings : Settings)
    (words : List String) : Except Stop (Outcome × List String) := do
  let ws ← raise command? (classifyAll flags words)
  takeEffect flags command? stopAtName { settings := settings } ws.length ws

/-! ## Commands -/

/-- What a command line asks for. -/
inductive Task where
  | generate
  | list
  deriving DecidableEq, Repr

/-- The words behind the name of a command taking effect. -/
def commandLevel (settings : Settings) (name : String) (words : List String) :
    Except Stop (Task × Outcome) := do
  if name == "generate" then
    let (o, _) ← level generateFlags (some name) false settings words
    if !o.settings.all && o.settings.component?.isNone then
      throw (.problem (some name) .noTarget)
    return (.generate, o)
  else if name == "list" then
    let (o, _) ← level listFlags (some name) false settings words
    return (.list, o)
  else throw (.problem none (.unknownCommand name))

/-- What a command line asks for, with its settings. -/
def parse (words : List String) : Except Stop (Task × Settings) := do
  let (before, words) ← level commonFlags none true {} words
  match words with
  | [] => throw (.problem none .noCommand)
  | name :: words =>
    let (task, o) ← commandLevel before.settings name words
    let extras := before.extras ++ o.extras
    if !extras.isEmpty then throw (.problem none (.unrecognized extras))
    return (task, o.settings)

end ComponentCatalog.Command
