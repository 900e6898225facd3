import ComponentCatalog.Command.Arguments

/-!
# Help

What is printed when help is asked for: how the program or one of its commands is
called, and its options.
-/

namespace ComponentCatalog.Command

/-- What an option does, in a few words. -/
def Topic.summary : Topic → String
  | help => "show this help message and exit"
  | verbose => "Increase log verbosity for troubleshooting."
  | logFile => "Also write DEBUG logs to this file."
  | library => "Path to the component library build."
  | config => "Path to a .compdoc.yml file or the directory holding it."
  | all => "Generate docs for all components."
  | component => "Generate docs for a single component by name."
  | output => "Output directory."
  | singleFile => "Write every component into one file instead of one file each."
  | fetchDocs => "Fetch existing prose documentation and save it next to each component."

/-- The line about an option. -/
def Flag.helpLine (f : Flag) : String :=
  "  " ++ String.intercalate ", " f.names ++ (if f.hasValue then " VALUE" else "") ++ "  " ++
    f.topic.summary ++ "\n"

/-- The options of the program, or of one of its commands. -/
def flagsOf : Option String → List Flag
  | some "generate" => generateFlags
  | some _ => listFlags
  | none => commonFlags

/-- The commands that may be named behind the options. -/
def commandHint : Option String → String
  | some _ => ""
  | none => " COMMAND (" ++ String.intercalate ", " commandNames ++ ")"

/-- The help on the program, or on one of its commands. -/
def helpText (command? : Option String) : String :=
  "usage: " ++ programName command? ++ " [OPTIONS]" ++ commandHint command? ++ "\n\noptions:\n" ++
    String.join ((flagsOf command?).map Flag.helpLine)

end ComponentCatalog.Command
