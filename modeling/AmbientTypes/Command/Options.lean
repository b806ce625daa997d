import AmbientTypes.Report.Reporter
import AmbientTypes.Search.Choice

namespace AmbientTypes.Command

inductive Level
  | top
  | build
  | locate
  | completions
  deriving DecidableEq, Repr

inductive Opt
  | verbose
  | quiet
  | color
  | messageFormat
  | config
  | discovery
  | outputDir
  | tsc
  | strict
  | all
  | shell
  | help
  | version
  deriving DecidableEq, Repr

namespace Level

def name : Level → String
  | top => "fedtypes"
  | build => "build"
  | locate => "locate"
  | completions => "completions"

def commands : List Level := [build, locate, completions]

def everywhere : List Opt := [.verbose, .quiet, .color, .messageFormat, .help]

def buildOptions : List Opt := [.config, .discovery, .outputDir, .tsc, .strict]

def options : Level → List Opt
  | top => buildOptions ++ everywhere ++ [.version]
  | build => buildOptions ++ everywhere
  | locate => [.config, .discovery, .all] ++ everywhere
  | completions => everywhere

end Level

namespace Opt

def longNames : Opt → List String
  | verbose => ["verbose"]
  | quiet => ["quiet"]
  | color => ["color"]
  | messageFormat => ["message-format"]
  | config => ["config"]
  | discovery => ["discovery"]
  | outputDir => ["output-dir", "outputDir"]
  | tsc => ["tsc"]
  | strict => ["strict"]
  | all => ["all"]
  | shell => []
  | help => ["help"]
  | version => ["version"]

def letter? : Opt → Option Char
  | verbose => some 'v'
  | quiet => some 'q'
  | help => some 'h'
  | version => some 'V'
  | _ => none

def valueName? : Opt → Option String
  | color => some "WHEN"
  | messageFormat => some "MESSAGE_FORMAT"
  | config => some "PATH"
  | discovery => some "POLICY"
  | outputDir => some "DIR"
  | tsc => some "PROGRAM"
  | shell => some "SHELL"
  | verbose | quiet | strict | all | help | version => none

def shown (o : Opt) : String :=
  String.intercalate " "
    ((o.longNames.take 1).map ("--" ++ ·) ++ (o.valueName?.map fun v ↦ "<" ++ v ++ ">").toList)

def about : Opt → String
  | verbose => "Enable verbose output"
  | quiet => "Only print errors"
  | color => "Coloring: auto, always, never"
  | messageFormat => "Output format for messages"
  | config => "Use this manifest instead of searching for one"
  | discovery => "Search policy: first-match or unique"
  | outputDir => "Shared type-declarations directory"
  | tsc => "Declaration compiler to run"
  | strict => "Fail when the compiler reports errors"
  | all => "List every candidate instead of the selected manifest"
  | shell => "Shell to generate completions for"
  | help => "Print help"
  | version => "Print version"

end Opt

namespace Level

def long? (l : Level) (name : String) : Option Opt :=
  l.options.find? (name ∈ ·.longNames)

def short? (l : Level) (c : Char) : Option Opt :=
  l.options.find? (·.letter? = some c)

def about : Level → String
  | top => "Share type declarations between federated packages"
  | build => "Compile and share the declarations of a package (the default)"
  | locate => "Show the manifest a build would use"
  | completions => "Generate shell completions"

end Level

inductive UsageError
  | unexpectedArgument (arg : String)
  | unknownCommand (name : String)
  | missingValue (o : Opt)
  | invalidValue (value : String) (o : Opt) (reason : Option String)
  | unneededValue (value : String) (o : Opt)
  | repeated (o : Opt)
  | conflict (first second : Opt)
  | missingArguments
  deriving DecidableEq, Repr

def UsageError.message : UsageError → String
  | unexpectedArgument arg => "unexpected argument '" ++ arg ++ "' found"
  | unknownCommand name => "unrecognized subcommand '" ++ name ++ "'"
  | missingValue o => "a value is required for '" ++ o.shown ++ "' but none was supplied"
  | invalidValue value o reason =>
    "invalid value '" ++ value ++ "' for '" ++ o.shown ++ "'" ++
      ((reason.map (": " ++ ·)).getD "")
  | unneededValue value o =>
    "unexpected value '" ++ value ++ "' for '" ++ o.shown ++ "' found; no more were expected"
  | repeated o => "the argument '" ++ o.shown ++ "' cannot be used multiple times"
  | conflict first second =>
    "the argument '" ++ first.shown ++ "' cannot be used with '" ++ second.shown ++ "'"
  | missingArguments => "the following required arguments were not provided:"

end AmbientTypes.Command
