import OpenApi.CommandLine.Arguments
import OpenApi.Output

/-
What a command line asks for.

Options that concern every command come before its name, those of a command anywhere after it.
Asking for help or for the version goes before everything else, unless the options cannot be read.
-/
namespace OpenApi

inductive Summary where
  | info
  | models
  | services
  deriving DecidableEq, Repr

inductive Command where
  | resolve (source : String) (defaultTag : Option String) (excluded : List String)
  | inspect (summary : Summary) (source : String)
  | showSettings
  | setSetting (key value : String)
  | resetSettings
  deriving DecidableEq, Repr

structure Conduct where
  output : Output
  /-- Whether nothing has to be confirmed. -/
  isForced : Bool

inductive Invocation where
  | version
  /-- Help, which has been asked for or is given because nothing else has been. -/
  | help ( wasAskedFor : Bool)
  | misuse (fault : CommandLine.Misuse)
  | run (conduct : Conduct) (command : Command)

namespace CommandLine

/-! ### Options -/

inductive CommonOption where
  | version
  | help
  | json
  | plain
  | noColor
  | quiet
  | verbose
  | force
  | file (path : String)
  deriving DecidableEq

def commonOptions : Lexicon CommonOption
  | "--version" => some (.flag .version)
  | "--help" => some (.flag .help)
  | "--json" => some (.flag .json)
  | "--plain" => some (.flag .plain)
  | "--no-color" => some (.flag .noColor)
  | "--quiet" => some (.flag .quiet)
  | "-q" => some (.flag .quiet)
  | "--verbose" => some (.flag .verbose)
  | "-v" => some (.flag .verbose)
  | "--force" => some (.flag .force)
  | "-f" => some (.flag .force)
  | "--output" => some (.value .file)
  | "-o" => some (.value .file)
  | _ => none

def CommonOption.path? : CommonOption → Option String
  | .file path => some path
  | _ => none

inductive ResolveOption where
  | help
  | defaultTag (tag : String)
  | exclude (name : String)
  deriving DecidableEq

def resolveOptions : Lexicon ResolveOption
  | "--help" => some (.flag .help)
  | "--default-tag" => some (.value .defaultTag)
  | "--exclude-param" => some (.value .exclude)
  | _ => none

def ResolveOption.tag? : ResolveOption → Option String
  | .defaultTag tag => some tag
  | _ => none

def ResolveOption.name? : ResolveOption → Option String
  | .exclude name => some name
  | _ => none

/-- The options of commands that have none but help. -/
def helpOption : Lexicon Unit
  | "--help" => some (.flag ())
  | _ => none

/-! ### Commands -/

/-- Read the command line of one command. -/
def readCommand (lexicon : Lexicon α) (asksHelp : α → Bool) (conduct : Conduct)
    (build : List α → List String → Option Command) (arguments : List String) : Invocation :=
  match lexicon.read true arguments with
  | .error misuse => .misuse misuse
  | .ok (settings, arguments) =>
    if settings.any asksHelp then .help true
    else
      match build settings arguments with
      | some command => .run conduct command
      | none => .misuse .wrongArguments

/-- Read the command line of a command without options. -/
def readPlain (conduct : Conduct) (build : List String → Option Command) :
    List String → Invocation :=
  readCommand helpOption (fun _ => true) conduct fun _ => build

/-- Read the command line of a group of commands.  What is said early goes before the command; the
name of no command is read as an option if it looks like one. -/
def readGroup (lexicon : Lexicon α) (early : α → Option Invocation)
    (choose : List α → String → Option (List String → Invocation)) (arguments : List String) :
    Invocation :=
  if arguments.isEmpty then .help false
  else
    match lexicon.read false arguments with
    | .error misuse => .misuse misuse
    | .ok (settings, rest) =>
      match settings.findSome? early, rest with
      | some invocation, _ => invocation
      | none, [] => .misuse .noCommand
      | none, name :: more =>
        match choose settings name with
        | some readMore => readMore more
        | none =>
          match lexicon.read false (name :: more) with
          | .error misuse => .misuse misuse
          | .ok (settings, _) => (settings.findSome? early).getD (.misuse (.unknownCommand name))

def early : CommonOption → Option Invocation
  | .version => some .version
  | .help => some (.help true)
  | _ => none

def resolveArguments (settings : List ResolveOption) : List String → Option Command
  | [source] =>
    some (.resolve source (settings.filterMap ResolveOption.tag?).getLast?
      (settings.filterMap ResolveOption.name?))
  | _ => none

/-- A command whose only argument is a source. -/
def sourceArgument (build : String → Command) : List String → Option Command
  | [source] => some (build source)
  | _ => none

def settingArguments : List String → Option Command
  | [key, value] => some (.setSetting key value)
  | _ => none

def noArguments (command : Command) : List String → Option Command
  | [] => some command
  | _ => none

def readInspect (conduct : Conduct) : List String → Invocation :=
  readGroup helpOption (fun _ => some (.help true)) fun _ name =>
    match name with
    | "info" => some (readPlain conduct (sourceArgument (.inspect .info)))
    | "models" => some (readPlain conduct (sourceArgument (.inspect .models)))
    | "services" => some (readPlain conduct (sourceArgument (.inspect .services)))
    | _ => none

def readSettings (conduct : Conduct) : List String → Invocation :=
  readGroup helpOption (fun _ => some (.help true)) fun _ name =>
    match name with
    | "show" => some (readPlain conduct (noArguments .showSettings))
    | "set" => some (readPlain conduct settingArguments)
    | "reset" => some (readPlain conduct (noArguments .resetSettings))
    | _ => none

/-- What the common options say.  JSON goes before plain text, and the last file is the one. -/
def conductOf (options : List CommonOption) : Conduct :=
  let path := (options.filterMap CommonOption.path?).getLast?.filter (!·.isEmpty)
  { output :=
      { form := if options.contains .json then .json else .plain
        isQuiet := options.contains .quiet
        isVerbose := options.contains .verbose
        file := path.map Path.ofText }
    isForced := options.contains .force }

end CommandLine

def Invocation.ofArguments : List String → Invocation :=
  CommandLine.readGroup CommandLine.commonOptions CommandLine.early fun options name =>
    let conduct := CommandLine.conductOf options
    match name with
    | "resolve" =>
      some (CommandLine.readCommand CommandLine.resolveOptions (· == .help) conduct
        CommandLine.resolveArguments)
    | "inspect" => some (CommandLine.readInspect conduct)
    | "config" => some (CommandLine.readSettings conduct)
    | _ => none

end OpenApi
