import OpenApi.Client.Dump
import OpenApi.Client.Resolve
import OpenApi.CommandLine.Command
import OpenApi.Settings.Key
import OpenApi.Settings.Resolve

/-
Running commands.

A command is an action that ends with an exit code or in trouble.  Trouble is reported with its own
exit code; of a defect only a log is left behind.
-/
namespace OpenApi

def programVersion : String := "0.1.0"

def usage : String := "Usage: specir [OPTIONS] COMMAND [ARGS]..."

def helpText : String :=
  String.intercalate "\n"
    [usage, "",
      "Resolve Swagger 2 / OpenAPI 3 documents into a code-generation IR.", "",
      "Options:",
      "  --version          Show version and exit.",
      "  --json             Print results as JSON.",
      "  --plain            Print results as plain text.",
      "  --no-color         Disable colour.",
      "  -q, --quiet        Only print results and errors.",
      "  -v, --verbose      Log resolver decisions to stderr.",
      "  -f, --force        Do not ask for confirmation.",
      "  -o, --output FILE  Write the result to this file as JSON.",
      "  --help             Show this message and exit.", "",
      "Commands:",
      "  resolve SOURCE [--default-tag TAG] [--exclude-param NAME]...",
      "  inspect info|models|services SOURCE",
      "  config show|set KEY VALUE|reset"] ++ "\n"

namespace Summary

/-- The names of properties in a cell: five at most, and dots if there are more. -/
def propertyNames (model : Model) : String :=
  let names := model.properties.map (·.name)
  String.intercalate ", " (names.take 5) ++ if names.length > 5 then "..." else ""

def modelTable (client : Client) : Table :=
  .ofTexts ["Model", "Export", "Type", "Properties"] <|
    client.models.map fun m => [m.name, m.kind.name, m.type, propertyNames m]

def operationRow (service : Service) (o : Operation) : List String :=
  [service.name, o.name, o.method, o.path, String.intercalate ", " (o.results.map (·.type))]

def serviceTable (client : Client) : Table :=
  .ofTexts ["Service", "Operation", "Method", "Path", "Returns"] <|
    client.services.flatMap fun service => service.operations.map (operationRow service)

/-- What a client is about, and how much there is in it. -/
def infoNode (client : Client) : Node :=
  Settings.membersNode
    [("version", .str client.version),
      ("server", .str (if client.server.isEmpty then "-" else client.server)),
      ("models", .int client.models.length),
      ("services", .int client.services.length),
      ("operations", .int (client.services.flatMap (·.operations)).length)]

end Summary

inductive Answer where
  | yes
  | no
  /-- The input has ended before there was an answer. -/
  | missing
  deriving DecidableEq, Repr

namespace Answer

/-- What a line says; an empty one says no. -/
def ofLine? (line : List Char) : Option Answer :=
  let word := String.ofList (Text.trim (Text.lower (String.ofList line)).toList)
  if word == "y" || word == "yes" then some .yes
  else if word == "n" || word == "no" || word == "" then some .no
  else none

/-- The answer in lines of input, and what is printed while a question is asked again and again
until there is one. -/
def ask (question : String) : List (List Char) → Answer × String
  | [] => (.missing, question)
  | line :: rest =>
    match ofLine? line with
    | some answer => (answer, question)
    | none =>
      let (answer, printed) := ask question rest
      (answer, question ++ "Error: invalid input\n" ++ printed)

end Answer

namespace Action

/-- A client, unless resolving has failed. -/
def resolved : Except Failure Client → Action Client
  | .ok client => return client
  | .error (.malformed cause) => throw (.defect (.malformed cause))
  | .error failure => throw (.resolution failure)

/-- The folder of the user's settings, which is made when it is needed. -/
def settingsFolder : Action Path := do
  let (folder, surroundings) ← look (·.provideSettings)
  attempt fun _ => .ok surroundings
  return folder

/-- The client for the description at a source, resolved with the settings in effect. -/
def clientFor (output : Output) (source : String) (overrides : Overrides) : Action Client := do
  let folder ← settingsFolder
  let settings ← look (·.settings folder overrides)
  let document ← look (·.load source)
  output.narrate ("Loaded document from " ++ source)
  let resolution := Client.resolve settings.preferences document
  resolution.warnings.forM note
  let client ← resolved resolution.client
  output.narrate ("Resolved " ++ toString client.models.length ++ " models and " ++
    toString client.services.length ++ " services")
  return client

def writeSummary (output : Output) (client : Client) : Summary → Action Unit
  | .info => output.writeValue (Summary.infoNode client)
  | .models =>
    if client.models.isEmpty then output.inform "No models defined in this document."
    else output.writeTable (Summary.modelTable client)
  | .services =>
    if client.services.isEmpty then output.inform "No operations defined in this document."
    else output.writeTable (Summary.serviceTable client)

def showSettings (output : Output) : Action Unit := do
  let folder ← settingsFolder
  let settings ← look (·.userSettings folder)
  output.inform ("Config directory: " ++ folder.text)
  output.writeValue settings.toNode

def saveSettings (settings : Settings) : Action Unit := do
  let folder ← settingsFolder
  attempt (·.saveSettings folder settings)

def setSetting (output : Output) (key value : String) : Action Unit := do
  let folder ← settingsFolder
  let settings ← look (·.userSettings folder)
  match Setting.ofKey key with
  | .error fault => throw (.key fault)
  | .ok setting =>
    saveSettings (setting.put value settings)
    output.inform ("Set " ++ key ++ " = " ++ (setting.read value).plain?.getD value)

def resetSettings (output : Output) : Action Unit := do
  saveSettings {}
  output.inform "Configuration reset to defaults."

/-- Reset the settings once this has been confirmed.  The value is the exit code. -/
def confirmReset (output : Output) : Action Nat := do
  let (answer, printed) :=
    Answer.ask "Reset all config to defaults? [y/N]: " (← get).surroundings.inputLines
  print printed
  match answer with
  | .yes =>
    resetSettings output
    return 0
  | .no =>
    output.inform "Cancelled."
    return 0
  | .missing =>
    note "Aborted."
    return 1

end Action

/-- What a command does.  The value is the exit code. -/
def Command.action (conduct : Conduct) : Command → Action Nat
  | .resolve source defaultTag excluded => do
    let client ← Action.clientFor conduct.output source
      { defaultTag := defaultTag.map Node.str
        excludedParameters := some (Settings.textsNode excluded) }
    conduct.output.writeValue (Dump.client client)
    return 0
  | .inspect summary source => do
    let client ← Action.clientFor conduct.output source {}
    Action.writeSummary conduct.output client summary
    return 0
  | .showSettings => do
    Action.showSettings conduct.output
    return 0
  | .setSetting key value => do
    Action.setSetting conduct.output key value
    return 0
  | .resetSettings => do
    if conduct.isForced then
      Action.resetSettings conduct.output
      return 0
    else Action.confirmReset conduct.output

namespace Session

/-- Write the log that a defect leaves behind.  The path is where it is. -/
def writeCrashLog (s : Session) : Except DiskFault (Path × Session) :=
  match s.surroundings.provide Surroundings.dataFolder with
  | .error fault => .error fault
  | .ok (folder, surroundings) =>
    let path := (folder.enter "logs").enter "crash.log"
    (surroundings.write path "The program met with a defect.\n").map fun surroundings =>
      (path, { s with surroundings := surroundings })

/-- Report trouble.  The number is the exit code; there is none if the log of a defect cannot be
written. -/
def report (trouble : Trouble) (s : Session) : Except DiskFault Nat × Session :=
  match trouble.report? with
  | some (message, code) => (.ok code, s.note ("Error: " ++ message))
  | none =>
    match s.writeCrashLog with
    | .error fault => (.error fault, s)
    | .ok (path, s) =>
      (.ok 1, s.note ("Error: Unexpected error. Debug log: " ++ path.text))

/-- Run the program with arguments.  The number is its exit code. -/
def run (arguments : List String) (s : Session) : Except DiskFault Nat × Session :=
  match Invocation.ofArguments arguments with
  | .version => (.ok 0, s.print ("specir " ++ programVersion ++ "\n"))
  | .help wasAskedFor => (.ok (if wasAskedFor then 0 else 2), s.print helpText)
  | .misuse fault => (.ok 2, (s.note usage).note ("Error: " ++ fault.message))
  | .run conduct command =>
    match (command.action conduct).run s with
    | (.ok code, s) => (.ok code, s)
    | (.error trouble, s) => s.report trouble

end Session
end OpenApi
