/-
Options and arguments on a command line.

An option has a long name after two dashes, and may have one letter after one dash.  Letters can
share a dash.  An option that takes a value has it after an equals sign, in the rest of the letters,
or in the argument that follows, whatever that looks like.  Two dashes on their own end the options,
and a dash on its own is an argument.
-/
namespace OpenApi.CommandLine

/-- What is wrong with a command line. -/
inductive Misuse where
  | unknownOption (name : String)
  | noValue (name : String)
  | needlessValue (name : String)
  | noCommand
  | unknownCommand (name : String)
  /-- There are too few or too many arguments. -/
  | wrongArguments
  deriving DecidableEq, Repr

def Misuse.message : Misuse → String
  | .unknownOption name => "No such option: " ++ name
  | .noValue name => "Option " ++ name ++ " requires an argument."
  | .needlessValue name => "Option " ++ name ++ " does not take a value."
  | .noCommand => "Missing command."
  | .unknownCommand name => "No such command: " ++ name
  | .wrongArguments => "The number of arguments is not right."

/-- What an option says: by itself, or with its value. -/
inductive Meaning (α : Type) where
  | flag (setting : α)
  | value (setting : String → α)

/-- The options of a command, by their names with the dashes. -/
abbrev Lexicon (α : Type) := String → Option (Meaning α)

/-- What an argument with options in it says, and the option that takes the next argument as its
value, if the last one does. -/
structure Options (α : Type) where
  settings : List α
  pending : Option (String → α) := none

namespace Lexicon

variable {α : Type} (lexicon : Lexicon α)

/-- Read a long name, and the value after its equals sign. -/
def readLong (name : String) (value : Option String) : Except Misuse (Options α) :=
  match lexicon name, value with
  | none, _ => .error (.unknownOption name)
  | some (.flag setting), none => .ok ⟨[setting], none⟩
  | some (.flag _), some _ => .error (.needlessValue name)
  | some (.value setting), some value => .ok ⟨[setting value], none⟩
  | some (.value setting), none => .ok ⟨[], some setting⟩

/-- Read letters that share a dash. -/
def readLetters : List Char → Except Misuse (Options α)
  | [] => .ok ⟨[], none⟩
  | c :: rest =>
    let name := String.ofList ['-', c]
    match lexicon name with
    | none => .error (.unknownOption name)
    | some (.value setting) =>
      .ok (if rest.isEmpty then ⟨[], some setting⟩ else ⟨[setting (String.ofList rest)], none⟩)
    | some (.flag setting) =>
      (readLetters rest).map fun more => { more with settings := setting :: more.settings }

/-- Read an argument that begins with a dash. -/
def readOption (argument : String) : Except Misuse (Options α) :=
  match argument.toList with
  | '-' :: '-' :: rest =>
    let name := String.ofList ('-' :: '-' :: rest.takeWhile (· != '='))
    let value := String.ofList ((rest.dropWhile (· != '=')).drop 1)
    readLong lexicon name (if rest.contains '=' then some value else none)
  | _ :: letters => readLetters lexicon letters
  | [] => .ok ⟨[], none⟩

/-- Read a command line into what its options say and its arguments, both in order.  If the two
must not be mixed, the first argument ends the options. -/
def read (mixed : Bool) : List String → Except Misuse (List α × List String)
  | [] => .ok ([], [])
  | "--" :: rest => .ok ([], rest)
  | argument :: rest =>
    if argument.startsWith "-" && argument != "-" then
      match readOption lexicon argument, rest with
      | .error misuse, _ => .error misuse
      | .ok ⟨settings, none⟩, rest =>
        (read mixed rest).map fun (more, arguments) => (settings ++ more, arguments)
      | .ok ⟨_, some _⟩, [] => .error (.noValue argument)
      | .ok ⟨settings, some setting⟩, value :: rest =>
        (read mixed rest).map fun (more, arguments) =>
          (settings ++ setting value :: more, arguments)
    else if mixed then
      (read mixed rest).map fun (more, arguments) => (more, argument :: arguments)
    else .ok ([], argument :: rest)

/-- Without options and dashes at the beginning, everything is an argument. -/
theorem read_argument {argument : String} {rest : List String} (h : argument ≠ "--")
    (plain : (argument.startsWith "-" && argument != "-") = false) :
    lexicon.read false (argument :: rest) = .ok ([], argument :: rest) := by
  unfold read
  split
  · contradiction
  · exact absurd (by simp_all) h
  · simp_all

end Lexicon
end OpenApi.CommandLine
