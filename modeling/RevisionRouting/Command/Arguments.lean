/-!
# Command lines

A command line names a command and gives it options, each with a value in the
next word or after an equals sign. An option may be given once. Words are looked
at from left to right; a value is only accepted when the word after it has been
seen to be no further value, so a word too many is found before a value that
cannot stand.

`Command.ofArguments` says what is asked for, or why the words ask for nothing. A user
who asks for help, or whose command line asks for nothing that could be done, is shown
`UsageFault.text`.
-/

namespace RevisionRouting

/-- Why a command line runs no command. -/
inductive UsageFault where
  /-- Help is asked for. -/
  | help
  /-- The version is asked for. -/
  | version
  /-- No command is named. -/
  | nothing
  | unknownCommand
  | unknownArgument
  /-- An option has no value, or an empty one that has to be a path. -/
  | missingValue
  /-- A value is given to an option that takes none. -/
  | needlessValue
  | repeatedOption
  | missingOption
  deriving DecidableEq, Repr

/-- The exit code; to be asked for help or the version is no failure. -/
def UsageFault.exitCode : UsageFault → Nat
  | help | version => 0
  | _ => 2

/-- What is asked for. -/
inductive Command where
  /-- Look at the settings. -/
  | check (settings : String)
  /-- Route one revision that is read from files. -/
  | evaluate (settings document : String) (prior metadata now : Option String)
  /-- Route the revisions that come line by line. -/
  | run (settings : String)
  deriving DecidableEq, Repr

namespace Command

/-! ### Words -/

/-- The options of commands. -/
inductive Flag where
  | settings
  | document
  | prior
  | metadata
  | now
  deriving DecidableEq, Repr

/-- The commands that can be named. -/
inductive Verb where
  | check
  | evaluate
  | run
  deriving DecidableEq, Repr

/-- The name of an option. -/
def Flag.name : Flag → String
  | settings => "config"
  | document => "doc"
  | prior => "old-doc"
  | metadata => "meta"
  | now => "now"

/-- Whether the value of an option is a path, which is never empty. -/
def Flag.isPath : Flag → Bool
  | now => false
  | _ => true

/-- The options of a command. -/
def Verb.flags : Verb → List Flag
  | check => [.settings]
  | evaluate => [.settings, .document, .prior, .metadata, .now]
  | run => [.settings]

/-- The names of the commands. -/
def verbs : List (String × Verb) := [("check", .check), ("evaluate", .evaluate), ("run", .run)]

/-- A word by its form. -/
inductive Word where
  /-- Two hyphens alone: what follows is no option. -/
  | separator
  /-- Two hyphens and a name, with what follows an equals sign. -/
  | long (name : String) (value : Option String)
  /-- One hyphen and letters. -/
  | short (first : Char)
  | plain (text : String)
  deriving DecidableEq, Repr

/-- The form of a word. -/
def Word.ofString (text : String) : Word :=
  match text.toList with
  | ['-', '-'] => .separator
  | '-' :: '-' :: cs =>
    let name := String.ofList (cs.takeWhile (· ≠ '='))
    match cs.dropWhile (· ≠ '=') with
    | [] => .long name none
    | _ :: value => .long name (some (String.ofList value))
  | '-' :: c :: _ => .short c
  | _ => .plain text

/-! ### Options -/

/-- What has been read of the options. -/
structure Scan where
  /-- The options that have been accepted, with their values. -/
  given : List (Flag × String) := []
  /-- The option that has been seen last and is not accepted yet. -/
  pending : Option (Flag × Option String) := none

namespace Scan

/-- Accepts an option with its value. -/
def accept (s : Scan) (o : Flag) (value : String) : Except UsageFault Scan :=
  if (s.given.lookup o).isSome then .error .repeatedOption
  else if o.isPath ∧ value = "" then .error .missingValue
  else .ok { given := s.given ++ [(o, value)], pending := none }

/-- Accepts the pending option. -/
def settle (s : Scan) : Except UsageFault Scan :=
  match s.pending with
  | none => .ok s
  | some (_, none) => .error .missingValue
  | some (o, some value) => s.accept o value

/-- Takes a word that is no option: the value of the pending one. -/
def takePlain (s : Scan) (text : String) : Except UsageFault Scan :=
  match s.pending with
  | some (o, none) => .ok { s with pending := some (o, some text) }
  | _ => .error .unknownArgument

/-- Takes a word with two hyphens. -/
def takeLong (verb : Verb) (s : Scan) (name : String) (value : Option String) :
    Except UsageFault Scan := do
  match verb.flags.find? fun o => o.name = name with
  | some o =>
    -- the option before it is complete now, and its complaint comes first
    let s ← s.settle
    match value with
    | none => return { s with pending := some (o, none) }
    | some value => s.accept o value
  | none =>
    if name = "help" then
      match value with
      | none => let _ ← s.settle; .error .help
      | some _ => .error .needlessValue
    else .error .unknownArgument

/-- Takes a word with one hyphen. -/
def takeShort (s : Scan) (first : Char) : Except UsageFault Scan := do
  if first = 'h' then let _ ← s.settle; .error .help
  else .error .unknownArgument

/-- Takes the words of a command. After a separator there may be none. -/
def words (verb : Verb) (s : Scan) : List String → Except UsageFault Scan
  | [] => s.settle
  | w :: ws =>
    match Word.ofString w with
    | .separator => if ws.isEmpty then s.settle else .error .unknownArgument
    | .long name value => do words verb (← s.takeLong verb name value) ws
    | .short first => do words verb (← s.takeShort first) ws
    | .plain text => do words verb (← s.takePlain text) ws

end Scan

/-! ### Commands -/

/-- Where the settings are, if the command line does not say. -/
def defaultSettings : String := "./syncroute.json"

/-- The command with the given options. -/
def ofFlags (verb : Verb) (given : List (Flag × String)) : Except UsageFault Command :=
  let settings := (given.lookup .settings).getD defaultSettings
  match verb with
  | .check => .ok (.check settings)
  | .run => .ok (.run settings)
  | .evaluate =>
    match given.lookup .document with
    | none => .error .missingOption
    | some document =>
      .ok (.evaluate settings document (given.lookup .prior) (given.lookup .metadata)
        (given.lookup .now))

/-- Help on the commands that are named after `help`: one at most. -/
def helpOn : List String → UsageFault
  | [] => .help
  | name :: names =>
    if (name = "help" ∨ (verbs.lookup name).isSome) ∧ names.isEmpty then .help
    else .unknownCommand

/-- What follows a separator in the place of a command. -/
def afterSeparator : List String → UsageFault
  | [] => .nothing
  | name :: _ =>
    if name = "help" ∨ (verbs.lookup name).isSome then .unknownArgument else .unknownCommand

/-- An option in the place of a command; only help and the version can be asked for there. -/
def beforeVerb (name : String) (value : Option String) : UsageFault :=
  if name = "help" then if value.isSome then .needlessValue else .help
  else if name = "version" then if value.isSome then .needlessValue else .version
  else .unknownArgument

/-- The command that the words of a command line ask for. -/
def ofArguments : List String → Except UsageFault Command
  | [] => .error .nothing
  | w :: ws =>
    match Word.ofString w with
    | .separator => .error (afterSeparator ws)
    | .long name value => .error (beforeVerb name value)
    | .short first =>
      .error (if first = 'h' then .help else if first = 'V' then .version else .unknownArgument)
    | .plain text =>
      if text = "help" then .error (helpOn ws)
      else match verbs.lookup text with
        | none => .error .unknownCommand
        | some verb => do
          let s ← Scan.words verb {} ws
          ofFlags verb s.given

end Command

/-! ### Help -/

/-- The name and version of the program. -/
def versionLine : String := "syncroute 0.1.0"

/-- The commands and their options. -/
def usageLines : List String := [
  "Usage: syncroute <COMMAND>",
  "",
  "Commands:",
  "  check     [--config <PATH>]",
  "  evaluate  [--config <PATH>] --doc <PATH> [--old-doc <PATH>] [--meta <PATH>] [--now <TIME>]",
  "  run       [--config <PATH>]",
  "  help      [COMMAND]"]

/-- What is wrong with a command line, if anything is. -/
def UsageFault.complaint? : UsageFault → Option String
  | help | version | nothing => none
  | unknownCommand => some "error: unrecognized subcommand"
  | unknownArgument => some "error: unexpected argument"
  | missingValue => some "error: a value is required"
  | needlessValue => some "error: unexpected value"
  | repeatedOption => some "error: an option cannot be used multiple times"
  | missingOption => some "error: the required option --doc was not provided"

/-- What a user is shown instead of a command's output. -/
def UsageFault.text (f : UsageFault) : String :=
  let lines := match f with
    | version => [versionLine]
    | f => f.complaint?.toList ++ usageLines
  String.join (lines.map fun line => line ++ "\n")

end RevisionRouting
