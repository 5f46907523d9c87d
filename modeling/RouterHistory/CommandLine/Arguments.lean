import RouterHistory.Log.Filter

/-!
The arguments of the program: options about the log, a command, and the options of that command.
Arguments are taken from left to right, so a question for help or for the version is answered
only if nothing before it is wrong.
-/
namespace RouterHistory.CommandLine

inductive Command where
  /-- Ingests a recorded stream, and goes on polling if asked to follow. -/
  | ingest (stream config database : String) (follow : Bool)
  /-- Runs one reconcile cycle against a recorded stream. -/
  | reconcile (stream config database : String)
  /-- Shows the checkpoint and the sizes of the tables. -/
  | status (database : String) (config : Option String)
  /-- Looks up a signature. -/
  | lookup (signature database : String)
  | quarantine (database : String)
  /-- Shows the default settings. -/
  | info
  deriving DecidableEq, Repr

/-- What the arguments ask for. -/
inductive Invocation where
  | run (log : Log.Settings) (command : Command)
  | version
  | help
  deriving DecidableEq, Repr

def defaultDatabase : String := "./txhistory.db"

/-- What an argument looks like. -/
inductive Shape where
  /-- Two hyphens, a name, and the text after an equals sign if there is one. -/
  | long (name : String) (value : Option String)
  /-- One hyphen and letters. -/
  | short (letters : List Char)
  /-- Two hyphens: no options after this. -/
  | endOfOptions
  | word
  deriving DecidableEq, Repr

def Shape.of (argument : String) : Shape :=
  match argument.toList with
  | ['-', '-'] => .endOfOptions
  | '-' :: '-' :: text =>
      match Text.cut? '=' text with
      | none => .long (String.ofList text) none
      | some (name, value) => .long (String.ofList name) (some (String.ofList value))
  | ['-'] => .word
  | '-' :: letters => .short letters
  | _ => .word

/-- What an option takes. -/
inductive Kind where
  /-- Nothing. -/
  | flag
  | text
  /-- A text that is not empty. -/
  | path
  /-- A component and its level; the option may be repeated. -/
  | component
  deriving DecidableEq, Repr

namespace Kind

def accepts (k : Kind) (value : String) : Bool :=
  match k with
  | .path => !value.isEmpty
  | .component => (Log.Component.read? value).isSome
  | _ => true

end Kind

abbrev Options := List (String × Kind)

def Options.everywhere : Options :=
  [("log-level", .text), ("json-logs", .flag), ("log-component", .component)]

/-- The options that were given, in order; a flag has an empty text. -/
abbrev Given := List (String × String)

/-- How far the arguments could be taken. -/
inductive Progress where
  /-- All of them are options. -/
  | options (given : Given)
  /-- Options, and then a word with the arguments after it. -/
  | word (given : Given) (text : String) (rest : List String)
  | version
  | help
  | misuse
  deriving DecidableEq, Repr

namespace Progress

def withOption (name value : String) : Progress → Progress
  | .options given => .options ((name, value) :: given)
  | .word given text rest => .word ((name, value) :: given) text rest
  | p => p

end Progress

def mayBeGiven (before : List String) (name : String) (kind : Kind) : Bool :=
  kind = .component || !before.contains name

/-- Takes options up to the first word. `before` names those taken already, and `versioned` tells
whether the version may be asked for. -/
def takeOptions (known : Options) (versioned : Bool) :
    (before : List String) → List String → Progress
  | _, [] => .options []
  | before, argument :: rest =>
      match Shape.of argument with
      | .word => .word [] argument rest
      | .endOfOptions => if rest.isEmpty then .options [] else .misuse
      | .short letters =>
          if letters.head? = some 'h' then .help
          else if versioned && letters.head? = some 'V' then .version
          else .misuse
      | .long "help" none => .help
      | .long "version" none => if versioned then .version else .misuse
      | .long name attached =>
          match known.lookup name with
          | none => .misuse
          | some kind =>
              if !mayBeGiven before name kind then .misuse
              else
                match kind, attached, rest with
                | .flag, none, rest =>
                    (takeOptions known versioned (name :: before) rest).withOption name ""
                | .flag, some _, _ => .misuse
                | kind, some value, rest =>
                    if kind.accepts value then
                      (takeOptions known versioned (name :: before) rest).withOption name value
                    else .misuse
                | _, none, [] => .misuse
                | kind, none, value :: rest =>
                    if Shape.of value = .word ∧ kind.accepts value then
                      (takeOptions known versioned (name :: before) rest).withOption name value
                    else .misuse

def commandOptions : String → Option Options
  | "ingest" => some [("fixture", .path), ("config", .path), ("db", .text), ("follow", .flag)]
  | "reconcile" => some [("fixture", .path), ("config", .path), ("db", .text)]
  | "status" => some [("db", .text), ("config", .path)]
  | "show" => some [("signature", .text), ("db", .text)]
  | "quarantine" => some [("db", .text)]
  | "info" => some []
  | _ => none

/-- The command of this name with these options, unless one that it needs is missing. -/
def commandOf (name : String) (given : Given) : Option Command :=
  let database := (given.lookup "db").getD defaultDatabase
  match name with
  | "ingest" => do
      let follow := (given.lookup "follow").isSome
      return .ingest (← given.lookup "fixture") (← given.lookup "config") database follow
  | "reconcile" => do
      return .reconcile (← given.lookup "fixture") (← given.lookup "config") database
  | "status" => some (.status database (given.lookup "config"))
  | "show" => do return .lookup (← given.lookup "signature") database
  | "quarantine" => some (.quarantine database)
  | "info" => some .info
  | _ => none

def componentsOf (given : Given) : List Log.Component :=
  (given.filter fun g => g.1 = "log-component").filterMap fun g => Log.Component.read? g.2

/-- The log settings from the options before and after the command. Those after it win, and
components given there replace all those given before. -/
def logSettings (before after : Given) : Log.Settings where
  level := ((after ++ before).lookup "log-level").getD Log.Settings.default.level
  components :=
    let inner := componentsOf after
    if inner.isEmpty then componentsOf before else inner
  json := ((after ++ before).lookup "json-logs").isSome

/-- The invocation of a command with the arguments after its name; nothing for a misuse. -/
def invocationOf (before : Given) (name : String) (rest : List String) : Option Invocation :=
  match commandOptions name with
  | none => none
  | some options =>
      match takeOptions (options ++ .everywhere) false [] rest with
      | .options given => (commandOf name given).map (.run (logSettings before given))
      | .help => some .help
      | _ => none

def asksForHelp : List String → Bool
  | [] => true
  | name :: rest => ((commandOptions name).isSome || name = "help") && rest.isEmpty

/-- What the arguments ask for; nothing for a misuse. -/
def Invocation.read? (arguments : List String) : Option Invocation :=
  match takeOptions .everywhere true [] arguments with
  | .word _ "help" rest => if asksForHelp rest then some .help else none
  | .word given name rest => invocationOf given name rest
  | .version => some .version
  | .help => some .help
  | _ => none

end RouterHistory.CommandLine
