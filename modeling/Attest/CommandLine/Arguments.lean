import Attest.Format

/-!
The arguments of a command line.

Options may stand before and behind what they belong to, a value follows its option or stands
behind an equals sign, and after two dashes there are no options.
-/

namespace Attest

inductive UsageError where
  | noCommand
  | unknownCommand (name : String)
  | unknownOption (argument : String)
  | missingValue (option : String)
  | unwantedValue (option : String)
  | invalidValue (option value : String)
  | repeated (option : String)
  | unexpected (argument : String)
  | missingOption (option : String)
deriving DecidableEq, Repr

namespace UsageError

def reason : UsageError → String
  | noCommand => "a command is required"
  | unknownCommand n => "unrecognized command '" ++ n ++ "'"
  | unknownOption a => "unexpected argument '" ++ a ++ "'"
  | missingValue o => "a value is required for '" ++ o ++ "'"
  | unwantedValue o => "no value is allowed for '" ++ o ++ "'"
  | invalidValue o v => "invalid value '" ++ v ++ "' for '" ++ o ++ "'"
  | repeated o => "'" ++ o ++ "' cannot be used multiple times"
  | unexpected a => "unexpected argument '" ++ a ++ "'"
  | missingOption o => "'" ++ o ++ "' is required"

def message (e : UsageError) : String :=
  "error: " ++ e.reason ++ "\n\nUsage: attest [--config FILE] <compile|tokens|check-config>\n\n"
    ++ "For more information, try '--help'.\n"

end UsageError

inductive Command where
  | compile (schemas : List String) (profiles : Option String) (role : String)
      (format : Option Format) (actor rationale : Option String) (execute : Bool)
  | tokens (comments : Bool)
  | checkConfig
deriving DecidableEq, Repr

/-- The arguments: a file of settings, a command, and a statement, which may come in another way. -/
structure Invocation where
  config : Option String
  command : Command
  statement : Option String
deriving DecidableEq, Repr

namespace Arguments

inductive OptionKind where
  | flag
  | text
  | path
deriving DecidableEq, Repr

structure Opt where
  long : String
  short : Option Char := none
  kind : OptionKind := .text
deriving DecidableEq, Repr

structure Parsed where
  options : List (String × String) := []
  statements : List String := []

def configOption : Opt := { long := "config", kind := .path }

def optionsOf : String → Option (List Opt)
  | "compile" => some [
      configOption,
      { long := "schema", short := some 's', kind := .path },
      { long := "profiles", short := some 'p', kind := .path },
      { long := "role", short := some 'r' },
      { long := "format", short := some 'f' },
      { long := "actor" },
      { long := "rationale" },
      { long := "execute", kind := .flag }]
  | "tokens" => some [configOption, { long := "comments", kind := .flag }]
  | "check-config" => some [configOption]
  | _ => none

/-- How one argument reads: an option with its value if that is part of it, or another text. -/
inductive Reading where
  | option (o : Opt) (value : Option String)
  | plain
  | unknown

/-- Split at the first equals sign. -/
def splitEquals : List Char → List Char × Option String
  | [] => ([], none)
  | '=' :: rest => ([], some (String.ofList rest))
  | c :: rest =>
    let (name, value) := splitEquals rest
    (c :: name, value)

def read (known : List Opt) (argument : String) : Reading :=
  match argument.toList with
  | '-' :: '-' :: rest =>
    let (name, value) := splitEquals rest
    match known.find? (·.long == String.ofList name) with
    | some o => .option o value
    | none => .unknown
  | '-' :: c :: rest => match known.find? (·.short == some c), rest with
    | none, _ => .unknown
    | some o, [] => .option o none
    | some o, '=' :: value => .option o (some (String.ofList value))
    | some o, value => .option o (some (String.ofList value))
  | _ => .plain

/-- Whether an argument cannot be the value of the option before it. -/
def isDashed (argument : String) : Bool :=
  match argument.toList with
  | '-' :: _ :: _ => true
  | _ => false

def checkValue (o : Opt) (value : String) : Except UsageError (String × String) :=
  if o.kind == .path && value.isEmpty then .error (.missingValue o.long)
  else .ok (o.long, value)

def parse (known : List Opt) : List String → Except UsageError Parsed
  | [] => .ok {}
  | "--" :: rest => .ok { statements := rest }
  | a :: rest => match read known a with
    | .unknown => .error (.unknownOption a)
    | .plain => do
      let p ← parse known rest
      return { p with statements := a :: p.statements }
    | .option o value => match o.kind, value with
      | .flag, some _ => .error (.unwantedValue o.long)
      | .flag, none => do
        let p ← parse known rest
        return { p with options := (o.long, "") :: p.options }
      | _, some v => do
        let entry ← checkValue o v
        let p ← parse known rest
        return { p with options := entry :: p.options }
      | _, none => match rest with
        | [] => .error (.missingValue o.long)
        | v :: rest => do
          if isDashed v then .error (.missingValue o.long)
          else
            let entry ← checkValue o v
            let p ← parse known rest
            return { p with options := entry :: p.options }

/-- Find the command, with the file of settings that stands before it. -/
def splitCommand (config : Option String) :
    List String → Except UsageError (Option String × String × List String)
  | [] => .error .noCommand
  | a :: rest => match read [configOption] a with
    | .unknown => .error (.unknownOption a)
    | .plain => .ok (config, a, rest)
    | .option o value =>
      if config.isSome then .error (.repeated o.long)
      else match value, rest with
        | some v, rest => do
          let entry ← checkValue o v
          splitCommand (some entry.2) rest
        | none, [] => .error (.missingValue o.long)
        | none, v :: rest => do
          if isDashed v then .error (.missingValue o.long)
          else
            let entry ← checkValue o v
            splitCommand (some entry.2) rest

namespace Parsed

def all (p : Parsed) (name : String) : List String :=
  (p.options.filter (·.1 == name)).map (·.2)

/-- The value of an option that is given at most once. -/
def one (p : Parsed) (name : String) : Except UsageError (Option String) :=
  match p.all name with
  | [] => .ok none
  | [v] => .ok (some v)
  | _ => .error (.repeated name)

def statement (p : Parsed) : Except UsageError (Option String) :=
  match p.statements with
  | [] => .ok none
  | [s] => .ok (some s)
  | _ :: s :: _ => .error (.unexpected s)

def format (p : Parsed) : Except UsageError (Option Format) := do
  match ← p.one "format" with
  | none => return none
  | some s => match Format.ofName? s with
    | some f => return some f
    | none => .error (.invalidValue "format" s)

def command (p : Parsed) (name : String) : Except UsageError Command :=
  match name with
  | "compile" => do
    let profiles ← p.one "profiles"
    let role := (← p.one "role").getD "admin"
    let format ← p.format
    let actor ← p.one "actor"
    let rationale ← p.one "rationale"
    let execute := (← p.one "execute").isSome
    if (p.all "schema").isEmpty then .error (.missingOption "schema")
    else return .compile (p.all "schema") profiles role format actor rationale execute
  | "tokens" => do return .tokens (← p.one "comments").isSome
  | _ => .ok .checkConfig

end Parsed
end Arguments

def Invocation.parse (args : List String) : Except UsageError Invocation := do
  let (before, name, rest) ← Arguments.splitCommand none args
  match Arguments.optionsOf name with
  | none => .error (.unknownCommand name)
  | some known =>
    let p ← Arguments.parse known rest
    let config := (← p.one "config") <|> before
    let command ← p.command name
    let statement ← p.statement
    match command, statement with
    | .checkConfig, some s => .error (.unexpected s)
    | command, statement => return { config, command, statement }

end Attest
