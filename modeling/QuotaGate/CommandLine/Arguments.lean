import QuotaGate.Number.Decimal
import QuotaGate.Route

/-!
# Arguments of the command line

A command names a method and a template. Options may stand anywhere, long ones with their value
after an equals sign or in the next argument, short ones with it right behind or in the next
argument. An argument that begins with a dash is never the value of the one before it. After two
dashes there are no options.
-/

namespace QuotaGate.CommandLine

/-- What a command asks for. -/
structure Command where
  method : String
  template : String
  /-- The path of a file of settings. -/
  config : Option String
  params : List PathParam
  body : Option String
  /-- How often the request is sent. -/
  count : Nat
  /-- How many requests may be outstanding at once. -/
  atOnce : Nat
  deriving DecidableEq, Repr

/-- Why there is no command. -/
inductive Stop where
  | usage
  | help
  | version
  deriving DecidableEq, Repr

/-- The arguments read so far. -/
structure Reading where
  positionals : List String
  config : Option String
  params : List PathParam
  body : Option String
  count : Option Nat
  atOnce : Option Nat
  json : Bool

/-- The options. -/
inductive OptionName where
  | config
  | param
  | body
  | count
  | atOnce
  | json
  | help
  | version
  deriving DecidableEq, Repr

namespace OptionName

def longNames : List (String × OptionName) := [
  ("config", config), ("param", param), ("body", body), ("repeat", count),
  ("concurrency", atOnce), ("json", json), ("help", help), ("version", version)]

def shortNames : List (Char × OptionName) :=
  [('c', config), ('p', param), ('b', body), ('h', help), ('V', version)]

def hasValue : OptionName → Bool
  | config | param | body | count | atOnce => true
  | json | help | version => false

end OptionName

/-- Splits a text at its first equals sign. -/
def splitAtEquals (text : String) : String × Option String :=
  let chars := text.toList
  let name := chars.takeWhile (· != '=')
  match chars.drop name.length with
  | [] => (text, none)
  | _ :: value => (String.ofList name, some (String.ofList value))

/-- Reads a parameter: its name, an equals sign, and its value. -/
def param? (text : String) : Option PathParam :=
  match splitAtEquals text with
  | (name, some value) => some ⟨name, value⟩
  | (_, none) => none

def count? (text : String) : Option Nat := NumberText.nat? NumberText.greatestNat64 text.toList

namespace Reading

def empty : Reading := ⟨[], none, [], none, none, none, false⟩

/-- Adds a positional argument. There are two. -/
def addPositional (reading : Reading) (text : String) : Except Stop Reading :=
  if reading.positionals.length < 2 then
    .ok { reading with positionals := reading.positionals ++ [text] }
  else .error .usage

/-- Adds an option. Only parameters may come more than once. -/
def addOption (reading : Reading) (option : OptionName) (value : String) :
    Except Stop Reading :=
  match option with
  | .config =>
    if reading.config.isSome then .error .usage else .ok { reading with config := some value }
  | .body =>
    if reading.body.isSome then .error .usage else .ok { reading with body := some value }
  | .param =>
    match param? value with
    | some param => .ok { reading with params := reading.params ++ [param] }
    | none => .error .usage
  | .count =>
    match reading.count, count? value with
    | none, some count => .ok { reading with count := some count }
    | _, _ => .error .usage
  | .atOnce =>
    match reading.atOnce, count? value with
    | none, some count => .ok { reading with atOnce := some count }
    | _, _ => .error .usage
  | .json => if reading.json then .error .usage else .ok { reading with json := true }
  | .help => .error .help
  | .version => .error .version

/-- The command, if the arguments are complete. -/
def command (reading : Reading) : Except Stop Command :=
  match reading.positionals with
  | [method, template] =>
    .ok {
      method
      template
      config := reading.config
      params := reading.params
      body := reading.body
      count := reading.count.getD 1
      atOnce := reading.atOnce.getD 4 }
  | _ => .error .usage

end Reading

/-- What one argument is. -/
inductive Argument where
  | positional (text : String)
  /-- An option, and its value if that is in the same argument. -/
  | option (name : OptionName) (value : Option String)
  /-- Two dashes. -/
  | endOfOptions
  | unknown
  deriving DecidableEq, Repr

namespace Argument

def ofText (text : String) : Argument :=
  match text.toList with
  | ['-', '-'] => .endOfOptions
  | '-' :: '-' :: long =>
    let (name, value) := splitAtEquals (String.ofList long)
    match OptionName.longNames.lookup name with
    | some found => .option found value
    | none => .unknown
  | '-' :: letter :: rest =>
    match OptionName.shortNames.lookup letter with
    | some found =>
      if !found.hasValue || rest.isEmpty then .option found none
      else
        let value := if rest.head? = some '=' then rest.drop 1 else rest
        .option found (some (String.ofList value))
    | none => .unknown
  | _ => .positional text

/-- Whether an argument can be the value of the option before it. -/
def isValue (text : String) : Bool :=
  match ofText text with
  | .positional _ => true
  | _ => false

end Argument

/-- Reads the arguments from left to right. -/
def readArguments (reading : Reading) : List String → Except Stop Reading
  | [] => .ok reading
  | text :: rest =>
    match Argument.ofText text with
    | .unknown => .error .usage
    | .endOfOptions => rest.foldlM Reading.addPositional reading
    | .positional text => do readArguments (← reading.addPositional text) rest
    | .option name (some value) =>
      if name.hasValue then do readArguments (← reading.addOption name value) rest
      else .error .usage
    | .option name none =>
      if name.hasValue then
        match rest with
        | [] => .error .usage
        | value :: rest =>
          if Argument.isValue value then do readArguments (← reading.addOption name value) rest
          else .error .usage
      else do readArguments (← reading.addOption name "") rest

def Command.ofArguments (arguments : List String) : Except Stop Command := do
  (← readArguments .empty arguments).command

end QuotaGate.CommandLine
