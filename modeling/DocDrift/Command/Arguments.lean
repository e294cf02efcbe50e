import DocDrift.NameMap

/-!
The command line: options of the program, the name of a command, and the options and values of the
command. Options may stand in any order; behind two dashes everything is a value. An option is
looked at once the next one begins, and the option of the program may also follow the command.
-/

set_option autoImplicit false

namespace DocDrift.Command

/-- What a user asks for. -/
inductive Task
  | init
  | run (force : Bool)
  | watch (interval : Option Nat)
  | analyze (old new : String) (json : Bool)
  | status
  | costs
  | cleanup
  deriving DecidableEq, Repr

structure Invocation where
  repository : String
  task : Task
  deriving DecidableEq, Repr

/-- Why arguments make no command line. -/
inductive UsageFault
  | helpWanted
  | versionWanted
  /-- There are no arguments at all. -/
  | nothingGiven
  | missingCommand
  | unknownCommand
  | unknownArgument
  | missingArgument
  /-- An option without its value, or an empty path. -/
  | invalidValue
  /-- A value that is no number of seconds. -/
  | notSeconds
  /-- A flag with a value. -/
  | surplusValue
  /-- An option that is given twice. -/
  | repeated
  deriving DecidableEq, Repr

/-- What a value has to be. -/
inductive Kind
  | path
  | seconds
  deriving DecidableEq, Repr

/-- A parameter; a flag takes no value. -/
structure Parameter where
  name : String
  kind : Option Kind
  deriving DecidableEq, Repr

/-- The parameters of the program or of a command, and the commands that may follow. -/
structure Shape where
  options : List Parameter
  values : List Parameter
  commands : List String
  /-- Whether there is an option that asks for the version. -/
  hasVersion : Bool

/-! ### Values -/

/-- A whole number of seconds; a plus sign may stand in front of its digits. -/
def seconds? (text : String) : Option Nat :=
  let digits := match text.toList with
    | '+' :: rest => rest
    | chars => chars
  if digits.isEmpty || !digits.all Char.isDigit then none
  else
    let value := digits.foldl (fun value c => value * 10 + (c.toNat - 0x30)) 0
    if value ≤ 18446744073709551615 then some value else none

/-- Accepts a value of some kind. -/
def Kind.check : Kind → String → Except UsageFault Unit
  | .path, text => if text.isEmpty then .error .invalidValue else .ok ()
  | .seconds, text => if (seconds? text).isSome then .ok () else .error .notSeconds

/-! ### Reading one level -/

/-- What was read of the arguments of the program or of a command. -/
structure Reading where
  /-- The values by the names of the parameters; the value of a flag is empty. -/
  found : NameMap String
  /-- The parameter that was read last, with its value if it came. -/
  pending : Option (Parameter × Option String)
  /-- Whether the next argument is the value of an option. -/
  awaiting : Bool
  /-- How many values were read that are not those of options. -/
  count : Nat
  /-- Whether two dashes were read. -/
  onlyValues : Bool

namespace Reading

def start : Reading := ⟨[], none, false, 0, false⟩

def note (reading : Reading) (parameter : Parameter) (value : String) :
    Except UsageFault Reading := do
  if (reading.found.find? parameter.name).isSome then .error .repeated
  else
    if let some kind := parameter.kind then kind.check value
    return { reading with found := reading.found.insert parameter.name value }

/-- Notes the parameter that was read last. -/
def settle (reading : Reading) : Except UsageFault Reading :=
  match reading.pending with
  | none => .ok reading
  | some (_, none) => .error .invalidValue
  | some (parameter, some value) => { reading with pending := none }.note parameter value

end Reading

/-- The name of a long option and the value attached to it. -/
def longOption? (argument : String) : Option (String × Option String) :=
  match argument.toList with
  | '-' :: '-' :: c :: rest =>
      let text := c :: rest
      let name := String.ofList (text.takeWhile (· != '='))
      match text.dropWhile (· != '=') with
      | [] => some (name, none)
      | _ :: value => some (name, some (String.ofList value))
  | _ => none

/-- The first letter of short options. -/
def shortOption? (argument : String) : Option Char :=
  match argument.toList with
  | '-' :: c :: _ => if c == '-' then none else some c
  | _ => none

namespace Shape

/-- The options that only ask for something. -/
def wish? (shape : Shape) (name : String) : Option UsageFault :=
  if name == "help" then some .helpWanted
  else if name == "version" && shape.hasVersion then some .versionWanted
  else none

def readLong (shape : Shape) (reading : Reading) (name : String) (value : Option String) :
    Except UsageFault Reading := do
  match shape.wish? name with
  | some wish =>
      if value.isSome then .error .surplusValue
      else
        let _ ← reading.settle
        .error wish
  | none =>
      match shape.options.find? (fun parameter => parameter.name == name) with
      | none => .error .unknownArgument
      | some parameter =>
          match parameter.kind, value with
          | none, some _ => .error .surplusValue
          | none, none => (← reading.settle).note parameter ""
          | some _, some value => (← reading.settle).note parameter value
          | some _, none =>
              return { (← reading.settle) with pending := some (parameter, none), awaiting := true }

/-- Reads short options; there are only those that ask for something. -/
def readShort (shape : Shape) (reading : Reading) (letter : Char) : Except UsageFault Reading := do
  let wish :=
    if letter == 'h' then shape.wish? "help"
    else if letter == 'V' then shape.wish? "version"
    else none
  match wish with
  | some wish =>
      let _ ← reading.settle
      .error wish
  | none => .error .unknownArgument

/-- Why an argument is refused that would have to be a value. -/
def surplus (shape : Shape) (reading : Reading) (argument : String) : UsageFault :=
  if shape.commands.isEmpty then .unknownArgument
  else if reading.onlyValues && shape.commands.contains argument then .unknownArgument
  else .unknownCommand

/-- Reads a value that is not that of an option. -/
def readValue (shape : Shape) (reading : Reading) (argument : String) :
    Except UsageFault Reading := do
  match shape.values[reading.count]? with
  | none => .error (shape.surplus reading argument)
  | some parameter =>
      let reading ← reading.settle
      return { reading with
        pending := some (parameter, some argument), count := reading.count + 1 }

/-- What asking for help on a command leads to; commands have no commands of their own. -/
def helpOn (shape : Shape) : List String → UsageFault
  | [] => .helpWanted
  | [command] => if shape.commands.contains command then .helpWanted else .unknownCommand
  | _ => .unknownCommand

/-- Reads arguments up to a command; the command comes second with the arguments behind it. -/
def read (shape : Shape) :
    Reading → List String → Except UsageFault (Reading × Option (String × List String))
  | reading, [] => .ok (reading, none)
  | reading, argument :: rest =>
      if reading.onlyValues then do
        read shape (← shape.readValue reading argument) rest
      else if !reading.awaiting && shape.commands.contains argument then
        if argument == "help" then .error (shape.helpOn rest)
        else .ok (reading, some (argument, rest))
      else if argument == "--" then read shape { reading with onlyValues := true } rest
      else
        match longOption? argument, shortOption? argument with
        | some (name, value), _ => do
            read shape (← shape.readLong { reading with awaiting := false } name value) rest
        | none, some letter => do
            read shape (← shape.readShort reading letter) rest
        | none, none =>
            if reading.awaiting then
              let pending := reading.pending.map fun found => (found.1, some argument)
              read shape { reading with pending := pending, awaiting := false } rest
            else do
              read shape (← shape.readValue reading argument) rest

end Shape

/-! ### The program and its commands -/

def repositoryOption : Parameter := ⟨"repo", some .path⟩

/-- The names of the commands, and the one that explains them. -/
def commandNames : List String :=
  ["init", "run", "watch", "analyze", "status", "costs", "cleanup", "help"]

def programShape : Shape :=
  { options := [repositoryOption], values := [], commands := commandNames, hasVersion := true }

def commandShape (command : String) : Shape :=
  { options := repositoryOption ::
      match command with
      | "run" => [⟨"force", none⟩]
      | "watch" => [⟨"interval", some .seconds⟩]
      | "analyze" => [⟨"json", none⟩]
      | _ => []
    values := if command == "analyze" then [⟨"old", some .path⟩, ⟨"new", some .path⟩] else []
    commands := []
    hasVersion := false }

/-- The task that a command with its parameters stands for. -/
def taskOf (command : String) (found : NameMap String) : Except UsageFault Task :=
  let given (name : String) : Bool := (found.find? name).isSome
  match command with
  | "init" => .ok .init
  | "run" => .ok (.run (given "force"))
  | "watch" => .ok (.watch ((found.find? "interval").bind seconds?))
  | "analyze" =>
      match found.find? "old", found.find? "new" with
      | some old, some new => .ok (.analyze old new (given "json"))
      | _, _ => .error .missingArgument
  | "status" => .ok .status
  | "costs" => .ok .costs
  | "cleanup" => .ok .cleanup
  | _ => .error .unknownCommand

def Invocation.ofArguments (arguments : List String) : Except UsageFault Invocation := do
  let (reading, command) ← programShape.read .start arguments
  match command with
  | none =>
      let reading ← reading.settle
      if reading.found.isEmpty then .error .nothingGiven else .error .missingCommand
  | some (command, rest) =>
      let (own, _) ← (commandShape command).read .start rest
      let own ← own.settle
      let task ← taskOf command own.found
      let reading ← reading.settle
      let repository :=
        match own.found.find? "repo" with
        | some path => path
        | none => (reading.found.find? "repo").getD "."
      return ⟨repository, task⟩

end DocDrift.Command
