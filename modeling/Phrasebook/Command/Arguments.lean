namespace Phrasebook

/-- What an option expects. -/
inductive Arity where
  | switch
  /-- One value, given once. -/
  | value (valid : String → Bool)
  /-- One value each time it is given. -/
  | values (valid : String → Bool)

/-- An option of a command. -/
structure Flag where
  long : String
  letter : Option Char := none
  arity : Arity := .switch

/-- The arguments that are taken besides options. -/
inductive Operands where
  /-- None: the first one ends the reading. -/
  | stop
  | one (name : String)
  | many (name : String)

/-- Why arguments are not understood. -/
inductive UsageFault where
  | unknownOption (name : String)
  | unknownCommand (name : String)
  | missingCommand
  | missingValue (name : String)
  | unexpectedValue (name : String)
  | invalidValue (name value : String)
  | repeated (name : String)
  | missingArgument (name : String)
  | unexpectedArgument (value : String)
  | conflict (first second : String)
deriving DecidableEq, Repr

def UsageFault.message : UsageFault → String
  | .unknownOption name => "unexpected argument '" ++ name ++ "' found"
  | .unknownCommand name => "unrecognized subcommand '" ++ name ++ "'"
  | .missingCommand => "a subcommand is required"
  | .missingValue name => "a value is required for '--" ++ name ++ "'"
  | .unexpectedValue name => "unexpected value for '--" ++ name ++ "' found"
  | .invalidValue name value => "invalid value '" ++ value ++ "' for '" ++ name ++ "'"
  | .repeated name => "the argument '--" ++ name ++ "' cannot be used multiple times"
  | .missingArgument name => "the required argument '" ++ name ++ "' was not provided"
  | .unexpectedArgument value => "unexpected argument '" ++ value ++ "' found"
  | .conflict first second =>
    "the argument '--" ++ first ++ "' cannot be used with '--" ++ second ++ "'"

/-- What ends the reading of arguments before their end. -/
inductive Interrupt where
  | fault (fault : UsageFault)
  | help
  | version
deriving DecidableEq, Repr

/-- The options read, in order and each with its value, and the other arguments. -/
structure Arguments where
  options : List (String × String) := []
  operands : List String := []
deriving Repr

namespace Arguments

/-- Whether an option was given. -/
def has (a : Arguments) (name : String) : Bool := a.options.any (·.1 == name)

/-- The values of an option. -/
def all (a : Arguments) (name : String) : List String :=
  (a.options.filter (·.1 == name)).map (·.2)

def first? (a : Arguments) (name : String) : Option String := (a.all name).head?

/-- Records an option. Help and version end the reading. -/
def record (a : Arguments) (flag : Flag) (value : String) : Except Interrupt Arguments :=
  let added := { a with options := a.options ++ [(flag.long, value)] }
  match flag.arity with
  | .switch =>
    if flag.long = "help" then .error .help
    else if flag.long = "version" then .error .version
    else if a.has flag.long then .error (.fault (.repeated flag.long))
    else .ok added
  | .value valid =>
    if !valid value then .error (.fault (.invalidValue flag.long value))
    else if a.has flag.long then .error (.fault (.repeated flag.long))
    else .ok added
  | .values valid =>
    if valid value then .ok added else .error (.fault (.invalidValue flag.long value))

/-- Records an operand, which may not be empty. -/
def addOperand (a : Arguments) (expected : Operands) (operand : String) :
    Except Interrupt Arguments :=
  let added := { a with operands := a.operands ++ [operand] }
  match expected with
  | .stop => .error (.fault (.unexpectedArgument operand))
  | .one name =>
    if !a.operands.isEmpty then .error (.fault (.unexpectedArgument operand))
    else if operand = "" then .error (.fault (.invalidValue name operand))
    else .ok added
  | .many name =>
    if operand = "" then .error (.fault (.invalidValue name operand)) else .ok added

/-- A name up to an equals sign, and what follows the sign. -/
def splitAttached (cs : List Char) : String × Option String :=
  match cs.span (· ≠ '=') with
  | (name, []) => (String.ofList name, none)
  | (name, _ :: value) => (String.ofList name, some (String.ofList value))

/-- Reads a cluster of letters. A letter that takes a value takes the rest of the cluster, an equals
sign in front of it apart; without a rest the option waits for the next argument. -/
def readLetters (flags : List Flag) (a : Arguments) :
    List Char → Except Interrupt (Arguments × Option Flag)
  | [] => .ok (a, none)
  | c :: cs =>
    match flags.find? (·.letter == some c) with
    | none => .error (.fault (.unknownOption ("-" ++ String.singleton c)))
    | some flag =>
      match flag.arity with
      | .switch => do readLetters flags (← a.record flag "") cs
      | _ =>
        match cs with
        | [] => .ok (a, some flag)
        | '=' :: cs => do return (← a.record flag (String.ofList cs), none)
        | cs => do return (← a.record flag (String.ofList cs), none)

/-- Reads one argument that begins with a hyphen; an option that still waits for its value is
returned. -/
def readOption (flags : List Flag) (a : Arguments) (argument : List Char) :
    Except Interrupt (Arguments × Option Flag) :=
  match argument with
  | '-' :: '-' :: cs =>
    let (name, attached) := splitAttached cs
    match flags.find? (·.long == name) with
    | none => .error (.fault (.unknownOption ("--" ++ name)))
    | some flag =>
      match flag.arity, attached with
      | .switch, some _ => .error (.fault (.unexpectedValue name))
      | .switch, none => do return (← a.record flag "", none)
      | _, some value => do return (← a.record flag value, none)
      | _, none => .ok (a, some flag)
  | _ :: cs => readLetters flags a cs
  | [] => .ok (a, none)

/-- Whether an argument is an option, and no value or operand. -/
def isOption (argument : String) : Bool :=
  match argument.toList with
  | '-' :: _ :: _ => true
  | _ => false

/-- Reads arguments one by one, so that of two faults, or of a fault and a call for help, the first
counts. The arguments from one that ends the reading on are returned. -/
def read (flags : List Flag) (expected : Operands) (a : Arguments) (waiting : Option Flag) :
    List String → Except Interrupt (Arguments × List String)
  | [] =>
    match waiting with
    | some flag => .error (.fault (.missingValue flag.long))
    | none => .ok (a, [])
  | argument :: rest =>
    match waiting with
    | some flag =>
      if isOption argument then .error (.fault (.missingValue flag.long))
      else do read flags expected (← a.record flag argument) none rest
    | none =>
      if argument = "--" then do return (← rest.foldlM (addOperand · expected) a, [])
      else if isOption argument then do
        let (a, waiting) ← readOption flags a argument.toList
        read flags expected a waiting rest
      else
        match expected with
        | .stop => .ok (a, argument :: rest)
        | _ => do read flags expected (← a.addOperand expected argument) none rest

end Arguments

end Phrasebook
