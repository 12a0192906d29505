import Phrasebook.Command.Arguments
import Phrasebook.Dict

namespace Phrasebook

structure CheckOptions where
  files : List String
  json : Bool
  strict : Bool
deriving Repr

structure CoverageOptions where
  document : String
  /-- The locales to report; all declared ones if there are none. -/
  locales : List String
  json : Bool
  strict : Bool
deriving Repr

structure RenderOptions where
  document : String
  key : String
  locale : Option String
  /-- Values by name, as given. -/
  params : List (String × String)
  plain : Bool
  debug : Bool
  json : Bool
deriving Repr

/-- What the program is asked to do. -/
inductive Command where
  | check (options : CheckOptions)
  | coverage (options : CoverageOptions)
  | render (options : RenderOptions)
deriving Repr

structure Invocation where
  verbose : Bool
  command : Command
deriving Repr

namespace Invocation

/-- The environment variable that says when to color. -/
def colorVariable : String := "GLOSSA_COLOR"

/-- The environment variable that names the locale to render. -/
def localeVariable : String := "GLOSSA_LOCALE"

def isColorChoice (s : String) : Bool := s == "auto" || s == "always" || s == "never"

/-- Splits a parameter at its first equals sign. -/
def param? (s : String) : Option (String × String) :=
  match s.toList.span (· ≠ '=') with
  | (_, []) => none
  | (name, _ :: value) => some (String.ofList name, String.ofList value)

/-- Options that may stand before and after the name of a command. -/
def globalFlags : List Flag :=
  [{ long := "color", arity := .value isColorChoice },
   { long := "verbose", letter := some 'v' },
   { long := "help", letter := some 'h' }]

def programFlags : List Flag := { long := "version", letter := some 'V' } :: globalFlags

def anyValue (_ : String) : Bool := true

def checkFlags : List Flag := [{ long := "json" }, { long := "strict" }]

def coverageFlags : List Flag :=
  [{ long := "locale", arity := .values anyValue }, { long := "strict" }, { long := "json" }]

def renderFlags : List Flag :=
  [{ long := "key", arity := .value anyValue }, { long := "locale", arity := .value anyValue },
   { long := "param", letter := some 'p', arity := .values fun s => (param? s).isSome },
   { long := "plain" }, { long := "debug" }, { long := "json" }]

/-- The locales of a value with commas between them. -/
def splitLocales (value : String) : List String := (value.toList.splitOn ',').map String.ofList

def checkOptions (a : Arguments) : Except UsageFault CheckOptions := do
  if a.operands.isEmpty then throw (.missingArgument "FILES")
  return ⟨a.operands, a.has "json", a.has "strict"⟩

def coverageOptions (a : Arguments) : Except UsageFault CoverageOptions := do
  let some document := a.operands.head? | throw (.missingArgument "DOCUMENT")
  return { document := document
           locales := (a.all "locale").flatMap splitLocales
           json := a.has "json"
           strict := a.has "strict" }

def renderOptions (a : Arguments) (env : String → Option String) :
    Except UsageFault RenderOptions := do
  let some document := a.operands.head? | throw (.missingArgument "DOCUMENT")
  let some key := a.first? "key" | throw (.missingArgument "--key")
  if a.has "plain" && a.has "debug" then throw (.conflict "plain" "debug")
  return { document := document
           key := key
           locale := (a.first? "locale").or (env localeVariable)
           params := (a.all "param").filterMap param?
           plain := a.has "plain"
           debug := a.has "debug"
           json := a.has "json" }

/-- The color choice of one level of arguments; without one the environment must hold a valid
one or none. -/
def checkColor (a : Arguments) (env : String → Option String) : Except UsageFault Unit :=
  match env colorVariable with
  | none => .ok ()
  | some choice =>
    if a.has "color" || isColorChoice choice then .ok ()
    else .error (.invalidValue "color" choice)

/-- The arguments of a command and what they mean in an environment. -/
structure Grammar where
  flags : List Flag
  operands : Operands
  meaning : Arguments → (String → Option String) → Except UsageFault Command

def grammar? : String → Option Grammar
  | "check" => some ⟨checkFlags, .many "FILES", fun a _ => Command.check <$> checkOptions a⟩
  | "coverage" =>
    some ⟨coverageFlags, .one "DOCUMENT", fun a _ => Command.coverage <$> coverageOptions a⟩
  | "render" =>
    some ⟨renderFlags, .one "DOCUMENT", fun a env => Command.render <$> renderOptions a env⟩
  | _ => none

/-- Asking for help by name: about the program, or about one of its commands. -/
def helpOn : List String → Interrupt
  | [] => .help
  | ["help"] => .help
  | [name] => if (grammar? name).isSome then .help else .fault (.unknownCommand name)
  | _ :: name :: _ => .fault (.unknownCommand name)

/-- What the program is asked to do by its arguments and the environment. -/
def parse (args : List String) (env : String → Option String) : Except Interrupt Invocation := do
  let (global, rest) ← Arguments.read programFlags .stop {} none args
  match rest with
  | [] => throw (.fault .missingCommand)
  | "help" :: names => throw (helpOn names)
  | name :: rest =>
    let some grammar := grammar? name | throw (.fault (.unknownCommand name))
    let (a, _) ← Arguments.read (grammar.flags ++ globalFlags) grammar.operands {} none rest
    let command ← (grammar.meaning a env).mapError .fault
    (checkColor a env).mapError .fault
    (checkColor global env).mapError .fault
    return ⟨global.has "verbose" || a.has "verbose", command⟩

end Invocation

end Phrasebook
