import OpenApiTs.Naming.Convention
import OpenApiTs.Text.Lines

/-!
# Requests

What the arguments of a command line ask for. The options of the program stand anywhere; the
command `generate` has options of its own and takes one path. A long option has its value after an
equals sign or as the next argument; short options may be run together, and the last of them may
have its value attached. Two hyphens end the options.

## Main definitions

* `Request`: a request to generate declarations.
* `Halt`: what ends the reading of arguments early.
* `Request.ofArguments`: the request of an argument list.
-/

namespace OpenApiTs

/-- The format of a document. -/
inductive SourceFormat where
  /-- To be settled by the name of the file or its contents. -/
  | auto
  | json
  | yaml
  deriving DecidableEq, Repr

/-- A request to generate declarations. -/
structure Request where
  /-- The path of the document; a hyphen stands for the standard input. -/
  input : String
  /-- The file for the result; without one it is printed. -/
  output : Option String := none
  /-- The configuration file. -/
  config : Option String := none
  format : SourceFormat := .auto
  /-- Whether the result is given as JSON. -/
  json : Bool := false
  /-- Whether to generate again whenever the document changes. -/
  watch : Bool := false
  /-- The text before every type name. -/
  before : Option String := none
  /-- The text after every type name. -/
  after : Option String := none
  /-- The convention for type names. -/
  types : Option Convention := none
  deriving DecidableEq, Repr

/-- Why arguments make no request. -/
inductive UsageError where
  | unknownOption (name : String)
  | unknownCommand (name : String)
  | missingCommand
  | missingInput
  | surplusArgument (argument : String)
  | missingValue (name : String)
  | unexpectedValue (name : String)
  | invalidValue (name value : String)
  | repeated (name : String)
  /-- Both more and less logging is asked for. -/
  | conflict
  deriving DecidableEq, Repr

/-- What ends the reading of arguments. -/
inductive Halt where
  | usage (error : UsageError)
  | help
  | version
  deriving DecidableEq, Repr

namespace Request

/-! ### Options -/

/-- An option without a value. -/
inductive Flag where
  | verbose
  | quiet
  | help
  | version
  | json
  | watch
  deriving DecidableEq, Repr

/-- An option with a value. -/
inductive Setting where
  | output
  | config
  | format
  | before
  | after
  | types
  deriving DecidableEq, Repr

/-- An option: how it is written, and what it is. -/
structure OptionForm where
  long : String
  short : Option Char
  kind : Flag ⊕ Setting

/-- The options that stand anywhere. -/
def commonOptions : List OptionForm := [
  ⟨"verbose", some 'v', .inl .verbose⟩,
  ⟨"quiet", some 'q', .inl .quiet⟩,
  ⟨"help", some 'h', .inl .help⟩]

/-- The options before the command. -/
def programOptions : List OptionForm :=
  commonOptions ++ [⟨"version", some 'V', .inl .version⟩]

/-- The options of the command. -/
def commandOptions : List OptionForm :=
  commonOptions ++ [
    ⟨"json", none, .inl .json⟩,
    ⟨"watch", some 'w', .inl .watch⟩,
    ⟨"output", some 'o', .inr .output⟩,
    ⟨"config", some 'c', .inr .config⟩,
    ⟨"format", some 'f', .inr .format⟩,
    ⟨"prefix", none, .inr .before⟩,
    ⟨"suffix", none, .inr .after⟩,
    ⟨"naming", none, .inr .types⟩]

/-- The option with a long name. -/
def longOption? (options : List OptionForm) (name : String) : Except Halt (Flag ⊕ Setting) :=
  match options.find? fun o => o.long = name with
  | some o => .ok o.kind
  | none => .error (.usage (.unknownOption name))

/-- The option with a short name. -/
def shortOption? (options : List OptionForm) (name : Char) : Except Halt (Flag ⊕ Setting) :=
  match options.find? fun o => o.short = some name with
  | some o => .ok o.kind
  | none => .error (.usage (.unknownOption (String.ofList [name])))

/-! ### What has been read -/

/-- What the arguments so far have given. -/
structure Draft where
  verbose : Nat := 0
  quiet : Bool := false
  json : Bool := false
  watch : Bool := false
  input : Option String := none
  output : Option String := none
  config : Option String := none
  format : Option SourceFormat := none
  before : Option String := none
  after : Option String := none
  types : Option Convention := none

/-- A first value; a second one is refused. -/
def once {α : Type} (name : String) (old : Option α) (value : α) : Except Halt (Option α) :=
  if old.isSome then .error (.usage (.repeated name)) else .ok (some value)

/-- A flag that is set for the first time. -/
def setOnce (name : String) (old : Bool) : Except Halt Bool :=
  if old then .error (.usage (.repeated name)) else .ok true

/-- The draft with a flag set. -/
def Draft.set (d : Draft) : Flag → Except Halt Draft
  | .verbose => .ok { d with verbose := d.verbose + 1 }
  | .quiet => return { d with quiet := ← setOnce "quiet" d.quiet }
  | .json => return { d with json := ← setOnce "json" d.json }
  | .watch => return { d with watch := ← setOnce "watch" d.watch }
  | .help => .error .help
  | .version => .error .version

/-- A path, which is not empty. -/
def path (name value : String) : Except Halt String :=
  if value.isEmpty then .error (.usage (.missingValue name)) else .ok value

/-- One of the named values of an option. -/
def choice {α : Type} (name : String) (choices : List (String × α)) (value : String) :
    Except Halt α :=
  match choices.lookup value with
  | some x => .ok x
  | none => .error (.usage (.invalidValue name value))

/-- The names of the formats. -/
def formats : List (String × SourceFormat) :=
  [("auto", .auto), ("json", .json), ("yaml", .yaml)]

/-- The names of the conventions. -/
def conventions : List (String × Convention) :=
  [("pascal", .pascal), ("camel", .camel), ("snake", .snake)]

/-- The draft with the value of an option. -/
def Draft.store (d : Draft) (value : String) : Setting → Except Halt Draft
  | .output => return { d with output := ← once "output" d.output (← path "output" value) }
  | .config => return { d with config := ← once "config" d.config (← path "config" value) }
  | .format => do
    let format ← choice "format" formats value
    return { d with format := ← once "format" d.format format }
  | .before => return { d with before := ← once "prefix" d.before value }
  | .after => return { d with after := ← once "suffix" d.after value }
  | .types => do
    let types ← choice "naming" conventions value
    return { d with types := ← once "naming" d.types types }

/-- The draft with the path of the document. -/
def Draft.addInput (d : Draft) (value : String) : Except Halt Draft :=
  match d.input with
  | some _ => .error (.usage (.surplusArgument value))
  | none => return { d with input := some (← path "INPUT" value) }

/-! ### Arguments -/

/-- The characters up to an equals sign, and what follows it if there is one. -/
def splitAtEquals : List Char → List Char × Option (List Char)
  | [] => ([], none)
  | c :: rest =>
    if c = '=' then ([], some rest)
    else
      let (name, value) := splitAtEquals rest
      (c :: name, value)

/-- A long option from behind its hyphens: the draft with it, and the option whose value is to be
the next argument. -/
def takeLong (options : List OptionForm) (cs : List Char) (d : Draft) :
    Except Halt (Draft × Option Setting) := do
  let (name, value) := splitAtEquals cs
  let name := String.ofList name
  match ← longOption? options name, value with
  | .inl flag, none => return (← d.set flag, none)
  | .inl _, some _ => throw (.usage (.unexpectedValue name))
  | .inr setting, some value => return (← d.store (String.ofList value) setting, none)
  | .inr setting, none => return (d, some setting)

/-- Short options from behind their hyphen. The value of an option is what follows it, if anything
does; an equals sign before it is left out. -/
def takeShort (options : List OptionForm) : List Char → Draft → Except Halt (Draft × Option Setting)
  | [], d => .ok (d, none)
  | c :: rest, d => do
    match ← shortOption? options c with
    | .inl flag => takeShort options rest (← d.set flag)
    | .inr setting =>
      match rest with
      | [] => return (d, some setting)
      | '=' :: value => return (← d.store (String.ofList value) setting, none)
      | value => return (← d.store (String.ofList value) setting, none)

/-- Whether an argument is an option. A hyphen alone is none. -/
def isOption (argument : String) : Bool :=
  match argument.toList with
  | '-' :: _ :: _ => true
  | _ => false

/-- The draft with an option. -/
def takeOption (options : List OptionForm) (argument : String) (d : Draft) :
    Except Halt (Draft × Option Setting) :=
  match argument.toList with
  | '-' :: '-' :: name => takeLong options name d
  | cs => takeShort options (cs.drop 1) d

/-- The draft with the arguments of the command. The first parameter is an option that waits for
its value. -/
def takeCommand : Option Setting → List String → Draft → Except Halt Draft
  | none, [], d => .ok d
  | some _, [], _ => .error (.usage (.missingValue ""))
  | some setting, argument :: rest, d => do
    if isOption argument then throw (.usage (.missingValue argument))
    takeCommand none rest (← d.store argument setting)
  | none, argument :: rest, d => do
    if argument = "--" then rest.foldlM Draft.addInput d
    else if isOption argument then
      let (d, setting) ← takeOption commandOptions argument d
      takeCommand setting rest d
    else takeCommand none rest (← d.addInput argument)

/-- The draft, unless more and less logging were both asked for. -/
def Draft.checked (d : Draft) : Except Halt Draft :=
  if d.quiet ∧ 0 < d.verbose then .error (.usage .conflict) else .ok d

/-- The request of a draft, which has to have a path. -/
def Draft.request (d : Draft) : Except Halt Request :=
  match d.input with
  | none => .error (.usage .missingInput)
  | some input => .ok {
      input := input
      output := d.output
      config := d.config
      format := d.format.getD .auto
      json := d.json
      watch := d.watch
      before := d.before
      after := d.after
      types := d.types }

/-- The request of the arguments of the command `generate`. -/
def ofCommandArguments (arguments : List String) : Except Halt Request := do
  (← (← takeCommand none arguments {}).checked).request

/-- What follows a command name: a request, or help on one of the commands. -/
def ofCommand (name : String) (arguments : List String) : Except Halt Request :=
  if name = "generate" then ofCommandArguments arguments
  else if name = "help" then
    match arguments with
    | [] => .error .help
    | ["generate"] => .error .help
    | ["help"] => .error .help
    | argument :: _ => .error (.usage (.unknownCommand argument))
  else .error (.usage (.unknownCommand name))

/-- The request of arguments, some of which have been read. Options before the command are checked
apart from those behind it. -/
def takeProgram : List String → Draft → Except Halt Request
  | [], _ => .error (.usage .missingCommand)
  | argument :: rest, d => do
    if argument = "--" then throw (.usage .missingCommand)
    else if isOption argument then
      takeProgram rest (← takeOption programOptions argument d).1
    else
      let request ← ofCommand argument rest
      let _ ← d.checked
      pure request

/-- The request of an argument list. -/
def ofArguments (arguments : List String) : Except Halt Request :=
  takeProgram arguments {}

end Request

end OpenApiTs
