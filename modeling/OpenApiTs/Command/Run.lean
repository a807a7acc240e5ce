import OpenApiTs.Command.Request
import OpenApiTs.DeclarationFile
import OpenApiTs.Directory
import OpenApiTs.Document.Load

/-!
# Runs of the command

A run takes the configuration from a file and the request, loads the document, generates the
declarations, and prints them or writes them to a file. A failing run prints one line and leaves
nothing behind.

## Main definitions

* `CommandFault`: why a run fails.
* `Request.produce`: the text that a document and a configuration lead to.
* `Outcome`: what a run leaves behind besides files.
* `Request.run`: a run in any monad with access to files.
* `runArguments`: a run on an argument list.
* `runOn`: a run on given files.
* `runIn`: a run in a directory.
-/

namespace OpenApiTs

/-- Why a run fails. -/
inductive CommandFault where
  | configUnreadable (path : String) (fault : PathFault)
  | configInvalid (path : String)
  /-- The standard input cannot be watched. -/
  | inputNotWatchable
  | inputUnreadable (fault : PathFault)
  | unreadable (path : String) (fault : PathFault)
  | unparsable (source : String) (fault : DocumentFault)
  | ungenerated (source : String) (failure : Failure)
  | unwritable (path : String) (fault : PathFault)
  /-- The document to be watched is not there. -/
  | unresolved (path : String) (fault : PathFault)

/-- The text of a fault. -/
def CommandFault.message : CommandFault → String
  | .configUnreadable path fault => "failed to read config " ++ path ++ ": " ++ fault.message
  | .configInvalid path => "invalid config " ++ path
  | .inputNotWatchable => "--watch needs a file input, not stdin"
  | .inputUnreadable fault => "failed to read stdin: " ++ fault.message
  | .unreadable path fault => "failed to read " ++ path ++ ": " ++ fault.message
  | .unparsable source fault =>
    "failed to parse " ++ source ++ ": " ++ (Failure.invalidDocument fault).message
  | .ungenerated source failure =>
    "failed to generate types for " ++ source ++ ": " ++ failure.message
  | .unwritable path fault => "failed to write " ++ path ++ ": " ++ fault.message
  | .unresolved path fault => "failed to resolve " ++ path ++ ": " ++ fault.message

/-- What a run leaves behind besides files. -/
structure Outcome where
  exit : Nat := 0
  stdout : String := ""
  /-- The lines for the standard error. -/
  stderr : List String := []
  /-- Whether the document is to be watched from now on. -/
  watching : Bool := false
  deriving DecidableEq, Repr

/-- The outcome of a failing run. -/
def Outcome.ofFault (fault : CommandFault) : Outcome :=
  { exit := 1, stderr := ["error: " ++ fault.message] }

namespace Request

/-! ### The document -/

/-- Whether the document comes from the standard input. -/
def readsInput (r : Request) : Bool := r.input = "-"

/-- The name of the source in messages. -/
def sourceName (r : Request) : String := if r.readsInput then "<stdin>" else r.input

/-- The last part of a path that is a name. -/
def fileName? (path : String) : Option String :=
  let parts := (Text.pieces path '/').filter fun part => part ≠ "" ∧ part ≠ "."
  parts.getLast?.filter (· ≠ "..")

/-- The part of a file name behind its last point, if something stands before that point. -/
def extension? (path : String) : Option String := do
  let name ← fileName? path
  let after := (name.toList.reverse.takeWhile (· ≠ '.')).reverse
  let before := name.length - after.length
  if before ≤ 1 then none else some (String.ofList after)

/-- The format of a text: the one that is asked for, or that of the file's extension, or JSON if the
first character that is not blank is an opening brace, or else YAML. -/
def settledFormat (r : Request) (source : String) : SourceFormat :=
  match r.format with
  | .auto =>
    match extension? r.input with
    | some "json" => .json
    | some "yaml" => .yaml
    | some "yml" => .yaml
    | _ => if Text.startsWith (Text.trimStart source) "\x7b" then .json else .yaml
  | format => format

/-- The document of a text. -/
def document (r : Request) (source : String) : Except DocumentFault Document :=
  match r.settledFormat source with
  | .json => Document.ofJsonText source
  | _ => Document.ofYamlText source

/-! ### The result -/

/-- A configuration with the settings of the request put in. -/
def adjust (r : Request) (config : Config) : Config :=
  let naming := config.naming
  { config with
    naming := { naming with
      types := r.types.getD naming.types
      before := r.before.getD naming.before
      after := r.after.getD naming.after } }

/-- The text of an output. -/
def render (r : Request) (config : Config) (output : Output) : String :=
  if r.json then output.toJson.indented ++ "\n" else DeclarationFile.render output config.output

/-- The output for the text of a document. -/
def produce (r : Request) (config : Config) (source : String) : Except CommandFault Output :=
  match r.document source with
  | .error fault => .error (.unparsable r.sourceName fault)
  | .ok d =>
    match generate d config with
    | .error failure => .error (.ungenerated r.sourceName failure)
    | .ok output => .ok output

/-- How much an output holds. -/
def summary (output : Output) : String :=
  output.types.length.repr ++ " types, " ++ output.operations.length.repr ++ " operations"

/-! ### Runs -/

/-- The configuration file that is used without being asked for. -/
def defaultConfig : String := "typesync.toml"

section Run

variable {m : Type → Type} [Monad m] (access : FileAccess m) (r : Request)

/-- The path of the configuration file, if there is one. -/
def configPath : m (Option String) :=
  match r.config with
  | some path => pure (some path)
  | none => do if ← access.isFile defaultConfig then pure (some defaultConfig) else pure none

/-- The configuration of the run. -/
def loadConfig : ExceptT CommandFault m Config := do
  match ← ExceptT.lift (r.configPath access) with
  | none => pure (r.adjust {})
  | some path =>
    match ← access.read path with
    | .error fault => throw (.configUnreadable path fault)
    | .ok text =>
      match Config.ofTomlText? text with
      | none => throw (.configInvalid path)
      | some config => pure (r.adjust config)

/-- The text of the document. -/
def readSource : ExceptT CommandFault m String := do
  if r.readsInput then
    match ← access.input with
    | .error fault => throw (.inputUnreadable fault)
    | .ok source => pure source
  else
    match ← access.read r.input with
    | .error fault => throw (.unreadable r.input fault)
    | .ok source => pure source

/-- The text printed or written to the file of the request. -/
def deliver (output : Output) (text : String) : ExceptT CommandFault m Outcome := do
  match r.output with
  | none => pure { stdout := text, stderr := ["Generated " ++ summary output] }
  | some path =>
    match ← access.write path text with
    | .error fault => throw (.unwritable path fault)
    | .ok () => pure { stderr := ["Generated " ++ path ++ " (" ++ summary output ++ ")"] }

/-- One generation under a configuration. -/
def generateOnce (config : Config) : ExceptT CommandFault m Outcome := do
  let source ← r.readSource access
  match r.produce config source with
  | .error fault => throw fault
  | .ok output => r.deliver access output (r.render config output)

/-- The beginning of a watch: a first generation, which may fail, and the check that the document is
there. -/
def beginWatch (config : Config) : ExceptT CommandFault m Outcome := do
  if r.readsInput then throw .inputNotWatchable
  let first ← ExceptT.lift (r.generateOnce access config).run
  match ← access.find r.input with
  | .error fault => throw (.unresolved r.input fault)
  | .ok () => pure { first.toOption.getD {} with watching := true }

/-- A run. -/
def run : m Outcome := do
  let steps : ExceptT CommandFault m Outcome := do
    let config ← r.loadConfig access
    if r.watch then r.beginWatch access config else r.generateOnce access config
  match ← steps.run with
  | .ok outcome => pure outcome
  | .error fault => pure (.ofFault fault)

end Run

end Request

/-! ### Argument lists -/

/-- The name and the version of the program. -/
def versionText : String := "typesync 0.1.0"

/-- How the program is used. -/
def usageText : String := "Usage: typesync [OPTIONS] generate [OPTIONS] <INPUT>"

/-- The outcome of arguments that make no request. -/
def Outcome.ofHalt : Halt → Outcome
  | .version => { stdout := versionText ++ "\n" }
  | .help => { stdout := usageText ++ "\n" }
  | .usage _ => { exit := 2 }

/-- A run on an argument list. -/
def runArguments {m : Type → Type} [Monad m] (access : FileAccess m) (arguments : List String) :
    m Outcome :=
  match Request.ofArguments arguments with
  | .ok request => request.run access
  | .error halt => pure (.ofHalt halt)

/-- A run on an argument list and these octets of the standard input, with the files that it leaves
behind. -/
def runOn (fs : FileSystem) (input : ByteArray) (arguments : List String) : Outcome × FileSystem :=
  (runArguments (FileSystem.access input) arguments).run fs

/-- A run in a directory, with the directory that it leaves behind. -/
def runIn (directory : Directory) (input : String) (arguments : List String) :
    Outcome × Directory :=
  let (outcome, after) := runOn directory.fileSystem input.toUTF8 arguments
  (outcome, .ofFileSystem after)

end OpenApiTs
