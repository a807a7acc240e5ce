import OpenApiTs.Json.Basic
import OpenApiTs.Text.Lines

/-!
# Files by their paths

Files with their octets under full names, which are the names of the directories from the topmost
one and the name of the file, each with a slash before it. A directory is there if it is listed or
if a file or the working directory lies below it. A path goes from the topmost directory if it
begins with a slash, and from the working directory if not. What a program may not do with a file
or a directory is a refusal, which the files themselves do not decide.

There are no links and no devices, and a file is written as a whole or not at all. Paths are texts.

A program that reads and writes files is written against the operations it needs, so that it can
run on such files as well as on the files of a machine.

## Main definitions

* `PathFault`: why a path cannot be used.
* `FileSystem`: the files, the working directory, and what is refused.
* `FileSystem.place`: what a path leads to.
* `FileSystem.read`, `FileSystem.write`: the operations on files.
* `FileAccess`: the operations that a program needs, in any monad.
* `FileSystem.access`: these operations on a file system.
-/

namespace OpenApiTs

/-- Why a path cannot be used. -/
inductive PathFault where
  | missing
  | isDirectory
  | notDirectory
  | nameTooLong
  | denied
  /-- The octets of the file are not those of a text. -/
  | notText
  | other (text : String)
  deriving DecidableEq, Repr

/-- The text of a fault. -/
def PathFault.message : PathFault → String
  | .missing => "No such file or directory (os error 2)"
  | .isDirectory => "Is a directory (os error 21)"
  | .notDirectory => "Not a directory (os error 20)"
  | .nameTooLong => "File name too long (os error 36)"
  | .denied => "Permission denied (os error 13)"
  | .notText => "stream did not contain valid UTF-8"
  | .other text => text

/-- The text of these octets. -/
def Text.ofOctets (octets : ByteArray) : Except PathFault String :=
  match String.fromUTF8? octets with
  | some text => .ok text
  | none => .error .notText

/-- What a program wants of a file or a directory. -/
inductive FileUse where
  /-- To look up a name in a directory. -/
  | enter
  | read
  /-- To write a file, which may be a new one. -/
  | write
  deriving DecidableEq, Repr

/-- Files and directories. -/
structure FileSystem where
  /-- The octets of the files by their full names. -/
  files : List (String × ByteArray)
  /-- The full names of directories that are there without a file below them. -/
  directories : List String := []
  /-- The names on the way to the working directory. -/
  here : List String
  /-- What is refused for a full name, and why. -/
  refusal? : FileUse → String → Option PathFault := fun _ _ => none

namespace FileSystem

/-! ### Paths -/

/-- The full name of what these names lead to from the topmost directory. -/
def fullName (names : List String) : String := String.join (names.map fun name => "/" ++ name)

/-- Whether a directory is there. -/
def isDirectory (fs : FileSystem) (name : String) : Bool :=
  let isBelow (other : String) : Bool := Text.startsWith (other ++ "/") (name ++ "/")
  fs.directories.any isBelow || isBelow (fullName fs.here) ||
    fs.files.any fun file => Text.startsWith file.1 (name ++ "/")

/-- What a path leads to. -/
inductive Place where
  | file (name : String)
  /-- There is a file, and the path asks for a directory by slashes at its end. -/
  | slashedFile
  | directory (name : String)
  /-- There is nothing, in a directory that is there. -/
  | vacant (name : String)
  /-- There is nothing, in a directory that is there, and the path asks for a directory. -/
  | vacantDirectory
  /-- The last name is too long for anything to be there, and the path asks for a directory. -/
  | overlongDirectory
  deriving DecidableEq, Repr

/-- How many octets a part of a path may have. -/
def partLength : Nat := 255

/-- How many octets a path may have. -/
def pathLength : Nat := 4095

/-- What the parts of a path lead to from a directory. The topmost directory is above itself. -/
def walk (fs : FileSystem) : List String → List String → Except PathFault Place
  | here, [] => .ok (.directory (fullName here))
  | here, part :: rest =>
    if part = "" then walk fs here rest
    else
      match fs.refusal? .enter (fullName here) with
      | some fault => .error fault
      | none =>
        if part = "." then walk fs here rest
        else if part = ".." then walk fs here.dropLast rest
        else if partLength < part.utf8ByteSize then
          if !rest.isEmpty && rest.all (· = "") then .ok .overlongDirectory
          else .error .nameTooLong
        else
          let there := here ++ [part]
          let name := fullName there
          if (Entries.get? name fs.files).isSome then
            if rest.isEmpty then .ok (.file name)
            else if rest.all (· = "") then .ok .slashedFile
            else .error .notDirectory
          else if fs.isDirectory name then walk fs there rest
          else if rest.isEmpty then .ok (.vacant name)
          else if rest.all (· = "") then .ok .vacantDirectory
          else .error .missing

/-- What a path leads to. -/
def place (fs : FileSystem) (path : String) : Except PathFault Place :=
  if path = "" then .error .missing
  else if pathLength < path.utf8ByteSize then .error .nameTooLong
  else fs.walk (if Text.startsWith path "/" then [] else fs.here) (Text.pieces path '/')

/-! ### Operations -/

/-- Whether a path leads to a file. -/
def isFile (fs : FileSystem) (path : String) : Bool :=
  match fs.place path with
  | .ok (.file _) => true
  | _ => false

/-- That nothing is refused. -/
def allow (fs : FileSystem) (use : FileUse) (name : String) : Except PathFault Unit :=
  match fs.refusal? use name with
  | some fault => .error fault
  | none => .ok ()

/-- The text of the file at a path. -/
def read (fs : FileSystem) (path : String) : Except PathFault String := do
  match ← fs.place path with
  | .file name =>
    fs.allow .read name
    Text.ofOctets ((Entries.get? name fs.files).getD .empty)
  | .slashedFile => throw .notDirectory
  | .directory name =>
    fs.allow .read name
    throw .isDirectory
  | .vacant _ | .vacantDirectory => throw .missing
  | .overlongDirectory => throw .nameTooLong

/-- The files with one more, or with one overwritten. -/
def withFile (fs : FileSystem) (name text : String) : FileSystem :=
  { fs with files := Entries.put name text.toUTF8 fs.files }

/-- The files with a text at a path, in a new file or in the one that is there. -/
def write (fs : FileSystem) (path text : String) : Except PathFault FileSystem := do
  match ← fs.place path with
  | .file name | .vacant name =>
    fs.allow .write name
    pure (fs.withFile name text)
  | .slashedFile | .directory _ | .vacantDirectory | .overlongDirectory => throw .isDirectory

/-- That there is a file or a directory at a path. -/
def find (fs : FileSystem) (path : String) : Except PathFault Unit := do
  match ← fs.place path with
  | .file _ | .directory _ => pure ()
  | .slashedFile => throw .notDirectory
  | .vacant _ | .vacantDirectory => throw .missing
  | .overlongDirectory => throw .nameTooLong

end FileSystem

/-! ### Access -/

/-- The operations that a program needs. -/
structure FileAccess (m : Type → Type) where
  isFile : String → m Bool
  read : String → m (Except PathFault String)
  write : String → String → m (Except PathFault Unit)
  find : String → m (Except PathFault Unit)
  /-- The whole standard input. -/
  input : m (Except PathFault String)

/-- The operations on a file system, with the octets of the standard input given. -/
def FileSystem.access (input : ByteArray) : FileAccess (StateM FileSystem) where
  isFile path := fun fs => (fs.isFile path, fs)
  read path := fun fs => (fs.read path, fs)
  write path text := fun fs =>
    match fs.write path text with
    | .ok after => (.ok (), after)
    | .error fault => (.error fault, fs)
  find path := fun fs => (fs.find path, fs)
  input := pure (Text.ofOctets input)

end OpenApiTs
