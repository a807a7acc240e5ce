import OpenApiTs.FileSystem

/-!
# Working directories

A working directory as the list of the files below it with their texts, apart from all other files.
Each is named by the directories on its way and its own name with slashes between them.

## Main definitions

* `Directory`: a working directory.
* `Directory.fileSystem`: the files of a machine that has no others.
* `Directory.ofFileSystem`: what of the files of a machine is below the working directory.
* `Directory.changed`: the files that a program wrote.
-/

namespace OpenApiTs

/-- A working directory. -/
structure Directory where
  /-- The files with their contents. -/
  files : List (String × String)
  deriving DecidableEq, Repr

namespace Directory

/-- The full name of the working directory, with a slash behind it. -/
def lead : String := "/work/"

/-- The files of a machine that has no others. -/
def fileSystem (d : Directory) : FileSystem where
  files := d.files.map fun file => (lead ++ file.1, file.2.toUTF8)
  here := ["work"]

/-- The files below the working directory that are texts. -/
def ofFileSystem (fs : FileSystem) : Directory where
  files := fs.files.filterMap fun file => do
    let name ← Text.dropPrefix? file.1 lead
    let text ← String.fromUTF8? file.2
    pure (name, text)

/-- The files of `after` that are new or have other contents, by name. -/
def changed (before after : Directory) : List (String × String) :=
  let isChanged (file : String × String) : Bool :=
    Entries.get? file.1 before.files ≠ some file.2
  (after.files.filter isChanged).mergeSort fun a b => a.1 ≤ b.1

end Directory

end OpenApiTs
