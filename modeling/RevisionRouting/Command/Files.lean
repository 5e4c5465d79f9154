import RevisionRouting.Text.Utf8

/-!
# Files

Commands see files through a function from paths to contents (`Files`), so that a
command is a function of what it reads. `Directory.files` is such a function: a
tree of files seen from a place in it, whose paths are resolved step by step, from
the root or from that place.
-/

namespace RevisionRouting

/-- Why a file cannot be read. -/
inductive ReadFault where
  | missing
  /-- A file stands where the path goes on. -/
  | notDirectory
  | isDirectory
  /-- A name on the path, or the path itself, is longer than the system allows. -/
  | nameTooLong
  | notUtf8
  /-- Any other reason, in the words of the system. -/
  | other (reason : String)
  deriving DecidableEq, Repr

/-- The wording of a fault. -/
def ReadFault.message : ReadFault → String
  | missing => "No such file or directory (os error 2)"
  | notDirectory => "Not a directory (os error 20)"
  | isDirectory => "Is a directory (os error 21)"
  | nameTooLong => "File name too long (os error 36)"
  | notUtf8 => "stream did not contain valid UTF-8"
  | other reason => reason

/-- The contents of files by path. -/
abbrev Files := String → Except ReadFault (List UInt8)

/-- The text of a file. -/
def Files.text (files : Files) (path : String) : Except ReadFault String := do
  let bytes ← files path
  match Text.Utf8.decode bytes with
  | .ok cs => return String.ofList cs
  | .error _ => .error .notUtf8

/-- What stands at a place. -/
inductive Entry where
  | file (bytes : List UInt8)
  | directory
  deriving DecidableEq, Repr

/-- All that lies below a directory: entries by the steps that lead to them. -/
abbrev Directory := List (List String × Entry)

namespace Directory

/-- The steps of a path; empty ones and those that stay in place lead nowhere. -/
def steps (path : String) : List String :=
  (String.splitOn path "/").filter fun step => step ≠ "" ∧ step ≠ "."

/-- The directory with the given entries; of two at one place the later stands. -/
def ofList (entries : List (String × Entry)) : Directory :=
  (entries.map fun e => (steps e.1, e.2)).reverse

/-- The directory in which `d` lies at a place. -/
def below (place : List String) (d : Directory) : Directory :=
  (place, .directory) :: d.map fun e => (place ++ e.1, e.2)

/-- What stands where the steps lead; whatever an entry lies in is a directory. -/
def entry? (d : Directory) (place : List String) : Option Entry :=
  if place.isEmpty then some .directory
  else match d.lookup place with
    | some e => some e
    | none => if d.any fun e => place.isPrefixOf e.1 then some .directory else none

/-- The bytes that a name may have. -/
def nameLimit : Nat := 255

/-- The bytes that a path may have. -/
def pathLimit : Nat := 4095

/-- Goes the steps that are left from a place; `closed` says that a directory is due at the
end. A step up from the root stays there. -/
def resolve (d : Directory) (closed : Bool) : List String → List String →
    Except ReadFault (List UInt8)
  | place, [] =>
    match d.entry? place with
    | none => .error .missing
    | some .directory => .error .isDirectory
    | some (.file bytes) => if closed then .error .notDirectory else .ok bytes
  | place, step :: steps =>
    match d.entry? place with
    | none => .error .missing
    | some (.file _) => .error .notDirectory
    | some .directory =>
      if step = ".." then d.resolve closed place.dropLast steps
      else if nameLimit < step.utf8ByteSize then .error .nameTooLong
      else d.resolve closed (place ++ [step]) steps

/-- The files of a root directory: a path that begins with a slash starts at the root, any other
at the place `home`. -/
def files (root : Directory) (home : List String) : Files := fun path =>
  if path = "" then .error .missing
  else if pathLimit < path.utf8ByteSize then .error .nameTooLong
  else
    let start := if path.toList.head? = some '/' then [] else home
    -- a path that ends in a slash or a dot asks for a directory
    let last := ((String.splitOn path "/").getLast?).getD ""
    root.resolve (last = "" ∨ last = ".") start (steps path)

end Directory

end RevisionRouting
