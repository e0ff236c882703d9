import TrustedModule.Device

/-!
# Special files as devices

Opened as a device, the null file takes every write and has nothing to read; the zero file takes
every write and reads as zeros. They are found by walking a path through a tree of directories:
`.` and an empty name stay, `..` climbs, and the root is its own parent. A file has nothing below
it, so a path that goes on after one leads nowhere, even if only a slash follows.
-/

set_option autoImplicit false

namespace TrustedModule

inductive SpecialFile where
  | null
  | zero
  deriving DecidableEq, Repr

namespace SpecialFile

/-- A place in the tree: the names that lead to it, the last one first. -/
abbrev Place := List String

/-- The directory that relative paths start in; it lies two levels deep and holds no device. -/
def workingDirectory : Place := ["device", "srv"]

def fileAt? : Place → Option SpecialFile
  | ["null", "dev"] => some null
  | ["zero", "dev"] => some zero
  | _ => none

/-- The names of the directories right below the root. -/
def topDirectories : List String :=
  ["boot", "dev", "etc", "home", "media", "mnt", "opt", "proc", "root", "run", "srv", "sys", "tmp",
    "usr", "var"]

/-- The directories that a path may lead through. -/
def isDirectory : Place → Bool
  | [] => true
  | [name] => topDirectories.contains name
  | [name, "dev"] => ["pts", "shm"].contains name
  | [name, "proc"] => ["self", "sys"].contains name
  | [name, "usr"] => ["bin", "lib", "local", "share"].contains name
  | [name, "var"] => ["cache", "lib", "log", "tmp"].contains name
  | _ => false

/-- The file at the end of a path that starts in the directory `place`. -/
def walk (place : Place) : List String → Option SpecialFile
  | [] => none
  | name :: rest =>
    if name = "" ∨ name = "." then walk place rest
    else if name = ".." then walk place.tail rest
    else if isDirectory (name :: place) then walk (name :: place) rest
    else if rest.isEmpty then fileAt? (name :: place)
    else none

/-- The most bytes that a path may have. -/
def maxPathLength : Nat := 4095

/-- The file that a path names. An absolute path starts at the root. -/
def ofPath? (path : String) : Option SpecialFile :=
  if path.utf8ByteSize ≤ maxPathLength then
    walk (if path.startsWith "/" then [] else workingDirectory) (path.splitOn "/")
  else
    none

/-- The most bytes that one read of the zero file gives. -/
def pageSize : Nat := 4096

def read (limit : Nat) : SpecialFile → Bytes
  | null => []
  | zero => List.replicate (min limit pageSize) 0

instance : Device SpecialFile where
  write bytes file := some (.ok bytes.length, file)
  read limit file := (.ok (file.read limit), file)

end SpecialFile

end TrustedModule
