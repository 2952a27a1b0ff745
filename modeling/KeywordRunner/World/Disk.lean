import KeywordRunner.Config.Storage
import KeywordRunner.Text.Lines

/-!
# World.Disk — a described file system

Files and directories as a value, with the rules by which a path leads somewhere: every component
but the last stands for a directory, an empty one and `.` for the directory reached so far, `..`
for the one above. `Disk.read` is what a program gets from a path and `Disk.write?` what writing a
file leaves behind.
-/

namespace KeywordRunner.World

/-- The names on the way from the root to a file or directory. -/
abbrev Place := List String

inductive Node where
  | file (content : ByteArray)
  | directory
  | absent

/-- The files, and the directories apart from those above a file. -/
structure Disk where
  files : List (Place × ByteArray)
  directories : List Place

namespace Disk

inductive PathFault where
  | missing
  | notDirectory
  | nameTooLong
  | nulCharacter
  deriving DecidableEq, Repr

def PathFault.message : PathFault → String
  | .missing => "No such file or directory (os error 2)"
  | .notDirectory => "Not a directory (os error 20)"
  | .nameTooLong => "File name too long (os error 36)"
  | .nulCharacter => "file name contained an unexpected NUL byte"

/-- What reading a directory as a file fails with. -/
def isDirectoryReason : String := "Is a directory (os error 21)"

/-- What a file without characters fails with. -/
def notTextReason : String := "stream did not contain valid UTF-8"

/-- The directories of any system. -/
def standardDirectories : List Place :=
  [] :: ["bin", "boot", "dev", "etc", "home", "lib", "media", "mnt", "opt", "proc", "root", "run",
    "sbin", "srv", "sys", "tmp", "usr", "var"].map fun name => [name]

def ofFiles (home : Place) (files : List (Place × ByteArray)) : Disk where
  files := (["dev", "null"], ByteArray.empty) :: files.map fun f => (home ++ f.1, f.2)
  directories := home :: standardDirectories

def node (d : Disk) (place : Place) : Node :=
  match d.files.find? (·.1 == place) with
  | some f => .file f.2
  | none =>
    if d.directories.any place.isPrefixOf || d.files.any (fun f => place.isPrefixOf f.1) then
      .directory
    else .absent

/-! ### Paths -/

/-- The components of a path, empty ones included. -/
def components (path : String) : List String := (Text.splitOn '/' path.toList).map String.ofList

/-- The components that name something. -/
def names (path : String) : List String := (components path).filter fun c => c != "" && c != "."

/-- Where a path starts. -/
def origin (home : Place) (path : String) : Place := if Config.isAbsolute path then [] else home

/-- The faults of a path by itself. -/
def checkPath (path : String) : Except PathFault Unit :=
  if path = "" then .error .missing
  else if path.toList.contains '\x00' then .error .nulCharacter
  else if 4096 ≤ path.utf8ByteSize then .error .nameTooLong
  else .ok ()

/-- One component further. -/
def enter (d : Disk) (place : Place) (name : String) : Except PathFault Place :=
  match d.node place with
  | .file _ => .error .notDirectory
  | .absent => .error .missing
  | .directory =>
    if name = "" ∨ name = "." then .ok place
    else if name = ".." then .ok place.dropLast
    else if 255 < name.utf8ByteSize then .error .nameTooLong
    else .ok (place ++ [name])

/-- Where a path leads, seen from a directory. The last name need not exist. -/
def follow (d : Disk) (home : Place) (path : String) : Except PathFault Place := do
  checkPath path
  (components path).foldlM d.enter (origin home path)

/-! ### Reading and writing -/

/-- The text at a path. -/
def read (d : Disk) (home : Place) (path : String) : Config.FileContent :=
  match d.follow home path with
  | .error .missing => .missing
  | .error fault => .unreadable fault.message
  | .ok place =>
    match d.node place with
    | .absent => .missing
    | .directory => .unreadable isDirectoryReason
    | .file content =>
      match String.fromUTF8? content with
      | some text => .text text
      | none => .unreadable notTextReason

/-- One component further, into a directory that is made if nothing is there. -/
def make (d : Disk) (place : Place) (name : String) : Except PathFault (Disk × Place) := do
  let inside ← d.enter place name
  match d.node inside with
  | .file _ => .error .notDirectory
  | .directory => pure (d, inside)
  | .absent => pure ({ d with directories := inside :: d.directories }, inside)

/-- Makes the directories above the last name of a path. -/
def makeParents (d : Disk) (home : Place) (path : String) : Except PathFault Disk := do
  let (d, _) ← (names path).dropLast.foldlM (fun (d, place) name => d.make place name)
    (d, origin home path)
  pure d

/-- The disk after a file has been written, together with the directories above it; nothing where
that is refused. -/
def write? (d : Disk) (home : Place) (path : String) (content : ByteArray) : Option Disk := do
  let _ ← (checkPath path).toOption
  let d ← (d.makeParents home path).toOption
  let place ← (d.follow home path).toOption
  match d.node place with
  | .directory => none
  | _ => pure { d with files := (place, content) :: d.files.filter (·.1 != place) }

end Disk

end KeywordRunner.World
