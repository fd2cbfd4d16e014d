import ActivityScript.Association
import ActivityScript.Host.Path

/-!
# File systems

A file system gives an item to each of finitely many places. A place is the list of the names that
lead to it from the root, none of them a link, so that different places are different items. The
root is always a directory. Each regular file has a number of its own, by which it can be written to
while it is open, under whatever place it then has, and also when it has none any more.
-/

namespace ActivityScript.Host

/-- A position in a file system, as the names that lead to it from the root. -/
abbrev Place := List String

/-- What can stand at a place. -/
inductive Item where
  | file (number : Nat) (content : List UInt8)
  | directory
  /-- A symbolic link. -/
  | link (target : String)
  | fifo
  | socket
  /-- A character device that takes everything and gives nothing. -/
  | device
  deriving DecidableEq, Repr

/-- Whether an item is a directory. -/
def Item.isDirectory : Item → Bool
  | .directory => true
  | _ => false

/-- Items at places. Relative paths start at `start`; `unused` is a number that no file ever had. -/
structure FileSystem where
  entries : List (Place × Item)
  start : Place
  unused : Nat
  deriving DecidableEq, Repr

namespace FileSystem

/-- The item at a place. -/
def get? (files : FileSystem) (place : Place) : Option Item :=
  if place = [] then some .directory else files.entries.lookup place

/-- Whether there is a directory at a place. -/
def isDirectory (files : FileSystem) (place : Place) : Bool :=
  (files.get? place).any Item.isDirectory

/-- Whether a directory holds nothing. -/
def isBare (files : FileSystem) (place : Place) : Bool :=
  files.entries.all fun entry => entry.1.dropLast ≠ place

/-- A file system in which `place` holds `item`. -/
def set (files : FileSystem) (place : Place) (item : Item) : FileSystem :=
  { files with entries := Association.put place item files.entries }

/-- A file system in which `place` holds nothing. -/
def erase (files : FileSystem) (place : Place) : FileSystem :=
  { files with entries := files.entries.filter fun entry => entry.1 ≠ place }

/-- A file system with a new file at `place`. -/
def addFile (files : FileSystem) (place : Place) (content : List UInt8) : FileSystem :=
  { files.set place (.file files.unused content) with unused := files.unused + 1 }

/-- Appends to the file with a number; nothing happens if there is none. -/
def append (files : FileSystem) (number : Nat) (more : List UInt8) : FileSystem :=
  let extended : Place × Item → Place × Item
    | (place, .file n content) =>
      if n = number then (place, .file n (content ++ more)) else (place, .file n content)
    | entry => entry
  { files with entries := files.entries.map extended }

/-- Makes a directory of every place on the way from `place` along names that holds nothing yet. -/
def addDirectories (files : FileSystem) (place : Place) : List String → FileSystem
  | [] => files
  | name :: names =>
    let next := place ++ [name]
    let files := if (files.get? next).isSome then files else files.set next .directory
    files.addDirectories next names

/-- Puts an item at a place, with the directories above it; a file gets a number of its own. -/
def install (files : FileSystem) (place : Place) (item : Item) : FileSystem :=
  let files := files.addDirectories [] place.dropLast
  match item with
  | .file _ content => files.addFile place content
  | item => files.set place item

/-- Puts an item where a path leads from the start if there are no links. -/
def installFromStart (files : FileSystem) (path : String) (item : Item) : FileSystem :=
  files.install (files.start ++ Path.names path) item

/-- A file system with an empty directory to start from and the null device. -/
def rootedAt (start : Place) : FileSystem :=
  FileSystem.addDirectories
    { entries := [(["dev"], .directory), (["dev", "null"], .device)], start := start, unused := 0 }
    [] start

/-- A file system that starts in an empty directory. -/
def fresh : FileSystem := rootedAt ["tmp", "work"]

/-- The names from `base` to `place`, unless the place is not below it. -/
def below? : Place → Place → Option Place
  | [], [] => none
  | [], place => some place
  | _ :: _, [] => none
  | a :: base, b :: place => if a = b then below? base place else none

/-- Everything below the start, by relative path in the order of the characters. -/
def listing (files : FileSystem) : List (String × Item) :=
  let found := files.entries.filterMap fun entry =>
    (below? files.start entry.1).map fun place => ("/".intercalate place, entry.2)
  found.mergeSort fun a b => a.1 ≤ b.1

end FileSystem

end ActivityScript.Host
