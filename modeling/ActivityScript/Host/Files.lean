import ActivityScript.Host.Walk

/-!
# Operations on files

What can be done with the file at a path. Looking at a file, reading and writing it follow links;
making and removing entries do not. An operation that fails leaves the file system as it is.
-/

namespace ActivityScript.Host

/-- An open file that can be appended to. -/
inductive Handle where
  | file (number : Nat)
  /-- Takes everything and keeps nothing. -/
  | sink
  deriving DecidableEq, Repr

namespace FileSystem

/-- The item that a path leads to, with its place. -/
def locate (files : FileSystem) (path : String) : Except Errno (Place × Item) := do
  match ← files.arrive (fun _ => true) path with
  | .top => return ([], .directory)
  | .here place | .above place => return (place, .directory)
  | .entry directory name slash =>
    match ← files.child? directory name with
    | none => throw .noEntry
    | some item =>
      if slash && !item.isDirectory then throw .notDirectory
      else return (directory ++ [name], item)

/-- The content of the file that a path leads to. -/
def contentAt (files : FileSystem) (path : String) : Except Errno (List UInt8) := do
  match ← files.locate path with
  | (_, .file _ content) => return content
  | (_, .directory) => throw .isDirectory
  | (_, .socket) => throw .noDevice
  | _ => return []

/-- The place that a path leads to for writing, with the item there if there is one: never a
directory or a socket. -/
def writable (files : FileSystem) (path : String) : Except Errno (Place × Option Item) := do
  match ← files.arrive (fun slash => !slash) path with
  | .entry directory name slash =>
    if slash then throw .isDirectory
    match ← files.child? directory name with
    | some .directory => throw .isDirectory
    | some .socket => throw .noDevice
    | item? => return (directory ++ [name], item?)
  | _ => throw .isDirectory

/-- Gives the file that a path leads to a content; a missing file is made. -/
def overwrite (files : FileSystem) (path : String) (content : List UInt8) :
    Except Errno FileSystem := do
  match ← files.writable path with
  | (place, none) => return files.addFile place content
  | (place, some (.file number _)) => return files.set place (.file number content)
  | _ => return files

/-- Opens the file that a path leads to for appending; a missing file is made. -/
def openAppend (files : FileSystem) (path : String) : Except Errno (Handle × FileSystem) := do
  match ← files.writable path with
  | (place, none) => return (.file files.unused, files.addFile place [])
  | (_, some (.file number _)) => return (.file number, files)
  | _ => return (.sink, files)

/-- Appends to an open file. -/
def appendTo (files : FileSystem) (handle : Handle) (more : List UInt8) : FileSystem :=
  match handle with
  | .file number => files.append number more
  | .sink => files

/-- Makes a directory. -/
def makeDirectory (files : FileSystem) (path : String) : Except Errno FileSystem := do
  match ← files.arrive (fun _ => false) path with
  | .entry directory name _ =>
    match ← files.child? directory name with
    | none => return files.set (directory ++ [name]) .directory
    | some _ => throw .alreadyExists
  | _ => throw .alreadyExists

/-- Removes an empty directory. -/
def removeDirectory (files : FileSystem) (path : String) : Except Errno FileSystem := do
  match ← files.arrive (fun _ => false) path with
  | .top => throw .busy
  | .here _ => throw .invalid
  | .above _ => throw .notEmpty
  | .entry directory name _ =>
    match ← files.child? directory name with
    | none => throw .noEntry
    | some .directory =>
      let place := directory ++ [name]
      if files.isBare place then return files.erase place else throw .notEmpty
    | some _ => throw .notDirectory

/-- Removes an entry that is not a directory. -/
def removeFile (files : FileSystem) (path : String) : Except Errno FileSystem := do
  match ← files.arrive (fun _ => false) path with
  | .entry directory name slash =>
    match ← files.child? directory name with
    | none => throw .noEntry
    | some .directory => throw .isDirectory
    | some _ => if slash then throw .notDirectory else return files.erase (directory ++ [name])
  | _ => throw .isDirectory

end FileSystem

/-- Asks the host for something about a path, unless the path holds a null character. -/
def request {α : Type} (path : String) (answer : Except Errno α) : Except FileFault α :=
  if path.toList.contains '\x00' then .error .nullInPath
  else answer.mapError fun errno => .refused errno path

end ActivityScript.Host
