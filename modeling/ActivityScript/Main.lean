import ActivityScript.CommandLine.Run
import ActivityScript.Yaml.Reading

/-!
# The executable

The program is a function from a world to a world. The executable takes as that world the working
directory and what stands at the absolute paths that the command line and its script name, runs the
program, and then makes the disk what the program left: what is gone is removed, what is new or
changed is written. Sockets and child programs are not at its disposal, so the network and the
launcher of its world refuse everything.
-/

namespace ActivityScript.Executable

open Host

/-- A refusal of what the executable cannot do. -/
def unavailable : Refusal := ⟨some 38, "Function not implemented"⟩

/-- The path of a place. -/
def pathOf (place : Place) : String := "/" ++ "/".intercalate place

/-- Adds everything below a directory, which is at `place` in the world. A link stands for the file
that it leads to; any other link is kept as an item that is neither file nor directory. -/
partial def addDirectory (files : FileSystem) (place : Place) (directory : IO.FS.DirEntry) :
    IO FileSystem := do
  let mut files := files
  for entry in ← directory.path.readDir do
    let next := place ++ [entry.fileName]
    match (← entry.path.symlinkMetadata).type with
    | .dir => files ← addDirectory (files.install next .directory) next entry
    | .other => files := files.install next .fifo
    | .file | .symlink =>
      match ← (IO.FS.readBinFile entry.path).toBaseIO with
      | .ok content => files := files.install next (.file 0 content.toList)
      | .error _ => files := files.install next .fifo
  return files

/-- Adds what is at an absolute path, with the directories above it. Of a directory only the names
in it are added, so that it counts as empty only if it is. -/
def addAbsolute (files : FileSystem) (path : String) : IO FileSystem := do
  let place := Path.names path
  let entry : IO.FS.DirEntry := ⟨pathOf place.dropLast, place.getLast?.getD ""⟩
  let location := entry.path
  let above := files.addDirectories [] place.dropLast
  if (files.get? place).any (· ≠ .fifo) then return files
  else if ← location.isDir then
    let names := (← location.readDir).toList.map (·.fileName)
    return names.foldl (fun files name => files.install (place ++ [name]) .fifo)
      (above.install place .directory)
  else if ← location.pathExists then
    let content ← IO.FS.readBinFile location
    return above.install place (.file 0 content.toList)
  else if ← entry.root.isDir then return above
  else return files

/-- The absolute paths among the literals of a script. -/
def literalPaths (content : List UInt8) : List String :=
  ((Script.Source.bytes content).lexing none).tokens.filterMap fun token =>
    match token.lexeme with
    | .literal text => if Path.isAbsolute text then some text else none
    | _ => none

/-- The files of the working directory, those at some paths, and those that scripts at these paths
name. -/
def currentFiles (paths : List String) : IO FileSystem := do
  let directory ← IO.currentDir
  let place := Path.names directory.toString
  let files ← addDirectory (.rootedAt place) place ⟨directory, ""⟩
  let files ← (paths.filter fun path => Path.isAbsolute path).foldlM addAbsolute files
  let scripts := paths.filterMap fun path => (files.contentAt path).toOption
  (scripts.flatMap literalPaths).foldlM addAbsolute files

/-- The identity of the running program. -/
def currentIdentity (arguments : List String) : IO Identity := do
  let self ← IO.FS.realPath "/proc/self"
  let pid := (self.fileName.bind String.toNat?).getD 0
  let user ← IO.getEnv "USER"
  return { pid := pid, executable := toString (← IO.appPath),
           arguments := CommandLine.programName :: arguments, user := user.getD "" }

/-- The present time. -/
def currentTime : IO Instant := do
  let self ← IO.FS.realPath "/proc/self"
  return ⟨(← self.metadata).modified.sec, 0⟩

/-- The environment of the running program. -/
def currentEnvironment : IO Settings.Environment := do
  return ⟨← IO.getEnv "EDRTEST_CONFIG", (← IO.getEnv "HOME").getD ""⟩

/-- The world of the running program. -/
def currentWorld (arguments : List String) (environment : Settings.Environment) : IO World := do
  let paths := environment.userPath :: environment.configured?.toList ++ arguments
  return { files := ← currentFiles paths
           network := ⟨("", 0), ("", 0), fun _ _ => some unavailable, []⟩
           launcher := ⟨fun _ _ => .error unavailable, []⟩
           printed := ""
           identity := ← currentIdentity arguments
           now := ← currentTime }

/-- Writes an item that is new or changed. -/
def writeItem (place : Place) : Item → IO Unit
  | .file _ content => IO.FS.writeBinFile (pathOf place) ⟨content.toArray⟩
  | .directory => IO.FS.createDirAll (pathOf place)
  | _ => return ()

/-- Removes an item that is gone. -/
def removeItem (place : Place) : Item → IO Unit
  | .directory => IO.FS.removeDir (pathOf place)
  | _ => IO.FS.removeFile (pathOf place)

/-- Makes the disk what the program left. -/
def commit (old new : FileSystem) : IO Unit := do
  for (place, item) in old.entries.reverse do
    if (new.get? place).isNone then removeItem place item
  for (place, item) in new.entries do
    if old.get? place ≠ some item then writeItem place item

end ActivityScript.Executable

open ActivityScript in
/-- Runs the program on the disk. -/
def main (arguments : List String) : IO UInt32 := do
  let environment ← Executable.currentEnvironment
  let world ← Executable.currentWorld arguments environment
  let outcome := CommandLine.runProgram Yaml.read arguments environment world
  Executable.commit world.files outcome.world.files
  IO.print outcome.world.printed
  IO.eprint outcome.errors
  match outcome.status with
  | .ok status => return status.toUInt32
  | .error escape =>
    IO.eprintln escape.text
    return 1
