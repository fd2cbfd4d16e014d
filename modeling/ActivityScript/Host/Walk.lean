import ActivityScript.Host.Errno
import ActivityScript.Host.FileSystem

/-!
# Following paths

A path is followed name by name from its first directory. A symbolic link on the way is replaced by
the names of its target, followed by the names still to come; at most forty links are followed. The
walk stops before the last name and says where it arrived, because what may stand there depends on
the operation. Each operation says whether it follows a link at the very end; it may let this depend
on a slash after the name.
-/

namespace ActivityScript.Host

/-- Where a path leads. -/
inductive Arrival where
  /-- The root. -/
  | top
  /-- A directory, named by a dot at the end of the path. -/
  | here (place : Place)
  /-- A directory, named by two dots at the end of the path. -/
  | above (place : Place)
  /-- A name in a directory, which need not exist; `slash` if a slash stands after it. -/
  | entry (directory : Place) (name : String) (slash : Bool)
  deriving DecidableEq, Repr

/-- Whether a name is too long for a directory to hold it. -/
def isTooLong (name : String) : Bool := 255 < name.utf8ByteSize

namespace FileSystem

/-- The arrival at the last name of a path in a directory. -/
def arriveAt (files : FileSystem) (follow : Bool → Bool)
    (onLink : Place → String → List String → Except Errno Arrival) (directory : Place)
    (name : String) (slash : Bool) : Except Errno Arrival :=
  if name = "." then .ok (.here directory)
  else if name = ".." then .ok (.above directory.dropLast)
  else
    match files.get? (directory ++ [name]) with
    | some (.link target) =>
      if follow slash then onLink directory target (if slash then [""] else [])
      else .ok (.entry directory name slash)
    | _ => .ok (.entry directory name slash)

/-- Follows names from a place; `onLink` goes on where a link is to be followed. -/
def walkNames (files : FileSystem) (follow : Bool → Bool)
    (onLink : Place → String → List String → Except Errno Arrival) (place : Place) :
    List String → Except Errno Arrival
  | [] => .ok .top
  | name :: names =>
    if !files.isDirectory place then .error .notDirectory
    else if names = [] then files.arriveAt follow onLink place name false
    else if names = [""] then files.arriveAt follow onLink place name true
    else if name = "." then files.walkNames follow onLink place names
    else if name = ".." then files.walkNames follow onLink place.dropLast names
    else if isTooLong name then .error .nameTooLong
    else
      match files.get? (place ++ [name]) with
      | none => .error .noEntry
      | some (.link target) => onLink place target names
      | some _ => files.walkNames follow onLink (place ++ [name]) names

/-- The names to follow for a link with names still to come. A slash after a link to the root adds
no name. -/
def spliced (target : String) (names : List String) : List String :=
  let found := Path.names target
  if names = [] then Path.components target
  else if found = [] ∧ names = [""] then []
  else found ++ names

/-- The place where a path starts when it is met in a directory. -/
def origin (directory : Place) (path : String) : Place :=
  if Path.isAbsolute path then [] else directory

/-- Follows names from a place through at most `links` links. -/
def walk (files : FileSystem) (follow : Bool → Bool) :
    (links : Nat) → Place → List String → Except Errno Arrival
  | 0, place, names =>
    files.walkNames follow (fun _ _ _ => .error .tooManyLinks) place names
  | links + 1, place, names =>
    files.walkNames follow
      (fun directory target rest =>
        files.walk follow links (origin directory target) (spliced target rest))
      place names

/-- The number of links that are followed for one path. -/
def maxLinks : Nat := 40

/-- Follows a path. -/
def arrive (files : FileSystem) (follow : Bool → Bool) (path : String) : Except Errno Arrival :=
  if path = "" then .error .noEntry
  else if 4096 ≤ path.utf8ByteSize then .error .nameTooLong
  else files.walk follow maxLinks (origin files.start path) (Path.components path)

/-- The item with a name in a directory. -/
def child? (files : FileSystem) (directory : Place) (name : String) :
    Except Errno (Option Item) :=
  if isTooLong name then .error .nameTooLong else .ok (files.get? (directory ++ [name]))

end FileSystem

end ActivityScript.Host
