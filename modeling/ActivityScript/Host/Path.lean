import ActivityScript.Text.Lines

/-!
# Paths

A path is a text of names divided by slashes. It is read as the list of its names; a slash at its
end says that it means a directory and is kept as an empty name at the end of the list. The normal
form of a path drops what does not matter to its meaning, but keeps every step upwards, because a
step upwards after a symbolic link leads to another place.
-/

namespace ActivityScript.Host.Path

/-- The texts between the slashes of a path. -/
def segments (path : String) : List String :=
  (Text.pieces '/' path.toList).map String.ofList

/-- The names of a path. -/
def names (path : String) : List String :=
  (segments path).filter fun name => name ≠ ""

/-- Whether a path starts at the root. -/
def isAbsolute (path : String) : Bool :=
  path.toList.head? = some '/'

/-- The names of a path, followed by an empty one if a slash stands at its end. -/
def components (path : String) : List String :=
  let found := names path
  if found ≠ [] ∧ path.toList.getLast? = some '/' then found ++ [""] else found

/-- The slashes with which a normal path begins: exactly two slashes are kept, more are one. -/
def root (path : String) : String :=
  match path.toList.takeWhile (· = '/') with
  | [] => ""
  | ['/', '/'] => "//"
  | _ => "/"

/-- The names of a path that its normal form keeps. -/
def normalNames (path : String) : List String :=
  (names path).filter fun name => name ≠ "."

/-- The normal form of a path: without empty names and without names for the same directory. -/
def normal (path : String) : String :=
  let text := root path ++ "/".intercalate (normalNames path)
  if text = "" then "." else text

/-- The last name of the normal form of a path, if there is one. -/
def lastName (path : String) : String :=
  (normalNames path).getLast?.getD ""

/-- A path below a directory, in normal form; an absolute path stays as it is. -/
def join (directory path : String) : String :=
  if isAbsolute path then normal path else normal (directory ++ "/" ++ path)

end ActivityScript.Host.Path
