import ActivityScript.Text.Quoted

/-!
# Refusals of the host

The host refuses an operation on a file with a numbered reason. A path that holds a null character
never reaches it.
-/

namespace ActivityScript.Host

/-- The reasons for which the host refuses an operation on a file. -/
inductive Errno where
  | noEntry
  | noDevice
  | busy
  | alreadyExists
  | notDirectory
  | isDirectory
  | invalid
  | nameTooLong
  | notEmpty
  | tooManyLinks
  deriving DecidableEq, Repr

/-- The number of a reason. -/
def Errno.number : Errno → Nat
  | .noEntry => 2
  | .noDevice => 6
  | .busy => 16
  | .alreadyExists => 17
  | .notDirectory => 20
  | .isDirectory => 21
  | .invalid => 22
  | .nameTooLong => 36
  | .notEmpty => 39
  | .tooManyLinks => 40

/-- A reason in words. -/
def Errno.message : Errno → String
  | .noEntry => "No such file or directory"
  | .noDevice => "No such device or address"
  | .busy => "Device or resource busy"
  | .alreadyExists => "File exists"
  | .notDirectory => "Not a directory"
  | .isDirectory => "Is a directory"
  | .invalid => "Invalid argument"
  | .nameTooLong => "File name too long"
  | .notEmpty => "Directory not empty"
  | .tooManyLinks => "Too many levels of symbolic links"

/-- Why an operation on the file at a path failed. -/
inductive FileFault where
  | refused (errno : Errno) (path : String)
  /-- The path holds a null character. -/
  | nullInPath
  deriving DecidableEq, Repr

/-- A fault in words. -/
def FileFault.text : FileFault → String
  | .refused errno path =>
    "[Errno " ++ toString errno.number ++ "] " ++ errno.message ++ ": " ++ Text.quoted path
  | .nullInPath => "embedded null byte"

end ActivityScript.Host
