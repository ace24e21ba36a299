import SlabLedger.Bytes
/-!
# What a run sees of the files

A run does not touch the disk. It sees each path through a view that says what the system
answers for it: the bytes of a file, a directory, nothing there, or why the path names nothing
that can be read. The reasons are worded as the system words them, with their error numbers.
-/

namespace SlabLedger.Cli

/-- What a view knows of a path. -/
inductive FileState where
  | contents (bytes : Bytes)
  | absent
  | directory
  /-- The path goes through a file as if it were a directory, so it names nothing. -/
  | blocked
  /-- The path, or a name on it that the system reached, is longer than the system allows. -/
  | tooLong
  /-- Following the path takes more symbolic links than the system follows. -/
  | loop
  /-- The path exists but cannot be read; the detail says why. -/
  | unreadable (detail : String)
  deriving DecidableEq, Repr

/-- The files a run can see: the state of a path, or none if it has not been looked at. -/
abbrev FileView := String → Option FileState

/-- The reason given for a path that does not exist. -/
def absentDetail : String := "No such file or directory (os error 2)"

/-- The reason given for a path that goes through a file. -/
def notDirectoryDetail : String := "Not a directory (os error 20)"

/-- The reason given for a path, or a name on it, that is too long. -/
def tooLongDetail : String := "File name too long (os error 36)"

/-- The reason given for a path that takes too many symbolic links. -/
def loopDetail : String := "Too many levels of symbolic links (os error 40)"

/-- The longest a path may be, in bytes; a path of this length or more names nothing. -/
def pathMax : Nat := 4096

/-- The longest a name in a directory may be, in bytes. -/
def nameMax : Nat := 255

/-- The most symbolic links the system follows while it resolves one path. -/
def linkMax : Nat := 40

end SlabLedger.Cli
