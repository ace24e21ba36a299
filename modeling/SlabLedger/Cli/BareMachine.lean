import SlabLedger.Cli.Files
/-!
# A bare machine

The files of a freshly started Linux machine on which nothing has been stored: the standard
top-level directories, empty; the null device and the standard input, which reads as the null
device; and the process file system under `/proc`, of which the process's own directory and the
kernel's name for its system are known.

Paths resolve as the kernel resolves them. `.` stays, `..` climbs, a name after a file finds
nothing, a name longer than a directory can hold is refused, and a path of `pathMax` bytes or
more is refused before anything is looked at. `/proc/self` is a symbolic link to the process's
directory; in it `root` links back to the root and `cwd` to the working directory. Of the
working directory and those above it nothing is known, so no name is found in them. Every link
followed counts, and the one past `linkMax` ends the walk.
-/

namespace SlabLedger.Cli

/-- The top-level directories of a bare machine. -/
def bareRoots : List String :=
  ["bin", "boot", "dev", "etc", "home", "lib", "lib64", "media", "mnt", "opt", "proc", "root",
    "run", "sbin", "srv", "sys", "tmp", "usr", "var"]

/-- A place on the bare machine: one named from the root, or the working directory or a directory
above it, of which nothing is known, so no name is found there. -/
inductive Place where
  | fromRoot (names : List String)
  | unknown
  deriving DecidableEq, Repr

/-- Where a name in a directory leads: a place, or a symbolic link to a place. -/
inductive BareEntry where
  | entry (place : Place)
  | link (target : Place)
  deriving DecidableEq, Repr

/-- What a directory of the bare machine, named from the root, holds under a name, if
anything. -/
def bareLookup (here : List String) (name : String) : Option BareEntry :=
  let below := BareEntry.entry (.fromRoot (here ++ [name]))
  match here with
  | [] => if bareRoots.contains name then some below else none
  | ["dev"] => if name = "null" || name = "stdin" then some below else none
  | ["proc"] =>
    if name = "self" then some (.link (.fromRoot ["proc", "self"]))
    else if name = "sys" then some below
    else none
  | ["proc", "self"] =>
    if name = "root" then some (.link (.fromRoot []))
    else if name = "cwd" then some (.link .unknown)
    else if name = "mem" then some below
    else none
  | ["proc", "sys"] => if name = "kernel" then some below else none
  | ["proc", "sys", "kernel"] => if name = "ostype" then some below else none
  | _ => none

/-- The name of the system as the kernel gives it, with its line break. -/
def kernelName : Bytes := "Linux\n".toUTF8.toList

/-- What is at a place of the bare machine when it is read: the devices read empty, the
process's memory cannot be read from its start, the kernel's name reads as itself, and every
other place is a directory. -/
def bareFile : Place → FileState
  | .fromRoot place =>
    if place = ["dev", "null"] || place = ["dev", "stdin"] then .contents []
    else if place = ["proc", "self", "mem"] then .unreadable "Input/output error (os error 5)"
    else if place = ["proc", "sys", "kernel", "ostype"] then .contents kernelName
    else .directory
  | .unknown => .directory

/-- The place above a place; the root is above itself. -/
def Place.up : Place → Place
  | .fromRoot names => .fromRoot names.dropLast
  | .unknown => .unknown

/-- What the bare machine holds at the end of a walk of names from the place `here`, having
followed `links` symbolic links so far. -/
def bareWalk (links : Nat) (here : Place) : List String → FileState
  | [] => bareFile here
  | name :: rest =>
    if bareFile here ≠ .directory then .blocked
    else if name = "." then bareWalk links here rest
    else if name = ".." then bareWalk links here.up rest
    else if name.utf8ByteSize > nameMax then .tooLong
    else
      let found := match here with
        | .fromRoot names => bareLookup names name
        | .unknown => none
      match found with
      | none => .absent
      | some (.entry place) => bareWalk links place rest
      | some (.link target) =>
        if links ≥ linkMax then .loop else bareWalk (links + 1) target rest

/-- What a bare machine holds at a path. Absolute paths start at the root, relative ones in the
working directory. A trailing slash asks for a directory. -/
def bareState (path : String) : FileState :=
  let names := (path.splitOn "/").filter (· ≠ "") ++ (if path.endsWith "/" then ["."] else [])
  if path.utf8ByteSize ≥ pathMax then .tooLong
  else bareWalk 0 (if path.startsWith "/" then .fromRoot [] else .unknown) names

/-- The view of a bare machine. -/
def bareSystem : FileView := fun path => some (bareState path)

end SlabLedger.Cli
