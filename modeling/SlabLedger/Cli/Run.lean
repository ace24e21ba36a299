import SlabLedger.Cli.Program
import SlabLedger.Cli.Files
import SlabLedger.Cli.Output
import SlabLedger.Config.Toml
import SlabLedger.Market.Chain
import SlabLedger.Text.Base64
import SlabLedger.Text.Hex
import SlabLedger.Text.Utf8
/-!
# Running a command

A run reads the words of the command line, loads the configuration (from `--config`, or the
file the environment names, or the defaults), and runs the command over the files it can see.
It prints the result followed by a line break and ends with status 0; a failure prints `Error:`
and its message, then its causes, and ends with status 1; a usage fault ends with status 2.

The run sees files through a view. A path the view has not looked at stops the run with that
path, so that a caller can look at it and run again; every path a run reads is such a lookup.
Before anything else the log directory, if one is given, is made with the directories above it
unless it is a directory already; the configuration is loaded next, and the command runs last.
-/

namespace SlabLedger.Cli

/-- What a run printed and its exit status. -/
structure Outcome where
  status : Nat
  stdout : String
  stderr : String
  deriving DecidableEq, Repr

/-- A failed command: its message and the causes under it, outermost first. -/
structure Failure where
  message : String
  causes : List String := []
  deriving DecidableEq, Repr

namespace Failure

/-- A failure from a decoding fault. -/
def ofFault (f : Fault) : Failure := { message := f.message }

/-- The printed form: `Error:` and the message, then the causes, numbered if more than one. -/
def render (f : Failure) : String :=
  let causes := match f.causes with
    | [] => ""
    | [c] => "\n\nCaused by:\n    " ++ c
    | cs => "\n\nCaused by:\n" ++
        "\n".intercalate (cs.zipIdx.map fun (c, i) => "    " ++ toString i ++ ": " ++ c)
  "Error: " ++ f.message ++ causes ++ "\n"

/-- The message and causes on one line, joined by colons. -/
def inline (f : Failure) : String := ": ".intercalate (f.message :: f.causes)

end Failure

/-- Why a run stopped before its end. -/
inductive Stop where
  | failed (f : Failure)
  /-- The run needs a path the view has not looked at. -/
  | needs (path : String)
  deriving DecidableEq, Repr

/-- A step of a run. -/
abbrev Run := Except Stop

/-- Ends a run with a failure. -/
def fail (f : Failure) : Run α := throw (.failed f)

/-- Ends a run with a decoding fault. -/
def orFault : Except Fault α → Run α
  | .ok a => pure a
  | .error f => fail (.ofFault f)

/-- The bytes at a path, or why they cannot be read. -/
def readPath (files : FileView) (path : String) : Run (Except String Bytes) :=
  match files path with
  | none => throw (.needs path)
  | some (.contents b) => pure (.ok b)
  | some .absent => pure (.error absentDetail)
  | some .directory => pure (.error "Is a directory (os error 21)")
  | some .blocked => pure (.error notDirectoryDetail)
  | some .tooLong => pure (.error tooLongDetail)
  | some .loop => pure (.error loopDetail)
  | some (.unreadable d) => pure (.error d)

/-- Whether something exists at a path. -/
def exists? (files : FileView) (path : String) : Run Bool :=
  match files path with
  | none => throw (.needs path)
  | some .absent => pure false
  | some .blocked => pure false
  | some .tooLong => pure false
  | some .loop => pure false
  | some _ => pure true

/-- A path without its trailing slashes; the root stays the root. -/
def withoutTrailingSlashes (path : String) : String :=
  let kept := (path.toList.reverse.dropWhile (· = '/')).reverse
  if kept.isEmpty && path.startsWith "/" then "/" else String.ofList kept

/-- A path cut before its last name, the way a directory maker climbs to make the directories
above a path: the path of the directory above (empty for a relative path of one name), the last
name (a name, `..`, or the `.` that starts a relative path), and whether a `.` follows that name.
Empty names and `.` names are skipped from the end; what is left above the name loses its
trailing slashes and `.` names, but keeps the root and a leading `.`. A path of the root alone,
or of nothing, has no last name. -/
structure PathCut where
  parent : String
  name : String
  dotAfter : Bool
  deriving DecidableEq, Repr

/-- Cuts a path before its last name; none for the root or the empty path. -/
def PathCut.of? (path : String) : Option PathCut :=
  let parts := path.splitOn "/"
  let kept := if path.startsWith "/" || path = "." || path.startsWith "./" then 1 else 0
  let skipped := parts.reverse.takeWhile (fun p => p = "" || p = ".")
  let rest := parts.reverse.dropWhile (fun p => p = "" || p = ".")
  let trim (above : List String) : List String :=
    above.take kept ++ ((above.drop kept).reverse.dropWhile (fun p => p = "" || p = ".")).reverse
  match rest with
  | name :: above =>
    let parent := trim above.reverse
    some { parent := if parent = [""] then "/" else "/".intercalate parent, name,
           dotAfter := skipped.contains "." }
  | [] =>
    if kept = 1 && !path.startsWith "/" then some { parent := "", name := ".", dotAfter := true }
    else none

/-- The directory that holds the last name of a path written without trailing slashes: the part
before the last slash, the root, or the working directory. -/
def containingDirectory (path : String) : String :=
  match (path.splitOn "/").dropLast with
  | [] => "."
  | above => if above.all (· = "") then "/" else "/".intercalate above

/-- What asking once for a directory at a path gives: made, or the reason it was not; a
directory already there is reported as existing. -/
inductive MakeAttempt where
  | made
  /-- Something is there already; whether it is a directory. -/
  | present (isDirectory : Bool)
  /-- A directory above the path is missing. -/
  | missingAbove
  | refused (detail : String)
  deriving DecidableEq, Repr

/-- Asks once for a directory at a path, as the system answers it: a path too long, a name too
long, a file or directory already there, a path through a file, a missing directory above, or a
new directory. The last name is the one before any trailing slashes; `.` and `..` always exist. -/
def makeOnce (files : FileView) (path : String) : Run MakeAttempt := do
  if path.utf8ByteSize ≥ pathMax then return .refused tooLongDetail
  let target := withoutTrailingSlashes path
  match files target with
  | none => throw (.needs target)
  | some .directory => return .present true
  | some (.contents _) => return .present false
  | some (.unreadable _) => return .present false
  | some .blocked => return .refused notDirectoryDetail
  | some .tooLong => return .refused tooLongDetail
  | some .loop =>
    -- Making a directory does not follow a link in the last name: if the directory above
    -- resolves, the last name is a link that exists, though it leads nowhere.
    let above := containingDirectory target
    match files above with
    | none => throw (.needs above)
    | some .directory => return .present false
    | some _ => return .refused loopDetail
  | some .absent =>
    let last := ((target.splitOn "/").getLast?).getD ""
    if last = "." || last = ".." then return .missingAbove
    let above := containingDirectory target
    match files above with
    | none => throw (.needs above)
    | some .directory =>
      return if last.utf8ByteSize > nameMax then .refused tooLongDetail else .made
    | some .absent => return .missingAbove
    | some .tooLong => return .refused tooLongDetail
    | some .loop => return .refused loopDetail
    | some _ => return .refused notDirectoryDetail

/-- Makes sure a directory exists at a path, with every directory above it, within a number of
levels. A path that is a directory already is fine; something else there, or a path through a
file, fails. When a directory above is missing, the directories above are made first, and the
path is asked for once more: its last name must then be short enough, and a `.` after it still
finds it missing. -/
def makeDirectoryWithin : Nat → FileView → String → Run Unit
  | 0, _, _ => pure ()
  | fuel + 1, files, path => do
    if path.isEmpty then return
    match ← makeOnce files path with
    | .made => pure ()
    | .present true => pure ()
    | .present false => fail { message := "File exists (os error 17)" }
    | .refused detail => fail { message := detail }
    | .missingAbove =>
      match PathCut.of? path with
      | none => fail { message := "failed to create whole tree" }
      | some cut =>
        makeDirectoryWithin fuel files cut.parent
        if cut.name = "." || cut.name = ".." then return
        if cut.name.utf8ByteSize > nameMax then fail { message := tooLongDetail }
        if cut.dotAfter then fail { message := absentDetail }

/-- Makes sure a directory exists at a path, making it and the directories above it as needed.
Each level up is a shorter path, so the length of the path bounds the levels. -/
def makeDirectory (files : FileView) (path : String) : Run Unit :=
  makeDirectoryWithin (path.length + 1) files path

/-- A path inside a directory. -/
def joinPath (dir name : String) : String :=
  if dir.isEmpty then name else if dir.endsWith "/" then dir ++ name else dir ++ "/" ++ name

/-- Characters with the Unicode property White_Space. -/
def isUnicodeSpace (c : Char) : Bool :=
  let n := c.toNat
  (0x09 ≤ n && n ≤ 0x0d) || n = 0x20 || n = 0x85 || n = 0xa0 || n = 0x1680 ||
    (0x2000 ≤ n && n ≤ 0x200a) || n = 0x2028 || n = 0x2029 || n = 0x202f || n = 0x205f ||
    n = 0x3000

/-- The bytes of an input file: as stored, or decoded from base-64 text (blanks ignored). -/
def readInput (files : FileView) (path : String) (base64 : Bool) :
    Run (Except Failure Bytes) := do
  match ← readPath files path with
  | .error e => pure (.error { message := "Failed to read " ++ path, causes := [e] })
  | .ok bytes =>
    if !base64 then pure (.ok bytes)
    else match Utf8.decode bytes with
      | .error e => pure (.error { message := "base64 input is not UTF-8", causes := [e.message] })
      | .ok text =>
        let compact := String.ofList (text.toList.filter (!isUnicodeSpace ·))
        match Base64.decode (Bytes.ofText compact) with
        | .error e =>
          pure (.error { message := "Failed to decode base64 in " ++ path, causes := [e.message] })
        | .ok b => pure (.ok b)

/-- The configuration: from the file given, else the file the environment names, else the
defaults. -/
def loadConfig (files : FileView) (env : String → Option String) (given : Option String) :
    Run DecoderConfig :=
  match given <|> env "ORDERSLAB_CONFIG" with
  | none => pure {}
  | some path => do
    match ← readPath files path with
    | .error e => fail (.ofFault (.config (.unreadable path e)))
    | .ok bytes =>
      match Utf8.decode bytes with
      | .error _ =>
        fail (.ofFault (.config (.unreadable path "stream did not contain valid UTF-8")))
      | .ok text => orFault (DecoderConfig.ofToml text)

/-- Account dumps in a directory, each named by its address, with or without `.bin`. The state
holds the first path the view had not looked at; from then on every fetch fails. -/
def dumpSource (files : FileView) (dir : String) (base64 : Bool) : LogSource (Option String) :=
  ⟨fun needed a =>
    let stuck : Fault := .source (.unreadable "")
    if needed.isSome then (.error stuck, needed)
    else
      let name := a.toText
      let found : Run (Option String) := do
        if ← exists? files (joinPath dir name) then return some (joinPath dir name)
        if ← exists? files (joinPath dir (name ++ ".bin")) then
          return some (joinPath dir (name ++ ".bin"))
        return none
      match found with
      | .error (.needs p) => (.error stuck, some p)
      | .error (.failed _) => (.error stuck, none)
      | .ok none => (.error (.source (.noDump name dir)), none)
      | .ok (some path) =>
        match readInput files path base64 with
        | .error (.needs p) => (.error stuck, some p)
        | .error (.failed _) => (.error stuck, none)
        | .ok (.error f) => (.error (.source (.unreadable f.inline)), none)
        | .ok (.ok bytes) => (.ok bytes, none)⟩

/-- Strips every leading `0x`. -/
def stripHexPrefix (s : String) : String :=
  let rec go : List Char → List Char
    | '0' :: 'x' :: rest => go rest
    | cs => cs
  String.ofList (go s.toList)

/-- Runs a command; its printed result without the final line break. -/
def execute (files : FileView) (env : String → Option String) (inv : Invocation) :
    Run String := do
  if let some dir := inv.shared.logDir then makeDirectory files dir
  let config ← loadConfig files env inv.shared.config
  let input (path : String) : Run Bytes := do
    match ← readInput files path inv.shared.base64 with
    | .error f => fail f
    | .ok b => pure b
  match inv.command with
  | .book file sorted raw =>
    let slab ← orFault (BookSlab.decode (← input file))
    if raw then return (rawBookR slab).render
    let book ← orFault slab.assemble
    return (bookR (if sorted then book.sorted else book)).render
  | .settlement file owner =>
    let blob ← input file
    let log ← orFault (match owner with
      | some o => SettlementLog.decodeForOwner blob config o
      | none => SettlementLog.decode blob config)
    return (logR log).render
  | .chain dir first owner =>
    let (steps, last) := (Chain.start (dumpSource files dir inv.shared.base64) none first config
      owner).walk
    if let some p := last.state then throw (.needs p)
    let entries ← steps.mapM fun (r, _) => orFault r
    return (Report.arr (entries.map entryR)).render
  | .market file => return (marketR (← orFault (MarketAccount.decode (← input file)))).render
  | .marketState file =>
    return (marketStateR (← orFault (MarketState.decode (← input file)))).render
  | .encodeOrderId key =>
    let text := stripHexPrefix key
    match Hex.decode text with
    | .error e =>
      fail { message := "invalid hex key " ++ Text.quoteText text, causes := [e.message] }
    | .ok bytes =>
      if bytes.length ≠ 16 then
        fail { message := "key must be 16 bytes, got " ++ toString bytes.length }
      else return (Key.ofBytes bytes).orderId
  | .decodeOrderId id =>
    match Key.ofOrderId id with
    | .error e => fail (.ofFault (.badKeyText e))
    | .ok k => return Hex.encode k.toBytes
  | .version => return programName ++ " " ++ programVersion

/-- Where a run ended: with an outcome, or needing a path. -/
inductive Progress where
  | done (o : Outcome)
  | needs (path : String)
  deriving DecidableEq, Repr

/-- Runs the program on the words of a command line. -/
def run (files : FileView) (env : String → Option String) (words : List String) : Progress :=
  match read program words with
  | .error (.help text) => .done ⟨0, text, ""⟩
  | .error .version => .done ⟨0, programName ++ " " ++ programVersion ++ "\n", ""⟩
  | .error (.helpAsFault text) => .done ⟨2, "", text⟩
  | .error (.usage f) => .done ⟨2, "", f.message⟩
  | .ok m =>
    match m.invocation? with
    | none => .done ⟨2, "", ""⟩
    | some inv =>
      match execute files env inv with
      | .ok out => .done ⟨0, out ++ "\n", ""⟩
      | .error (.failed f) => .done ⟨1, "", f.render⟩
      | .error (.needs p) => .needs p

end SlabLedger.Cli
