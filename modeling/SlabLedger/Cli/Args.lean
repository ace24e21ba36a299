import SlabLedger.Address
import SlabLedger.Fault
import SlabLedger.Text.Escapes
/-!
# Command-line grammar

The command line is described by data: each command has a name, a one-line description,
arguments (switches, options with a value, positional values) and subcommands. Options marked
global are accepted by every command below the one that declares them. Reading the words of a
command line against this description gives the path of subcommands and the values by name, or
one of: a help text, the version, or a usage fault.

Usage faults are worded in one function and end with the hint to try `--help`. The words of the
command line that a fault quotes are written as a writer without a terminal shows them, without
escape sequences or control characters (`Text.plainText`). A word that names no subcommand or
flag is reported with the most similar name when one is similar enough (Jaro similarity above
0.7); the similarity is that of the word as given.
-/

namespace SlabLedger.Cli

/-- One argument of a command. -/
structure ArgSpec where
  /-- The name its value is filed under. -/
  id : String
  /-- The long flag without its dashes; none for a positional value. -/
  long : Option String := none
  /-- The placeholder of its value; none for a switch. -/
  valueName : Option String := none
  help : String := ""
  required : Bool := false
  /-- Also accepted by every subcommand. -/
  global : Bool := false
  /-- The environment variable named in help. -/
  env : Option String := none
  /-- The value used when none is given, named in help. -/
  default : Option String := none
  /-- Whether the value must be an address. -/
  address : Bool := false
  /-- Whether an empty value counts as no value (paths). -/
  nonEmpty : Bool := false

/-- A command: its arguments and subcommands. -/
structure CommandSpec where
  name : String
  about : String
  args : List ArgSpec := []
  subcommands : List CommandSpec := []

namespace ArgSpec

/-- Whether the argument is a positional value. -/
def isPositional (a : ArgSpec) : Bool := a.long.isNone

/-- How the argument is written in usage lines and faults: `--dir <DIR>`, `--sorted`, `<FILE>`. -/
def display (a : ArgSpec) : String :=
  match a.long, a.valueName with
  | some l, some v => "--" ++ l ++ " <" ++ v ++ ">"
  | some l, none => "--" ++ l
  | none, some v => "<" ++ v ++ ">"
  | none, none => "<" ++ a.id ++ ">"

/-- How a positional value stands in a usage line: `<FILE>` if required, else `[FILE]`. -/
def usageForm (a : ArgSpec) : String :=
  if a.required then a.display else "[" ++ (a.valueName.getD a.id) ++ "]"

end ArgSpec

/-- A fault in the words of a command line. -/
inductive UsageFault where
  /-- A word that fits nowhere: with the most similar flag of the command, a subcommand that
  has a similar flag, and whether the word could be passed as a value after `--`. -/
  | unexpected (word : String) (similar : Option String) (elsewhere : Option (String × String))
      (valueTip : Bool) (usage : String)
  /-- A subcommand name written after `--`, where it can only be a value. -/
  | dashedSubcommand (word : String) (usage : String)
  /-- A word that names no subcommand, with the similar names, least similar first. -/
  | unknownSubcommand (word : String) (similar : List String) (usage : String)
  /-- Required arguments that were not given, as displayed. -/
  | missing (args : List String) (usage : String)
  | invalidValue (value : String) (arg : String) (reason : String)
  | missingValue (arg : String)
  | unwantedValue (value : String) (arg : String) (usage : String)
  | repeated (arg : String) (usage : String)
  | noSubcommand (command : String) (names : List String) (usage : String)
  /-- A word after `help help` that names no subcommand; the help command has no `--help` to
  point to. -/
  | unknownHelpTopic (word : String) (usage : String)
  deriving DecidableEq, Repr

/-- The quoted names of a tip, separated by commas. -/
def quotedList (names : List String) : String :=
  ", ".intercalate (names.map fun n => "'" ++ n ++ "'")

/-- A usage fault as printed: the fault, its tips, the usage line if any, and the hint to try
`--help`. -/
def composeFault (head : String) (tips : List String) (usage : Option String) : String :=
  "error: " ++ head ++
    (if tips.isEmpty then "" else "\n" ++ String.join (tips.map ("\n  tip: " ++ ·))) ++
    (match usage with
      | some u => "\n\nUsage: " ++ u
      | none => "") ++
    "\n\nFor more information, try '--help'.\n"

/-- The text of a usage fault, as printed on standard error. -/
def UsageFault.message : UsageFault → String
  | .unexpected word similar elsewhere valueTip u =>
    let w := Text.plainText word
    composeFault ("unexpected argument '" ++ w ++ "' found")
      ((similar.toList.map fun s => "a similar argument exists: '" ++ s ++ "'") ++
        (if valueTip then ["to pass '" ++ w ++ "' as a value, use '-- " ++ w ++ "'"] else []) ++
        (elsewhere.toList.map fun (c, s) => "'" ++ c ++ " " ++ s ++ "' exists"))
      (some u)
  | .dashedSubcommand w u =>
    composeFault ("unexpected argument '" ++ w ++ "' found")
      ["subcommand '" ++ w ++ "' exists; to use it, remove the '--' before it"] (some u)
  | .unknownSubcommand w similar u =>
    composeFault ("unrecognized subcommand '" ++ Text.plainText w ++ "'")
      (match similar with
        | [] => []
        | [n] => ["a similar subcommand exists: '" ++ n ++ "'"]
        | ns => ["some similar subcommands exist: " ++ quotedList ns])
      (some u)
  | .missing args u =>
    composeFault ("the following required arguments were not provided:" ++
      String.join (args.map fun a => "\n  " ++ a)) [] (some u)
  | .invalidValue v a reason =>
    composeFault ("invalid value '" ++ Text.plainText v ++ "' for '" ++ a ++ "': " ++ reason) []
      none
  | .missingValue a =>
    composeFault ("a value is required for '" ++ a ++ "' but none was supplied") [] none
  | .unwantedValue v a u =>
    composeFault
      ("unexpected value '" ++ Text.plainText v ++ "' for '" ++ a ++
        "' found; no more were expected") []
      (some u)
  | .repeated a u => composeFault ("the argument '" ++ a ++ "' cannot be used multiple times") []
      (some u)
  | .noSubcommand c names u =>
    composeFault ("'" ++ c ++ "' requires a subcommand but one was not provided" ++
      "\n  [subcommands: " ++ ", ".intercalate names ++ "]") [] (some u)
  | .unknownHelpTopic w u =>
    "error: unrecognized subcommand '" ++ Text.plainText w ++ "'\n\nUsage: " ++ u ++ "\n"

/-! ## Similar names -/

/-- Marks the first unmarked position of `b` within `range` of `i` that holds `x`. -/
def markMatch (x : Char) (b : List Char) (flags : List Bool) (lo hi : Nat) :
    Option (List Bool) :=
  let found := (List.range b.length).find? fun j =>
    lo ≤ j && j < hi && b[j]? == some x && flags[j]? == some false
  found.map fun j => flags.set j true

/-- The matches of a Jaro comparison of two words: how many characters match, and how many
matched characters stand out of order (counted in pairs, so halved). -/
def jaroMatches (a b : List Char) : Nat × Nat :=
  let range := max a.length b.length / 2 - 1
  let step := fun (st : List Bool × List Bool) (p : Nat × Char) =>
    let (aFlags, bFlags) := st
    let (i, x) := p
    match markMatch x b bFlags (i - range) (min b.length (i + range + 1)) with
    | some bf => (aFlags.set i true, bf)
    | none => (aFlags, bFlags)
  let (aFlags, bFlags) := (a.zipIdx.map fun (x, i) => (i, x)).foldl step
    (List.replicate a.length false, List.replicate b.length false)
  let ma := (a.zip aFlags).filterMap fun (x, f) => if f then some x else none
  let mb := (b.zip bFlags).filterMap fun (x, f) => if f then some x else none
  (ma.length, ((ma.zip mb).filter fun (x, y) => x ≠ y).length / 2)

/-- Jaro similarity of two words in double precision, computed term by term as
`(m / |a| + m / |b| + (m - t) / m) / 3`; zero when either word is empty or nothing matches, one
when both are empty. Rounding decides the close cases, so the terms are added in this order. -/
def jaro (a b : List Char) : Float :=
  if a.isEmpty && b.isEmpty then 1
  else if a.isEmpty || b.isEmpty then 0
  else
    let (m, t) := jaroMatches a b
    if m = 0 then 0
    else
      let mf := m.toFloat
      (mf / a.length.toFloat + mf / b.length.toFloat + (m - t).toFloat / mf) / 3

/-- The candidates whose similarity to the word exceeds 0.7, least similar first; equals keep
their order. -/
def similarNames (word : String) (candidates : List String) : List String :=
  let scored := candidates.filterMap fun c =>
    let score := jaro word.toList c.toList
    if score > 0.7 then some (c, score) else none
  (scored.mergeSort fun x y => decide (x.2 ≤ y.2)).map (·.1)

/-! ## Usage and help -/

/-- The help switch every command has. -/
def helpSwitch : ArgSpec := { id := "help", long := some "help", help := "Print help" }

/-- The version switch of the program itself. -/
def versionSwitch : ArgSpec := { id := "version", long := some "version", help := "Print version" }

/-- The usage line: the command path, `[OPTIONS]`, required options, positional values, and
`<COMMAND>` for a command with subcommands. -/
def usageLine (path : List String) (cmd : CommandSpec) : String :=
  let options := cmd.args.filter fun a => !a.isPositional && a.required
  let positionals := cmd.args.filter ArgSpec.isPositional
  " ".intercalate (path ++ ["[OPTIONS]"] ++ options.map ArgSpec.display ++
    positionals.map ArgSpec.usageForm ++
    (if cmd.subcommands.isEmpty then [] else ["<COMMAND>"]))

/-- What a usage line can name besides the required arguments: an argument in use, or the
group of a command's own arguments, in use once one of them is. -/
inductive Mark where
  | arg (id : String)
  | group
  deriving DecidableEq, Repr

/-- The group of a command's own arguments as a usage line shows it: `<--dir <DIR>|FIRST|...>`. -/
def groupForm (cmd : CommandSpec) : String :=
  "<" ++ "|".intercalate (cmd.args.map fun a =>
    if a.isPositional then a.valueName.getD a.id else a.display) ++ ">"

/-- The usage line that names what is in use instead of `[OPTIONS]`: the required options and
then the options in use, each once, then the group of own arguments if in use (its members are
then not named one by one), then the positional values. -/
def usageNaming (path : List String) (cmd : CommandSpec) (known : List ArgSpec)
    (used : List Mark) : String :=
  let grouped := used.contains .group
  let inGroup (a : ArgSpec) : Bool := grouped && cmd.args.any (·.id == a.id)
  let required := cmd.args.filter fun a => a.required && !a.isPositional
  let named := (used.filterMap fun m => match m with
    | .arg id => known.find? (·.id == id)
    | .group => none).filter (!·.isPositional)
  let options := ((required ++ named).filter (!inGroup ·)).foldl
    (fun acc a => if acc.contains a.display then acc else acc ++ [a.display]) []
  " ".intercalate (path ++ options ++ (if grouped then [groupForm cmd] else []) ++
    ((cmd.args.filter fun a => a.isPositional && !inGroup a).map ArgSpec.usageForm) ++
    (if cmd.subcommands.isEmpty then [] else ["<COMMAND>"]))

/-- Help is wrapped to lines of this many columns. -/
def helpWidth : Nat := 100

/-- Words filled greedily into lines of at most `width` columns. -/
def wrapWords (width : Nat) (words : List String) : List String :=
  let step := fun (acc : List String × String) (w : String) =>
    let (done, line) := acc
    if line.isEmpty then (done, w)
    else if line.length + 1 + w.length ≤ width then (done, line ++ " " ++ w)
    else (done ++ [line], w)
  let (done, last) := words.foldl step ([], "")
  if last.isEmpty then done else done ++ [last]

/-- One row of a help table: the left part padded to `column`, then the text wrapped to the
help width, later lines indented to the column. -/
def helpRow (column : Nat) (left text : String) : String :=
  let pad (n : Nat) := String.ofList (List.replicate n ' ')
  let lines := wrapWords (helpWidth - column) ((text.splitOn " ").filter (· ≠ ""))
  match lines with
  | [] => left ++ pad (column - left.length) ++ "\n"
  | first :: rest =>
    left ++ pad (column - left.length) ++ first ++ "\n" ++
      String.join (rest.map fun l => pad column ++ l ++ "\n")

/-- The help text of an argument with its environment variable and default. -/
def ArgSpec.helpText (a : ArgSpec) : String :=
  let env := match a.env with
    | some e => ["[env: " ++ e ++ "=]"]
    | none => []
  let default := match a.default with
    | some d => ["[default: " ++ d ++ "]"]
    | none => []
  " ".intercalate ((if a.help.isEmpty then [] else [a.help]) ++ env ++ default)

/-- The options of a command in the order help lists them: its own in the order declared, then
those it inherits, then help and version. -/
def optionRows (cmd : CommandSpec) (inherited : List ArgSpec) (isTop : Bool) :
    List (String × String) :=
  ((cmd.args ++ inherited).filter (!·.isPositional)).map
      (fun a => ("    " ++ a.display, a.helpText)) ++
    [("-h, --help", "Print help")] ++ (if isTop then [("-V, --version", "Print version")] else [])

/-- The help of a command: description, usage, subcommands, positional values, options. -/
def helpText (path : List String) (cmd : CommandSpec) (isTop : Bool) (inherited : List ArgSpec) :
    String :=
  let commands := cmd.subcommands.map (fun c => (c.name, c.about)) ++
    (if cmd.subcommands.isEmpty then []
     else [("help", "Print this message or the help of the given subcommand(s)")])
  let positionals := cmd.args.filter ArgSpec.isPositional
  let block (title : String) (rows : List (String × String)) : String :=
    if rows.isEmpty then ""
    else
      let column := 2 + (rows.map (·.1.length)).foldl max 0 + 2
      "\n" ++ title ++ ":\n" ++ String.join (rows.map fun (l, t) => helpRow column ("  " ++ l) t)
  cmd.about ++ "\n\nUsage: " ++ usageLine path cmd ++ "\n" ++
    block "Commands" commands ++
    block "Arguments" (positionals.map fun a => (a.display, a.helpText)) ++
    block "Options" (optionRows cmd inherited isTop)

/-! ## Reading the words

Words are read one at a time. A value is not checked when it is read but when the argument is
settled: when the next argument starts, or when the words end. A word that fits nowhere is
reported as such, and settling what was pending is then tried only for its effect on what counts
as given; its own fault is dropped. An option waiting for its value takes the next word that is
not a flag, even one naming a subcommand.
-/

/-- What reading a command line gives instead of a command to run. -/
inductive Early where
  /-- Help asked for: printed on standard output. -/
  | help (text : String)
  /-- The version asked for. -/
  | version
  /-- A command that needs a subcommand got no arguments at all: its help, as a fault. -/
  | helpAsFault (text : String)
  | usage (f : UsageFault)
  deriving DecidableEq, Repr

/-- The subcommand path and the values by argument name, in the order given. -/
structure Matched where
  path : List String
  values : List (String × String)
  deriving DecidableEq, Repr

/-- Where reading stands inside one command. -/
structure Position where
  /-- Names from the program down to this command. -/
  path : List String
  cmd : CommandSpec
  /-- Global options of the commands above. -/
  inherited : List ArgSpec
  /-- Whether this is the program itself, the only command that answers `--version`. -/
  isTop : Bool
  /-- Positional values taken so far. -/
  slot : Nat
  /-- After `--`, every word is a value. -/
  valuesOnly : Bool
  /-- The arguments settled for this command, and its group, in the order first given. -/
  given : List Mark
  /-- The argument whose values are read but not yet settled. -/
  pending : Option (ArgSpec × List String)
  /-- Whether the pending argument is an option still waiting for its value. -/
  awaiting : Bool
  /-- The values settled for this command, in order. -/
  values : List (String × String)

namespace Position

/-- The arguments this command accepts. -/
def available (p : Position) : List ArgSpec := p.cmd.args ++ p.inherited

/-- The arguments this command accepts, with its help and version switches. -/
def switches (p : Position) : List ArgSpec :=
  p.available ++ [helpSwitch] ++ (if p.isTop then [versionSwitch] else [])

/-- Whether the command takes positional values, so that a flag-like word could be one. -/
def takesValues (p : Position) : Bool := p.cmd.args.any ArgSpec.isPositional

/-- Whether a word names a subcommand of this command, its help subcommand included. -/
def isSubcommand (p : Position) (w : String) : Bool :=
  !p.cmd.subcommands.isEmpty && (w == "help" || p.cmd.subcommands.any (·.name == w))

/-- Whether an argument has been settled for this command. -/
def has (p : Position) (id : String) : Bool := p.given.contains (.arg id)

/-- The arguments settled for this command, without its group. -/
def givenArgs (p : Position) : List Mark := p.given.filter (· != .group)

/-- The usage line of this command. -/
def usage (p : Position) : String := usageLine p.path p.cmd

/-- The usage line naming what is in use, or the plain one when nothing is. -/
def usageFor (p : Position) (used : List Mark) : String :=
  if used.isEmpty then p.usage else usageNaming p.path p.cmd p.switches used

/-- The help of this command. -/
def helpText (p : Position) : String := Cli.helpText p.path p.cmd p.isTop p.inherited

/-- The fault of a value the argument does not accept, if any. -/
def refusal (a : ArgSpec) (v : String) : Option UsageFault :=
  if a.nonEmpty && v.isEmpty then some (.missingValue a.display)
  else if a.address then
    match Address.parse v with
    | .ok _ => none
    | .error e => some (.invalidValue v a.display (Fault.badAddress e).message)
  else none

/-- Settles an argument with the values read for it, once nothing else is pending. In order: an
option needs a value; help and version end the reading; an argument given twice is a fault (and
its first occurrence no longer counts); the argument then counts as given, with the group of
its command, before its value is checked. Gives the position after, and the fault if any. -/
def settle (p : Position) (a : ArgSpec) (vals : List String) : Position × Option Early :=
  if a.valueName.isSome && vals.isEmpty then (p, some (.usage (.missingValue a.display)))
  else if a.id == "help" then (p, some (.help p.helpText))
  else if a.id == "version" then (p, some .version)
  else if p.has a.id then
    ({ p with given := p.given.erase (.arg a.id), values := p.values.filter (·.1 != a.id) },
      some (.usage (.repeated a.display p.usage)))
  else
    let own := p.cmd.args.any (·.id == a.id)
    let started := { p with
      given := p.given ++ [.arg a.id] ++
        (if own && !p.given.contains .group then [.group] else []) }
    let vals := if a.valueName.isSome then vals else ["true"]
    match vals.findSome? (refusal a) with
    | some f => (started, some (.usage f))
    | none => ({ started with values := started.values ++ vals.map (a.id, ·) }, none)

/-- Settles the pending argument, if any. -/
def resolve (p : Position) : Position × Option Early :=
  match p.pending with
  | none => (p, none)
  | some (a, vals) => settle { p with pending := none, awaiting := false } a vals

/-- Settles the pending argument and then `a` with its values. -/
def settleNow (p : Position) (a : ArgSpec) (vals : List String) : Position × Option Early :=
  match p.resolve with
  | (q, some e) => (q, some e)
  | (q, none) => q.settle a vals

/-- A subcommand, named in the words still to come, that has a flag similar to `name`; the one
named first wins. -/
def elsewhere (p : Position) (name : String) (rest : List String) : Option (String × String) :=
  let found := p.cmd.subcommands.filterMap fun sub =>
    match (similarNames name (sub.args.filterMap (·.long))).getLast?,
        rest.findIdx? (· == sub.name) with
    | some flag, some place => some (place, sub.name, "--" ++ flag)
    | _, _ => none
  let first := found.foldl (fun best x =>
    match best with
    | some b => if x.1 < b.1 then some x else some b
    | none => some x) none
  first.map (·.2)

/-- A long flag this command does not know, reported after settling what was pending. The most
similar flag of the command is suggested and counts as in use; failing that, a subcommand named
later that has a similar flag; failing that, passing the word as a value. -/
def unknownLong (p : Position) (name : String) (rest : List String) : Early :=
  let q := p.resolve.1
  let similar := (similarNames name (q.switches.filterMap (·.long))).getLast?
  let suggested := match similar with
    | some s =>
      (q.switches.find? fun (a : ArgSpec) => a.long == some s).toList.map
        fun (a : ArgSpec) => Mark.arg a.id
    | none => []
  let used := q.givenArgs ++ suggested.filter (!q.givenArgs.contains ·)
  let other := if similar.isSome then none else q.elsewhere name rest
  .usage (.unexpected ("--" ++ name) (similar.map ("--" ++ ·)) other
    (similar.isNone && other.isNone && q.takesValues) (q.usageFor used))

/-- A word that is neither a flag nor a value this command takes. -/
def stray (p : Position) (w : String) : Early :=
  if p.cmd.subcommands.isEmpty then .usage (.unexpected w none none false p.usage)
  else if p.valuesOnly && p.isSubcommand w then .usage (.dashedSubcommand w p.usage)
  else .usage (.unknownSubcommand w
    (similarNames w (p.cmd.subcommands.map (·.name) ++ ["help"])) p.usage)

/-- The end of the words: what is pending is settled, then a needed subcommand or required
argument may be missing. -/
def finish (p : Position) : Except Early Matched :=
  match p.resolve with
  | (_, some e) => .error e
  | (q, none) =>
    if !q.cmd.subcommands.isEmpty then
      if q.given.isEmpty then .error (.helpAsFault q.helpText)
      else .error (.usage (.noSubcommand (" ".intercalate q.path)
        (q.cmd.subcommands.map (·.name) ++ ["help"]) q.usage))
    else
      let missing := q.cmd.args.filter fun a => a.required && !q.has a.id
      if missing.isEmpty then .ok ⟨q.path.drop 1, q.values⟩
      else
        let listed := missing.filter (!·.isPositional) ++ missing.filter ArgSpec.isPositional
        .error (.usage (.missing (listed.map ArgSpec.display)
          (q.usageFor (q.givenArgs ++ missing.map fun (a : ArgSpec) => Mark.arg a.id))))

end Position

/-- The help of the help subcommand of the command at `path`. -/
def helpCommandText (path : List String) : String :=
  "Print this message or the help of the given subcommand(s)\n\nUsage: " ++
    " ".intercalate (path ++ ["help", "[COMMAND]..."]) ++
    "\n\nArguments:\n  [COMMAND]...  Print help for the subcommand(s)\n"

/-- The help of the command reached by following `names` down from `cmd`. -/
def helpFor (path : List String) (cmd : CommandSpec) (isTop : Bool) (inherited : List ArgSpec) :
    List String → Early
  | [] => .help (helpText path cmd isTop inherited)
  | n :: rest =>
    match cmd.subcommands.find? (·.name == n) with
    | some sub => helpFor (path ++ [n]) sub false ((cmd.args ++ inherited).filter (·.global)) rest
    | none =>
      if n = "help" && !cmd.subcommands.isEmpty then
        match rest with
        | [] => .help (helpCommandText path)
        | m :: _ =>
          .usage (.unknownHelpTopic m (" ".intercalate (path ++ ["help", "[COMMAND]..."])))
      else .usage (.unknownSubcommand n [] (usageLine path cmd))

/-- Reads the words of a command line from a position. -/
def scan (p : Position) : List String → Except Early Matched
  | [] => p.finish
  | w :: rest =>
    if !p.valuesOnly && !p.awaiting && p.isSubcommand w then
      if w = "help" then .error (helpFor p.path p.cmd p.isTop p.inherited rest)
      else
        match p.cmd.subcommands.find? (·.name == w) with
        | some sub =>
          let below : Position := {
            path := p.path ++ [w], cmd := sub, inherited := p.available.filter (·.global),
            isTop := false, slot := 0, valuesOnly := false, given := [], pending := none,
            awaiting := false, values := [] }
          match scan below rest with
          | .error e => .error e
          | .ok m =>
            match p.resolve with
            | (_, some e) => .error e
            | (q, none) => .ok ⟨m.path, q.values ++ m.values⟩
        | none => .error (p.stray w)
    else if !p.valuesOnly && w = "--" then scan { p with valuesOnly := true } rest
    else if !p.valuesOnly && w.startsWith "--" then
      let body := (w.drop 2).toString
      let name := (body.splitOn "=").headD ""
      let inline :=
        if body.contains '=' then some ((body.drop (name.length + 1)).toString) else none
      match p.switches.find? (·.long == some name) with
      | none => .error (p.unknownLong name rest)
      | some a =>
        match a.valueName.isSome, inline with
        | true, some v =>
          match p.settleNow a [v] with
          | (_, some e) => .error e
          | (q, none) => scan q rest
        | true, none =>
          match p.resolve with
          | (_, some e) => .error e
          | (q, none) => scan { q with pending := some (a, []), awaiting := true } rest
        | false, some v =>
          .error (.usage (.unwantedValue v a.display (p.usageFor (p.given ++ [.arg a.id]))))
        | false, none =>
          match p.settleNow a [] with
          | (_, some e) => .error e
          | (q, none) => scan q rest
    else if !p.valuesOnly && w.startsWith "-" && w ≠ "-" then
      let c := (w.toList.drop 1).headD ' '
      let known := if c = 'h' then some helpSwitch
        else if c = 'V' && p.isTop then some versionSwitch else none
      match known with
      | some a =>
        match p.settleNow a [] with
        | (_, some e) => .error e
        | (q, none) => scan q rest
      | none => .error (.usage (.unexpected ("-" ++ c.toString) none none p.takesValues p.usage))
    else if !p.valuesOnly && p.awaiting then
      scan { p with pending := p.pending.map (fun (a, vs) => (a, vs ++ [w])), awaiting := false }
        rest
    else
      let positionals := p.cmd.args.filter ArgSpec.isPositional
      match positionals[p.slot]? with
      | some a =>
        match p.resolve with
        | (_, some e) => .error e
        | (q, none) =>
          scan { q with pending := some (a, [w]), awaiting := false, slot := p.slot + 1 } rest
      | none => .error (p.resolve.1.stray w)
termination_by words => words.length

/-- Reads a command line against a program description. -/
def read (program : CommandSpec) (words : List String) : Except Early Matched :=
  scan {
    path := [program.name], cmd := program, inherited := [], isTop := true, slot := 0,
    valuesOnly := false, given := [], pending := none, awaiting := false, values := [] } words

end SlabLedger.Cli
