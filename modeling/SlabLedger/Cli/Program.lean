import SlabLedger.Cli.Args
/-!
# The program's commands

The command line of the decoder: options shared by every command (base-64 input, a
configuration file, logging), and the commands `book`, `settlement`, `chain`, `market`,
`market-state`, `order-id encode|decode` and `version`. Read words become an invocation: the
shared options and one command with its values.
-/

namespace SlabLedger.Cli

/-- The name the program goes by. -/
def programName : String := "orderslab"

/-- The version the program reports. -/
def programVersion : String := "0.1.0"

/-- Options accepted by every command. -/
def sharedArgs : List ArgSpec := [
  { id := "base64", long := some "base64", global := true,
    help := "Input files hold base64 text instead of raw bytes" },
  { id := "config", long := some "config", valueName := some "CONFIG", global := true,
    env := some "ORDERSLAB_CONFIG", nonEmpty := true, help := "Decoder configuration file (TOML)" },
  { id := "log_level", long := some "log-level", valueName := some "LOG_LEVEL", global := true,
    env := some "RUST_LOG", default := some "warn",
    help := "Log level (trace, debug, info, warn, error)" },
  { id := "log_dir", long := some "log-dir", valueName := some "LOG_DIR", global := true,
    env := some "ORDERSLAB_LOG_DIR", nonEmpty := true,
    help := "Also write daily rolling logs to this directory" },
  { id := "no_color", long := some "no-color", global := true, help := "Disable colored output" },
  { id := "log_json", long := some "log-json", global := true,
    help := "Emit stderr logs as JSON lines" }]

/-- The account dump a command reads. -/
def fileArg : ArgSpec :=
  { id := "file", valueName := some "FILE", required := true, nonEmpty := true,
    help := "Account dump" }

/-- The owner filter of the settlement commands. -/
def ownerArg : ArgSpec :=
  { id := "owner", long := some "owner", valueName := some "OWNER", address := true,
    help := "Only entries owned by this address (base58)" }

/-- The whole command line. -/
def program : CommandSpec := {
  name := programName
  about := "Decode slab order book and settlement log accounts"
  args := sharedArgs
  subcommands := [
    { name := "book", about := "Decode an order book account", args := [fileArg,
        { id := "sorted", long := some "sorted", help := "Sort bids and asks best price first" },
        { id := "raw", long := some "raw",
          help := "Print raw collections instead of joined orders" }] },
    { name := "settlement", about := "Decode one settlement log account",
      args := [fileArg, ownerArg] },
    { name := "chain", about := "Walk a settlement log chain through a directory of dumps",
      args := [
        { id := "dir", long := some "dir", valueName := some "DIR", required := true,
          nonEmpty := true,
          help := "Directory holding one dump per account, named by base58 address" },
        { id := "first", valueName := some "FIRST", required := true, address := true,
          help := "First settlement log address" },
        ownerArg] },
    { name := "market", about := "Decode a market account", args := [fileArg] },
    { name := "market-state", about := "Decode a market state account", args := [fileArg] },
    { name := "order-id", about := "Convert order ids", subcommands := [
        { name := "encode",
          about := "Encode a 16-byte key given as 32 hex digits in account byte order",
          args := [{ id := "key", valueName := some "KEY", required := true }] },
        { name := "decode", about := "Decode an order id to its key as hex",
          args := [{ id := "id", valueName := some "ID", required := true }] }] },
    { name := "version", about := "Show version" }] }

/-- A command of the program with its values. -/
inductive Command where
  | book (file : String) (sorted raw : Bool)
  | settlement (file : String) (owner : Option Address)
  | chain (dir : String) (first : Address) (owner : Option Address)
  | market (file : String)
  | marketState (file : String)
  | encodeOrderId (key : String)
  | decodeOrderId (id : String)
  | version
  deriving DecidableEq, Repr

/-- The options shared by every command. -/
structure Shared where
  base64 : Bool
  config : Option String
  /-- The directory logs are written to, made if missing. -/
  logDir : Option String
  deriving DecidableEq, Repr

/-- What to run: the shared options and a command. -/
structure Invocation where
  shared : Shared
  command : Command
  deriving DecidableEq, Repr

namespace Matched

/-- The value given for an argument; a global option given again further down the command
path takes the later value. -/
def get? (m : Matched) (id : String) : Option String :=
  (m.values.reverse.find? (·.1 == id)).map (·.2)

/-- Whether a switch was given. -/
def flag (m : Matched) (id : String) : Bool := (m.get? id).isSome

/-- The address given for an argument; values were checked when read. -/
def address? (m : Matched) (id : String) : Option Address :=
  (m.get? id).bind fun s => (Address.parse s).toOption

/-- The invocation the words name, if they name a command. -/
def invocation? (m : Matched) : Option Invocation :=
  let shared : Shared :=
    { base64 := m.flag "base64", config := m.get? "config", logDir := m.get? "log_dir" }
  let command : Option Command := match m.path with
    | ["book"] => (m.get? "file").map fun f => .book f (m.flag "sorted") (m.flag "raw")
    | ["settlement"] => (m.get? "file").map fun f => .settlement f (m.address? "owner")
    | ["chain"] => do
      let dir ← m.get? "dir"
      let first ← m.address? "first"
      pure (.chain dir first (m.address? "owner"))
    | ["market"] => (m.get? "file").map .market
    | ["market-state"] => (m.get? "file").map .marketState
    | ["order-id", "encode"] => (m.get? "key").map .encodeOrderId
    | ["order-id", "decode"] => (m.get? "id").map .decodeOrderId
    | ["version"] => some .version
    | _ => none
  command.map fun c => ⟨shared, c⟩

end Matched

end SlabLedger.Cli
