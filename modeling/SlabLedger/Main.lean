import SlabLedger.Cli.Run
/-!
# The command-line program

Runs the decoder's command line. The run itself is pure; this layer only looks at the paths the
run asks for, runs it again with what it found, and prints the outcome.
-/

open SlabLedger SlabLedger.Cli

/-- The system's error number and its wording, for the errors that carry them. -/
def systemError? : IO.Error → Option (UInt32 × String)
  | .alreadyExists _ code details | .otherError code details | .resourceBusy code details
  | .resourceVanished code details | .unsupportedOperation code details
  | .hardwareFault code details | .unsatisfiedConstraints code details
  | .illegalOperation code details | .protocolError code details | .timeExpired code details
  | .interrupted _ code details | .noFileOrDirectory _ code details
  | .invalidArgument _ code details | .permissionDenied _ code details
  | .resourceExhausted _ code details | .inappropriateType _ code details
  | .noSuchThing _ code details => some (code, details)
  | _ => none

/-- What is at a path on disk. -/
def lookAt (path : String) : IO FileState := do
  try
    let bytes ← IO.FS.readBinFile path
    pure (.contents bytes.toList)
  catch e =>
    match systemError? e with
    | some (2, _) => pure .absent
    | some (20, _) => pure .blocked
    | some (21, _) => pure .directory
    | some (36, _) => pure .tooLong
    | some (40, _) => pure .loop
    | some (code, details) => pure (.unreadable (details ++ " (os error " ++ toString code ++ ")"))
    | none => pure (.unreadable (toString e))

/-- Runs the program, looking at each path it asks for, until it ends. -/
partial def settle (env : List (String × String)) (words : List String)
    (known : List (String × FileState)) : IO Outcome := do
  let view : FileView := fun p => (known.find? (·.1 == p)).map (·.2)
  match run view (fun name => (env.find? (·.1 == name)).map (·.2)) words with
  | .done o => pure o
  | .needs p => settle env words ((p, ← lookAt p) :: known)

/-- Runs the command line given, with the configuration file the environment names. -/
def main (words : List String) : IO UInt32 := do
  let config ← IO.getEnv "ORDERSLAB_CONFIG"
  let env := match config with
    | some c => [("ORDERSLAB_CONFIG", c)]
    | none => []
  let o ← settle env words []
  let out ← IO.getStdout
  out.putStr o.stdout
  out.flush
  let err ← IO.getStderr
  err.putStr o.stderr
  err.flush
  pure o.status.toUInt32
