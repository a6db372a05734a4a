import EventBindings.CommandLine.Run

namespace EventBindings.CommandLine

/-!
The program `firc`.
-/

def readContents (path : String) : IO (Option ByteArray) :=
  tryCatch (some <$> IO.FS.readBinFile path) fun _ => pure none

def report (outcome : Outcome) : IO UInt32 := do
  IO.print outcome.output
  match outcome.error with
  | none => pure ()
  | some error =>
      IO.eprintln s!"Error: {error.headline}"
      match error.cause? with
      | none => pure ()
      | some cause => IO.eprintln s!"\nCaused by:\n    {cause}"
  return outcome.status.toUInt32

end EventBindings.CommandLine

open EventBindings.CommandLine in
def main (arguments : List String) : IO UInt32 := do
  match readArguments arguments with
  | .ok invocation =>
      let contents ←
        match invocation.actionsPath with
        | none => pure none
        | some path => readContents path
      report (invocation.outcome contents)
  | .error exit =>
      if exit = .usageError then
        IO.eprint s!"error: the arguments were not understood\n\n{helpText}"
      report exit.outcome
