import RecordBoard.Board
import RecordBoard.Launch

/-!
# The program

Asks the environment and the configuration file for what the command line leaves open, and says what
board that comes to, or why it comes to none. Nothing is decided here: `Launch.prepare` settles the
settings, and `Board.ofSettings` makes the board.
-/

namespace RecordBoard.Program

/-- The names that options have in the environment, with their values. -/
def environment : IO (List (String × String)) :=
  CommandLine.Opt.all.filterMapM fun o => do
    return (← IO.getEnv o.inEnvironment).map fun value => (o.inEnvironment, value)

/-- The configuration file that was named, if it can be read. -/
def configurationFile (given : Except CommandLine.Refusal CommandLine.Given) : IO Launch.Files :=
  match given.toOption.bind (·.config) with
  | none => return []
  | some path =>
    try return [(path, (← IO.FS.readBinFile path).toList)]
    catch _ => return []

/-- What a board is, in one line. -/
def summary (board : Board) (s : Settings) : String :=
  let table := if s.inMemory then "memory" else s.databasePath
  s!"{board.serviceName} at {s.listen.text}, table in {table}"

end RecordBoard.Program

open RecordBoard in
/-- Tells what board the words, the environment and the configuration file come to. -/
def main (words : List String) : IO UInt32 := do
  let line := "recordboard" :: words
  let env ← Program.environment
  let files ← Program.configurationFile (CommandLine.parse env line)
  match Launch.prepare env files line with
  | .error fault =>
    IO.eprintln fault.message
    return fault.exitCode
  | .ok (settings, _) =>
    match Board.ofSettings settings with
    | .error refusal =>
      IO.eprintln refusal.message
      return 1
    | .ok board =>
      IO.println (Program.summary board settings)
      return 0
