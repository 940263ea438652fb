import RecordBoard.CommandLine
import RecordBoard.Settings.File

/-!
# Starting

What is served is settled in layers. The configuration file is read if one was named; the command
line, which the environment has filled up, goes over it; and the result is checked. Then the table
is opened: in memory, or in a file in a directory that is made if it is not there.

Files are a list of paths with contents. A path is taken apart at its slashes, and what is read and
what is in the way follows from the list.

## Main definitions

* `Launch.overridden` — settings with what was given over them.
* `Launch.settings` — the settings that a command line asks for.
* `Launch.opens` — whether the table can be opened.
-/

namespace RecordBoard.Launch

open CommandLine (Given)

/-- Why nothing is served. -/
inductive Fault where
  /-- The command line asks for nothing that is served. -/
  | commandLine (r : CommandLine.Refusal)
  /-- There are no usable settings. -/
  | settings (f : Settings.Fault)
  /-- The table cannot be opened. -/
  | store
deriving DecidableEq

/-- The wording of a fault. -/
def Fault.message : Fault → String
  | .commandLine r => r.message
  | .settings .unreadable => "the configuration file cannot be read"
  | .settings .malformed => "the configuration file does not spell settings"
  | .settings (.refused r) => r.message
  | .store => "the table cannot be opened"

/-- The number that the program ends with: `0` where it was only asked about itself, and `2` where
it was asked wrongly. -/
def Fault.exitCode : Fault → UInt32
  | .commandLine .help | .commandLine .version => 0
  | .commandLine _ => 2
  | .settings _ | .store => 1

/-- Settings with what was given over them. -/
def overridden (g : Given) (s : Settings) : Settings :=
  { s with
    listen := g.listen.getD s.listen
    dataDir := g.dataDir.getD s.dataDir
    apiKey := g.apiKey <|> s.apiKey
    inMemory := g.inMemory || s.inMemory }

/-! ## Files -/

/-- Paths with contents. -/
abbrev Files := List (String × Bytes)

/-- The steps of a path. One dot stays where it is, and two go back. -/
def steps (path : String) : List String :=
  ((path.toList.splitOn '/').map String.ofList).foldl
    (fun taken step =>
      if step = "" ∨ step = "." then taken
      else if step = ".." then taken.dropLast
      else taken ++ [step]) []

/-- The contents of the file at a path. -/
def Files.content? (files : Files) (path : List String) : Option Bytes :=
  (files.find? fun e => steps e.1 == path).map (·.2)

/-- Whether a path is a directory because there is a file somewhere in it. -/
def Files.isDirectory (files : Files) (path : List String) : Bool :=
  files.any fun e => path.isPrefixOf (steps e.1) && path != steps e.1

/-- Whether a directory is there or can be made: no file stands in the way. -/
def Files.admitsDirectory (files : Files) (path : List String) : Bool :=
  files.all fun e => !(steps e.1).isPrefixOf path

/-! ## Settings -/

/-- The settings in the file that was named, or those from the start. -/
def fromFile (files : Files) (g : Given) : Except Settings.Fault Settings :=
  match g.config with
  | none => .ok {}
  | some path => Settings.ofFile (files.content? (steps path))

/-- The settings that are given in a file and besides. -/
def settings (files : Files) (g : Given) : Except Settings.Fault Settings := do
  let s := overridden g (← fromFile files g)
  (s.check).mapError .refused
  return s

/-! ## The table -/

/-- Whether the table can be opened. An empty file is as good as none, and any other is no table. -/
def opens (files : Files) (s : Settings) : Bool :=
  let path := steps s.databasePath
  s.inMemory ||
    (files.admitsDirectory (steps s.dataDir) && !files.isDirectory path &&
      ((files.content? path).all (· == [])))

/-- Whether there is a file for the table once it is open. -/
def leavesFile (files : Files) (s : Settings) : Bool :=
  !s.inMemory || (files.content? (steps s.databasePath)).isSome

/-- The settings that a command line asks for, and whether the log is written as JSON. -/
def prepare (env : List (String × String)) (files : Files) (words : List String) :
    Except Fault (Settings × Bool) := do
  let g ← (CommandLine.parse env words).mapError .commandLine
  let s ← (settings files g).mapError .settings
  return (s, g.logJson)

/-- The same with the table opened. -/
def start (env : List (String × String)) (files : Files) (words : List String) :
    Except Fault (Settings × Bool) := do
  let (s, logJson) ← prepare env files words
  if opens files s then return (s, logJson) else .error .store

end RecordBoard.Launch
