import RecordBoard.Net.SocketAddress

/-!
# The command line

The program has one command, `serve`, with four options that take a value and a switch; another
switch, for the form of the log, may stand on either side of the command. An option is written
`--name value` or `--name=value`, and a value that begins with a dash only in the second way. What
is not given on the command line may come from the environment.

A value is looked at when the next option comes, or at the end. So an option nobody knows is refused
in front of a bad value that stands before it, while one that is known lets the bad value be found
first.

## Main definitions

* `CommandLine.Opt`, `CommandLine.Given` — the options, and the values that were given.
* `CommandLine.parse` — what a list of words and an environment ask for.
-/

namespace RecordBoard.CommandLine

/-- An option that takes a value. -/
inductive Opt where
  /-- The configuration file. -/
  | config
  /-- Where requests come in. -/
  | listen
  /-- The directory of the table. -/
  | dataDir
  /-- The shared secret. -/
  | apiKey
deriving DecidableEq

namespace Opt

/-- The options, in the order in which the environment is asked for them. -/
def all : List Opt := [.config, .listen, .dataDir, .apiKey]

/-- The name of an option on the command line. -/
def name : Opt → String
  | .config => "config"
  | .listen => "listen"
  | .dataDir => "data-dir"
  | .apiKey => "api-key"

/-- The name of an option in the environment. -/
def inEnvironment : Opt → String
  | .config => "STATEBOARD_CONFIG"
  | .listen => "STATEBOARD_LISTEN"
  | .dataDir => "STATEBOARD_DATA_DIR"
  | .apiKey => "STATEBOARD_API_KEY"

/-- The option with a given name. -/
def ofName? (name : String) : Option Opt := all.find? fun o => o.name == name

end Opt

/-- What was given. -/
structure Given where
  /-- The configuration file. -/
  config : Option String := none
  /-- Where requests come in. -/
  listen : Option SocketAddress := none
  /-- The directory of the table. -/
  dataDir : Option String := none
  /-- The shared secret. -/
  apiKey : Option String := none
  /-- Whether the table is kept in memory only. -/
  inMemory : Bool := false
  /-- Whether the log is written as JSON. -/
  logJson : Bool := false
deriving DecidableEq

/-- Why nothing is served. -/
inductive Refusal where
  /-- Help was asked for. -/
  | help
  /-- The version was asked for. -/
  | version
  /-- Nothing was asked for. -/
  | nothing
  /-- There is a switch but no command. -/
  | noCommand
  /-- There is no such command. -/
  | unknownCommand
  /-- There is no such option, or a word stands where none may. -/
  | unknownOption
  /-- An option has no value, or a path is empty. -/
  | noValue
  /-- A value is not what the option asks for. -/
  | badValue
  /-- An option is given twice. -/
  | repeated
  /-- A switch is given a value. -/
  | valueNotTaken
deriving DecidableEq

/-- The wording of a refusal. -/
def Refusal.message : Refusal → String
  | .help =>
    "serve [--config FILE] [--listen ADDRESS] [--data-dir DIRECTORY] [--api-key SECRET] " ++
      "[--in-memory] [--log-json]"
  | .version => "0.1.0"
  | .nothing => "nothing was asked for; try --help"
  | .noCommand => "there is no command; try --help"
  | .unknownCommand => "there is no such command"
  | .unknownOption => "there is no such option, or a word too many"
  | .noValue => "an option has no value"
  | .badValue => "a value is not what its option asks for"
  | .repeated => "an option is given twice"
  | .valueNotTaken => "a switch takes no value"

namespace Given

/-- Whether an option was given. -/
def has (g : Given) : Opt → Bool
  | .config => g.config.isSome
  | .listen => g.listen.isSome
  | .dataDir => g.dataDir.isSome
  | .apiKey => g.apiKey.isSome

/-- A path, which is not empty. -/
def path (value : String) : Except Refusal String :=
  if value = "" then .error .noValue else .ok value

/-- What was given with one more option. -/
def assign (g : Given) (o : Opt) (value : String) : Except Refusal Given :=
  if g.has o then .error .repeated
  else match o with
    | .config => (path value).map fun v => { g with config := some v }
    | .listen =>
      match SocketAddress.ofText? value with
      | some v => .ok { g with listen := some v }
      | none => .error .badValue
    | .dataDir => (path value).map fun v => { g with dataDir := some v }
    | .apiKey => .ok { g with apiKey := some value }

end Given

/-! ## Words -/

/-- A word of the command line. -/
inductive Word where
  /-- Two dashes alone: no option follows. -/
  | divider
  /-- A name behind two dashes, possibly with a value. -/
  | long (name : String) (value : Option String)
  /-- Letters behind one dash. -/
  | short (letters : List Char)
  /-- Anything else. -/
  | plain (s : String)

/-- What kind of word a text is. -/
def Word.ofText (s : String) : Word :=
  match s.toList with
  | ['-', '-'] => .divider
  | '-' :: '-' :: rest =>
    let name := String.ofList (rest.takeWhile (· != '='))
    match rest.dropWhile (· != '=') with
    | [] => .long name none
    | _ :: value => .long name (some (String.ofList value))
  | '-' :: c :: rest => .short (c :: rest)
  | _ => .plain s

/-- A switch is given without a value. -/
def bare (value : Option String) : Except Refusal Unit :=
  if value.isSome then .error .valueNotTaken else .ok ()

/-! ## The command -/

/-- The option whose value is not settled yet. -/
inductive Pending where
  /-- There is none. -/
  | none
  /-- Its value must come next. -/
  | awaited (o : Opt)
  /-- Its value has come, and was not looked at. -/
  | held (o : Opt) (value : String)

/-- What was given once the pending option is settled. -/
def settle (g : Given) : Pending → Except Refusal Given
  | .none => .ok g
  | .awaited _ => .error .noValue
  | .held o value => g.assign o value

/-- What the words behind the command give, on top of what they gave so far. -/
def serveWords (g : Given) (pending : Pending) : List String → Except Refusal Given
  | [] => settle g pending
  | word :: rest =>
    match Word.ofText word with
    | .divider => if rest = [] then settle g pending else .error .unknownOption
    | .plain s =>
      match pending with
      | .awaited o => serveWords g (.held o s) rest
      | _ => .error .unknownOption
    | .short letters =>
      if letters.head? = some 'h' then do
        let _ ← settle g pending
        .error .help
      else .error .unknownOption
    | .long name value =>
      match Opt.ofName? name, value with
      | some o, some v => do
        let g ← settle g pending
        serveWords (← g.assign o v) .none rest
      | some o, none => do
        let g ← settle g pending
        serveWords g (.awaited o) rest
      | none, value =>
        if name = "in-memory" then do
          bare value
          let g ← settle g pending
          if g.inMemory then .error .repeated else serveWords { g with inMemory := true } .none rest
        else if name = "log-json" then do
          bare value
          let g ← settle g pending
          if g.logJson then .error .repeated else serveWords { g with logJson := true } .none rest
        else if name = "help" then do
          bare value
          let _ ← settle g pending
          .error .help
        else .error .unknownOption

/--
What was given, with what an environment says about an option that was not. An environment is a list
of names with values, and the first of a name counts.
-/
def ask (env : List (String × String)) (g : Given) (o : Opt) : Except Refusal Given :=
  match if g.has o then none else env.find? fun e => e.1 == o.inEnvironment with
  | some e => g.assign o e.2
  | none => .ok g

/-- What was given, with what the environment adds. -/
def withEnvironment (env : List (String × String)) (g : Given) : Except Refusal Given :=
  Opt.all.foldlM (ask env) g

/-! ## The whole line -/

/-- The names of commands. -/
def commands : List String := ["serve", "help"]

/-- Asking for help about a command, or about help. -/
def helpWords : List String → Refusal
  | [] => .help
  | [command] => if command ∈ commands then .help else .unknownCommand
  | _ => .unknownCommand

/-- The refusal if no command comes. -/
def withoutCommand (logJson : Bool) : Refusal := if logJson then .noCommand else .nothing

/-- What the words behind the name of the program ask for. -/
def programWords (env : List (String × String)) (logJson : Bool) :
    List String → Except Refusal Given
  | [] => .error (withoutCommand logJson)
  | word :: rest =>
    if word = "serve" then do
      let g ← withEnvironment env (← serveWords {} .none rest)
      return { g with logJson := g.logJson || logJson }
    else if word = "help" then .error (helpWords rest)
    else match Word.ofText word with
      | .divider =>
        match rest with
        | [] => .error (withoutCommand logJson)
        | next :: _ => .error (if next ∈ commands then .unknownOption else .unknownCommand)
      | .plain _ => .error .unknownCommand
      | .short letters =>
        .error (if letters.head? = some 'h' then .help
          else if letters.head? = some 'V' then .version else .unknownOption)
      | .long name value => do
        if name = "log-json" then
          bare value
          if logJson then .error .repeated else programWords env true rest
        else if name = "help" then
          bare value
          .error .help
        else if name = "version" then
          bare value
          .error .version
        else .error .unknownOption

/-- What a command line asks for in an environment. The first word is the name of the program. -/
def parse (env : List (String × String)) (words : List String) : Except Refusal Given :=
  programWords env false (words.drop 1)

end RecordBoard.CommandLine
