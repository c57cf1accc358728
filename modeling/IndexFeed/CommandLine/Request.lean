import IndexFeed.CommandLine.Help
import IndexFeed.Feed.Options

/-!
From arguments to a request. Arguments are read from left to right and judged as they are read: a
request for help or for the version counts at once, and so does the first argument that does not
fit. An option may be given once at each place. Behind two hyphens everything is a path.
-/

namespace IndexFeed.CommandLine

inductive Stop where
  | shown (text : String)
  | misuse
  deriving Repr, DecidableEq

structure Given where
  switches : List Switch := []
  settings : List (Setting × String) := []
  path : Option String := none
  deriving Repr, DecidableEq

namespace Given

def has (g : Given) (s : Switch) : Bool := g.switches.contains s

def setting? (g : Given) (s : Setting) : Option String := g.settings.lookup s

def withSwitch (place : Option Subcommand) (g : Given) (s : Switch) : Except Stop Given :=
  match s with
  | .help => .error (.shown (helpOf place))
  | .version => .error (.shown ("docfeed " ++ versionNumber ++ "\n"))
  | s => if g.has s then .error .misuse else .ok { g with switches := s :: g.switches }

def withSetting (g : Given) (s : Setting) (value : String) : Except Stop Given :=
  if (g.setting? s).isSome || !s.admits value then .error .misuse
  else .ok { g with settings := (s, value) :: g.settings }

def withPath (g : Given) (grammar : Grammar) (path : String) : Except Stop Given :=
  if !grammar.takesPath || g.path.isSome || path = "" then .error .misuse
  else .ok { g with path := some path }

end Given

/-- What one argument comes to: something given, or a setting that waits for its value. -/
inductive Effect where
  | given (g : Given)
  | waiting (g : Given) (s : Setting)

/-- Reads the name behind two hyphens, with a value behind an equals sign if there is one. -/
def readLong (place : Option Subcommand) (grammar : Grammar) (g : Given) (cs : List Char) :
    Except Stop Effect :=
  let name := String.ofList (cs.takeWhile (· != '='))
  match grammar.settingOfLong? name, cs.dropWhile (· != '=') with
  | some s, _ :: value => (g.withSetting s (String.ofList value)).map .given
  | some s, [] => .ok (.waiting g s)
  | none, behind =>
    match grammar.switchOfLong? name with
    | some s => if behind.isEmpty then (g.withSwitch place s).map .given else .error .misuse
    | none => .error .misuse

/-- Reads the letters behind one hyphen. A setting takes what follows its letter as its value, with
or without an equals sign before it. -/
def readShort (place : Option Subcommand) (grammar : Grammar) (g : Given) :
    List Char → Except Stop Effect
  | [] => .ok (.given g)
  | c :: rest =>
    match grammar.switchOfShort? c, grammar.settingOfShort? c with
    | some s, _ => do readShort place grammar (← g.withSwitch place s) rest
    | none, some s =>
      match rest with
      | [] => .ok (.waiting g s)
      | '=' :: value => (g.withSetting s (String.ofList value)).map .given
      | value => (g.withSetting s (String.ofList value)).map .given
    | none, none => .error .misuse

/-- Whether an argument is read as options. A single hyphen is not. -/
def isOption (arg : List Char) : Bool :=
  match arg with
  | '-' :: _ :: _ => true
  | _ => false

def readOption (place : Option Subcommand) (grammar : Grammar) (g : Given) (arg : List Char) :
    Except Stop Effect :=
  match arg with
  | '-' :: '-' :: name => readLong place grammar g name
  | _ => readShort place grammar g (arg.drop 1)

def readBehind (sub : Subcommand) (g : Given) : List String → Except Stop Given
  | [] => .ok g
  | arg :: rest =>
    let grammar := Grammar.behind sub
    if arg = "--" then rest.foldlM (fun g path => g.withPath grammar path) g
    else if isOption arg.toList then do
      match ← readOption (some sub) grammar g arg.toList with
      | .given g => readBehind sub g rest
      | .waiting g s =>
        match rest with
        | [] => .error .misuse
        | value :: rest =>
          if value = "--" || isOption value.toList then .error .misuse
          else readBehind sub (← g.withSetting s value) rest
    else do readBehind sub (← g.withPath grammar arg) rest

structure EncodeRequest where
  input : String
  output : String
  options : FeedOptions
  format : String
  verbose : Bool

inductive Request where
  | encode (r : EncodeRequest)
  | inspect (path format : String)
  | version

def defaultFormat : String := "text"

def feedOptions (g : Given) (dataSource : String) : FeedOptions :=
  let size := fun s (default : UInt64) =>
    ((g.setting? s).bind Decimal.readUInt64?).getD default
  FeedOptions.accepting
    { dataSource
      feedType := ((g.setting? .feedType).bind FeedType.find?).getD .content
      maxFeedSize := size .maxFeedSize standardFeedSize
      maxDocumentSize := size .maxDocumentSize standardDocumentSize
      contentBase := g.setting? .contentUrlPrefix
      wrapsLines := !g.has .noWrap
      keepsLog := g.has .feedLog }
    ((g.setting? .contentEncodings).getD ContentEncoding.base64Binary.wire)

/-- The request that a subcommand makes with what it was given. Details may also be asked for in
front of the subcommand. -/
def Request.ofGiven (sub : Subcommand) (verbose : Bool) (g : Given) : Except Stop Request :=
  match sub, g.path, g.setting? .dataSource with
  | .encode, some input, some dataSource =>
    .ok (.encode
      { input
        output := (g.setting? .output).getD "."
        options := feedOptions g dataSource
        format := (g.setting? .format).getD defaultFormat
        verbose := verbose || g.has .verbose })
  | .inspect, some path, _ => .ok (.inspect path ((g.setting? .format).getD defaultFormat))
  | .version, _, _ => .ok .version
  | _, _, _ => .error .misuse

def helpFor (place : Option Subcommand) : List String → Stop
  | [] => .shown (helpOf place)
  | word :: rest =>
    match place, Subcommand.find? word with
    | none, some sub => helpFor (some sub) rest
    | _, _ => .misuse

def readArguments (g : Given) : List String → Except Stop Request
  | [] => .error .misuse
  | arg :: rest =>
    match Subcommand.find? arg with
    | some .help => .error (helpFor none rest)
    | some sub => do Request.ofGiven sub (g.has .verbose) (← readBehind sub {} rest)
    | none =>
      if arg ≠ "--" ∧ isOption arg.toList then do
        match ← readOption none Grammar.top g arg.toList with
        | .given g => readArguments g rest
        | .waiting _ _ => .error .misuse
      else .error .misuse

def Request.read (args : List String) : Except Stop Request :=
  readArguments {} args

end IndexFeed.CommandLine
