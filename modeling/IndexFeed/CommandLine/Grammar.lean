import IndexFeed.Decimal.Integer
import IndexFeed.Protocol

/-!
The vocabulary of the command line: subcommands, switches and settings with the spellings they have,
and which of them a subcommand takes.
-/

namespace IndexFeed.CommandLine

inductive Switch where
  | verbose
  | noWrap
  | feedLog
  | help
  | version
  deriving Repr, DecidableEq

inductive Setting where
  | output
  | dataSource
  | feedType
  | maxFeedSize
  | maxDocumentSize
  | contentEncodings
  | contentUrlPrefix
  | format
  deriving Repr, DecidableEq

def Switch.long : Switch → String
  | verbose => "verbose"
  | noWrap => "no-wrap"
  | feedLog => "feed-log"
  | help => "help"
  | version => "version"

def Switch.short? : Switch → Option Char
  | verbose => some 'v'
  | help => some 'h'
  | version => some 'V'
  | noWrap | feedLog => none

def Setting.long : Setting → String
  | output => "output"
  | dataSource => "data-source"
  | feedType => "feed-type"
  | maxFeedSize => "max-feed-size"
  | maxDocumentSize => "max-document-size"
  | contentEncodings => "content-encodings"
  | contentUrlPrefix => "content-url-prefix"
  | format => "format"

def Setting.short? : Setting → Option Char
  | output => some 'o'
  | dataSource => some 'd'
  | feedType => some 't'
  | format => some 'f'
  | maxFeedSize | maxDocumentSize | contentEncodings | contentUrlPrefix => none

/-- Whether a text can be the value of a setting. A path must not be empty. -/
def Setting.admits (value : String) : Setting → Bool
  | output => value != ""
  | feedType => (FeedType.find? value).isSome
  | maxFeedSize | maxDocumentSize => (Decimal.readUInt64? value).isSome
  | dataSource | contentEncodings | contentUrlPrefix | format => true

inductive Subcommand where
  | encode
  | inspect
  | version
  | help
  deriving Repr, DecidableEq

def Subcommand.word : Subcommand → String
  | encode => "encode"
  | inspect => "inspect"
  | version => "version"
  | help => "help"

def Subcommand.find? (word : String) : Option Subcommand :=
  [encode, inspect, version, help].find? fun s => s.word == word

structure Grammar where
  switches : List Switch
  settings : List Setting := []
  takesPath : Bool := false
  deriving Repr, DecidableEq

namespace Grammar

def top : Grammar where
  switches := [.verbose, .help, .version]

def behind : Subcommand → Grammar
  | .encode =>
    { switches := [.verbose, .noWrap, .feedLog, .help]
      settings := [.output, .dataSource, .feedType, .maxFeedSize, .maxDocumentSize,
        .contentEncodings, .contentUrlPrefix, .format]
      takesPath := true }
  | .inspect => { switches := [.verbose, .help], settings := [.format], takesPath := true }
  | .version | .help => { switches := [.verbose, .help] }

def switchOfLong? (g : Grammar) (name : String) : Option Switch :=
  g.switches.find? fun s => s.long == name

def settingOfLong? (g : Grammar) (name : String) : Option Setting :=
  g.settings.find? fun s => s.long == name

def switchOfShort? (g : Grammar) (c : Char) : Option Switch :=
  g.switches.find? fun s => s.short? == some c

def settingOfShort? (g : Grammar) (c : Char) : Option Setting :=
  g.settings.find? fun s => s.short? == some c

end Grammar

end IndexFeed.CommandLine
