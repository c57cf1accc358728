import IndexFeed.CommandLine.Grammar

/-!
The help texts of the command line.
-/

namespace IndexFeed.CommandLine

def versionNumber : String := "0.4.0"

def topHelp : String :=
  "CLI tools for docfeed

Usage: docfeed [OPTIONS] <COMMAND>

Commands:
  encode   Encode a JSON batch of documents into feed files
  inspect  Display statistics for a feed file
  version  Show version information
  help     Print this message or the help of the given subcommand(s)

Options:
  -v, --verbose  Enable verbose output
  -h, --help     Print help
  -V, --version  Print version
"

def encodeHelp : String :=
  "Encode a JSON batch of documents into feed files

Usage: docfeed encode [OPTIONS] --data-source <DATA_SOURCE> <INPUT>

Arguments:
  <INPUT>  JSON file holding an array of documents

Options:
  -o, --output <OUTPUT>
          Directory the feed files are written to [default: .]
  -v, --verbose
          Enable verbose output
  -d, --data-source <DATA_SOURCE>
          Data source named in the feed header
  -t, --feed-type <FEED_TYPE>
          Feed type (content, web, contenturl, acl) [default: content]
      --max-feed-size <MAX_FEED_SIZE>
          Soft cap on the size of one feed file in bytes
      --max-document-size <MAX_DOCUMENT_SIZE>
          Maximum content bytes read per document
      --content-encodings <CONTENT_ENCODINGS>
          Encodings the receiving index accepts [default: base64binary]
      --content-url-prefix <CONTENT_URL_PREFIX>
          Prefix for content URLs in contenturl feeds
      --no-wrap
          Do not wrap base64 content at 76 columns
      --feed-log
          Also write a feed log next to every feed file
  -f, --format <FORMAT>
          Output format (text, json) [default: text]
  -h, --help
          Print help
"

def inspectHelp : String :=
  "Display statistics for a feed file

Usage: docfeed inspect [OPTIONS] <FEED>

Arguments:
  <FEED>  Feed file to inspect

Options:
  -f, --format <FORMAT>  Output format (text, json) [default: text]
  -v, --verbose          Enable verbose output
  -h, --help             Print help
"

def versionHelp : String :=
  "Show version information

Usage: docfeed version [OPTIONS]

Options:
  -v, --verbose  Enable verbose output
  -h, --help     Print help
"

def helpHelp : String :=
  "Print this message or the help of the given subcommand(s)

Usage: docfeed help [COMMAND]...

Arguments:
  [COMMAND]...  Print help for the subcommand(s)
"

def helpOf : Option Subcommand → String
  | none => topHelp
  | some .encode => encodeHelp
  | some .inspect => inspectHelp
  | some .version => versionHelp
  | some .help => helpHelp

end IndexFeed.CommandLine
