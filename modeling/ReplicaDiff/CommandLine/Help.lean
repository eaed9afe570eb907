/-
# ReplicaDiff.CommandLine.Help — what the program tells about itself
-/
import ReplicaDiff.CommandLine.Arguments

namespace ReplicaDiff.CommandLine

set_option autoImplicit false

/-- What the program is called. -/
def programName : String := "xdiff"

/-- The version of the program. -/
def programVersion : String := "0.1.0"

/-- What the program, or one of its commands, is for. -/
def Topic.about : Topic → String
  | .overview => "Re-verify suspected divergent keys between two replicated buckets"
  | .command .run => "Fetch every candidate key from both clusters and write the diff"
  | .command .checkConfig => "Validate and print the effective configuration"
  | .help => "Print this message or the help of the given subcommand(s)"

/-- What a flag does. -/
def Flag.about : Flag → String
  | .verbose => "Debug-level logging"
  | .quiet => "Only log errors"
  | .logJson => "Emit logs as JSON lines"

/-- What a part of an endpoint is called in help. -/
def aboutPart : Endpoint.Part → String
  | .url => "cluster URL"
  | .bucket => "bucket name"
  | .username => "user name"
  | .password => "password"

/-- What an option gives. -/
def Choice.about : Choice → String
  | .configFile => "TOML configuration file"
  | .setting (.endpoint side part) => side.name ++ " " ++ aboutPart part
  | .setting .diffFileDir => "Directory holding the key list and receiving results"
  | .setting .inputDiffKeysFile => "Key list file name"
  | .setting .outputDiffKeysFile => "Diff-keys output file name"
  | .setting .numWorkers => "Number of concurrent workers"
  | .setting .batchSize => "Keys per batch"
  | .setting .timeoutSecs => "Per-batch timeout in seconds"
  | .setting .maxSendBatchRetries => "Retries per batch after its first send"
  | .setting .retryInterval => "Delay before the first retry"
  | .setting .maxBackoff => "Upper bound for the retry delay"
  | .setting .reportInterval => "Interval between progress reports"

/-- An entry of a list: how it is written, and what it is for. -/
structure HelpEntry where
  usage : String
  about : String

/-- How a name after hyphens is written, with the short form before the long one. -/
def spelling (short? : Option Char) (long : String) : String :=
  match short? with
  | some c => "-" ++ String.singleton c ++ ", --" ++ long
  | none => "    --" ++ long

/-- The entry of a flag. -/
def Flag.entry (f : Flag) : HelpEntry := ⟨spelling f.short? f.long, f.about⟩

/-- The entry of an option. -/
def Choice.entry (c : Choice) : HelpEntry :=
  ⟨spelling c.short? c.long ++ " <" ++ c.long ++ ">", c.about⟩

/-- The entry of help itself. -/
def helpEntry : HelpEntry := ⟨spelling (some 'h') "help", "Print help"⟩

/-- The entry of the version. -/
def versionEntry : HelpEntry := ⟨spelling (some 'V') "version", "Print version"⟩

/-- The entries of one list taken between those of another, one from each in turn, as long as
both have some. -/
def alternate : List HelpEntry → List HelpEntry → List HelpEntry
  | [], ys => ys
  | xs, [] => xs
  | x :: xs, y :: ys => x :: y :: alternate xs ys

/-- The flags and options after a command.  The flags stand among the first options: each follows
the option of its place if that has a short name too, and goes before it if not. -/
def commandEntries : List HelpEntry :=
  match Choice.all, Flag.all with
  | file :: choices, flag :: flags =>
      file.entry :: flag.entry :: alternate (flags.map Flag.entry) (choices.map Choice.entry)
  | choices, flags => choices.map Choice.entry ++ flags.map Flag.entry

/-- Entries with the texts of all of them in one column. -/
def inColumns (entries : List HelpEntry) : List String :=
  let width := entries.foldl (fun w e => max w e.usage.length) 0
  entries.map fun e =>
    "  " ++ e.usage ++ String.ofList (List.replicate (width + 2 - e.usage.length) ' ') ++ e.about

/-- Entries with the text of each on a line of its own. -/
def onOwnLines (entries : List HelpEntry) : List String :=
  entries.flatMap fun e => ["  " ++ e.usage, "          " ++ e.about]

/-- The entries of the commands. -/
def commandList : List HelpEntry :=
  Command.all.map (fun c => ⟨c.name, (Topic.command c).about⟩)
    ++ [⟨Reading.helpCommand, Topic.help.about⟩]

/-- The lines of the help on a topic. -/
def Topic.lines (t : Topic) : List String :=
  let usage (rest : String) : String := "Usage: " ++ programName ++ " " ++ rest
  [t.about, ""] ++
    match t with
    | .overview =>
        [usage "[OPTIONS] <COMMAND>", "", "Commands:"] ++ inColumns commandList
          ++ ["", "Options:"] ++ inColumns (Flag.all.map Flag.entry ++ [helpEntry, versionEntry])
    | .command c =>
        [usage (c.name ++ " [OPTIONS]"), "", "Options:"]
          ++ onOwnLines (commandEntries ++ [helpEntry])
    | .help =>
        [usage "help [COMMAND]...", "", "Arguments:"]
          ++ inColumns [⟨"[COMMAND]...", "Print help for the subcommand(s)"⟩]

/-- The line that tells the version. -/
def versionLine : String := programName ++ " " ++ programVersion

/-- What is wrong with a command line, for people to read. -/
def Misuse.message : Misuse → String
  | .empty => "nothing to do"
  | .missingCommand => "a command is missing"
  | .unknownCommand token => "unknown command: " ++ token
  | .unknownArgument token => "unexpected argument: " ++ token
  | .repeated name => "given more than once: --" ++ name
  | .missingValue c => "a value is missing: --" ++ c.long
  | .badValue c _ .emptyPath => "empty path for --" ++ c.long
  | .badValue c text .notANumber => "not a number for --" ++ c.long ++ ": " ++ text
  | .unexpectedValue token => "no value can be given: " ++ token

end ReplicaDiff.CommandLine
