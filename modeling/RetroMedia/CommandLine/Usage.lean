/-! The commands of the program and its help pages. -/
namespace RetroMedia.CommandLine

def programTitle : String := "Commodore Media Stream Utility"

def programName : String := "mstream"

def programVersion : String := "0.1.0"

/-- What the program can do with a file. -/
inductive Verb where
  | dir
  | read
  | dump
  | info
  deriving DecidableEq, Repr

namespace Verb

def all : List Verb := [dir, read, dump, info]

def name : Verb → String
  | dir => "dir"
  | read => "read"
  | dump => "dump"
  | info => "info"

def about : Verb → String
  | dir => "Show a directory listing"
  | read => "Copy a file's bytes out."
  | dump => "Provide a hex dump of a file."
  | info => "Describe a file or container."

def ofName? (name : String) : Option Verb := all.find? (·.name == name)

end Verb

def helpWord : String := "help"

def helpAbout : String := "Prints this message or the help of the given subcommand(s)"

def commonFlags : List String :=
  ["FLAGS:", "    -h, --help       Prints help information",
    "    -V, --version    Prints version information"]

def page (lines : List String) : String := String.intercalate "\n" lines ++ "\n"

/-- The version of the program. -/
def versionText : String := programTitle ++ " " ++ programVersion ++ "\n"

/-- The help page of the program. -/
def helpText : String := page <|
  [programTitle ++ " " ++ programVersion,
    "List, read, and dump files in Commodore disk, tape, and cartridge images.", "", "USAGE:",
    "    " ++ programName ++ " [FLAGS] [OPTIONS] <path> <SUBCOMMAND>", ""]
  ++ commonFlags ++ ["    -v, --verbose    Log more detail (repeat for more)", "", "OPTIONS:",
    "        --config <config>    TOML configuration file", "", "ARGS:",
    "    <path>    Host path, path into a container (e.g. games.lnx/DISK.D64/LOADER), or "
      ++ "json:/sha256:/qr: URL", "", "SUBCOMMANDS:",
    "    dir     " ++ Verb.dir.about, "    dump    " ++ Verb.dump.about,
    "    help    " ++ helpAbout,
    "    info    " ++ Verb.info.about, "    read    " ++ Verb.read.about]

/-- The name of a command on its help page. -/
def verbTitle (name : String) : String := programName ++ "-" ++ name ++ " "

def verbVersionText (verb : Verb) : String := verbTitle verb.name ++ "\n"

/-- The help page of a command, which is called after the given words. -/
def verbHelpText (verb : Verb) (call : String) : String :=
  let arguments := match verb with
    | .read => " [destination_filename]"
    | _ => ""
  let details := match verb with
    | .read => ["", "ARGS:", "    <destination_filename>    "]
    | _ => []
  let usage := "    " ++ call ++ " " ++ verb.name ++ arguments
  page <| [verbTitle verb.name, verb.about, "", "USAGE:", usage, ""] ++ commonFlags ++ details

/-- The help page of the word that asks for help pages. -/
def helpHelpText : String :=
  page [verbTitle helpWord, helpAbout, "", "USAGE:",
    "    " ++ programName ++ " " ++ helpWord ++ " [subcommand]...", "", "ARGS:",
    "    <subcommand>...    The subcommand whose help message to display"]

end RetroMedia.CommandLine
