import RetroMedia.CommandLine.Similarity
import RetroMedia.CommandLine.Usage

/-! The arguments of the program: options and a path, then a command with arguments of its own. -/
namespace RetroMedia.CommandLine

/-- What the program is asked to do. -/
structure Arguments where
  path : String
  config : Option String
  verb : Verb
  /-- Where bytes that are read go. -/
  destination : Option String
  deriving DecidableEq, Repr

/-- What comes of the arguments. -/
inductive Invocation where
  | run (arguments : Arguments)
  /-- A help page or a version. -/
  | display (text : String)
  | refused
  deriving DecidableEq, Repr

/-- How an argument reads where options may stand. -/
inductive Token where
  /-- Two dashes: from here on nothing is an option. -/
  | rest
  /-- A name after dashes, with the value after an equals sign if there is one. -/
  | long (name : String) (value : Option String)
  /-- Letters after a dash. -/
  | letters (letters : List Char)
  | word (text : String)
  deriving DecidableEq, Repr

namespace Token

def ofLong (chars : List Char) : Token :=
  let body := chars.dropWhile (· == '-')
  if body.contains '=' then
    long (String.ofList (body.takeWhile (· != '=')))
      (some (String.ofList ((body.dropWhile (· != '=')).dropWhile (· == '='))))
  else long (String.ofList body) none

def ofText (text : String) : Token :=
  match text.toList with
  | ['-', '-'] => rest
  | '-' :: '-' :: name => ofLong name
  | '-' :: letter :: more => letters (letter :: more)
  | _ => word text

end Token

/-- The arguments of a command. -/
inductive VerbInvocation where
  | run (destination : Option String)
  | stop (invocation : Invocation)
  deriving DecidableEq, Repr

namespace Verb

/-- How the program is called up to a command. -/
def callBefore : String := programName ++ " <path>"

/-- What a flag of one letter does. -/
def onLetter (verb : Verb) (letter : Char) : VerbInvocation :=
  if letter == 'h' then .stop (.display (verbHelpText verb callBefore))
  else if letter == 'V' then .stop (.display (verbVersionText verb))
  else .stop .refused

/-- What a flag with a name does. -/
def onLong (verb : Verb) (name : String) : VerbInvocation :=
  if name == "help" then verb.onLetter 'h'
  else if name == "version" then verb.onLetter 'V'
  else .stop .refused

/-- Only one command takes an argument, and only one. -/
def accepts (verb : Verb) (destination : Option String) : Bool :=
  verb == .read && destination.isNone

/-- Read the arguments of a command; `plain` says that nothing is an option any more. -/
def parse (verb : Verb) (plain : Bool) (destination : Option String) :
    List String → VerbInvocation
  | [] => .run destination
  | text :: more =>
    match if plain then .word text else Token.ofText text with
    | .rest => parse verb true destination more
    | .long name _ => verb.onLong name
    | .letters (letter :: _) => verb.onLetter letter
    | .letters [] => .stop .refused
    | .word text =>
      if verb.accepts destination then parse verb plain (some text) more else .stop .refused

end Verb

/-- The help page that some words ask for. -/
def parseHelp : List String → Invocation
  | [] => .display helpText
  | [word] =>
    if word == helpWord then .display helpHelpText
    else
      match Verb.ofName? word with
      | some verb => .display (verbHelpText verb programName)
      | none => .refused
  | _ => .refused

/-- What has been read of the program's own arguments. -/
structure Options where
  path : Option String := none
  /-- The value of each configuration option so far, if it has one. -/
  configs : List (Option String) := []
  /-- The last configuration option has no value yet. -/
  awaiting : Bool := false
  /-- Nothing is an option any more. -/
  plain : Bool := false

namespace Options

/-- Does a word look like a misspelt command? -/
def isSuspicious (text : String) : Bool :=
  (helpWord :: Verb.all.map Verb.name).any fun name => Similarity.isClose text.toList name.toList

/-- The next word is a path, unless there is one already. -/
def withWord? (options : Options) (text : String) : Option Options :=
  if isSuspicious text || options.path.isSome then none else some { options with path := some text }

/-- Put the options and the arguments of a command together. There must be a path, and at most one
configuration, which has a value. -/
def finish (options : Options) (verb : Verb) (rest : List String) : Invocation :=
  match verb.parse false none rest with
  | .stop invocation => invocation
  | .run destination =>
    match options.path, options.configs with
    | some path, [] => .run { path, config := none, verb, destination }
    | some path, [some config] => .run { path, config := some config, verb, destination }
    | _, _ => .refused

/-- What some flags of one letter do, if they end the program. -/
def onLetters : List Char → Option Invocation
  | [] => none
  | 'h' :: _ => some (.display helpText)
  | 'V' :: _ => some (.display versionText)
  | 'v' :: more => onLetters more
  | _ :: _ => some .refused

/-- The options after one more with a name, or what ends the program. -/
def withLong (options : Options) (name : String) (value : Option String) :
    Except Invocation Options :=
  match name with
  | "config" => .ok { options with
      configs := options.configs ++ [value], awaiting := value.isNone }
  | "verbose" => .ok { options with awaiting := false }
  | "help" => .error (.display helpText)
  | "version" => .error (.display versionText)
  | _ => .error .refused

/-- Give the last configuration option its value. -/
def withValue (options : Options) (text : String) : Options :=
  { options with configs := options.configs.dropLast ++ [some text], awaiting := false }

/-- Read the program's arguments up to the command. -/
def parse (options : Options) : List String → Invocation
  | [] => .refused
  | text :: more =>
    let onWord := fun (_ : Unit) =>
      match options.withWord? text with
      | some options => options.parse more
      | none => .refused
    if options.plain then onWord ()
    else if !options.awaiting && text == helpWord then parseHelp more
    else
      match if options.awaiting then none else Verb.ofName? text with
      | some verb => options.finish verb more
      | none =>
        match Token.ofText text with
        | .rest => { options with plain := true }.parse more
        | .long name value =>
          match options.withLong name value with
          | .ok options => options.parse more
          | .error invocation => invocation
        | .letters letters =>
          match onLetters letters with
          | some invocation => invocation
          | none => { options with awaiting := false }.parse more
        | .word text => if options.awaiting then (options.withValue text).parse more else onWord ()

end Options

/-- What the program's arguments ask for. -/
def parseArguments (arguments : List String) : Invocation := ({} : Options).parse arguments

end RetroMedia.CommandLine
