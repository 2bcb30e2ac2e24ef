/-! The command line: words among options, which may come in any order. -/
namespace Mips32

inductive Flag where
  | json | noBits | trace
  deriving DecidableEq, Repr

/-- The name of a flag behind its dashes. -/
def Flag.name : Flag → String
  | json => "json"
  | noBits => "no-bits"
  | trace => "trace"

structure Invocation where
  words : List String := []
  flags : List Flag := []
  configPath : Option String := none
  deriving DecidableEq, Repr

/-- Why a command line is refused. -/
inductive UsageError where
  | unknownOption (argument : String)
  /-- A flag takes no value. -/
  | unwantedValue (argument : String)
  | missingValue
  | repeated (option : String)
  deriving DecidableEq, Repr

def UsageError.message : UsageError → String
  | unknownOption argument => "unknown option " ++ argument
  | unwantedValue argument => "no value is wanted in " ++ argument
  | missingValue => "the option --config lacks a value"
  | repeated option => "the option --" ++ option ++ " is given twice"

/-- One argument, before its place on the command line counts. -/
inductive Argument where
  | word
  | flag (f : Flag)
  /-- The option for the configuration, with the value attached to it. -/
  | config (value : Option String)
  /-- The help is asked for, in its long or its short form. -/
  | help (long : Bool)
  | version
  /-- Two dashes: only words follow. -/
  | endOfOptions
  | refused (e : UsageError)
  deriving DecidableEq, Repr

/-- What the program is asked to do. -/
inductive Command where
  | help (long : Bool)
  | version
  | decode (i : Invocation)
  deriving DecidableEq, Repr

namespace Argument

/-- The value after the first equals sign, if there is one. -/
def attached : List Char → Option String
  | '=' :: value => some (.ofList value)
  | _ => none

/-- An option that takes no value. -/
def plain (argument : String) (value : Option String) (a : Argument) : Argument :=
  if value.isSome then refused (.unwantedValue argument) else a

/-- An option behind two dashes. -/
def ofLong (argument : String) (cs : List Char) : Argument :=
  let name := String.ofList (cs.takeWhile (· ≠ '='))
  let value := attached (cs.dropWhile (· ≠ '='))
  if name = "config" then config value
  else if name = "help" then plain argument value (help true)
  else if name = "version" then plain argument value version
  else match [Flag.json, .noBits, .trace].find? (·.name = name) with
    | some f => plain argument value (flag f)
    | none => refused (.unknownOption argument)

/-- The value attached to the letter of an option, with or without an equals sign. -/
def ofShortValue : List Char → Option String
  | [] => none
  | '=' :: value => some (.ofList value)
  | value => some (.ofList value)

/-- An option behind one dash. What follows the letter for the help or the version does not
count. -/
def ofShort (argument : String) (letter : Char) (cs : List Char) : Argument :=
  if letter = 'c' then config (ofShortValue cs)
  else if letter = 'h' then help false
  else if letter = 'V' then version
  else refused (.unknownOption argument)

/-- A lone dash is a word. -/
def ofString (argument : String) : Argument :=
  match argument.toList with
  | ['-', '-'] => endOfOptions
  | '-' :: '-' :: cs => ofLong argument cs
  | '-' :: c :: cs => ofShort argument c cs
  | _ => word

end Argument

namespace Invocation

def setFlag (i : Invocation) (f : Flag) : Except UsageError Invocation :=
  if f ∈ i.flags then .error (.repeated f.name) else .ok { i with flags := f :: i.flags }

/-- The path of the configuration may be given once, and not be empty. -/
def setConfig (i : Invocation) (path : String) : Except UsageError Invocation :=
  if path = "" then .error .missingValue
  else if i.configPath.isSome then .error (.repeated "config")
  else .ok { i with configPath := some path }

/-- Reads the arguments from left to right. The first one that is refused counts, unless the help or
the version is asked for before it. -/
def readFrom (i : Invocation) : List String → Except UsageError Command
  | [] => .ok (.decode i)
  | argument :: rest =>
    match Argument.ofString argument with
    | .word => readFrom { i with words := i.words ++ [argument] } rest
    | .flag f => do readFrom (← i.setFlag f) rest
    | .config (some path) => do readFrom (← i.setConfig path) rest
    | .config none =>
      match rest with
      | [] => .error .missingValue
      | path :: rest =>
        if Argument.ofString path = .word then do readFrom (← i.setConfig path) rest
        else .error .missingValue
    | .help long => .ok (.help long)
    | .version => .ok .version
    | .endOfOptions => .ok (.decode { i with words := i.words ++ rest })
    | .refused e => .error e

end Invocation

def Command.ofArguments (arguments : List String) : Except UsageError Command :=
  ({} : Invocation).readFrom arguments

/-! ### Help -/

namespace Help

/-- What the program is for. The long form goes on with the words it takes and with examples. -/
def about (long : Bool) : String :=
  if long then
    "Decode MIPS32 instruction words into fields, a mnemonic, and single-cycle control signals.\n\n" ++
    "Words may be decimal or prefixed binary (0b), octal (0o), or hexadecimal (0x).\n" ++
    "With no words, reads one word per line from stdin until an empty line.\n\n" ++
    "Examples:\n  mipsdec 0x22300005\n  mipsdec --json 0x8fa80004 0x1085000a\n" ++
    "  mipsdec --config decoder.json\n"
  else "Decode MIPS32 instruction words\n"

/-- How the words are written, and what they are for. -/
def arguments : List (String × String) :=
  [("[WORDS]...", "Instruction words to decode. Reads stdin interactively when omitted")]

/-- How the options are written, and what they are for. Each form points to the other. -/
def options (long : Bool) : List (String × String) :=
  [("    --json", "Emit one JSON object per word instead of the text report"),
   ("    --no-bits", "Omit the 32-bit binary string from the text report"),
   ("-c, --config <CONFIG>", "JSON configuration file"),
   ("    --trace", "Log every decode at trace level (stderr)"),
   ("-h, --help", if long then "Print help (see a summary with '-h')"
      else "Print help (see more with '--help')"),
   ("-V, --version", "Print version")]

/-- An entry on one line, with what it is for in a column of its own. -/
def row (width : Nat) (e : String × String) : String :=
  "  " ++ .ofList (List.rightpad width ' ' e.1.toList) ++ "  " ++ e.2 ++ "\n"

/-- An entry on two lines. -/
def paragraph (e : String × String) : String := "  " ++ e.1 ++ "\n          " ++ e.2 ++ "\n"

/-- The entries below a heading. In the long form there are empty lines between them. -/
def listing (long : Bool) (heading : String) (entries : List (String × String)) : String :=
  heading ++ ":\n" ++
    if long then String.intercalate "\n" (entries.map paragraph)
    else String.join (entries.map (row ((entries.map (·.1.length)).foldl max 0)))

def text (long : Bool) : String :=
  String.intercalate "\n"
    [about long, "Usage: mipsdec [OPTIONS] [WORDS]...\n", listing long "Arguments" arguments,
     listing long "Options" (options long)]

end Help

end Mips32
