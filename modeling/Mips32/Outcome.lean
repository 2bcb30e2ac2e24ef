import Mips32.Invocation
import Mips32.Session

/-! A run of the program: what it writes for a command line, the files and the input, and the
code it exits with. -/
namespace Mips32

namespace Invocation

/-- A configuration with the flags of the command line, which only switch settings to one side. -/
def settings (i : Invocation) (c : Config) : Config where
  general := { c.general with traceDecodes := c.general.traceDecodes || i.flags.contains .trace }
  report :=
    { c.report with
      style := if .json ∈ i.flags then .json else c.report.style
      showBits := c.report.showBits && !i.flags.contains .noBits }
  prompt := c.prompt

/-- The configuration of a run: that of the file if one is named, under the flags. -/
def config (i : Invocation) (file : String → FileContents) : Except ConfigError Config :=
  match i.configPath with
  | none => .ok (i.settings {})
  | some path => (Config.ofFile (file path)).map i.settings

/-- Answers the words, or the input if there are none. -/
def transcript (i : Invocation) (c : Config) (input : List UInt8) : Transcript :=
  if i.words.isEmpty then Session.transcript c input else .batch c.report i.words

end Invocation

/-- Failures are always logged, decoding only on demand. -/
def Config.logLimit (c : Config) : Level := if c.general.traceDecodes then .trace else .warn

inductive Outcome where
  | help (long : Bool)
  | version
  | misused (e : UsageError)
  | misconfigured (e : ConfigError)
  /-- Words were answered, and the events up to a level logged. -/
  | answered (limit : Level) (t : Transcript)
  deriving DecidableEq, Repr

namespace Outcome

def exitCode : Outcome → UInt8
  | help _ | version => 0
  | misused _ | misconfigured _ => 2
  | answered _ t => if t.succeeded then 0 else 1

/-- The text on standard output. -/
def output : Outcome → String
  | help long => Help.text long
  | version => "mipsdec 0.3.0\n"
  | misused _ | misconfigured _ => ""
  | answered _ t => t.output

/-- The text on standard error. -/
def diagnostics : Outcome → String
  | help _ | version => ""
  | misused e => "error: " ++ e.message ++ "\n"
  | misconfigured e => "error: " ++ e.message ++ "\n"
  | answered limit t => logText limit t.events

end Outcome

/-- Runs the program. The command line is refused before any file is read. -/
def run (arguments : List String) (file : String → FileContents) (input : List UInt8) : Outcome :=
  match Command.ofArguments arguments with
  | .error e => .misused e
  | .ok (.help long) => .help long
  | .ok .version => .version
  | .ok (.decode i) =>
    match i.config file with
    | .error e => .misconfigured e
    | .ok c => .answered c.logLimit (i.transcript c input)

end Mips32
