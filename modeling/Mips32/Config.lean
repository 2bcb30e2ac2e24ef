import Mips32.Json.Schema

/-! The configuration: its settings with their defaults, the JSON it is read from, and why it
cannot be read. -/
namespace Mips32

inductive ReportStyle where
  | text | json
  deriving DecidableEq, Repr

/-! The defaults that the structures share with the schemas they are read by. -/
namespace Defaults

def prompt : String := "word (decimal, 0b, 0o, 0x) | empty to quit: "

def showBits : Bool := true

def annotateFields : Bool := true

end Defaults

structure GeneralConfig where
  traceDecodes : Bool := false
  deriving DecidableEq, Repr

structure ReportConfig where
  style : ReportStyle := .text
  /-- The bits of the word have a line of their own. Only the text style looks at it. -/
  showBits : Bool := Defaults.showBits
  /-- Fields carry the names they stand for. Only the text style looks at it. -/
  annotateFields : Bool := Defaults.annotateFields
  deriving DecidableEq, Repr

structure PromptConfig where
  text : String := Defaults.prompt
  deriving DecidableEq, Repr

structure Config where
  general : GeneralConfig := {}
  report : ReportConfig := {}
  prompt : PromptConfig := {}
  deriving DecidableEq, Repr

/-- Why a file has no text. -/
inductive FileFault where
  | missing | directory | notText
  | other (message : String)
  deriving DecidableEq, Repr

def FileFault.message : FileFault → String
  | missing => "No such file or directory (os error 2)"
  | directory => "Is a directory (os error 21)"
  | notText => "stream did not contain valid UTF-8"
  | other message => message

/-- What a file holds, or why it cannot be read. -/
abbrev FileContents := Except FileFault ByteArray

inductive ConfigError where
  | unreadable (fault : FileFault)
  | unsuitable (failure : Json.Failure)
  deriving DecidableEq, Repr

def ConfigError.message : ConfigError → String
  | unreadable fault => "failed to read config: " ++ fault.message
  | unsuitable (.problem .malformed) => "failed to parse config: malformed JSON"
  | unsuitable (.problem .cut) => "failed to parse config: unexpected end of JSON"
  | unsuitable (.mismatch m) => "failed to parse config: " ++ m.message

namespace Config

open Json (Member Reader Schema)

def styleNames : List (String × ReportStyle) :=
  [("Text", .text), ("JSON", .json), ("Json", .json), ("json", .json)]

/-! The defaults of a schema are those of its members, for a section that is there. A section that
is left out is the `{}` of its structure. -/

def generalSchema : Schema GeneralConfig where
  title := "GeneralConfig"
  defaults := { traceDecodes := false }
  members := [⟨"trace_decodes", Reader.bool.map fun b c => { c with traceDecodes := b }⟩]

def reportSchema : Schema ReportConfig where
  title := "ReportConfig"
  defaults :=
    { style := .text, showBits := Defaults.showBits, annotateFields := Defaults.annotateFields }
  members :=
    [⟨"style", (Reader.variant styleNames).map fun s c => { c with style := s }⟩,
     ⟨"show_bits", Reader.bool.map fun b c => { c with showBits := b }⟩,
     ⟨"annotate_fields", Reader.bool.map fun b c => { c with annotateFields := b }⟩]

def promptSchema : Schema PromptConfig where
  title := "PromptConfig"
  defaults := { text := Defaults.prompt }
  members := [⟨"text", Reader.string.map fun t c => { c with text := t }⟩]

def schema : Schema Config where
  title := "Config"
  defaults := { general := {}, report := {}, prompt := {} }
  members :=
    [generalSchema.asMember "general" fun g c => { c with general := g },
     reportSchema.asMember "report" fun r c => { c with report := r },
     promptSchema.asMember "prompt" fun p c => { c with prompt := p }]

def ofText (text : String) : Except ConfigError Config := (schema.ofText text).mapError .unsuitable

/-- The configuration of a file, whose bytes must be UTF-8. -/
def ofFile : FileContents → Except ConfigError Config
  | .error fault => .error (.unreadable fault)
  | .ok bytes =>
    match String.fromUTF8? bytes with
    | some text => ofText text
    | none => .error (.unreadable .notText)

end Config

end Mips32
