import Mips32.Instruction
import Mips32.Text.Quoted

/-! The log: events, their levels, and the line each one is written as. -/
namespace Mips32

inductive Level where
  | error | warn | info | debug | trace
  deriving DecidableEq, Repr

namespace Level

/-- The name, right-aligned. -/
def label : Level → String
  | error => "ERROR"
  | warn => " WARN"
  | info => " INFO"
  | debug => "DEBUG"
  | trace => "TRACE"

/-- How much detail a level has. -/
def detail : Level → Nat
  | error => 0
  | warn => 1
  | info => 2
  | debug => 3
  | trace => 4

end Level

inductive Event where
  | decoded (i : Instruction)
  | undecodable (w : Word) (e : DecodeError)
  /-- A word of the input was answered with an error. -/
  | rejected (input : String) (e : DecodeError)
  /-- The input ended at a line that is not text. -/
  | inputFault
  deriving DecidableEq, Repr

namespace Event

def level : Event → Level
  | decoded _ => .trace
  | undecodable .. => .debug
  | rejected .. => .warn
  | inputFault => .error

/-- The event is logged when everything up to `limit` is. -/
def enabled (limit : Level) (e : Event) : Bool := e.level.detail ≤ limit.detail

def message : Event → String
  | decoded _ => "decoded"
  | undecodable .. | rejected .. => "decode failed"
  | inputFault => "failed to write report"

/-- The named values of an event. Only the input is quoted. -/
def values : Event → List (String × String)
  | decoded i => [("raw", Nat.repr i.word.toNat), ("format", i.fields.format.letter),
      ("mnemonic", i.mnemonic)]
  | undecodable w e => [("raw", Nat.repr w.toNat), ("format", w.format.letter), ("err", e.message)]
  | rejected input e => [("input", Text.quoted input), ("err", e.message)]
  | inputFault => [("err", "stream did not contain valid UTF-8")]

def line (e : Event) : String :=
  e.level.label ++ " " ++ e.message ++
    String.join (e.values.map fun v => " " ++ v.1 ++ "=" ++ v.2) ++ "\n"

/-- The event of decoding a word. -/
def ofDecode (w : Word) : Event :=
  match decode w with
  | .ok i => decoded i
  | .error e => undecodable w e

end Event

/-- The lines of the events up to a level. -/
def logText (limit : Level) (events : List Event) : String :=
  String.join ((events.filter (·.enabled limit)).map Event.line)

end Mips32
