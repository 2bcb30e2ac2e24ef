import Mips32.Literal
import Mips32.Log
import Mips32.Report

/-! What the program writes for the words it is given: reports, and the events behind them. A
batch is answered word by word. -/
namespace Mips32

/-- Reports and events in order. A transcript succeeded when nothing failed that counts. -/
@[ext] structure Transcript where
  output : String
  events : List Event
  succeeded : Bool
  deriving DecidableEq, Repr

namespace Transcript

def empty : Transcript := ⟨"", [], true⟩

/-- A transcript of plain text. -/
def said (text : String) : Transcript := ⟨text, [], true⟩

/-- A transcript of an event that nothing is reported for. -/
def noted (e : Event) : Transcript := ⟨"", [e], true⟩

instance : Append Transcript :=
  ⟨fun a b => ⟨a.output ++ b.output, a.events ++ b.events, a.succeeded && b.succeeded⟩⟩

/-- The same, whether or not something failed. -/
def forgiven (t : Transcript) : Transcript := { t with succeeded := true }

/-- Answers an input that was refused. -/
def refusal (c : ReportConfig) (input : String) (e : DecodeError) : Transcript :=
  ⟨Report.failureText c input e, [.rejected input e], false⟩

/-- Decodes a word that was read from an input. -/
def ofWord (c : ReportConfig) (input : String) (w : Word) : Transcript :=
  match decode w with
  | .ok i => ⟨Report.text c i i.signals, [.decoded i], true⟩
  | .error e => noted (.undecodable w e) ++ refusal c input e

/-- Reads and decodes one input. -/
def answer (c : ReportConfig) (input : String) : Transcript :=
  match Word.ofLiteral input with
  | .ok w => ofWord c input w
  | .error e => refusal c input e

def batch (c : ReportConfig) (inputs : List String) : Transcript :=
  (inputs.map (answer c)).foldr (· ++ ·) empty

/-! ### The parts of transcripts -/

@[simp] theorem output_empty : empty.output = "" := rfl

@[simp] theorem events_empty : empty.events = [] := rfl

@[simp] theorem succeeded_empty : empty.succeeded = true := rfl

@[simp] theorem output_said (text : String) : (said text).output = text := rfl

@[simp] theorem events_said (text : String) : (said text).events = [] := rfl

@[simp] theorem succeeded_said (text : String) : (said text).succeeded = true := rfl

@[simp] theorem output_forgiven (t : Transcript) : t.forgiven.output = t.output := rfl

@[simp] theorem events_forgiven (t : Transcript) : t.forgiven.events = t.events := rfl

@[simp] theorem succeeded_forgiven (t : Transcript) : t.forgiven.succeeded = true := rfl

@[simp] theorem output_append (a b : Transcript) : (a ++ b).output = a.output ++ b.output := rfl

@[simp] theorem events_append (a b : Transcript) : (a ++ b).events = a.events ++ b.events := rfl

@[simp] theorem succeeded_append (a b : Transcript) :
    (a ++ b).succeeded = (a.succeeded && b.succeeded) := rfl

@[simp] theorem empty_append (t : Transcript) : empty ++ t = t := by
  apply Transcript.ext <;> simp

@[simp] theorem append_empty (t : Transcript) : t ++ empty = t := by
  apply Transcript.ext <;> simp

theorem append_assoc (a b c : Transcript) : a ++ b ++ c = a ++ (b ++ c) := by
  apply Transcript.ext <;> simp [String.append_assoc, Bool.and_assoc]

@[simp] theorem batch_nil (c : ReportConfig) : batch c [] = empty := rfl

@[simp] theorem batch_cons (c : ReportConfig) (input : String) (inputs : List String) :
    batch c (input :: inputs) = answer c input ++ batch c inputs := rfl

end Transcript

end Mips32
