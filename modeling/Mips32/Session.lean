import Mips32.Transcript

/-! A session over lines of input. Each line is one word, until a blank line, a line that is
not text, or the end of the input. In text style a banner comes first and a prompt before
every read. -/
namespace Mips32.Session

/-- What a line asks for. -/
inductive Request where
  | word (text : String)
  | quit
  /-- The line is not UTF-8. -/
  | fault
  deriving DecidableEq, Repr

def lineFeed : UInt8 := 10

/-- Puts a byte in front of the first line. -/
def consByte (b : UInt8) : List (List UInt8) → List (List UInt8)
  | [] => [[b]]
  | line :: lines => (b :: line) :: lines

/-- The lines of an input, each with the line feed that ends it. The last one may lack it. -/
def lines : List UInt8 → List (List UInt8)
  | [] => []
  | b :: bytes => if b = lineFeed then [b] :: lines bytes else consByte b (lines bytes)

/-- The request of a line, less the blanks around it. -/
def Request.ofLine (line : List UInt8) : Request :=
  match String.fromUTF8? ⟨line.toArray⟩ with
  | none => fault
  | some text =>
    match Text.trim text.toList with
    | [] => quit
    | c :: cs => word (.ofList (c :: cs))

def banner (c : Config) : String :=
  match c.report.style with
  | .text => "--- [MIPS instruction decoder] ---\n"
  | .json => ""

def prompt (c : Config) : String :=
  match c.report.style with
  | .text => c.prompt.text
  | .json => ""

/-- What is written for a request, and whether the session goes on. Words may fail. -/
def respond (c : Config) : Request → Transcript × Bool
  | .word text => ((Transcript.answer c.report text).forgiven, true)
  | .quit => (.empty, false)
  | .fault => (⟨"", [.inputFault], false⟩, false)

/-- The transcript of requests, up to the one that ends the session. -/
def converse (c : Config) : List Request → Transcript
  | [] => .said (prompt c)
  | r :: rs =>
    let (reply, more) := respond c r
    .said (prompt c) ++ reply ++ if more then converse c rs else .empty

/-- The transcript of a whole input. -/
def transcript (c : Config) (input : List UInt8) : Transcript :=
  .said (banner c) ++ converse c ((lines input).map Request.ofLine)

end Mips32.Session
