import Mips32.Json.Numeral

/-! The lexemes of a JSON text. `lexemes` is total: a piece of text that is no lexeme becomes a
defect, which says what is wrong there, and nothing is read after it. -/
namespace Mips32.Json

inductive Container where
  | array | object
  deriving DecidableEq, Repr

/-- Where the reading of a text stops. -/
inductive Defect where
  /-- A misspelt `null`, `true` or `false`. -/
  | word (p : Problem)
  | number (p : Problem)
  /-- A string that fails after the given units. -/
  | string (units : List TextUnit) (p : Problem)
  /-- A character that starts no lexeme. -/
  | stray
  deriving DecidableEq, Repr

inductive Lexeme where
  | opening (c : Container)
  | closing (c : Container)
  | comma
  | colon
  | null
  | bool (value : Bool)
  | number (value : Numeral)
  | string (units : List TextUnit)
  | defect (d : Defect)
  deriving DecidableEq, Repr

/-- The four blanks of JSON. -/
def isBlank (c : Char) : Bool := c = ' ' || c = '\t' || c = '\n' || c = '\r'

namespace Lexeme

/-- Reads the letters of a word. -/
def readWord (word : Lexeme) : List Char → List Char → Lexeme × List Char
  | [], cs => (word, cs)
  | _ :: _, [] => (defect (.word .cut), [])
  | letter :: letters, c :: cs =>
    if c = letter then readWord word letters cs else (defect (.word .malformed), [])

def readNumber (cs : List Char) : Lexeme × List Char :=
  match Numeral.read cs with
  | .ok (n, rest) => (number n, rest)
  | .error p => (defect (.number p), [])

/-- Reads a string after its opening quote. -/
def readString (cs : List Char) : Lexeme × List Char :=
  match TextUnit.read cs with
  | (units, .ok rest) => (string units, rest)
  | (units, .error p) => (defect (.string units p), [])

def punctuation? : Char → Option Lexeme
  | '[' => some (opening .array)
  | ']' => some (closing .array)
  | '\x7b' => some (opening .object)
  | '\x7d' => some (closing .object)
  | ',' => some comma
  | ':' => some colon
  | _ => none

/-- The word that a letter announces, with its other letters. -/
def word? : Char → Option (Lexeme × List Char)
  | 'n' => some (null, ['u', 'l', 'l'])
  | 't' => some (bool true, ['r', 'u', 'e'])
  | 'f' => some (bool false, ['a', 'l', 's', 'e'])
  | _ => none

/-- Reads the lexeme that starts with `c`. -/
def readFrom (c : Char) (cs : List Char) : Lexeme × List Char :=
  match punctuation? c, word? c with
  | some l, _ => (l, cs)
  | none, some (word, letters) => readWord word letters cs
  | none, none =>
    if c = '"' then readString cs
    else if c = '-' ∨ (Radix.decimal.digit? c).isSome then readNumber (c :: cs)
    else (defect .stray, [])

/-- The first lexeme of a text, if there is more than blanks, and the text after it. -/
def next? (cs : List Char) : Option (Lexeme × List Char) :=
  match cs.dropWhile isBlank with
  | [] => none
  | c :: cs => some (readFrom c cs)

theorem length_readWord_le (word : Lexeme) (letters cs : List Char) :
    (readWord word letters cs).2.length ≤ cs.length := by
  fun_induction readWord word letters cs <;> simp_all; omega

theorem length_readNumber_le (c : Char) (cs : List Char) :
    (readNumber (c :: cs)).2.length ≤ cs.length := by
  unfold readNumber
  split
  · next h => simpa using Nat.le_of_lt_succ (Numeral.length_lt_of_read h)
  · simp

theorem length_readString_le (cs : List Char) : (readString cs).2.length ≤ cs.length := by
  unfold readString
  split
  · next h => exact Nat.le_of_lt (TextUnit.length_lt_of_read (congrArg Prod.snd h))
  · simp

theorem length_readFrom_le (c : Char) (cs : List Char) :
    (readFrom c cs).2.length ≤ cs.length := by
  unfold readFrom
  split
  · exact Nat.le_refl _
  · exact length_readWord_le ..
  · split
    · exact length_readString_le cs
    · split
      · exact length_readNumber_le c cs
      · exact Nat.zero_le _

theorem length_lt_of_next? {cs rest : List Char} {l : Lexeme} (h : next? cs = some (l, rest)) :
    rest.length < cs.length := by
  have drop := (List.dropWhile_sublist (l := cs) isBlank).length_le
  unfold next? at h
  split at h
  · cases h
  · next c tail eq =>
    have := length_readFrom_le c tail
    rw [eq, List.length_cons] at drop
    rw [show rest = (readFrom c tail).2 by simpa using congrArg (·.map Prod.snd) h.symm]
    omega

/-- The text of a lexeme. A defect has none. -/
def text : Lexeme → List Char
  | opening .array => ['[']
  | closing .array => [']']
  | opening .object => ['\x7b']
  | closing .object => ['\x7d']
  | comma => [',']
  | colon => [':']
  | null => ['n', 'u', 'l', 'l']
  | bool true => ['t', 'r', 'u', 'e']
  | bool false => ['f', 'a', 'l', 's', 'e']
  | number n => n.text
  | string units => '"' :: units.flatMap TextUnit.text ++ ['"']
  | defect _ => []

end Lexeme

/-- The lexemes of a text. Nothing follows a defect. -/
def lexemes (cs : List Char) : List Lexeme :=
  match _h : Lexeme.next? cs with
  | none => []
  | some (l, rest) => l :: lexemes rest
termination_by cs.length
decreasing_by exact Lexeme.length_lt_of_next? ‹_›

end Mips32.Json
