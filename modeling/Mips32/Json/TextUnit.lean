import Mips32.Radix

/-! The contents of JSON strings. An escape of four hexadecimal digits may stand for half of a
surrogate pair, so a string is a list of units; `joined` puts the halves together, and says
whether a half is left alone. -/
namespace Mips32.Json

/-- Why a text is not JSON. -/
inductive Problem where
  /-- Something stands where it may not. -/
  | malformed
  /-- The text ends too early. -/
  | cut
  deriving DecidableEq, Repr

/-- A character, or the leading or trailing half of one above U+FFFF. A half carries ten bits
of the character. -/
inductive TextUnit where
  | char (c : Char)
  | leading (bits : Fin 1024)
  | trailing (bits : Fin 1024)
  deriving DecidableEq, Repr

namespace TextUnit

/-- The unit of an escaped code. -/
def ofCode (n : Nat) : TextUnit :=
  if n < 0xD800 ∨ 0xE000 ≤ n then char (.ofNat n)
  else if n < 0xDC00 then leading (.ofNat 1024 (n - 0xD800))
  else trailing (.ofNat 1024 (n - 0xDC00))

def joinPair (high low : Fin 1024) : Char := .ofNat (0x10000 + high * 1024 + low)

/-! ### Reading -/

/-- The characters that follow a backslash in a short escape, with their meanings. -/
def shortEscapes : List (Char × Char) :=
  [('"', '"'), ('\\', '\\'), ('/', '/'), ('b', '\x08'), ('f', '\x0c'), ('n', '\n'), ('r', '\r'),
   ('t', '\t')]

/-- The code that four hexadecimal digits spell. -/
def code? (digits : List Char) : Option Nat :=
  (digits.mapM Radix.hexadecimal.digit?).map Radix.hexadecimal.number

/-- What is wrong with the text after `\u` when four hexadecimal digits do not follow. The text
is cut only if it is shorter than four bytes. -/
def shortfall (cs : List Char) : Problem :=
  if (String.ofList cs).utf8ByteSize < 4 then .cut else .malformed

/-- The units read, and then the text after the closing quote or what is wrong. -/
abbrev Reading := List TextUnit × Except Problem (List Char)

def Reading.before (u : TextUnit) (r : Reading) : Reading := (u :: r.1, r.2)

/-- Reads the body of a string after its opening quote. -/
def read : List Char → Reading
  | [] => ([], .error .cut)
  | '"' :: rest => ([], .ok rest)
  | '\\' :: 'u' :: a :: b :: c :: d :: rest =>
    match code? [a, b, c, d] with
    | some n => Reading.before (ofCode n) (read rest)
    | none => ([], .error (shortfall (a :: b :: c :: d :: rest)))
  | '\\' :: 'u' :: rest => ([], .error (shortfall rest))
  | '\\' :: c :: rest =>
    match shortEscapes.lookup c with
    | some meaning => Reading.before (char meaning) (read rest)
    | none => ([], .error .malformed)
  | ['\\'] => ([], .error .cut)
  | c :: rest =>
    if c < ' ' then ([], .error .malformed) else Reading.before (char c) (read rest)

/-- The characters of units, the halves of pairs joined. A half that stands alone is malformed.
The units may end in a problem, which then is the problem of all that lead up to it; it also
goes before that of a leading half at the very end, whose trailing half may have been cut. -/
def joined (stop : Option Problem) : List TextUnit → Except Problem (List Char)
  | [] => match stop with
    | none => .ok []
    | some p => .error p
  | char c :: units => return c :: (← joined stop units)
  | leading high :: trailing low :: units => return joinPair high low :: (← joined stop units)
  | [leading _] => .error (stop.getD .malformed)
  | leading _ :: _ :: _ => .error .malformed
  | trailing _ :: _ => .error .malformed

/-! ### Writing -/

/-- The escape of a code, in lower case. -/
def codeEscape (n : Nat) : List Char :=
  '\\' :: 'u' :: List.leftpad 4 '0' (Nat.toDigits 16 n)

/-- The short escapes that are written. A slash stands for itself. -/
def escapeLetter? (c : Char) : Option Char :=
  (shortEscapes.find? fun e => e.2 = c ∧ c ≠ '/').map Prod.fst

/-- Quotes, backslashes and controls below U+0020 are escaped, all other characters stand for
themselves. -/
def text : TextUnit → List Char
  | char c =>
    match escapeLetter? c with
    | some letter => ['\\', letter]
    | none => if c < ' ' then codeEscape c.toNat else [c]
  | leading bits => codeEscape (0xD800 + bits)
  | trailing bits => codeEscape (0xDC00 + bits)

/-! ### Length -/

/-- What is left after a string is shorter than the text read. -/
theorem length_lt_of_read {cs rest : List Char} (h : (read cs).2 = .ok rest) :
    rest.length < cs.length := by
  fun_induction read cs <;> simp_all [Reading.before] <;> omega

end TextUnit

end Mips32.Json
