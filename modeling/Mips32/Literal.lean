import Mips32.DecodeError
import Mips32.Radix

/-! Word literals: digits of a radix, with underscores anywhere among them, behind an
optional radix prefix. Blanks around the literal do not count, and there is no sign. The blank
characters are those with the Unicode property White_Space, a few more than `Char.isWhitespace`
knows. -/
namespace Mips32

/-! ### White space -/

namespace Text

/-- The blank characters outside the two runs U+0009 to U+000D and U+2000 to U+200A. -/
def loneBlanks : List Nat :=
  [0x20, 0x85, 0xA0, 0x1680, 0x2028, 0x2029, 0x202F, 0x205F, 0x3000]

def isBlank (c : Char) : Bool :=
  (0x9 ≤ c.toNat && c.toNat ≤ 0xD) || (0x2000 ≤ c.toNat && c.toNat ≤ 0x200A)
    || loneBlanks.contains c.toNat

/-- Drops the blanks at both ends. -/
def trim (cs : List Char) : List Char :=
  ((cs.dropWhile isBlank).reverse.dropWhile isBlank).reverse

end Text

/-! ### Literals -/

/-- The radix that a letter after a leading zero announces. -/
def Radix.ofLetter? (c : Char) : Option Radix :=
  if c = 'b' ∨ c = 'B' then some binary
  else if c = 'o' ∨ c = 'O' then some octal
  else if c = 'x' ∨ c = 'X' then some hexadecimal
  else none

namespace Literal

/-- Splits off the radix prefix. A literal without one is decimal. -/
def splitRadix : List Char → Radix × List Char
  | '0' :: c :: cs =>
    match Radix.ofLetter? c with
    | some r => (r, cs)
    | none => (.decimal, '0' :: c :: cs)
  | cs => (.decimal, cs)

/-- The number of a text between underscores, of which there must be a digit. -/
def number? (r : Radix) (cs : List Char) : Option Nat :=
  match (cs.filter (· ≠ '_')).mapM r.digit? with
  | none | some [] => none
  | some digits => some (r.number digits)

/-- The number of a literal, of any size. -/
def value? (cs : List Char) : Option Nat :=
  let (radix, digits) := splitRadix (Text.trim cs)
  number? radix digits

end Literal

/-- Reads a word literal. The error carries the text as given, with its blanks. -/
def Word.ofLiteral (text : String) : Except DecodeError Word :=
  match Literal.value? text.toList with
  | some n => if n < UInt32.size then .ok (.ofNat n) else .error (.malformedWord text)
  | none => .error (.malformedWord text)

end Mips32
