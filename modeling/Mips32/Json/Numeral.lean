import Mips32.Decimal
import Mips32.Json.TextUnit

/-! JSON numerals: how they are written, and the number that one stands for. Whole numerals
that 64 bits hold are integers, all others are doubles. -/
namespace Mips32.Json

/-- A numeral by its digits. The fraction is empty when there is no point. -/
structure Numeral where
  negative : Bool
  whole : List Nat
  fraction : List Nat
  exponent : Option Int
  deriving DecidableEq, Repr

/-- What a numeral stands for. A double is kept as its shortest decimal. -/
inductive Number where
  | integer (value : Int)
  | double (value : Decimal)
  deriving DecidableEq, Repr

namespace Numeral

def ofNat (n : Nat) : Numeral :=
  ⟨false, (Nat.toDigits 10 n).filterMap Radix.decimal.digit?, [], none⟩

/-! ### Reading -/

/-- What is wrong with a text that lacks a digit at its start. -/
def lacking : List Char → Problem
  | [] => .cut
  | _ :: _ => .malformed

/-- One digit or more. -/
def someDigits (cs : List Char) : Except Problem (List Nat × List Char) :=
  let found := Radix.decimal.takeDigits cs
  if found.1 = [] then .error (lacking cs) else .ok found

/-- The digits before the point. No digit may follow a zero in front. -/
def wholeDigits (cs : List Char) : Except Problem (List Nat × List Char) :=
  match someDigits cs with
  | .ok (0 :: _ :: _, _) => .error .malformed
  | found => found

/-- The point and the digits after it, if there is a point. -/
def fractionDigits : List Char → Except Problem (List Nat × List Char)
  | '.' :: cs => someDigits cs
  | cs => .ok ([], cs)

/-- The sign that may stand before the digits of an exponent. -/
def exponentSign : List Char → Bool × List Char
  | '-' :: cs => (true, cs)
  | '+' :: cs => (false, cs)
  | cs => (false, cs)

def exponentValue (negative : Bool) (digits : List Nat) : Int :=
  let n : Int := Radix.decimal.number digits
  if negative then -n else n

/-- The exponent, if there is one. -/
def exponentPart : List Char → Except Problem (Option Int × List Char)
  | c :: cs =>
    if c = 'e' ∨ c = 'E' then do
      let (digits, rest) ← someDigits (exponentSign cs).2
      return (exponentValue (exponentSign cs).1 digits, rest)
    else .ok (none, c :: cs)
  | [] => .ok (none, [])

def unsigned (negative : Bool) (cs : List Char) : Except Problem (Numeral × List Char) := do
  let (whole, cs) ← wholeDigits cs
  let (fraction, cs) ← fractionDigits cs
  let (exponent, cs) ← exponentPart cs
  return (⟨negative, whole, fraction, exponent⟩, cs)

/-- The numeral that a text starts with, and the text after it. -/
def read : List Char → Except Problem (Numeral × List Char)
  | '-' :: cs => unsigned true cs
  | cs => unsigned false cs

/-! ### Length -/

theorem length_lt_of_someDigits {cs rest : List Char} {ds : List Nat}
    (h : someDigits cs = .ok (ds, rest)) : rest.length < cs.length := by
  have total := Radix.length_takeDigits .decimal cs
  simp only [someDigits] at h
  split at h
  · cases h
  · next found =>
    rw [Except.ok.inj h] at found total
    have := List.length_pos_iff.mpr found
    simp only at this total
    omega

theorem length_lt_of_wholeDigits {cs rest : List Char} {ds : List Nat}
    (h : wholeDigits cs = .ok (ds, rest)) : rest.length < cs.length := by
  unfold wholeDigits at h
  split at h
  · cases h
  · exact length_lt_of_someDigits h

theorem length_le_of_fractionDigits {cs rest : List Char} {ds : List Nat}
    (h : fractionDigits cs = .ok (ds, rest)) : rest.length ≤ cs.length := by
  unfold fractionDigits at h
  split at h
  · have := length_lt_of_someDigits h
    simp; omega
  · cases h; exact Nat.le_refl _

theorem length_exponentSign_le (cs : List Char) : (exponentSign cs).2.length ≤ cs.length := by
  unfold exponentSign
  split <;> simp

theorem length_le_of_exponentPart {cs rest : List Char} {e : Option Int}
    (h : exponentPart cs = .ok (e, rest)) : rest.length ≤ cs.length := by
  unfold exponentPart at h
  split at h
  · next c cs =>
    split at h
    · cases digits : someDigits (exponentSign cs).2 with
      | error p => simp [digits, bind, Except.bind] at h
      | ok found =>
        have shorter := length_lt_of_someDigits digits
        have := length_exponentSign_le cs
        simp [digits, bind, Except.bind, pure, Except.pure] at h
        rw [← h.2, List.length_cons]
        omega
    · cases h; exact Nat.le_refl _
  · cases h; exact Nat.le_refl _

theorem length_lt_of_unsigned {negative : Bool} {cs rest : List Char} {n : Numeral}
    (h : unsigned negative cs = .ok (n, rest)) : rest.length < cs.length := by
  unfold unsigned at h
  cases whole : wholeDigits cs with
  | error p => simp [whole, bind, Except.bind] at h
  | ok w =>
    cases fraction : fractionDigits w.2 with
    | error p => simp [whole, fraction, bind, Except.bind] at h
    | ok f =>
      cases exponent : exponentPart f.2 with
      | error p => simp [whole, fraction, exponent, bind, Except.bind] at h
      | ok e =>
        simp [whole, fraction, exponent, bind, Except.bind, pure, Except.pure] at h
        have := length_lt_of_wholeDigits whole
        have := length_le_of_fractionDigits fraction
        have := length_le_of_exponentPart exponent
        rw [← h.2]
        omega

/-- What is left after a numeral is shorter than the text read. -/
theorem length_lt_of_read {cs rest : List Char} {n : Numeral}
    (h : read cs = .ok (n, rest)) : rest.length < cs.length := by
  unfold read at h
  split at h
  · have := length_lt_of_unsigned h
    simp; omega
  · exact length_lt_of_unsigned h

/-! ### Writing -/

def digitChars (digits : List Nat) : List Char := digits.map Nat.digitChar

def exponentText : Option Int → List Char
  | none => []
  | some e => 'e' :: (if e < 0 then ['-'] else []) ++ Nat.toDigits 10 e.natAbs

def text (n : Numeral) : List Char :=
  (if n.negative then ['-'] else []) ++ digitChars n.whole ++
    (if n.fraction.isEmpty then [] else '.' :: digitChars n.fraction) ++ exponentText n.exponent

/-! ### Value -/

/-- Appends digits to a number as long as 64 bits hold it. The second part counts the digits
that were left out. -/
def extend : Nat → List Nat → Nat × Nat
  | acc, [] => (acc, 0)
  | acc, d :: ds => if acc * 10 + d < UInt64.size then extend (acc * 10 + d) ds else (acc, ds.length + 1)

/-- The digits that count and the power of ten they stand for. Whole digits left out count as
zeros, fraction digits left out do not count. -/
def significand (n : Numeral) : Nat × Int :=
  let (acc, skipped) := extend 0 n.whole
  let (acc, dropped) := extend acc n.fraction
  (acc, skipped + dropped - n.fraction.length + n.exponent.getD 0)

/-- The largest power of ten that one step scales by. -/
def scaleStep : Nat := 308

def powerOfTen (n : Nat) : Float := .ofScientific 1 false n

/-- Divides by a power of ten, in steps. -/
def scaleDown (f : Float) (n : Nat) : Float :=
  if f == 0 then f
  else if scaleStep < n then scaleDown (f / powerOfTen scaleStep) (n - scaleStep)
  else f / powerOfTen n
termination_by n
decreasing_by simp only [scaleStep] at *; omega

/-- Multiplies by a power of ten, if the product is finite. -/
def scaleUp (f : Float) (n : Nat) : Option Float :=
  if f == 0 then some f
  else if n ≤ scaleStep ∧ (f * powerOfTen n).isFinite then some (f * powerOfTen n)
  else none

/-- The double of a numeral, if there is one so large: the digits that count are rounded to a
double, and that is scaled. -/
def double? (n : Numeral) : Option Float :=
  let (digits, e) := n.significand
  let magnitude : Option Float :=
    if e < 0 then some (scaleDown (.ofNat digits) (-e).toNat) else scaleUp (.ofNat digits) e.toNat
  magnitude.map fun f => if n.negative then -f else f

/-- The integer of a numeral without fraction and exponent, if 64 bits hold it. There is no
negative zero among the integers. -/
def integer? (n : Numeral) : Option Int :=
  let value := Radix.decimal.number n.whole
  if n.fraction ≠ [] ∨ n.exponent ≠ none then none
  else if n.negative then
    if 0 < value ∧ 2 * value ≤ UInt64.size then some (-(value : Int)) else none
  else if value < UInt64.size then some value else none

/-- The number of a numeral. One that no double reaches has none. -/
def number? (n : Numeral) : Option Number :=
  match n.integer? with
  | some i => some (.integer i)
  | none => n.double?.map fun f => .double (.ofFloat f)

end Numeral

end Mips32.Json
