/-! Digits in the radices that the program reads: the value of a digit character, runs of
digits, and the number that digits spell. Only ASCII characters are digits. -/
namespace Mips32

inductive Radix where
  | binary | octal | decimal | hexadecimal
  deriving DecidableEq, Repr

/-- The value of an ASCII digit or letter, as a digit of the largest radix. -/
def digitValue? (c : Char) : Option Nat :=
  if '0' ≤ c ∧ c ≤ '9' then some (c.toNat - '0'.toNat)
  else if 'a' ≤ c ∧ c ≤ 'f' then some (c.toNat - 'a'.toNat + 10)
  else if 'A' ≤ c ∧ c ≤ 'F' then some (c.toNat - 'A'.toNat + 10)
  else none

namespace Radix

def base : Radix → Nat
  | binary => 2
  | octal => 8
  | decimal => 10
  | hexadecimal => 16

def digit? (r : Radix) (c : Char) : Option Nat := (digitValue? c).filter (· < r.base)

/-- The number that digits spell, the most significant one first. -/
def number (r : Radix) (digits : List Nat) : Nat :=
  digits.foldl (fun acc d => acc * r.base + d) 0

/-- The digits a text starts with, and the text after them. -/
def takeDigits (r : Radix) : List Char → List Nat × List Char
  | [] => ([], [])
  | c :: cs =>
    match r.digit? c with
    | some d => let (ds, rest) := r.takeDigits cs; (d :: ds, rest)
    | none => ([], c :: cs)

theorem length_takeDigits (r : Radix) (cs : List Char) :
    (r.takeDigits cs).1.length + (r.takeDigits cs).2.length = cs.length := by
  induction cs with
  | nil => rfl
  | cons c cs ih =>
    rw [takeDigits]
    cases r.digit? c with
    | none => simp
    | some d => simp only [List.length_cons]; omega

end Radix

end Mips32
