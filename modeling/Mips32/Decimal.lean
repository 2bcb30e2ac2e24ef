/-! Decimals with a floating point, and their text. `Decimal.ofFloat` takes the decimal with
the fewest digits that reads back as the same double, and of those the nearest one. All
comparisons are made on whole numbers. -/
namespace Mips32

/-- The number `mantissa` times two to the power of `exponent`. -/
structure Binary64 where
  mantissa : Nat
  exponent : Int
  deriving DecidableEq, Repr

namespace Binary64

/-- The bit of the mantissa that is not stored. -/
def hiddenBit : Nat := 1 <<< 52

/-- The magnitude of a finite double. -/
def ofFloat (f : Float) : Binary64 :=
  let stored := f.toBits.toNat % hiddenBit
  let biased : Nat := (f.toBits.toNat >>> 52) % (1 <<< 11)
  if biased = 0 then ⟨stored, -1074⟩ else ⟨hiddenBit + stored, (biased : Int) - 1075⟩

/-- The double below the least one of a binade is only half as far away as the one above. -/
def leastOfBinade (b : Binary64) : Bool := b.mantissa = hiddenBit ∧ -1074 < b.exponent

/-- `b` over ten to the power of `e`, as a numerator and a denominator. -/
def quotient (b : Binary64) (e : Int) : Nat × Nat :=
  ((b.mantissa <<< b.exponent.toNat) * Nat.pow 10 (-e).toNat,
    (1 <<< (-b.exponent).toNat) * Nat.pow 10 e.toNat)

/-- Whether `d` times ten to the power of `e` is rounded to `b`: it lies between the middles of
the gaps on both sides of `b`, or on a middle if the mantissa is even. -/
def readsBack (b : Binary64) (e : Int) (d : Nat) : Bool :=
  let scaled := 4 * d * b.mantissa * (b.quotient e).2
  let low := (4 * b.mantissa - if b.leastOfBinade then 1 else 2) * (b.quotient e).1
  let high := (4 * b.mantissa + 2) * (b.quotient e).1
  if b.mantissa % 2 = 0 then low ≤ scaled && scaled ≤ high else low < scaled && scaled < high

/-- The two neighbours of `b` on the grid of ten to the power of `e`, the nearer one first. In
the middle the even one counts as nearer. -/
def neighbours (b : Binary64) (e : Int) : Nat × Nat :=
  let (num, den) := b.quotient e
  let d := num / den
  let twice := 2 * (num % den)
  if den < twice ∨ (den = twice ∧ d % 2 = 1) then (d + 1, d) else (d, d + 1)

/-- The digits on a grid that read back. -/
def onGrid? (b : Binary64) (e : Int) : Option Nat :=
  let (near, far) := b.neighbours e
  if b.readsBack e near then some near else if b.readsBack e far then some far else none

/-- The first hit on ever finer grids, the coarsest being that of ten to the power of `e`. -/
def firstHit (b : Binary64) : Nat → Int → Nat × Int
  | 0, e => ((b.neighbours e).1, e)
  | finer + 1, e =>
    match b.onGrid? e with
    | some d => (d, e)
    | none => b.firstHit finer (e - 1)

end Binary64

/-- The number that `digits` spell, times ten to the power of `exponent`. -/
structure Decimal where
  negative : Bool
  digits : Nat
  exponent : Int
  deriving DecidableEq, Repr

namespace Decimal

/-- The shortest decimal of a finite double. Every double lies below ten to the power of 309,
and seventeen digits tell the least of them from its neighbours. -/
def ofFloat (f : Float) : Decimal :=
  let b := Binary64.ofFloat f
  let negative := f.toBits.toNat >>> 63 = 1
  if b.mantissa = 0 then ⟨negative, 0, 0⟩
  else let (digits, exponent) := b.firstHit (309 + 324 + 17) 309; ⟨negative, digits, exponent⟩

/-- The powers of ten of the first digit for which all places are written out. -/
def positional (e : Int) : Bool := -5 ≤ e && e ≤ 15

/-- The text of a positive decimal, with all places and at least one after the point. The
first `whole` digits stand before the point. -/
def places (digits : List Char) (whole : Int) : List Char :=
  let before := digits.take whole.toNat
  let after := digits.drop whole.toNat
  let before := before ++ List.replicate (whole.toNat - before.length) '0'
  (if before.isEmpty then ['0'] else before) ++ '.' ::
    (if after.isEmpty then ['0'] else List.replicate (-whole).toNat '0' ++ after)

/-- The text of a positive decimal with one digit before the point, and its power of ten. -/
def scientific (digits : List Char) (e : Int) : List Char :=
  digits.take 1 ++ (if digits.length ≤ 1 then [] else '.' :: digits.drop 1) ++
    'e' :: (if e < 0 then '-' else '+') :: Nat.toDigits 10 e.natAbs

def text (d : Decimal) : String :=
  let digits := Nat.toDigits 10 d.digits
  let whole := digits.length + d.exponent
  let body := if positional (whole - 1) then places digits whole else scientific digits (whole - 1)
  .ofList (if d.negative then '-' :: body else body)

end Decimal

end Mips32
