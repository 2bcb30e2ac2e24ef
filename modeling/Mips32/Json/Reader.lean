import Mips32.Json.Mismatch
import Mips32.Json.Skip

/-! Readers of typed values from lexemes. A reader uses up at least one lexeme, which bounds
every repetition, and it stops at the first problem in the order of the text. -/
namespace Mips32.Json

/-- Why a value cannot be read: the text is not JSON, or it is not the JSON that is wanted. -/
inductive Failure where
  | problem (p : Problem)
  | mismatch (m : Mismatch)
  deriving DecidableEq, Repr

structure Reader (α : Type) where
  run : List Lexeme → Except Failure (α × List Lexeme)
  length_lt : ∀ {ls a rest}, run ls = .ok (a, rest) → rest.length < ls.length

/-- What is wrong with a defect in the place of a value that is wanted: the scalar is read to
its end first. -/
def Defect.asWanted : Defect → Problem
  | word p | number p => p
  | string units p =>
    match TextUnit.joined (some p) units with
    | .error e => e
    | .ok _ => p
  | stray => .malformed

/-- Why a lexeme is not the start of the value that is wanted. -/
def Lexeme.unwanted (expected : String) (l : Lexeme) : Failure :=
  let found (f : Found) : Failure := .mismatch (.type f expected)
  match l with
  | null => found .null
  | bool b => found (.bool b)
  | number n =>
    match n.number? with
    | some value => found (.number value)
    | none => .problem .malformed
  | string units =>
    match TextUnit.joined none units with
    | .ok cs => found (.string (.ofList cs))
    | .error p => .problem p
  | opening .array => found .array
  | opening .object => found .object
  | closing _ | comma | colon => .problem .malformed
  | defect d => .problem d.asWanted

namespace Reader

/-- Reads one lexeme. -/
def lexeme {α : Type} (f : Lexeme → Except Failure α) : Reader α where
  run
    | [] => .error (.problem .cut)
    | l :: ls => (f l).map (·, ls)
  length_lt {ls a rest} h := by
    rcases ls with - | ⟨l, ls⟩
    · cases h
    · cases read : f l <;> simp_all [Except.map]

def fail {α : Type} (e : Failure) : Reader α where
  run _ := .error e
  length_lt h := by cases h

/-- Examines what was read. -/
def check {α β : Type} (r : Reader α) (f : α → Except Failure β) : Reader β where
  run ls :=
    match r.run ls with
    | .ok (a, rest) => (f a).map (·, rest)
    | .error e => .error e
  length_lt {ls b rest} h := by
    split at h
    · next a middle first =>
      cases examined : f a <;> simp_all [Except.map]
      exact r.length_lt first
    · cases h

def map {α β : Type} (f : α → β) (r : Reader α) : Reader β := r.check fun a => .ok (f a)

/-- Reads on with a reader that depends on what was read. -/
def bind {α β : Type} (r : Reader α) (f : α → Reader β) : Reader β where
  run ls :=
    match r.run ls with
    | .ok (a, rest) => (f a).run rest
    | .error e => .error e
  length_lt {ls b rest} h := by
    split at h
    · next a middle first => exact Nat.lt_trans ((f a).length_lt h) (r.length_lt first)
    · cases h

/-- Reads a mark; anything else is malformed. -/
def mark (l : Lexeme) : Reader Unit :=
  lexeme fun m => if m = l then .ok () else .error (.problem .malformed)

def skipped : Reader Unit where
  run ls :=
    match skip ls with
    | .ok rest => .ok ((), rest)
    | .error p => .error (.problem p)
  length_lt {ls a rest} h := by
    split at h
    · next skipped => cases h; exact length_lt_of_skip skipped
    · cases h

def bool : Reader Bool :=
  lexeme fun
    | .bool b => .ok b
    | l => .error (l.unwanted "a boolean")

def null : Reader Unit :=
  lexeme fun
    | .null => .ok ()
    | l => .error (l.unwanted "unit")

/-- The text of units that are wanted. -/
def textOf (units : List TextUnit) : Except Failure String :=
  match TextUnit.joined none units with
  | .ok cs => .ok (.ofList cs)
  | .error p => .error (.problem p)

def string : Reader String :=
  lexeme fun
    | .string units => textOf units
    | l => .error (l.unwanted "a string")

/-- A name, which only a string can be. -/
def name : Reader String :=
  lexeme fun
    | .string units => textOf units
    | .defect (.string units p) => .error (.problem (Defect.string units p).asWanted)
    | _ => .error (.problem .malformed)

/-! ### Variants -/

/-- The variant of a name. -/
def variantOf {α : Type} (known : List (String × α)) (name : String) : Except Failure α :=
  match known.lookup name with
  | some a => .ok a
  | none => .error (.mismatch (.variant name (known.map Prod.fst)))

/-- A variant by its name. -/
def named {α : Type} (known : List (String × α)) : Reader α := name.check (variantOf known)

/-- A variant inside an object, as the name of its only member, whose value is null. -/
def wrapped {α : Type} (known : List (String × α)) : Reader α :=
  (named known).bind fun a => (mark .colon).bind fun _ => null.bind fun _ =>
    (mark (.closing .object)).map fun _ => a

/-- A variant, alone or inside an object. What is neither string nor object is malformed. -/
def variant {α : Type} (known : List (String × α)) : Reader α where
  run
    | [] => .error (.problem .cut)
    | l :: ls => if l = .opening .object then (wrapped known).run ls else (named known).run (l :: ls)
  length_lt {ls a rest} h := by
    rcases ls with - | ⟨l, ls⟩
    · cases h
    · simp only at h
      split at h
      · exact Nat.lt_succ_of_lt ((wrapped known).length_lt h)
      · exact (named known).length_lt h

end Reader

end Mips32.Json
