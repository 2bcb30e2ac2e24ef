import Mips32.Json.Lexeme

/-! Skipping a value whose contents do not matter. Only its grammar is checked, at any depth:
numbers may be too large, and halves of surrogate pairs may stand alone. -/
namespace Mips32.Json

/-- What may come next in a value. -/
inductive Turn where
  | value
  /-- The first item of an array, or its end. -/
  | firstItem
  /-- The first name of an object, or its end. -/
  | firstName
  | name
  | colon
  /-- A comma, or the end of the innermost container. -/
  | separator
  deriving DecidableEq, Repr

/-- A place in a value: what may come next, and the open containers, the innermost first. -/
structure Position where
  turn : Turn
  inside : List Container
  deriving DecidableEq, Repr

/-- What is wrong with a defect in the place of a value. A number that lacks a digit is
malformed even at the end of the text. -/
def Defect.asSkipped : Defect → Problem
  | word p => p
  | number _ => .malformed
  | string _ p => p
  | stray => .malformed

/-- What is wrong with a defect in the place of a name. -/
def Defect.asName : Defect → Problem
  | string _ p => p
  | _ => .malformed

namespace Position

def start : Position := ⟨.value, []⟩

/-- A whole value has been passed. -/
def finished (p : Position) : Prop := p = ⟨.separator, []⟩

instance (p : Position) : Decidable p.finished :=
  inferInstanceAs (Decidable (p = ⟨.separator, []⟩))

/-- Passes the first lexeme of a value. -/
def enter (inside : List Container) : Lexeme → Except Problem Position
  | .opening .array => .ok ⟨.firstItem, .array :: inside⟩
  | .opening .object => .ok ⟨.firstName, .object :: inside⟩
  | .null | .bool _ | .number _ | .string _ => .ok ⟨.separator, inside⟩
  | .defect d => .error d.asSkipped
  | .closing _ | .comma | .colon => .error .malformed

def enterName (inside : List Container) : Lexeme → Except Problem Position
  | .string _ => .ok ⟨.colon, inside⟩
  | .defect d => .error d.asName
  | _ => .error .malformed

/-- Passes the lexeme after an item or a member. -/
def leave : List Container → Lexeme → Except Problem Position
  | .array :: outer, .comma => .ok ⟨.value, .array :: outer⟩
  | .object :: outer, .comma => .ok ⟨.name, .object :: outer⟩
  | c :: outer, .closing d => if c = d then .ok ⟨.separator, outer⟩ else .error .malformed
  | _, _ => .error .malformed

/-- Passes one lexeme. -/
def step (p : Position) (l : Lexeme) : Except Problem Position :=
  match p.turn with
  | .value => enter p.inside l
  | .firstItem => if l = .closing .array then leave p.inside l else enter p.inside l
  | .firstName => if l = .closing .object then leave p.inside l else enterName p.inside l
  | .name => enterName p.inside l
  | .colon => if l = .colon then .ok ⟨.value, p.inside⟩ else .error .malformed
  | .separator => leave p.inside l

end Position

/-- Passes the rest of a value, from a place in it. -/
def skipFrom (p : Position) : List Lexeme → Except Problem (List Lexeme)
  | [] => if p.finished then .ok [] else .error .cut
  | l :: ls =>
    if p.finished then .ok (l :: ls)
    else match p.step l with
      | .ok next => skipFrom next ls
      | .error e => .error e

/-- The lexemes after the value that comes first. -/
def skip (ls : List Lexeme) : Except Problem (List Lexeme) := skipFrom .start ls

theorem length_le_of_skipFrom {p : Position} {ls rest : List Lexeme}
    (h : skipFrom p ls = .ok rest) : rest.length ≤ ls.length := by
  induction ls generalizing p with
  | nil =>
    rw [skipFrom] at h
    split at h <;> simp_all
  | cons l ls ih =>
    rw [skipFrom] at h
    split at h
    · simp_all
    · split at h
      · exact Nat.le_succ_of_le (ih h)
      · cases h

theorem length_lt_of_skip {ls rest : List Lexeme} (h : skip ls = .ok rest) :
    rest.length < ls.length := by
  rcases ls with - | ⟨l, ls⟩
  · cases h
  · rw [skip, skipFrom, if_neg (by decide)] at h
    split at h
    · exact Nat.lt_succ_of_le (length_le_of_skipFrom h)
    · cases h

end Mips32.Json
