import Mips32.Json.Reader

/-! Records with a default for every member, written as an object or as an array. In an object
the members come in any order, at most once each, among others that are skipped; in an array
they come in the order of the schema, and those at the end may be missing. -/
namespace Mips32.Json

/-- A member of a record: its value replaces part of the record. -/
structure Member (ρ : Type) where
  name : String
  reader : Reader (ρ → ρ)

structure Schema (ρ : Type) where
  /-- The name of the record in messages. -/
  title : String
  defaults : ρ
  members : List (Member ρ)

/-- An object on the way: the record so far, and the names of the known members read. -/
structure Partial (ρ : Type) where
  record : ρ
  seen : List String

namespace Schema

variable {ρ : Type}

/-! ### Objects -/

/-- A comma, or the end of an object. Whether it was a comma. -/
def objectSeparator : Reader Bool :=
  Reader.lexeme fun
    | .comma => .ok true
    | .closing .object => .ok false
    | _ => .error (.problem .malformed)

/-- The value of a member with a given name. A known member that was seen before is refused
before anything else of it is read. -/
def value (s : Schema ρ) (p : Partial ρ) (name : String) : Reader (Partial ρ) :=
  match s.members.find? (·.name = name) with
  | none => (Reader.mark .colon).bind fun _ => Reader.skipped.map fun _ => p
  | some m =>
    if name ∈ p.seen then .fail (.mismatch (.duplicate name))
    else (Reader.mark .colon).bind fun _ =>
      m.reader.map fun replace => ⟨replace p.record, name :: p.seen⟩

/-- A member and the separator after it. -/
def member (s : Schema ρ) (p : Partial ρ) : Reader (Partial ρ × Bool) :=
  Reader.name.bind fun name => (s.value p name).bind fun q => objectSeparator.map fun more => (q, more)

/-- The members of an object, up to its end. -/
def object (s : Schema ρ) (p : Partial ρ) (ls : List Lexeme) : Except Failure (ρ × List Lexeme) :=
  match _h : (s.member p).run ls with
  | .error e => .error e
  | .ok ((q, true), rest) => s.object q rest
  | .ok ((q, false), rest) => .ok (q.record, rest)
termination_by ls.length
decreasing_by exact (s.member p).length_lt ‹_›

/-! ### Arrays -/

/-- The items of an array after the first one, up to its end. -/
def itemsAfter (record : ρ) : List (Member ρ) → List Lexeme → Except Failure (ρ × List Lexeme)
  | _, .closing .array :: rest => .ok (record, rest)
  | m :: ms, .comma :: ls =>
    match m.reader.run ls with
    | .ok (replace, rest) => itemsAfter (replace record) ms rest
    | .error e => .error e
  | _, [] => .error (.problem .cut)
  | _, _ :: _ => .error (.problem .malformed)

/-- The items of an array: those after an imagined comma. -/
def items (s : Schema ρ) : List Lexeme → Except Failure (ρ × List Lexeme)
  | .closing .array :: rest => .ok (s.defaults, rest)
  | ls => itemsAfter s.defaults s.members (.comma :: ls)

/-! ### Records -/

theorem length_lt_of_object {s : Schema ρ} {p : Partial ρ} {ls rest : List Lexeme} {r : ρ}
    (h : s.object p ls = .ok (r, rest)) : rest.length < ls.length := by
  fun_induction object s p ls with
  | case1 => cases h
  | case2 p ls q rest' read ih => exact Nat.lt_trans (ih h) ((s.member p).length_lt read)
  | case3 p ls q rest' read => cases h; exact (s.member p).length_lt read

theorem length_lt_of_itemsAfter {record r : ρ} {ms : List (Member ρ)} {ls rest : List Lexeme}
    (h : itemsAfter record ms ls = .ok (r, rest)) : rest.length < ls.length := by
  fun_induction itemsAfter record ms ls with
  | case1 => cases h; exact Nat.lt_succ_self _
  | case2 record m ms ls replace rest' read ih =>
    exact Nat.lt_succ_of_lt (Nat.lt_trans (ih h) (m.reader.length_lt read))
  | case3 => cases h
  | case4 => cases h
  | case5 => cases h

theorem length_le_of_items {s : Schema ρ} {ls rest : List Lexeme} {r : ρ}
    (h : s.items ls = .ok (r, rest)) : rest.length ≤ ls.length := by
  unfold items at h
  split at h
  · cases h; exact Nat.le_succ _
  · exact Nat.le_of_lt_succ (length_lt_of_itemsAfter h)

/-- The reader of a record. -/
def reader (s : Schema ρ) : Reader ρ where
  run
    | [] => .error (.problem .cut)
    | .opening .object :: .closing .object :: ls => .ok (s.defaults, ls)
    | .opening .object :: ls => s.object ⟨s.defaults, []⟩ ls
    | .opening .array :: ls => s.items ls
    | l :: _ => .error (l.unwanted ("struct " ++ s.title))
  length_lt {ls a rest} h := by
    split at h
    · cases h
    · cases h; exact Nat.lt_succ_of_lt (Nat.lt_succ_self _)
    · exact Nat.lt_succ_of_lt (length_lt_of_object h)
    · exact Nat.lt_succ_of_le (length_le_of_items h)
    · cases h

/-- A record that is a member of another one. -/
def asMember {σ : Type} (s : Schema ρ) (name : String) (replace : ρ → σ → σ) : Member σ :=
  ⟨name, s.reader.map replace⟩

/-- Reads a text that holds one record and nothing else. -/
def ofText (s : Schema ρ) (text : String) : Except Failure ρ :=
  match s.reader.run (lexemes text.toList) with
  | .ok (record, []) => .ok record
  | .ok (_, _ :: _) => .error (.problem .malformed)
  | .error e => .error e

end Schema

end Mips32.Json
