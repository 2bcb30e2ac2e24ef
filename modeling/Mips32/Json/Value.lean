import Mips32.Json.Lexeme

/-! JSON values and their lexemes. The compact text of a value is the text of its lexemes
without blanks between them, and a text is JSON when its lexemes are those of a value. -/
namespace Mips32

/-- A JSON value. Members keep their order, and a name may come twice. -/
inductive Json where
  | null
  | bool (value : Bool)
  | number (value : Json.Numeral)
  | string (units : List Json.TextUnit)
  | array (items : List Json)
  | object (members : List (List Json.TextUnit × Json))

namespace Json

def units (s : String) : List TextUnit := s.toList.map .char

def ofString (s : String) : Json := .string (units s)

def ofNat (n : Nat) : Json := .number (.ofNat n)

/-- An object with plain names. -/
def ofMembers (members : List (String × Json)) : Json :=
  .object (members.map fun m => (units m.1, m.2))

mutual

def toLexemes : Json → List Lexeme
  | null => [.null]
  | bool b => [.bool b]
  | number n => [.number n]
  | string us => [.string us]
  | array items => .opening .array :: itemLexemes items ++ [.closing .array]
  | object members => .opening .object :: memberLexemes members ++ [.closing .object]

def itemLexemes : List Json → List Lexeme
  | [] => []
  | [v] => toLexemes v
  | v :: w :: vs => toLexemes v ++ .comma :: itemLexemes (w :: vs)

def memberLexemes : List (List TextUnit × Json) → List Lexeme
  | [] => []
  | [(name, v)] => .string name :: .colon :: toLexemes v
  | (name, v) :: m :: ms => .string name :: .colon :: toLexemes v ++ .comma :: memberLexemes (m :: ms)

end

/-- The text of a value, without blanks. -/
def compact (v : Json) : String := .ofList (v.toLexemes.flatMap Lexeme.text)

end Json

end Mips32
