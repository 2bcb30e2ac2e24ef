import Mips32.Json.Numeral
import Mips32.Text.Quoted

/-! Well-formed JSON that is not what a reader wants, with the wording of each cause. -/
namespace Mips32.Json

/-- What stands in the place of a value. Of arrays and objects only the opening is seen. -/
inductive Found where
  | null
  | bool (value : Bool)
  | number (value : Number)
  | string (value : String)
  | array
  | object
  deriving DecidableEq, Repr

inductive Mismatch where
  | type (found : Found) (expected : String)
  | variant (name : String) (known : List String)
  /-- A known member comes a second time. -/
  | duplicate (name : String)
  deriving DecidableEq, Repr

def ticked (s : String) : String := "`" ++ s ++ "`"

def Found.message : Found → String
  | null => "null"
  | bool b => "boolean " ++ ticked (if b then "true" else "false")
  | number (.integer i) => "integer " ++ ticked (Int.repr i)
  | number (.double d) => "floating point " ++ ticked d.text
  | string s => "string " ++ Text.quoted s
  | array => "sequence"
  | object => "map"

def Mismatch.message : Mismatch → String
  | type found expected => "invalid type: " ++ found.message ++ ", expected " ++ expected
  | variant name known =>
      "unknown variant " ++ ticked name ++ ", expected one of " ++
        String.intercalate ", " (known.map ticked)
  | duplicate name => "duplicate field " ++ ticked name

end Mips32.Json
