import Mips32.Operation

/-! Why a word cannot be read, decoded or written as a mnemonic, with the wording of each
cause. -/
namespace Mips32

inductive DecodeError where
  /-- The input, as supplied, is no number of 32 bits. -/
  | malformedWord (input : String)
  | unknownOperation (selector : Selector)
  /-- The operation has no layout, or its layout is for another format. -/
  | unformattable (operation : Operation)
  | invalidRegister (index : Nat)
  | unknownRegister (name : String)
  deriving DecidableEq, Repr

namespace DecodeError

/-- A selector code: binary, padded to six digits. -/
def codeText (code : Nat) : String := "0b" ++ Text.binary 6 code

def message : DecodeError → String
  | malformedWord input => "malformed instruction word `" ++ input ++ "`"
  | unknownOperation s =>
      "unknown operation: " ++ s.table.name ++ " " ++ codeText s.code ++ " is unassigned"
  | unformattable op => "operation `" ++ op.name ++ "` cannot be formatted"
  | invalidRegister index => "invalid register index " ++ Nat.repr index
  | unknownRegister name => "unknown register name `" ++ name ++ "`"

def isUnknownOperation : DecodeError → Bool
  | unknownOperation _ => true
  | _ => false

end DecodeError

/-- The operation that a selector picks. -/
def Selector.operation (s : Selector) : Except DecodeError Operation :=
  match Operation.ofSelector? s with
  | some op => .ok op
  | none => .error (.unknownOperation s)

/-- The operation a field set encodes. -/
def Fields.operation (fs : Fields) : Except DecodeError Operation := fs.selector.operation

end Mips32
