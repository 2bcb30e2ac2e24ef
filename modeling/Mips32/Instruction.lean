import Mips32.DecodeError

/-! Decoding: a word is sliced by the format of its opcode, its operation is looked up and its
mnemonic is written. A mnemonic is the operation name and, after a space, the operands separated by
commas. Registers go by name, all other values are unsigned decimals, and a memory operand is
written as its offset with the base register in parentheses. -/
namespace Mips32

/-! ### Registers -/

namespace Register

/-- The names in index order. -/
def names : List String :=
  ["$zero", "$at", "$v0", "$v1", "$a0", "$a1", "$a2", "$a3",
   "$t0", "$t1", "$t2", "$t3", "$t4", "$t5", "$t6", "$t7",
   "$s0", "$s1", "$s2", "$s3", "$s4", "$s5", "$s6", "$s7",
   "$t8", "$t9", "$k0", "$k1", "$gp", "$sp", "$s8", "$ra"]

def name? (index : Nat) : Option String := names[index]?

/-- The index of a name. The frame pointer `$fp` is another name of register 30. -/
def index? (name : String) : Option Nat :=
  if name = "$fp" then some 30 else names.idxOf? name

def text (index : Nat) : Except DecodeError String :=
  match name? index with
  | some name => .ok name
  | none => .error (.invalidRegister index)

def index (name : String) : Except DecodeError Nat :=
  match index? name with
  | some i => .ok i
  | none => .error (.unknownRegister name)

@[simp] theorem names_length : names.length = 32 := rfl

theorem name?_isSome_iff (index : Nat) : (name? index).isSome ↔ index < 32 := by
  simp [name?]

end Register

/-! ### Mnemonics -/

def Operand.text : Operand → Except DecodeError String
  | register index => Register.text index
  | number value => .ok (Nat.repr value)
  | memory offset base => do return Nat.repr offset ++ "(" ++ (← Register.text base) ++ ")"

namespace Operation

/-- The name with its operand texts. An operation without operands is its name alone. -/
def spell (op : Operation) : List String → String
  | [] => op.name
  | operands => op.name ++ " " ++ String.intercalate ", " operands

/-- The mnemonic of an operation over a field set. A layout that does not suit the fields is
reported first; then the operands are written in printed order and the first register that
does not exist is reported. -/
def mnemonic (op : Operation) (fs : Fields) : Except DecodeError String :=
  match op.layout?.bind (·.operands? fs) with
  | none => .error (.unformattable op)
  | some operands => do return op.spell (← operands.mapM Operand.text)

end Operation

/-! ### Instructions -/

structure Instruction where
  word : Word
  fields : Fields
  operation : Operation
  mnemonic : String
  deriving DecidableEq, Repr

/-- The format that the opcode of a word selects. -/
def Word.format (w : Word) : Format := .ofOpcode w.opcode

/-- The fields of a word in the format of its opcode. -/
def Word.fields (w : Word) : Fields := .ofWord w w.format

@[simp] theorem Word.format_fields (w : Word) : w.fields.format = w.format :=
  Fields.format_ofWord w w.format

@[simp] theorem Word.opcode_fields (w : Word) : w.fields.opcode = w.opcode :=
  Fields.opcode_ofWord w w.format

def decode (w : Word) : Except DecodeError Instruction := do
  let operation ← w.fields.operation
  let mnemonic ← operation.mnemonic w.fields
  return ⟨w, w.fields, operation, mnemonic⟩

/-- Decodes a number that may be too large for a word. -/
def decodeNumber (n : Nat) : Except DecodeError Instruction :=
  if n < UInt32.size then decode (.ofNat n) else .error (.malformedWord (Nat.repr n))

def disassemble (w : Word) : Except DecodeError String := do return (← decode w).mnemonic

end Mips32
