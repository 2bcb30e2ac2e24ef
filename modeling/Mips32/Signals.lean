import Mips32.Instruction

/-! The control signals of a single-cycle data path. They depend on the format and on the
class of the opcode alone; a signal that no unit looks at is left open. -/
namespace Mips32

inductive Signal where
  | asserted | deasserted | dontCare
  deriving DecidableEq, Repr

namespace Signal

def ofBool : Bool → Signal
  | true => asserted
  | false => deasserted

def letter : Signal → String
  | asserted => "1"
  | deasserted => "0"
  | dontCare => "X"

def bit? : Signal → Option Nat
  | asserted => some 1
  | deasserted => some 0
  | dontCare => none

end Signal

/-- What an opcode does with memory and the program counter. -/
structure OperationClass where
  isLoad : Bool
  isStore : Bool
  isBranch : Bool
  deriving DecidableEq, Repr

/-- The opcodes of `lb`, `lh`, `lw`, `lbu` and `lhu`. -/
def loadOpcodes : List Nat := [32, 33, 35, 36, 37]

/-- The opcodes of `sb`, `sh` and `sw`. -/
def storeOpcodes : List Nat := [40, 41, 43]

/-- The opcode told apart by `rt`, and those of `beq`, `bne`, `blez` and `bgtz`. -/
def branchOpcodes : List Nat := [1, 4, 5, 6, 7]

def OperationClass.ofOpcode (opcode : Nat) : OperationClass :=
  ⟨loadOpcodes.contains opcode, storeOpcodes.contains opcode, branchOpcodes.contains opcode⟩

structure Signals where
  aluSrc : Signal
  branch : Signal
  memRead : Signal
  memToReg : Signal
  memWrite : Signal
  regDst : Signal
  regWrite : Signal
  deriving DecidableEq, Repr

namespace Signals

def names : List String :=
  ["ALUSrc", "Branch", "MemRead", "MemToReg", "MemWrite", "RegDst", "RegWrite"]

def values (s : Signals) : List Signal :=
  [s.aluSrc, s.branch, s.memRead, s.memToReg, s.memWrite, s.regDst, s.regWrite]

def entries (s : Signals) : List (String × Signal) := names.zip s.values

/-- Stores and branches write no register, so where its value would come from and which
register it would be are left open. -/
def derive (format : Format) (c : OperationClass) : Signals where
  aluSrc := .ofBool !(format = .register || c.isBranch)
  branch := .ofBool c.isBranch
  memRead := .ofBool c.isLoad
  memToReg :=
    if c.isLoad then .asserted else if c.isStore || c.isBranch then .dontCare else .deasserted
  memWrite := .ofBool c.isStore
  regDst := if c.isStore || c.isBranch then .dontCare else .ofBool (format = .register)
  regWrite := .ofBool !(c.isStore || c.isBranch)

end Signals

def Instruction.signals (i : Instruction) : Signals :=
  .derive i.fields.format (.ofOpcode i.fields.opcode.toNat)

end Mips32
