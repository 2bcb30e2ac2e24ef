import Mips32.Layout

/-! The assigned operations. Each one is looked up by its code in the opcode table, the function
code table or the selector table of opcode 1, and has an operand layout. The marker `special`
stands for opcode 0 in the opcode table: it points to the function codes and is no operation of its
own. -/
namespace Mips32

inductive Table where
  | opcode | function | regimm
  deriving DecidableEq, Repr

def Table.name : Table → String
  | opcode => "opcode"
  | function => "function code"
  | regimm => "regimm selector"

/-- A code together with the table it is looked up in. -/
structure Selector where
  table : Table
  code : Nat
  deriving DecidableEq, Repr

/-- The opcode whose words are told apart by their `rt` field. -/
def regimmOpcode : UInt8 := 1

/-- The selector of an opcode outside the register format. -/
def Selector.ofOpcode (opcode rt : UInt8) : Selector :=
  if opcode = regimmOpcode then ⟨.regimm, rt.toNat⟩ else ⟨.opcode, opcode.toNat⟩

/-- The code that names the operation of a field set. A jump set has no `rt`; it counts as zero. -/
def Fields.selector : Fields → Selector
  | .register f => ⟨.function, f.funct.toNat⟩
  | .immediate f => .ofOpcode f.opcode f.rt
  | .jump f => .ofOpcode f.opcode 0

inductive Operation where
  | special
  | add | addu | and | breakpoint | div | divu | jalr | jr | mfhi | mflo | mthi | mtlo
  | mult | multu | nor | or | sll | sllv | slt | sltu | sra | srav | srl | srlv | sub | subu
  | syscall | xor
  | addi | addiu | andi | beq | bgez | bgtz | blez | bltz | bne | lb | lbu | lh | lhu | lui
  | lw | lwc1 | ori | sb | slti | sltiu | sh | sw | swc1 | xori
  | j | jal
  deriving DecidableEq, Repr

namespace Operation

/-- Every operation in table order, without the marker. -/
def all : List Operation :=
  [add, addu, and, breakpoint, div, divu, jalr, jr, mfhi, mflo, mthi, mtlo,
   mult, multu, nor, or, sll, sllv, slt, sltu, sra, srav, srl, srlv, sub, subu,
   syscall, xor,
   addi, addiu, andi, beq, bgez, bgtz, blez, bltz, bne, lb, lbu, lh, lhu, lui,
   lw, lwc1, ori, sb, slti, sltiu, sh, sw, swc1, xori,
   j, jal]

def name : Operation → String
  | special => "[R-Type]"
  | add => "add"
  | addu => "addu"
  | and => "and"
  | breakpoint => "break"
  | div => "div"
  | divu => "divu"
  | jalr => "jalr"
  | jr => "jr"
  | mfhi => "mfhi"
  | mflo => "mflo"
  | mthi => "mthi"
  | mtlo => "mtlo"
  | mult => "mult"
  | multu => "multu"
  | nor => "nor"
  | or => "or"
  | sll => "sll"
  | sllv => "sllv"
  | slt => "slt"
  | sltu => "sltu"
  | sra => "sra"
  | srav => "srav"
  | srl => "srl"
  | srlv => "srlv"
  | sub => "sub"
  | subu => "subu"
  | syscall => "syscall"
  | xor => "xor"
  | addi => "addi"
  | addiu => "addiu"
  | andi => "andi"
  | beq => "beq"
  | bgez => "bgez"
  | bgtz => "bgtz"
  | blez => "blez"
  | bltz => "bltz"
  | bne => "bne"
  | lb => "lb"
  | lbu => "lbu"
  | lh => "lh"
  | lhu => "lhu"
  | lui => "lui"
  | lw => "lw"
  | lwc1 => "lwc1"
  | ori => "ori"
  | sb => "sb"
  | slti => "slti"
  | sltiu => "sltiu"
  | sh => "sh"
  | sw => "sw"
  | swc1 => "swc1"
  | xori => "xori"
  | j => "j"
  | jal => "jal"

/-- The operation of a function code. -/
def ofFunct? : Nat → Option Operation
  | 0 => some sll
  | 2 => some srl
  | 3 => some sra
  | 4 => some sllv
  | 6 => some srlv
  | 7 => some srav
  | 8 => some jr
  | 9 => some jalr
  | 12 => some syscall
  | 13 => some breakpoint
  | 16 => some mfhi
  | 17 => some mthi
  | 18 => some mflo
  | 19 => some mtlo
  | 24 => some mult
  | 25 => some multu
  | 26 => some div
  | 27 => some divu
  | 32 => some add
  | 33 => some addu
  | 34 => some sub
  | 35 => some subu
  | 36 => some and
  | 37 => some or
  | 38 => some xor
  | 39 => some nor
  | 42 => some slt
  | 43 => some sltu
  | _ => none

/-- The operation of an `rt` field under opcode 1. -/
def ofRegimm? : Nat → Option Operation
  | 0 => some bltz
  | 1 => some bgez
  | _ => none

/-- The operation of an opcode. Opcode 1 has none of its own. -/
def ofOpcode? : Nat → Option Operation
  | 0 => some special
  | 2 => some j
  | 3 => some jal
  | 4 => some beq
  | 5 => some bne
  | 6 => some blez
  | 7 => some bgtz
  | 8 => some addi
  | 9 => some addiu
  | 10 => some slti
  | 11 => some sltiu
  | 12 => some andi
  | 13 => some ori
  | 14 => some xori
  | 15 => some lui
  | 32 => some lb
  | 33 => some lh
  | 35 => some lw
  | 36 => some lbu
  | 37 => some lhu
  | 40 => some sb
  | 41 => some sh
  | 43 => some sw
  | 49 => some lwc1
  | 57 => some swc1
  | _ => none

/-- The operand layout. The marker has none. -/
def layout? : Operation → Option Layout
  | special => none
  | add | addu | and | nor | or | slt | sltu | sub | subu | xor => some .rdRsRt
  | sll | sra | srl => some .rdRtShamt
  | sllv | srav | srlv => some .rdRtRs
  | div | divu | mult | multu => some .rsRt
  | jr | mthi | mtlo => some .rs
  | mfhi | mflo => some .rd
  | jalr => some .rdRs
  | breakpoint | syscall => some .noOperands
  | addi | addiu | andi | ori | slti | sltiu | xori => some .rtRsImm
  | lui => some .rtImm
  | lb | lbu | lh | lhu | lw | lwc1 | sb | sh | sw | swc1 => some .rtImmRs
  | beq | bne => some .rsRtLabel
  | bgez | bgtz | blez | bltz => some .rsLabel
  | j | jal => some .label

def ofName? (name : String) : Option Operation := all.find? (·.name = name)

/-- The operation of a selector. Codes are compared whole, so none is an alias of another. -/
def ofSelector? (s : Selector) : Option Operation :=
  match s.table with
  | .opcode => ofOpcode? s.code
  | .function => ofFunct? s.code
  | .regimm => ofRegimm? s.code

@[simp] theorem mem_all_iff (op : Operation) : op ∈ all ↔ op ≠ special := by
  cases op <;> decide

end Operation

end Mips32
