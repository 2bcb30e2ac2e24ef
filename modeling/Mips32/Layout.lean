import Mips32.Fields

/-! Operand layouts: which fields of a format a mnemonic prints, and in which order. -/
namespace Mips32

inductive Layout where
  | rdRsRt | rdRtShamt | rdRtRs | rsRt | rs | rd | rdRs | noOperands
  | rtRsImm | rtImm | rtImmRs | rsRtLabel | rsLabel
  | label
  deriving DecidableEq, Repr

namespace Layout

def name : Layout → String
  | rdRsRt => "RdRsRt"
  | rdRtShamt => "RdRtShamt"
  | rdRtRs => "RdRtRs"
  | rsRt => "RsRt"
  | rs => "Rs"
  | rd => "Rd"
  | rdRs => "RdRs"
  | noOperands => "NoOperands"
  | rtRsImm => "RtRsImm"
  | rtImm => "RtImm"
  | rtImmRs => "RtImmRs"
  | rsRtLabel => "RsRtLabel"
  | rsLabel => "RsLabel"
  | label => "Label"

def format : Layout → Format
  | rdRsRt | rdRtShamt | rdRtRs | rsRt | rs | rd | rdRs | noOperands => .register
  | rtRsImm | rtImm | rtImmRs | rsRtLabel | rsLabel => .immediate
  | label => .jump

end Layout

/-- A printed operand: a register, a plain number, or an offset with a base register. -/
inductive Operand where
  | register (index : Nat)
  | number (value : Nat)
  | memory (offset base : Nat)
  deriving DecidableEq, Repr

namespace Layout

/-- The operands that are printed for a field set, in printed order. A branch prints its immediate as
the label. There are none for a field set that the layout is not made for. -/
def operands? : Layout → Fields → Option (List Operand)
  | rdRsRt, .register f =>
      some [.register f.rd.toNat, .register f.rs.toNat, .register f.rt.toNat]
  | rdRtShamt, .register f =>
      some [.register f.rd.toNat, .register f.rt.toNat, .number f.shamt.toNat]
  | rdRtRs, .register f =>
      some [.register f.rd.toNat, .register f.rt.toNat, .register f.rs.toNat]
  | rsRt, .register f => some [.register f.rs.toNat, .register f.rt.toNat]
  | rs, .register f => some [.register f.rs.toNat]
  | rd, .register f => some [.register f.rd.toNat]
  | rdRs, .register f => some [.register f.rd.toNat, .register f.rs.toNat]
  | noOperands, .register _ => some []
  | rtRsImm, .immediate f =>
      some [.register f.rt.toNat, .register f.rs.toNat, .number f.imm.toNat]
  | rtImm, .immediate f => some [.register f.rt.toNat, .number f.imm.toNat]
  | rtImmRs, .immediate f => some [.register f.rt.toNat, .memory f.imm.toNat f.rs.toNat]
  | rsRtLabel, .immediate f =>
      some [.register f.rs.toNat, .register f.rt.toNat, .number f.imm.toNat]
  | rsLabel, .immediate f => some [.register f.rs.toNat, .number f.imm.toNat]
  | label, .jump f => some [.number f.label.toNat]
  | _, _ => none

/-- A layout has operands for the field sets of its own format, and for no others. -/
theorem exists_operands_iff {l : Layout} {fs : Fields} :
    (∃ operands, l.operands? fs = some operands) ↔ l.format = fs.format := by
  cases l <;> cases fs <;> simp [operands?, format, Fields.format]

theorem operands?_of_format_ne {l : Layout} {fs : Fields} (h : l.format ≠ fs.format) :
    l.operands? fs = none :=
  Option.eq_none_iff_forall_ne_some.mpr fun _ found => h (exists_operands_iff.mp ⟨_, found⟩)

end Layout

end Mips32
