import Mips32.Signals
import Mips32.Proofs.Disassembly

/-! The control signals of an instruction against its operation. The signals come from sets of
opcodes; the operation and its layout come from tables of their own. What holds among the signals
holds for every class whose kinds exclude each other (`Signals.lawful_derive`), as they do for every
opcode (`OperationClass.coherent_ofOpcode`); and the opcode sets name the operations that read
memory, write it, or branch. -/
namespace Mips32

/-! ### The control unit -/

namespace Signal

@[simp] theorem ofBool_eq_asserted_iff (b : Bool) : ofBool b = asserted ↔ b := by
  cases b <;> simp [ofBool]

@[simp] theorem ofBool_not_eq_deasserted_iff (b : Bool) : ofBool (!b) = deasserted ↔ b := by
  cases b <;> simp [ofBool]

@[simp] theorem ofBool_ne_dontCare (b : Bool) : ofBool b ≠ dontCare := by
  cases b <;> simp [ofBool]

end Signal

/-- A class is of one kind at most, and the register format of none. -/
structure OperationClass.Coherent (c : OperationClass) (F : Format) : Prop where
  load : c.isLoad → ¬ c.isStore ∧ ¬ c.isBranch
  store : c.isStore → ¬ c.isBranch
  register : F = .register → ¬ c.isStore ∧ ¬ c.isBranch

/-- What holds among the signals of an instruction in a format. -/
structure Signals.Lawful (s : Signals) (F : Format) : Prop where
  /-- A word reads memory, writes it, or branches. -/
  exclusive : [s.branch, s.memRead, s.memWrite].count .asserted ≤ 1
  memToReg : s.memToReg = .asserted ↔ s.memRead = .asserted
  aluSrc : s.aluSrc = .deasserted ↔ F = .register ∨ s.branch = .asserted
  regDst : s.regDst = .asserted ↔ F = .register
  regWrite : s.regWrite = .deasserted ↔ s.branch = .asserted ∨ s.memWrite = .asserted
  openMemToReg : s.memToReg = .dontCare ↔ s.branch = .asserted ∨ s.memWrite = .asserted
  openRegDst : s.regDst = .dontCare ↔ s.branch = .asserted ∨ s.memWrite = .asserted
  /-- The other signals are never left open. -/
  driven : ∀ x ∈ [s.aluSrc, s.branch, s.memRead, s.memWrite, s.regWrite], x ≠ .dontCare

namespace Signals

variable (F : Format) (c : OperationClass)

@[simp] theorem branch_derive : (derive F c).branch = .asserted ↔ c.isBranch :=
  Signal.ofBool_eq_asserted_iff _

@[simp] theorem memRead_derive : (derive F c).memRead = .asserted ↔ c.isLoad :=
  Signal.ofBool_eq_asserted_iff _

@[simp] theorem memWrite_derive : (derive F c).memWrite = .asserted ↔ c.isStore :=
  Signal.ofBool_eq_asserted_iff _

/-- Stores and branches write no register. -/
@[simp] theorem regWrite_derive : (derive F c).regWrite = .deasserted ↔ c.isBranch ∨ c.isStore := by
  rw [derive, Signal.ofBool_not_eq_deasserted_iff, Bool.or_eq_true, or_comm]

@[simp] theorem aluSrc_derive : (derive F c).aluSrc = .deasserted ↔ F = .register ∨ c.isBranch := by
  rw [derive, Signal.ofBool_not_eq_deasserted_iff, Bool.or_eq_true, decide_eq_true_eq]

theorem memToReg_derive : (derive F c).memToReg = if c.isLoad then .asserted
    else if c.isBranch ∨ c.isStore then .dontCare else .deasserted := by
  simp only [derive, Bool.or_eq_true, or_comm]

theorem regDst_derive : (derive F c).regDst = if c.isBranch ∨ c.isStore then .dontCare
    else .ofBool (F = .register) := by
  simp only [derive, Bool.or_eq_true, or_comm]

variable {F c}

/-- **The law of the control unit**, for every coherent class. -/
theorem lawful_derive (coherent : c.Coherent F) : (derive F c).Lawful F where
  exclusive := by
    by_cases load : c.isLoad
    · obtain ⟨store, branch⟩ := coherent.load load
      simp [derive, load, store, branch, Signal.ofBool]
    · by_cases store : c.isStore
      · simp [derive, load, store, coherent.store store, Signal.ofBool]
      · cases branch : c.isBranch <;> simp [derive, load, store, branch, Signal.ofBool]
  memToReg := by
    rw [memToReg_derive, memRead_derive]
    split
    case isTrue load => simp [load]
    case isFalse other => split <;> simp [other]
  aluSrc := by simp
  regDst := by
    rw [regDst_derive]
    split
    case isTrue none =>
      -- A class that writes no register is not that of the register format.
      have other : F ≠ .register := fun register => by
        simp [coherent.register register] at none
      simp [other]
    case isFalse => simp
  regWrite := by simp
  openMemToReg := by
    rw [branch_derive, memWrite_derive, memToReg_derive]
    split
    case isTrue load => simp [coherent.load load]
    case isFalse => split <;> simp_all
  openRegDst := by
    rw [branch_derive, memWrite_derive, regDst_derive]
    split
    case isTrue none => simp [none]
    case isFalse some => simp [some]
  driven := by simp [derive, Signal.ofBool_ne_dontCare]

end Signals

/-! ### Classes of opcodes -/

theorem OperationClass.coherent_ofOpcode (opcode : UInt8) :
    (ofOpcode opcode.toNat).Coherent (.ofOpcode opcode) where
  load := by
    have disjoint : ∀ n ∈ loadOpcodes, n ∉ storeOpcodes ∧ n ∉ branchOpcodes := by decide
    simpa [ofOpcode] using disjoint opcode.toNat
  store := by
    have disjoint : ∀ n ∈ storeOpcodes, n ∉ branchOpcodes := by decide
    simpa [ofOpcode] using disjoint opcode.toNat
  register := by
    intro register
    rw [Format.ofOpcode_eq_register_iff.mp register]
    decide

/-- The opcode of a word is that of its selector. -/
theorem Word.opcode_selector (w : Word) : w.selector.opcode = w.opcode.toNat := by
  rw [toNat_opcode, selector]
  split
  case isTrue special => rw [special]; rfl
  case isFalse =>
    split
    case isTrue regimm => rw [regimm]; rfl
    case isFalse => rfl

namespace Operation

def loads : List Operation := [lb, lbu, lh, lhu, lw]

def stores : List Operation := [sb, sh, sw]

@[simp] theorem opcode_mem_loads (op : Operation) : op.selector.opcode ∈ loadOpcodes ↔ op ∈ loads := by
  cases op <;> decide

@[simp] theorem opcode_mem_stores (op : Operation) : op.selector.opcode ∈ storeOpcodes ↔ op ∈ stores := by
  cases op <;> decide

/-- The branches are the operations that print a label behind registers. -/
@[simp] theorem opcode_mem_branches (op : Operation) : op.selector.opcode ∈ branchOpcodes ↔
    op.layout? = some .rsRtLabel ∨ op.layout? = some .rsLabel := by
  cases op <;> decide

/-- Loads and stores print an address, as do the two for the coprocessor. -/
theorem layout_address_iff (op : Operation) :
    op ∈ loads ∨ op ∈ stores ↔ op.layout? = some .rtImmRs ∧ op ≠ lwc1 ∧ op ≠ swc1 := by
  cases op <;> decide

end Operation

/-! ### Instructions -/

theorem signals_of_decode {w : Word} {i : Instruction} (h : decode w = .ok i) :
    i.signals = .derive (.ofOpcode w.opcode) (.ofOpcode w.opcode.toNat) := by
  simp [Instruction.signals, (decode_eq_ok_iff.mp h).fields, Word.format]

theorem opcode_of_decode {w : Word} {i : Instruction} (h : decode w = .ok i) :
    w.opcode.toNat = i.operation.selector.opcode := by
  rw [(decode_eq_ok_iff.mp h).selector, w.opcode_selector]

/-- The signals of an operation with a layout, in a format. -/
structure Signals.Suit (s : Signals) (op : Operation) (l : Layout) (F : Format) : Prop
    extends s.Lawful F where
  branch : s.branch = .asserted ↔ l = .rsRtLabel ∨ l = .rsLabel
  address : s.memRead = .asserted ∨ s.memWrite = .asserted ↔
    l = .rtImmRs ∧ op ≠ .lwc1 ∧ op ≠ .swc1
  load : s.memRead = .asserted ↔ op ∈ Operation.loads
  store : s.memWrite = .asserted ↔ op ∈ Operation.stores

theorem suit_signals {w : Word} {i : Instruction} {l : Layout} (decoded : decode w = .ok i)
    (layout : i.operation.layout? = some l) : i.signals.Suit i.operation l i.fields.format := by
  have signals := signals_of_decode decoded
  have opcode := opcode_of_decode decoded
  have lawful : i.signals.Lawful i.fields.format := by
    rw [signals, (decode_eq_ok_iff.mp decoded).fields, w.format_fields, Word.format]
    exact Signals.lawful_derive (OperationClass.coherent_ofOpcode w.opcode)
  have load : i.signals.memRead = .asserted ↔ i.operation ∈ Operation.loads := by
    simp [signals, OperationClass.ofOpcode, opcode]
  have store : i.signals.memWrite = .asserted ↔ i.operation ∈ Operation.stores := by
    simp [signals, OperationClass.ofOpcode, opcode]
  refine ⟨lawful, ?_, ?_, load, store⟩
  · simp [signals, OperationClass.ofOpcode, opcode, layout]
  · rw [load, store, Operation.layout_address_iff, layout, Option.some_inj]

/-- **The signals agree with the operation and its layout**, for every word that decodes; and words
with one opcode have the same signals, whatever their other bits. -/
theorem signals_agree_with_operation :
    (∀ (w : Word) (i : Instruction), decode w = .ok i →
      ∃ l, i.operation.layout? = some l ∧ i.signals.Suit i.operation l i.fields.format) ∧
    ∀ (w₁ w₂ : Word) (i₁ i₂ : Instruction), decode w₁ = .ok i₁ → decode w₂ = .ok i₂ →
      w₁.bits 31 26 = w₂.bits 31 26 → i₁.signals = i₂.signals := by
  constructor
  · intro w i decoded
    have selector := (decode_eq_ok_iff.mp decoded).selector
    obtain ⟨l, layout, _⟩ := Operation.layout_format (Word.operation_ne_special selector)
    exact ⟨l, layout, suit_signals decoded layout⟩
  · intro w₁ w₂ i₁ i₂ decoded₁ decoded₂ same
    rw [← w₁.toNat_opcode, ← w₂.toNat_opcode, UInt8.toNat_inj] at same
    rw [signals_of_decode decoded₁, signals_of_decode decoded₂, same]

/-- Two branches under opcode 1, told apart by `rt`. -/
theorem signals_agree_with_operation_bltz_bgez :
    (decode 0x04400005 = .ok ⟨0x04400005, .immediate ⟨1, 2, 0, 5⟩, .bltz, "bltz $v0, 5"⟩ ∧
      ∃ l, Operation.bltz.layout? = some l ∧
        Signals.Suit ⟨.deasserted, .asserted, .deasserted, .dontCare, .deasserted, .dontCare,
          .deasserted⟩ .bltz l .immediate) ∧
    decode 0x0621FFFF =
      .ok ⟨0x0621FFFF, .immediate ⟨1, 17, 1, 0xFFFF⟩, .bgez, "bgez $s1, 65535"⟩ ∧
    Word.bits 0x04400005 31 26 = Word.bits 0x0621FFFF 31 26 ∧
      Instruction.signals ⟨0x04400005, .immediate ⟨1, 2, 0, 5⟩, .bltz, "bltz $v0, 5"⟩ =
        Instruction.signals ⟨0x0621FFFF, .immediate ⟨1, 17, 1, 0xFFFF⟩, .bgez, "bgez $s1, 65535"⟩ :=
  have opcode : Word.bits 0x04400005 31 26 = Word.bits 0x0621FFFF 31 26 := by decide
  ⟨⟨rfl, signals_agree_with_operation.1 0x04400005 _ rfl⟩, rfl, opcode,
    signals_agree_with_operation.2 0x04400005 0x0621FFFF _ _ rfl rfl opcode⟩

end Mips32
