import Mips32.Proofs.Formatting

/-! Field sets made by hand, which may disagree with the format of their opcode and hold codes that
no word has room for. The look-up compares codes whole, so a code above the width of its field is
unknown as it stands (`Selector.operation_of_large`); and the layout of the operation that is found
suits the format that the look-up went by (`Operation.exists_layout_iff`), which for immediate and
jump sets is that of the opcode. -/
namespace Mips32

/-! ### The look-up -/

namespace Selector

/-- **No code is reduced to its field.** One without room there is unknown. -/
theorem operation_of_large {s : Selector} (large : s.field.size ≤ s.code) :
    s.operation = .error (.unknownOperation s) := by
  have room (op : Operation) : op.selector.code < op.selector.field.size := by
    cases op <;> decide
  apply operation_of_unassigned
  rintro op rfl
  exact absurd (room op) (Nat.not_lt.mpr large)

theorem format_ofOpcode (opcode rt : UInt8) : (ofOpcode opcode rt).format = .ofOpcode opcode := by
  rw [ofOpcode]
  split
  case isTrue regimm => rw [regimm]; rfl
  case isFalse => simp [format]

/-- An opcode above its field is looked up as it stands. -/
theorem ofOpcode_of_large {opcode : UInt8} (rt : UInt8) (large : 64 ≤ opcode.toNat) :
    ofOpcode opcode rt = ⟨.opcode, opcode.toNat⟩ := by
  refine if_neg ?_
  rintro rfl
  exact absurd large (by decide)

end Selector

theorem Fields.operation_of_selector {fs : Fields} {s : Selector} (h : fs.selector = s)
    (large : s.field.size ≤ s.code) : fs.operation = .error (.unknownOperation s) := by
  rw [Fields.operation, h, Selector.operation_of_large large]

/-! ### The format that a look-up goes by -/

/-- Immediate and jump sets are looked up by their opcode, register sets are not. -/
theorem Fields.format_selector_eq_iff (fs : Fields) :
    fs.selector.format = fs.format ↔ fs.format = .register ∨ fs.format = .ofOpcode fs.opcode := by
  cases fs with
  | register f => exact iff_of_true rfl (.inl rfl)
  | immediate f =>
    change (Selector.ofOpcode f.opcode f.rt).format = .immediate ↔ _
    rw [Selector.format_ofOpcode, eq_comm]
    exact (or_iff_right (by simp [format])).symm
  | jump f =>
    change (Selector.ofOpcode f.opcode 0).format = .jump ↔ _
    rw [Selector.format_ofOpcode, eq_comm]
    exact (or_iff_right (by simp [format])).symm

/-- The marker is found in the opcode table, for a format that such sets do not have. -/
theorem Operation.ne_special_of_selector {op : Operation} {fs : Fields}
    (found : op.selector = fs.selector) (format : fs.selector.format = fs.format) :
    op ≠ special := by
  rintro rfl
  rw [← found] at format
  cases fs with
  | register f => cases found
  | immediate f => cases format
  | jump f => cases format

theorem Operation.exists_layout_iff {op : Operation} {fs : Fields}
    (found : op.selector = fs.selector) :
    (∃ l, op.layout? = some l ∧ l.format = fs.format) ↔
      fs.format = .register ∨ fs.format = .ofOpcode fs.opcode := by
  rw [← fs.format_selector_eq_iff]
  constructor
  · rintro ⟨l, layout, suits⟩
    have assigned : op ≠ special := by
      rintro rfl
      cases layout
    obtain ⟨l', layout', format⟩ := layout_format assigned
    obtain rfl := Option.some.inj (layout.symm.trans layout')
    rw [← suits, format, found]
  · intro format
    obtain ⟨l, layout, suits⟩ := layout_format (ne_special_of_selector found format)
    exact ⟨l, layout, by rw [suits, found, format]⟩

/-! ### The formatter on resolved fields -/

/-- The formatter refuses a field set as unsuitable for its own operation, and only when no layout
suits the format. -/
theorem Operation.mnemonic_eq_unformattable_iff {op o : Operation} {fs : Fields} :
    op.mnemonic fs = .error (.unformattable o) ↔
      o = op ∧ ∀ l, op.layout? = some l → l.format ≠ fs.format := by
  constructor
  · intro refused
    obtain ⟨result, due⟩ := op.exists_prescribes fs
    rw [mnemonic_of_prescribes due] at refused
    cases due with
    | unsuitable formats =>
      cases refused
      exact ⟨rfl, formats⟩
    | noRegister => cases refused
    | written => cases refused
  · rintro ⟨rfl, formats⟩
    exact mnemonic_of_unsuitable formats

theorem Format.ne_register_iff (F : Format) : F ≠ .register ↔ F = .immediate ∨ F = .jump := by
  cases F <;> simp

/-- Fields that resolve are refused as unsuitable when the look-up went by another format. -/
theorem Fields.unformattable_iff {fs : Fields} {op o : Operation} (resolved : fs.operation = .ok op) :
    op.mnemonic fs = .error (.unformattable o) ↔
      o = op ∧ (fs.format = .immediate ∨ fs.format = .jump) ∧ fs.format ≠ .ofOpcode fs.opcode := by
  have found := Selector.operation_eq_ok_iff.mp resolved
  rw [Operation.mnemonic_eq_unformattable_iff, ← Format.ne_register_iff, ← not_or,
    ← Operation.exists_layout_iff found]
  simp only [not_exists, not_and]

/-- **The formatter and the look-up agree on every field set.** One that resolves is unsuitable for
its operation exactly when it is an immediate or jump set of another format than its opcode has, so
a register set never is; and a code above the width of its field names no operation: the error gives
it whole, with the table. -/
theorem resolved_fields_unformattable :
    (∀ (fs : Fields) (op : Operation), fs.operation = .ok op → ∀ o : Operation,
      op.mnemonic fs = .error (.unformattable o) ↔
        o = op ∧ (fs.format = .immediate ∨ fs.format = .jump) ∧
          fs.format ≠ .ofOpcode fs.opcode) ∧
    (∀ (f : RegisterFields) (op : Operation), (Fields.register f).operation = .ok op →
      ∀ o, op.mnemonic (.register f) ≠ .error (.unformattable o)) ∧
    (∀ f : RegisterFields, 64 ≤ f.funct.toNat →
      (Fields.register f).operation = .error (.unknownOperation ⟨.function, f.funct.toNat⟩)) ∧
    (∀ f : ImmediateFields, 64 ≤ f.opcode.toNat →
      (Fields.immediate f).operation = .error (.unknownOperation ⟨.opcode, f.opcode.toNat⟩)) ∧
    (∀ f : JumpFields, 64 ≤ f.opcode.toNat →
      (Fields.jump f).operation = .error (.unknownOperation ⟨.opcode, f.opcode.toNat⟩)) ∧
    ∀ f : ImmediateFields, f.opcode = 1 → 32 ≤ f.rt.toNat →
      (Fields.immediate f).operation = .error (.unknownOperation ⟨.regimm, f.rt.toNat⟩) := by
  refine ⟨fun _ _ resolved _ => Fields.unformattable_iff resolved, ?_, ?_, ?_, ?_, ?_⟩
  · intro f op resolved o refused
    obtain ⟨_, other, _⟩ := (Fields.unformattable_iff resolved).mp refused
    simp [Fields.format] at other
  · intro f large
    exact Fields.operation_of_selector rfl large
  · intro f large
    exact Fields.operation_of_selector (Selector.ofOpcode_of_large f.rt large) large
  · intro f large
    exact Fields.operation_of_selector (Selector.ofOpcode_of_large 0 large) large
  · intro f regimm large
    exact Fields.operation_of_selector (if_pos regimm) large

/-- A jump set under opcode 1 is a branch that cannot be written; a register set is looked up whatever
its opcode; and codes that agree with assigned ones in their lower bits are unknown. -/
theorem resolved_fields_unformattable_bltz :
    ((Fields.jump ⟨1, 5⟩).operation = .ok .bltz ∧
      Operation.bltz.mnemonic (.jump ⟨1, 5⟩) = .error (.unformattable .bltz)) ∧
    ((Fields.register ⟨43, 1, 2, 3, 4, 32⟩).operation = .ok .add ∧
      ∀ o, Operation.add.mnemonic (.register ⟨43, 1, 2, 3, 4, 32⟩) ≠ .error (.unformattable o)) ∧
    (64 ≤ (96 : UInt8).toNat ∧ (Fields.register ⟨0, 1, 2, 3, 4, 96⟩).operation =
      .error (.unknownOperation ⟨.function, 96⟩)) ∧
    (64 ≤ (72 : UInt8).toNat ∧ (Fields.immediate ⟨72, 1, 2, 3⟩).operation =
      .error (.unknownOperation ⟨.opcode, 72⟩)) ∧
    (64 ≤ (66 : UInt8).toNat ∧ (Fields.jump ⟨66, 3⟩).operation =
      .error (.unknownOperation ⟨.opcode, 66⟩)) ∧
    (32 ≤ (33 : UInt8).toNat ∧ (Fields.immediate ⟨1, 2, 33, 3⟩).operation =
      .error (.unknownOperation ⟨.regimm, 33⟩)) :=
  have ⟨unsuitable, register, function, immediate, jump, regimm⟩ := resolved_fields_unformattable
  have branch : (Fields.jump ⟨1, 5⟩).operation = .ok .bltz := rfl
  have sum : (Fields.register ⟨43, 1, 2, 3, 4, 32⟩).operation = .ok .add := rfl
  ⟨⟨branch, (unsuitable _ _ branch _).mpr ⟨rfl, .inr rfl, by decide⟩⟩,
    ⟨sum, register _ _ sum⟩,
    ⟨by decide, function ⟨0, 1, 2, 3, 4, 96⟩ (by decide)⟩,
    ⟨by decide, immediate ⟨72, 1, 2, 3⟩ (by decide)⟩,
    ⟨by decide, jump ⟨66, 3⟩ (by decide)⟩,
    by decide, regimm ⟨1, 2, 33, 3⟩ rfl (by decide)⟩

end Mips32
