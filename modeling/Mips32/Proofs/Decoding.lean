import Mips32.Proofs.Mnemonics

/-! Which words decode, and to what. A word has a selector in its own bits; it decodes exactly
when the selector belongs to an operation (`decode_eq_ok_iff`, `decode_eq_error_iff`), because the
layout of the operation is then made for the format of the word and its registers exist. -/
namespace Mips32

/-! ### Selectors of operations -/

/-- The code that an operation is looked up by, with its table. -/
def Operation.selector : Operation → Selector
  | special => ⟨.opcode, 0⟩
  | sll => ⟨.function, 0⟩
  | srl => ⟨.function, 2⟩
  | sra => ⟨.function, 3⟩
  | sllv => ⟨.function, 4⟩
  | srlv => ⟨.function, 6⟩
  | srav => ⟨.function, 7⟩
  | jr => ⟨.function, 8⟩
  | jalr => ⟨.function, 9⟩
  | syscall => ⟨.function, 12⟩
  | breakpoint => ⟨.function, 13⟩
  | mfhi => ⟨.function, 16⟩
  | mthi => ⟨.function, 17⟩
  | mflo => ⟨.function, 18⟩
  | mtlo => ⟨.function, 19⟩
  | mult => ⟨.function, 24⟩
  | multu => ⟨.function, 25⟩
  | div => ⟨.function, 26⟩
  | divu => ⟨.function, 27⟩
  | add => ⟨.function, 32⟩
  | addu => ⟨.function, 33⟩
  | sub => ⟨.function, 34⟩
  | subu => ⟨.function, 35⟩
  | and => ⟨.function, 36⟩
  | or => ⟨.function, 37⟩
  | xor => ⟨.function, 38⟩
  | nor => ⟨.function, 39⟩
  | slt => ⟨.function, 42⟩
  | sltu => ⟨.function, 43⟩
  | bltz => ⟨.regimm, 0⟩
  | bgez => ⟨.regimm, 1⟩
  | j => ⟨.opcode, 2⟩
  | jal => ⟨.opcode, 3⟩
  | beq => ⟨.opcode, 4⟩
  | bne => ⟨.opcode, 5⟩
  | blez => ⟨.opcode, 6⟩
  | bgtz => ⟨.opcode, 7⟩
  | addi => ⟨.opcode, 8⟩
  | addiu => ⟨.opcode, 9⟩
  | slti => ⟨.opcode, 10⟩
  | sltiu => ⟨.opcode, 11⟩
  | andi => ⟨.opcode, 12⟩
  | ori => ⟨.opcode, 13⟩
  | xori => ⟨.opcode, 14⟩
  | lui => ⟨.opcode, 15⟩
  | lb => ⟨.opcode, 32⟩
  | lh => ⟨.opcode, 33⟩
  | lw => ⟨.opcode, 35⟩
  | lbu => ⟨.opcode, 36⟩
  | lhu => ⟨.opcode, 37⟩
  | sb => ⟨.opcode, 40⟩
  | sh => ⟨.opcode, 41⟩
  | sw => ⟨.opcode, 43⟩
  | lwc1 => ⟨.opcode, 49⟩
  | swc1 => ⟨.opcode, 57⟩

namespace Operation

/-- What is found for a function code has that code. -/
theorem selector_of_ofFunct? {code : Nat} {op : Operation} (h : ofFunct? code = some op) :
    op.selector = ⟨.function, code⟩ := by
  unfold ofFunct? at h
  split at h <;> cases h <;> rfl

theorem selector_of_ofRegimm? {code : Nat} {op : Operation} (h : ofRegimm? code = some op) :
    op.selector = ⟨.regimm, code⟩ := by
  unfold ofRegimm? at h
  split at h <;> cases h <;> rfl

theorem selector_of_ofOpcode? {code : Nat} {op : Operation} (h : ofOpcode? code = some op) :
    op.selector = ⟨.opcode, code⟩ := by
  unfold ofOpcode? at h
  split at h <;> cases h <;> rfl

/-- **Every operation has one selector**, by which it is found and no other is. -/
theorem ofSelector?_eq_some_iff {s : Selector} {op : Operation} :
    ofSelector? s = some op ↔ op.selector = s := by
  constructor
  · intro found
    obtain ⟨table, code⟩ := s
    cases table with
    | opcode => exact selector_of_ofOpcode? found
    | function => exact selector_of_ofFunct? found
    | regimm => exact selector_of_ofRegimm? found
  · rintro rfl
    cases op <;> rfl

end Operation

/-! ### Selectors of words -/

/-- The code that selects the operation of a word, with its table. -/
def Word.selector (w : Word) : Selector :=
  if w.bits 31 26 = 0 then ⟨.function, w.bits 5 0⟩
  else if w.bits 31 26 = 1 then ⟨.regimm, w.bits 20 16⟩
  else ⟨.opcode, w.bits 31 26⟩

theorem Word.toNat_opcode (w : Word) : w.opcode.toNat = w.bits 31 26 := by
  rw [bits_eq_slice]
  exact w.toNat_byte_slice 26 (by decide)

theorem Word.toNat_rt (w : Word) : w.rt.toNat = w.bits 20 16 := by
  rw [bits_eq_slice]
  exact w.toNat_byte_slice 16 (by decide)

theorem Word.toNat_funct (w : Word) : w.funct.toNat = w.bits 5 0 := by
  rw [bits_eq_slice]
  exact w.toNat_byte_slice 0 (by decide)

theorem Word.opcode_eq_iff (w : Word) (n : UInt8) : w.opcode = n ↔ w.bits 31 26 = n.toNat := by
  rw [← w.toNat_opcode, UInt8.toNat_inj]

/-- The selector of the fields of a word is read off its bits. -/
@[simp] theorem Word.selector_fields (w : Word) : w.fields.selector = w.selector := by
  by_cases special : w.opcode = 0
  · have bits : w.bits 31 26 = 0 := (w.opcode_eq_iff 0).mp special
    have format : w.format = .register := by rw [Word.format, special]; rfl
    rw [Word.fields, format, Fields.ofWord, Fields.selector, w.toNat_funct, Word.selector,
      if_pos bits]
  · have bits : w.bits 31 26 ≠ 0 := fun h => special ((w.opcode_eq_iff 0).mpr h)
    rw [Word.selector, if_neg bits, ← w.toNat_opcode, ← w.toNat_rt]
    by_cases jump : w.opcode = 2 ∨ w.opcode = 3
    · have format : w.format = .jump := by
        rw [Word.format, Format.ofOpcode, if_neg special, if_pos jump]
      rw [Word.fields, format, Fields.ofWord, Fields.selector]
      rcases jump with h | h <;> rw [h] <;> rfl
    · have format : w.format = .immediate := by
        rw [Word.format, Format.ofOpcode, if_neg special, if_neg jump]
      rw [Word.fields, format, Fields.ofWord, Fields.selector, Selector.ofOpcode, regimmOpcode]
      by_cases one : w.opcode = 1
      · simp [one]
      · have : w.opcode.toNat ≠ 1 := fun h => one (UInt8.toNat_inj.mp h)
        rw [if_neg one, if_neg this]

/-- The format of the words that hold a selector. -/
def Selector.format (s : Selector) : Format :=
  match s.table with
  | .function => .register
  | .regimm => .immediate
  | .opcode => .ofOpcode (.ofNat s.code)

@[simp] theorem Word.format_selector (w : Word) : w.selector.format = w.format := by
  rw [Word.selector, ← w.toNat_opcode, Word.format]
  split
  case isTrue h => rw [UInt8.toNat_inj (b := 0) |>.mp h]; rfl
  case isFalse =>
    split
    case isTrue h => rw [UInt8.toNat_inj (b := 1) |>.mp h]; rfl
    case isFalse => simp [Selector.format]

theorem Word.selector_ne_special (w : Word) : w.selector ≠ Operation.special.selector := by
  rw [Word.selector]
  split
  · simp [Operation.selector]
  · split
    · simp [Operation.selector]
    · simpa [Operation.selector]

/-! ### Operations -/

theorem Selector.operation_eq_ok_iff {s : Selector} {op : Operation} :
    s.operation = .ok op ↔ op.selector = s := by
  rw [← Operation.ofSelector?_eq_some_iff, operation]
  cases Operation.ofSelector? s <;> simp

theorem Selector.operation_of_unassigned {s : Selector} (h : ∀ op : Operation, op.selector ≠ s) :
    s.operation = .error (.unknownOperation s) := by
  have missing : Operation.ofSelector? s = none := by
    rw [Option.eq_none_iff_forall_ne_some]
    exact fun op found => h op (Operation.ofSelector?_eq_some_iff.mp found)
  rw [operation, missing]

/-- The layout of an operation is made for the words that hold its selector. -/
theorem Operation.layout_format {op : Operation} (h : op ≠ special) :
    ∃ l, op.layout? = some l ∧ l.format = op.selector.format := by
  cases op <;> first | contradiction | exact ⟨_, rfl, rfl⟩

theorem Word.operation_ne_special {w : Word} {op : Operation} (h : op.selector = w.selector) :
    op ≠ .special := by
  rintro rfl
  exact w.selector_ne_special h.symm

theorem Word.fits_fields (w : Word) : w.fields.Fits := Fields.fits_ofWord w w.format

/-- **Every word with an assigned selector decodes**: its mnemonic never fails. -/
theorem exists_decode {w : Word} {op : Operation} (h : op.selector = w.selector) :
    ∃ m, op.mnemonic w.fields = .ok m ∧ decode w = .ok ⟨w, w.fields, op, m⟩ := by
  obtain ⟨l, layout, format⟩ := Operation.layout_format (Word.operation_ne_special h)
  have suits : l.format = w.fields.format := by
    simp [format, h]
  obtain ⟨m, written⟩ := Operation.exists_mnemonic layout suits w.fits_fields
  have found : w.fields.operation = .ok op := by
    simp [Fields.operation, Selector.operation_eq_ok_iff, h]
  exact ⟨m, written, bind_eq_ok_iff.mpr ⟨op, found, bind_eq_ok_iff.mpr ⟨m, written, rfl⟩⟩⟩

theorem decode_of_unassigned {w : Word} (h : ∀ op : Operation, op.selector ≠ w.selector) :
    decode w = .error (.unknownOperation w.selector) := by
  rw [decode, Fields.operation, w.selector_fields, Selector.operation_of_unassigned h]
  rfl

/-- The instruction is that of the word: the operation is the one with the selector of the word. -/
structure Instruction.IsOf (i : Instruction) (w : Word) : Prop where
  word : i.word = w
  fields : i.fields = w.fields
  selector : i.operation.selector = w.selector
  mnemonic : i.operation.mnemonic w.fields = .ok i.mnemonic

/-- **What decoding gives.** -/
theorem decode_eq_ok_iff {w : Word} {i : Instruction} : decode w = .ok i ↔ i.IsOf w := by
  constructor
  · intro h
    by_cases assigned : ∃ op : Operation, op.selector = w.selector
    · obtain ⟨op, selector⟩ := assigned
      obtain ⟨m, written, decoded⟩ := exists_decode selector
      obtain rfl := Except.ok.inj (decoded.symm.trans h)
      exact ⟨rfl, rfl, selector, written⟩
    · rw [decode_of_unassigned (not_exists.mp assigned)] at h
      cases h
  · obtain ⟨word, fields, op, mnemonic⟩ := i
    rintro ⟨hword, hfields, selector, written⟩
    dsimp only at hword hfields selector written
    subst hword hfields
    obtain ⟨m, written', decoded⟩ := exists_decode selector
    obtain rfl := Except.ok.inj (written.symm.trans written')
    exact decoded

theorem decode_eq_error_iff {w : Word} {e : DecodeError} :
    decode w = .error e ↔
      (∀ op : Operation, op.selector ≠ w.selector) ∧ e = .unknownOperation w.selector := by
  constructor
  · intro h
    by_cases assigned : ∃ op : Operation, op.selector = w.selector
    · obtain ⟨op, selector⟩ := assigned
      obtain ⟨m, _, decoded⟩ := exists_decode selector
      rw [decoded] at h
      cases h
    · rw [decode_of_unassigned (not_exists.mp assigned)] at h
      exact ⟨not_exists.mp assigned, (Except.error.inj h).symm⟩
  · rintro ⟨unassigned, rfl⟩
    exact decode_of_unassigned unassigned

/-! ### Assigned codes -/

/-- The assigned function codes. -/
def functionCodes : List Nat :=
  [0, 2, 3, 4, 6, 7, 8, 9, 12, 13, 16, 17, 18, 19, 24, 25, 26, 27,
   32, 33, 34, 35, 36, 37, 38, 39, 42, 43]

/-- The assigned opcodes, without the two that send the look-up to another table. -/
def opcodes : List Nat :=
  [2, 3, 4, 5, 6, 7, 8, 9, 10, 11, 12, 13, 14, 15, 32, 33, 35, 36, 37, 40, 41, 43, 49, 57]

/-- The bits of a word hold an assigned code, in the table that its opcode points to. -/
def Word.Assigned (w : Word) : Prop :=
  (w.bits 31 26 = 0 ∧ w.bits 5 0 ∈ functionCodes) ∨
  (w.bits 31 26 = 1 ∧ (w.bits 20 16 = 0 ∨ w.bits 20 16 = 1)) ∨
  w.bits 31 26 ∈ opcodes

instance (w : Word) : Decidable w.Assigned := by unfold Word.Assigned; infer_instance

/-- The assigned codes of a table. -/
def Table.codes : Table → List Nat
  | function => functionCodes
  | regimm => [0, 1]
  | opcode => opcodes

theorem Operation.code_mem {op : Operation} (h : op ≠ special) :
    op.selector.code ∈ op.selector.table.codes := by
  cases op <;> first | contradiction | decide

theorem Table.exists_operation (t : Table) :
    ∀ code ∈ t.codes, ∃ op ∈ Operation.all, op.selector = ⟨t, code⟩ := by
  cases t <;> decide

/-- A word is assigned when its selector is in its table. -/
theorem Word.assigned_iff_mem (w : Word) :
    w.Assigned ↔ w.selector.code ∈ w.selector.table.codes := by
  rw [Assigned, selector]
  split
  case isTrue h => simp [h, Table.codes, opcodes]
  case isFalse h =>
    split
    case isTrue one => simp [one, Table.codes, opcodes]
    case isFalse one => simp [h, one, Table.codes]

theorem Word.assigned_iff (w : Word) : w.Assigned ↔ ∃ op : Operation, op.selector = w.selector := by
  rw [assigned_iff_mem]
  constructor
  · intro h
    obtain ⟨op, _, selector⟩ := Table.exists_operation _ _ h
    exact ⟨op, selector⟩
  · rintro ⟨op, selector⟩
    rw [← selector]
    exact Operation.code_mem (operation_ne_special selector)

/-- **Exactly the assigned words decode**, and the error of any other names the code that was
looked up, with its table. A decoded word has the format of its opcode, and so has the layout. -/
theorem decode_exactly_assigned (w : Word) :
    ((∃ i, decode w = .ok i) ↔ w.Assigned) ∧
    (∀ e, decode w = .error e ↔ ¬ w.Assigned ∧
      e = .unknownOperation (if w.bits 31 26 = 0 then ⟨.function, w.bits 5 0⟩
        else if w.bits 31 26 = 1 then ⟨.regimm, w.bits 20 16⟩
        else ⟨.opcode, w.bits 31 26⟩)) ∧
    ∀ i, decode w = .ok i → i.operation ≠ .special ∧
      ∃ l, i.operation.layout? = some l ∧ l.format = .ofOpcode w.opcode ∧
        i.fields.format = .ofOpcode w.opcode := by
  refine ⟨?_, ?_, ?_⟩
  · rw [w.assigned_iff]
    constructor
    · rintro ⟨i, h⟩
      exact ⟨i.operation, (decode_eq_ok_iff.mp h).selector⟩
    · rintro ⟨op, selector⟩
      obtain ⟨m, _, decoded⟩ := exists_decode selector
      exact ⟨_, decoded⟩
  · intro e
    rw [decode_eq_error_iff, w.assigned_iff, not_exists]
    rfl
  · intro i h
    obtain ⟨_, fields, selector, _⟩ := decode_eq_ok_iff.mp h
    have assigned := Word.operation_ne_special selector
    obtain ⟨l, layout, format⟩ := Operation.layout_format assigned
    exact ⟨assigned, l, layout, by simp [format, selector, Word.format], by simp [fields, Word.format]⟩

theorem decode_exactly_assigned_addi :
    decode 0x22300005 = .ok ⟨0x22300005, .immediate ⟨8, 17, 16, 5⟩, .addi, "addi $s0, $s1, 5"⟩ ∧
    Operation.addi ≠ .special ∧ ∃ l, Operation.addi.layout? = some l ∧
      l.format = .ofOpcode (Word.opcode 0x22300005) ∧
      (Fields.immediate ⟨8, 17, 16, 5⟩).format = .ofOpcode (Word.opcode 0x22300005) :=
  have decoded : decode 0x22300005 =
      .ok ⟨0x22300005, .immediate ⟨8, 17, 16, 5⟩, .addi, "addi $s0, $s1, 5"⟩ := rfl
  ⟨decoded, (decode_exactly_assigned 0x22300005).2.2 _ decoded⟩

end Mips32
