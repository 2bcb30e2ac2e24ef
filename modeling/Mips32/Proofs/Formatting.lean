import Mips32.Proofs.Disassembly

/-! What the formatter gives for every operation and every field set, also for sets that no word
holds. The assembly language is stated on its own: which operands an operation takes
(`Operation.Takes`) and how they are written (`Operation.Written`). The formatter follows it, and
refuses a field set of another format before it looks up a register, and the first register that
does not exist before all others (`mnemonic_exactly_prescribed`). -/
namespace Mips32

/-! ### The assembly language -/

open Operation in
/-- The operands of an operation over a field set, in printed order. -/
inductive Operation.Takes : Operation → Fields → List Operand → Prop
  | arithmetic {op : Operation} (f : RegisterFields) :
      op ∈ [add, addu, and, nor, or, slt, sltu, sub, subu, xor] →
      Takes op (.register f) [.register f.rd.toNat, .register f.rs.toNat, .register f.rt.toNat]
  | fixedShift {op : Operation} (f : RegisterFields) : op ∈ [sll, sra, srl] →
      Takes op (.register f) [.register f.rd.toNat, .register f.rt.toNat, .number f.shamt.toNat]
  | variableShift {op : Operation} (f : RegisterFields) : op ∈ [sllv, srav, srlv] →
      Takes op (.register f) [.register f.rd.toNat, .register f.rt.toNat, .register f.rs.toNat]
  | registerPair {op : Operation} (f : RegisterFields) : op ∈ [div, divu, mult, multu] →
      Takes op (.register f) [.register f.rs.toNat, .register f.rt.toNat]
  | source {op : Operation} (f : RegisterFields) : op ∈ [jr, mthi, mtlo] →
      Takes op (.register f) [.register f.rs.toNat]
  | destination {op : Operation} (f : RegisterFields) : op ∈ [mfhi, mflo] →
      Takes op (.register f) [.register f.rd.toNat]
  | link (f : RegisterFields) :
      Takes jalr (.register f) [.register f.rd.toNat, .register f.rs.toNat]
  | bare {op : Operation} (f : RegisterFields) : op ∈ [breakpoint, syscall] →
      Takes op (.register f) []
  | immediate {op : Operation} (f : ImmediateFields) :
      op ∈ [addi, addiu, andi, ori, slti, sltiu, xori] →
      Takes op (.immediate f) [.register f.rt.toNat, .register f.rs.toNat, .number f.imm.toNat]
  | upper (f : ImmediateFields) :
      Takes lui (.immediate f) [.register f.rt.toNat, .number f.imm.toNat]
  | memory {op : Operation} (f : ImmediateFields) :
      op ∈ [lb, lbu, lh, lhu, lw, lwc1, sb, sh, sw, swc1] →
      Takes op (.immediate f) [.register f.rt.toNat, .memory f.imm.toNat f.rs.toNat]
  | comparison {op : Operation} (f : ImmediateFields) : op ∈ [beq, bne] →
      Takes op (.immediate f) [.register f.rs.toNat, .register f.rt.toNat, .number f.imm.toNat]
  | zeroComparison {op : Operation} (f : ImmediateFields) : op ∈ [bgez, bgtz, blez, bltz] →
      Takes op (.immediate f) [.register f.rs.toNat, .number f.imm.toNat]
  | jump {op : Operation} (f : JumpFields) : op ∈ [j, jal] →
      Takes op (.jump f) [.number f.label.toNat]

/-- How an operand is written. -/
inductive Operand.Written : Operand → String → Prop
  | register {index : Nat} {name : String} :
      Register.names[index]? = some name → Written (.register index) name
  | number (value : Nat) : Written (.number value) (Nat.repr value)
  | memory (offset : Nat) {base : Nat} {name : String} : Register.names[base]? = some name →
      Written (.memory offset base) (Nat.repr offset ++ "(" ++ name ++ ")")

/-- How the operands behind the first one are written. -/
inductive Operand.Continued : List Operand → String → Prop
  | nil : Continued [] ""
  | cons {o : Operand} {os : List Operand} {t rest : String} :
      o.Written t → Continued os rest → Continued (o :: os) (", " ++ t ++ rest)

/-- How an operation is written with its operands. -/
inductive Operation.Written (op : Operation) : List Operand → String → Prop
  | alone : Written op [] op.name
  | operands {o : Operand} {os : List Operand} {t rest : String} :
      o.Written t → Operand.Continued os rest →
      Written op (o :: os) (op.name ++ " " ++ t ++ rest)

/-- The register that an operand names. -/
def Operand.register? : Operand → Option Nat
  | register index => some index
  | number _ => none
  | memory _ base => some base

/-- The registers that are printed, in order. -/
def Operand.registers (operands : List Operand) : List Nat := operands.filterMap register?

/-- What is due for an operation and a field set. -/
inductive Operation.Prescribes (op : Operation) (fs : Fields) : Except DecodeError String → Prop
  | unsuitable : (∀ l, op.layout? = some l → l.format ≠ fs.format) →
      Prescribes op fs (.error (.unformattable op))
  | noRegister {operands : List Operand} {index : Nat} : op.Takes fs operands →
      (Operand.registers operands).find? (31 < ·) = some index →
      Prescribes op fs (.error (.invalidRegister index))
  | written {operands : List Operand} {text : String} : op.Takes fs operands →
      (∀ index ∈ Operand.registers operands, index ≤ 31) → op.Written operands text →
      Prescribes op fs (.ok text)

/-! ### The operands of an operation -/

namespace Operation

/-- **The operands are those that the layout reads.** -/
theorem takes_iff {op : Operation} {fs : Fields} {operands : List Operand} :
    op.Takes fs operands ↔ ∃ l, op.layout? = some l ∧ l.operands? fs = some operands := by
  constructor
  · intro h
    -- The operations of one form are listed, so their layout is a closed table for `decide`.
    have suits {ops : List Operation} {l : Layout} (table : ∀ op ∈ ops, op.layout? = some l)
        {op : Operation} (listed : op ∈ ops) : op.layout? = some l := table op listed
    cases h with
    | arithmetic f listed => exact ⟨.rdRsRt, suits (by decide) listed, rfl⟩
    | fixedShift f listed => exact ⟨.rdRtShamt, suits (by decide) listed, rfl⟩
    | variableShift f listed => exact ⟨.rdRtRs, suits (by decide) listed, rfl⟩
    | registerPair f listed => exact ⟨.rsRt, suits (by decide) listed, rfl⟩
    | source f listed => exact ⟨.rs, suits (by decide) listed, rfl⟩
    | destination f listed => exact ⟨.rd, suits (by decide) listed, rfl⟩
    | link f => exact ⟨.rdRs, rfl, rfl⟩
    | bare f listed => exact ⟨.noOperands, suits (by decide) listed, rfl⟩
    | immediate f listed => exact ⟨.rtRsImm, suits (by decide) listed, rfl⟩
    | upper f => exact ⟨.rtImm, rfl, rfl⟩
    | memory f listed => exact ⟨.rtImmRs, suits (by decide) listed, rfl⟩
    | comparison f listed => exact ⟨.rsRtLabel, suits (by decide) listed, rfl⟩
    | zeroComparison f listed => exact ⟨.rsLabel, suits (by decide) listed, rfl⟩
    | jump f listed => exact ⟨.label, suits (by decide) listed, rfl⟩
  · rintro ⟨l, layout, read⟩
    cases op <;> cases layout <;> cases fs <;> cases read <;> constructor <;> decide

/-- An operation has operands over the field sets of the format of its layout. -/
theorem exists_takes {op : Operation} {fs : Fields} {l : Layout} (layout : op.layout? = some l)
    (format : l.format = fs.format) : ∃ operands, op.Takes fs operands := by
  obtain ⟨operands, read⟩ := Layout.exists_operands_iff.mpr format
  exact ⟨operands, takes_iff.mpr ⟨l, layout, read⟩⟩

end Operation

/-! ### How operands are written -/

namespace Operand

theorem text_eq_ok_iff {o : Operand} {t : String} : o.text = .ok t ↔ o.Written t := by
  cases o with
  | register index =>
    rw [text, Register.text_eq_ok_iff]
    constructor
    · exact .register
    · rintro ⟨named⟩
      exact named
  | number value =>
    constructor
    · rintro ⟨⟩
      exact .number value
    · rintro ⟨⟩
      rfl
  | memory offset base =>
    rw [text_memory_eq_ok_iff]
    constructor
    · rintro ⟨name, named, rfl⟩
      exact .memory offset (Register.text_eq_ok_iff.mp named)
    · rintro (_ | _ | @⟨_, _, name, named⟩)
      exact ⟨name, Register.text_eq_ok_iff.mpr named, rfl⟩

/-- An operand cannot be written when its register does not exist. -/
theorem text_of_noRegister {o : Operand} {index : Nat} (register : o.register? = some index)
    (large : 31 < index) : o.text = .error (.invalidRegister index) := by
  have missing : Register.text index = .error (.invalidRegister index) := by
    have none : Register.name? index = none := by
      rw [← Option.not_isSome_iff_eq_none, Register.name?_isSome_iff]
      omega
    rw [Register.text, none]
  cases o with
  | register i =>
    obtain rfl := Option.some.inj register
    exact missing
  | number value => cases register
  | memory offset base =>
    obtain rfl := Option.some.inj register
    rw [text, missing]
    rfl

theorem exists_text {o : Operand} (small : ∀ index ∈ o.register?, index ≤ 31) :
    ∃ t, o.text = .ok t := by
  cases o with
  | register index => exact Register.exists_text (Nat.lt_succ_of_le (small index rfl))
  | number value => exact ⟨_, rfl⟩
  | memory offset base =>
    obtain ⟨name, named⟩ := Register.exists_text (Nat.lt_succ_of_le (small base rfl))
    exact ⟨_, text_memory_eq_ok_iff.mpr ⟨name, named, rfl⟩⟩

theorem exists_texts {operands : List Operand} (small : ∀ index ∈ registers operands, index ≤ 31) :
    ∃ texts, operands.mapM text = .ok texts := by
  induction operands with
  | nil => exact ⟨[], rfl⟩
  | cons o os ih =>
    simp only [registers, List.mem_filterMap, List.mem_cons] at small ih
    obtain ⟨t, first⟩ := exists_text fun index named => small index ⟨o, .inl rfl, named⟩
    obtain ⟨texts, others⟩ := ih fun index ⟨p, member, named⟩ =>
      small index ⟨p, .inr member, named⟩
    exact ⟨t :: texts, mapM_eq_ok_iff.mpr (.cons first (mapM_eq_ok_iff.mp others))⟩

/-- **The first register that does not exist is reported**, because what comes before it can be
written. -/
theorem mapM_text_of_noRegister {operands : List Operand} {index : Nat}
    (h : (registers operands).find? (31 < ·) = some index) :
    operands.mapM text = .error (.invalidRegister index) := by
  rw [registers, List.find?_filterMap, Option.bind_eq_some_iff] at h
  obtain ⟨o, found, register⟩ := h
  obtain ⟨large, before, after, rfl, small⟩ := List.find?_eq_some_iff_append.mp found
  obtain ⟨texts, written⟩ : ∃ texts, before.mapM text = .ok texts := by
    refine exists_texts fun i member => ?_
    obtain ⟨p, listed, named⟩ := List.mem_filterMap.mp member
    simpa [named] using small p listed
  rw [register, Option.any_some, decide_eq_true_eq] at large
  rw [List.mapM_append, List.mapM_cons, written, text_of_noRegister register large]
  rfl

theorem continued_iff {os : List Operand} {rest : String} :
    Continued os rest ↔
      ∃ ts, List.Forall₂ Written os ts ∧ String.join (ts.map (", " ++ ·)) = rest := by
  constructor
  · intro h
    induction h with
    | nil => exact ⟨[], .nil, rfl⟩
    | @cons o os t rest first _ ih =>
      obtain ⟨ts, written, rfl⟩ := ih
      exact ⟨t :: ts, .cons first written, by rw [List.map_cons, String.join_cons]⟩
  · rintro ⟨ts, written, rfl⟩
    induction written with
    | nil => exact .nil
    | cons first _ ih =>
      rw [List.map_cons, String.join_cons]
      exact .cons first ih

end Operand

theorem intercalate_cons (s t : String) (ts : List String) :
    String.intercalate s (t :: ts) = t ++ String.join (ts.map (s ++ ·)) := by
  induction ts generalizing t with
  | nil => simp
  | cons u us ih =>
    rw [String.intercalate_cons_cons, ih, List.map_cons, String.join_cons]
    simp only [String.append_assoc]

namespace Operation

/-- **Spelling follows the assembly language.** -/
theorem written_iff {op : Operation} {operands : List Operand} {m : String} :
    op.Written operands m ↔
      ∃ texts, operands.mapM Operand.text = .ok texts ∧ op.spell texts = m := by
  simp only [mapM_eq_ok_iff, Operand.text_eq_ok_iff]
  have spell_cons (t : String) (ts : List String) :
      op.spell (t :: ts) = op.name ++ " " ++ t ++ String.join (ts.map (", " ++ ·)) := by
    rw [spell, intercalate_cons]
    · simp only [String.append_assoc]
    · exact List.cons_ne_nil t ts
  constructor
  · intro h
    cases h with
    | alone => exact ⟨[], .nil, rfl⟩
    | @operands o os t rest first more =>
      obtain ⟨ts, written, rfl⟩ := Operand.continued_iff.mp more
      exact ⟨t :: ts, .cons first written, spell_cons t ts⟩
  · rintro ⟨texts, written, rfl⟩
    cases written with
    | nil => exact .alone
    | @cons o t os ts first more =>
      rw [spell_cons]
      exact .operands first (Operand.continued_iff.mpr ⟨ts, more, rfl⟩)

/-! ### Mnemonics -/

theorem mnemonic_of_unsuitable {op : Operation} {fs : Fields}
    (h : ∀ l, op.layout? = some l → l.format ≠ fs.format) :
    op.mnemonic fs = .error (.unformattable op) := by
  have none : op.layout?.bind (·.operands? fs) = none := by
    rw [Option.bind_eq_none_iff]
    exact fun l layout => Layout.operands?_of_format_ne (h l layout)
  rw [mnemonic, none]

theorem mnemonic_of_takes {op : Operation} {fs : Fields} {operands : List Operand}
    (h : op.Takes fs operands) :
    op.mnemonic fs = (operands.mapM Operand.text).map op.spell := by
  obtain ⟨l, layout, read⟩ := takes_iff.mp h
  rw [mnemonic, layout, Option.bind_some, read]
  rfl

theorem mnemonic_of_prescribes {op : Operation} {fs : Fields} {result : Except DecodeError String}
    (h : op.Prescribes fs result) : op.mnemonic fs = result := by
  cases h with
  | unsuitable formats => exact mnemonic_of_unsuitable formats
  | noRegister takes first =>
    rw [mnemonic_of_takes takes, Operand.mapM_text_of_noRegister first]
    rfl
  | written takes _ text =>
    obtain ⟨texts, written, rfl⟩ := written_iff.mp text
    rw [mnemonic_of_takes takes, written]
    rfl

/-- Something is due for every operation and every field set. -/
theorem exists_prescribes (op : Operation) (fs : Fields) : ∃ result, op.Prescribes fs result := by
  by_cases suits : ∃ l, op.layout? = some l ∧ l.format = fs.format
  · obtain ⟨l, layout, format⟩ := suits
    obtain ⟨operands, takes⟩ := exists_takes layout format
    cases first : (Operand.registers operands).find? (31 < ·) with
    | some index => exact ⟨_, .noRegister takes first⟩
    | none =>
      have small : ∀ index ∈ Operand.registers operands, index ≤ 31 := by
        simpa using first
      obtain ⟨texts, written⟩ := Operand.exists_texts small
      exact ⟨_, .written takes small (written_iff.mpr ⟨texts, written, rfl⟩)⟩
  · push Not at suits
    exact ⟨_, .unsuitable suits⟩

/-- Field sets of one format that agree on the fields a layout prints have the same operands. -/
theorem takes_congr {op : Operation} {fs gs : Fields} {operands : List Operand}
    (h : op.Takes fs operands) (format : gs.format = fs.format)
    (agree : ∀ f ∈ op.operandFields, gs.get? f = fs.get? f) : op.Takes gs operands := by
  obtain ⟨l, layout, read⟩ := takes_iff.mp h
  obtain ⟨suits, _⟩ := Layout.operands?_eq_some_iff.mp read
  refine takes_iff.mpr ⟨l, layout, Layout.operands?_congr read (suits.trans format.symm) ?_⟩
  intro f printed
  obtain ⟨v, held, _⟩ := Layout.agreeOn_of_operands? read read f printed
  exact ⟨v, held, (agree f (by simpa [operandFields, layout] using printed)).trans held⟩

/-- **Fields that are not printed do not count.** -/
theorem mnemonic_congr {op : Operation} {fs gs : Fields} (format : gs.format = fs.format)
    (agree : ∀ f ∈ op.operandFields, gs.get? f = fs.get? f) : op.mnemonic gs = op.mnemonic fs := by
  by_cases suits : ∃ l, op.layout? = some l ∧ l.format = fs.format
  · obtain ⟨l, layout, same⟩ := suits
    obtain ⟨operands, takes⟩ := exists_takes layout same
    rw [mnemonic_of_takes takes, mnemonic_of_takes (takes_congr takes format agree)]
  · push Not at suits
    rw [mnemonic_of_unsuitable suits, mnemonic_of_unsuitable (format ▸ suits)]

end Operation

/-- **The formatter gives what is prescribed**, for every operation and every field set: the
mnemonic of the assembly language, or the one error that comes before all others. Fields that the
layout does not print have no part in it. -/
theorem mnemonic_exactly_prescribed (op : Operation) (fs : Fields) :
    (∀ result, op.mnemonic fs = result ↔ op.Prescribes fs result) ∧
      ∀ gs : Fields, gs.format = fs.format → (∀ f ∈ op.operandFields, gs.get? f = fs.get? f) →
        op.mnemonic gs = op.mnemonic fs := by
  refine ⟨fun result => ⟨?_, Operation.mnemonic_of_prescribes⟩, fun _ => Operation.mnemonic_congr⟩
  rintro rfl
  obtain ⟨result, due⟩ := op.exists_prescribes fs
  exact (Operation.mnemonic_of_prescribes due).symm ▸ due

/-- A load with two registers that do not exist, and a shift whose `rs` does not count. -/
theorem mnemonic_exactly_prescribed_lw_sll :
    Operation.lw.mnemonic (.immediate ⟨35, 99, 40, 4⟩) = .error (.invalidRegister 40) ∧
      (Fields.register ⟨7, 200, 9, 8, 255, 63⟩).format =
        (Fields.register ⟨0, 0, 9, 8, 255, 0⟩).format ∧
      (∀ f ∈ Operation.sll.operandFields, (Fields.register ⟨7, 200, 9, 8, 255, 63⟩).get? f =
        (Fields.register ⟨0, 0, 9, 8, 255, 0⟩).get? f) ∧
      Operation.sll.mnemonic (.register ⟨7, 200, 9, 8, 255, 63⟩) =
        Operation.sll.mnemonic (.register ⟨0, 0, 9, 8, 255, 0⟩) :=
  have agree : ∀ f ∈ Operation.sll.operandFields,
      (Fields.register ⟨7, 200, 9, 8, 255, 63⟩).get? f =
        (Fields.register ⟨0, 0, 9, 8, 255, 0⟩).get? f := by decide
  ⟨((mnemonic_exactly_prescribed .lw _).1 _).mpr (.noRegister (.memory _ (by decide)) rfl),
    rfl, agree, (mnemonic_exactly_prescribed .sll _).2 _ rfl agree⟩

end Mips32
