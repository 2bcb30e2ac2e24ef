import Mips32.Proofs.Disassembly
import Mathlib.Data.Set.Function

/-! Which bits of a word select its operation. They are the opcode and, under the opcodes 0 and 1,
one more field; they carry the selector of the word and nothing else (`selectingBits_eq_iff`), so
words with the same selecting bits decode alike, and the selecting bits of the words that decode are
as many as the operations. -/
namespace Mips32

structure SelectingBits where
  opcode : Nat
  /-- The bits that are looked at besides the opcode. -/
  more : Option Nat
  deriving DecidableEq

/-- Bits 31 to 26 and, where these are 0, bits 5 to 0, or, where they are 1, bits 20 to 16. -/
def Word.selectingBits (w : Word) : SelectingBits where
  opcode := w.bits 31 26
  more :=
    if w.bits 31 26 = 0 then some (w.bits 5 0)
    else if w.bits 31 26 = 1 then some (w.bits 20 16)
    else none

namespace SelectingBits

/-- The table that the opcode points to, and the code that is looked up there. -/
def selector (b : SelectingBits) : Selector :=
  match b.more with
  | none => ⟨.opcode, b.opcode⟩
  | some code => if b.opcode = 0 then ⟨.function, code⟩ else ⟨.regimm, code⟩

/-- The operation that the bits select, the marker if they are unassigned. -/
def operation (b : SelectingBits) : Operation := (Operation.ofSelector? b.selector).getD .special

theorem operation_eq {b : SelectingBits} {op : Operation} (h : op.selector = b.selector) :
    b.operation = op := by
  rw [operation, Operation.ofSelector?_eq_some_iff.mpr h, Option.getD_some]

end SelectingBits

@[simp] theorem Word.selector_selectingBits (w : Word) : w.selectingBits.selector = w.selector := by
  rw [selectingBits, SelectingBits.selector, selector]
  by_cases special : w.bits 31 26 = 0
  · simp [special]
  · by_cases regimm : w.bits 31 26 = 1 <;> simp [special, regimm]

/-- **The selecting bits carry the selector and nothing else.** -/
theorem Word.selectingBits_eq_iff (w₁ w₂ : Word) :
    w₁.selectingBits = w₂.selectingBits ↔ w₁.selector = w₂.selector := by
  constructor
  · intro same
    rw [← w₁.selector_selectingBits, ← w₂.selector_selectingBits, same]
  · intro same
    rw [selector, selector] at same
    rw [selectingBits, selectingBits]
    split_ifs at same ⊢ <;> simp_all

/-- Words with one selector decode alike. -/
theorem decode_congr {w₁ w₂ : Word} (same : w₁.selector = w₂.selector) :
    (∃ i₁ i₂, decode w₁ = .ok i₁ ∧ decode w₂ = .ok i₂ ∧ i₁.operation = i₂.operation ∧
      i₁.fields.format = i₂.fields.format) ∨
    ∃ e, decode w₁ = .error e ∧ decode w₂ = .error e := by
  by_cases assigned : ∃ op : Operation, op.selector = w₁.selector
  · obtain ⟨op, selector⟩ := assigned
    obtain ⟨m₁, _, decoded₁⟩ := exists_decode selector
    obtain ⟨m₂, _, decoded₂⟩ := exists_decode (selector.trans same)
    have format : w₁.fields.format = w₂.fields.format := by
      simp [← Word.format_selector, same]
    exact .inl ⟨_, _, decoded₁, decoded₂, rfl, format⟩
  · push Not at assigned
    refine .inr ⟨_, decode_of_unassigned assigned, ?_⟩
    rw [same]
    exact decode_of_unassigned (same ▸ assigned)

/-- Every operation is that of a word. -/
theorem Operation.exists_word {op : Operation} (h : op ∈ all) :
    ∃ w i, decode w = .ok i ∧ i.operation = op := by
  have assigned := op.mem_all_iff.mp h
  have bound : ∀ f ∈ op.selector.free, 0 < f.size := by
    intro f _
    rw [Field.size, Nat.one_shiftLeft]
    exact Nat.two_pow_pos _
  obtain ⟨m, decoded⟩ := decode_encode assigned bound
  exact ⟨_, _, decoded, rfl⟩

theorem operation_selectingBits {w : Word} {i : Instruction} (h : decode w = .ok i) :
    w.selectingBits.operation = i.operation := by
  have selector := (decode_eq_ok_iff.mp h).selector
  exact SelectingBits.operation_eq (selector.trans w.selector_selectingBits.symm)

theorem selectingBits_of_operation_eq {w₁ w₂ : Word} {i₁ i₂ : Instruction}
    (h₁ : decode w₁ = .ok i₁) (h₂ : decode w₂ = .ok i₂) (same : i₁.operation = i₂.operation) :
    w₁.selectingBits = w₂.selectingBits := by
  rw [Word.selectingBits_eq_iff, ← (decode_eq_ok_iff.mp h₁).selector,
    ← (decode_eq_ok_iff.mp h₂).selector, same]

/-- The selecting bits of the words that decode. -/
def decodableBits : Set SelectingBits := {b | ∃ w i, decode w = .ok i ∧ w.selectingBits = b}

/-- **Decodable selecting bits and operations correspond.** -/
theorem operation_bijOn : Set.BijOn SelectingBits.operation decodableBits {op | op ∈ Operation.all} := by
  refine ⟨?_, ?_, ?_⟩
  · rintro _ ⟨w, i, decoded, rfl⟩
    have selector := (decode_eq_ok_iff.mp decoded).selector
    change w.selectingBits.operation ∈ Operation.all
    rw [operation_selectingBits decoded, Operation.mem_all_iff]
    exact Word.operation_ne_special selector
  · rintro _ ⟨w₁, i₁, decoded₁, rfl⟩ _ ⟨w₂, i₂, decoded₂, rfl⟩ same
    rw [operation_selectingBits decoded₁, operation_selectingBits decoded₂] at same
    exact selectingBits_of_operation_eq decoded₁ decoded₂ same
  · intro op listed
    obtain ⟨w, i, decoded, rfl⟩ := Operation.exists_word listed
    exact ⟨_, ⟨w, i, decoded, rfl⟩, operation_selectingBits decoded⟩

/-- **The selecting bits, and no others, select the operation.** Words that share them decode to one
operation in one format, or fail with one error; words that decode to one operation share them; and
the operations are those that some decodable selecting bits select, each by one choice of them. -/
theorem selecting_bits_select_operation :
    (∀ w₁ w₂ : Word, w₁.selectingBits = w₂.selectingBits →
      (∃ i₁ i₂, decode w₁ = .ok i₁ ∧ decode w₂ = .ok i₂ ∧ i₁.operation = i₂.operation ∧
        i₁.fields.format = i₂.fields.format) ∨
      ∃ e, decode w₁ = .error e ∧ decode w₂ = .error e) ∧
    (∀ (w₁ w₂ : Word) (i₁ i₂ : Instruction), decode w₁ = .ok i₁ → decode w₂ = .ok i₂ →
      i₁.operation = i₂.operation → w₁.selectingBits = w₂.selectingBits) ∧
    (∀ op ∈ Operation.all, ∃ w i, decode w = .ok i ∧ i.operation = op) ∧
    ∃ select : SelectingBits → Operation,
      Set.BijOn select decodableBits {op | op ∈ Operation.all} ∧
        ∀ w i, decode w = .ok i → select w.selectingBits = i.operation := by
  refine ⟨?_, ?_, ?_, SelectingBits.operation, operation_bijOn, fun _ _ => operation_selectingBits⟩
  · intro w₁ w₂ same
    exact decode_congr ((w₁.selectingBits_eq_iff w₂).mp same)
  · intro w₁ w₂ i₁ i₂
    exact selectingBits_of_operation_eq
  · intro op
    exact Operation.exists_word

/-- Branches on `rt` with different registers share their selecting bits. -/
theorem selecting_bits_select_operation_bgez :
    (Word.selectingBits 0x04410005 = Word.selectingBits 0x0621FFFF ∧
      ((∃ i₁ i₂, decode 0x04410005 = .ok i₁ ∧ decode 0x0621FFFF = .ok i₂ ∧
          i₁.operation = i₂.operation ∧ i₁.fields.format = i₂.fields.format) ∨
        ∃ e, decode 0x04410005 = .error e ∧ decode 0x0621FFFF = .error e)) ∧
    (decode 0x04410005 =
        .ok ⟨0x04410005, .immediate ⟨1, 2, 1, 5⟩, .bgez, "bgez $v0, 5"⟩ ∧
      decode 0x0621FFFF =
        .ok ⟨0x0621FFFF, .immediate ⟨1, 17, 1, 0xFFFF⟩, .bgez, "bgez $s1, 65535"⟩ ∧
      Word.selectingBits 0x04410005 = Word.selectingBits 0x0621FFFF) ∧
    Operation.bltz ∈ Operation.all ∧ ∃ w i, decode w = .ok i ∧ i.operation = .bltz :=
  have share : Word.selectingBits 0x04410005 = Word.selectingBits 0x0621FFFF := by decide
  have listed : Operation.bltz ∈ Operation.all := by decide
  ⟨⟨share, selecting_bits_select_operation.1 _ _ share⟩,
    ⟨rfl, rfl, selecting_bits_select_operation.2.1 0x04410005 0x0621FFFF _ _ rfl rfl rfl⟩,
    listed, selecting_bits_select_operation.2.2.1 .bltz listed⟩

end Mips32
