import Mips32.Fields
import Mathlib.Algebra.Group.Nat.Defs

/-! Slicing and packing are inverse. A field has one position in every format that holds it,
so slicing a word is reading its fields one by one (`entries_ofWord`); the fields of a format
lie side by side and fill the word, so nothing is lost (`pack_ofWord`) and nothing overlaps
(`ofWord_pack`). -/
namespace Mips32

namespace Word

/-- The number in the bits from `high` down to `low`. -/
def bits (w : Word) (high low : Nat) : Nat := (w.toBitVec.extractLsb high low).toNat

theorem bits_eq_slice (w : Word) (high low : Nat) :
    w.bits high low = w.slice low (high - low + 1) := by
  rw [bits, BitVec.extractLsb, BitVec.extractLsb'_toNat, slice, Nat.one_shiftLeft]
  rfl

theorem slice_eq_div_mod (w : Word) (low width : Nat) :
    w.slice low width = w.toNat / 2 ^ low % 2 ^ width := by
  rw [slice, Nat.one_shiftLeft, Nat.shiftRight_eq_div_pow]

theorem slice_lt_two_pow (w : Word) (low width : Nat) : w.slice low width < 2 ^ width := by
  simpa [Nat.one_shiftLeft] using w.slice_lt low width

/-- A slice that fits a byte is stored whole. -/
theorem toNat_byte_slice (w : Word) (low : Nat) {width : Nat} (h : width ≤ 8) :
    (UInt8.ofNat (w.slice low width)).toNat = w.slice low width := by
  have bound := w.slice_lt_two_pow low width
  have mono : 2 ^ width ≤ 2 ^ 8 := Nat.pow_le_pow_right (by decide) h
  rw [UInt8.toNat_ofNat']
  exact Nat.mod_eq_of_lt (by omega)

end Word

/-- The position of the lowest bit of a field. -/
def Field.low : Field → Nat
  | opcode => 26
  | rs => 21
  | rt => 16
  | rd => 11
  | shamt => 6
  | funct | imm | label => 0

/-- The value that a word holds in a field. -/
def Word.read (w : Word) (f : Field) : Nat := w.slice f.low f.width

theorem Word.read_lt (w : Word) (f : Field) : w.read f < f.size := w.slice_lt f.low f.width

/-- The fields of a format, most significant first. -/
def Format.fields : Format → List Field
  | register => [.opcode, .rs, .rt, .rd, .shamt, .funct]
  | immediate => [.opcode, .rs, .rt, .imm]
  | jump => [.opcode, .label]

namespace Fields

/-- The fields of a format with given values. -/
def ofValues (F : Format) (value : Field → Nat) : Fields :=
  match F with
  | .register => register ⟨.ofNat (value .opcode), .ofNat (value .rs), .ofNat (value .rt),
      .ofNat (value .rd), .ofNat (value .shamt), .ofNat (value .funct)⟩
  | .immediate => immediate ⟨.ofNat (value .opcode), .ofNat (value .rs), .ofNat (value .rt),
      .ofNat (value .imm)⟩
  | .jump => jump ⟨.ofNat (value .opcode), .ofNat (value .label)⟩

@[simp] theorem format_ofValues (F : Format) (value : Field → Nat) : (ofValues F value).format = F := by
  cases F <;> rfl

@[simp] theorem opcode_ofValues (F : Format) (value : Field → Nat) :
    (ofValues F value).opcode = .ofNat (value .opcode) := by
  cases F <;> rfl

/-- The machine integers of a field set hold every value that fits its field. -/
theorem entries_ofValues {F : Format} {value : Field → Nat}
    (h : ∀ f ∈ F.fields, value f < f.size) :
    (ofValues F value).entries = F.fields.map fun f => (f, value f) := by
  have byte {n : Nat} (hn : n < 64) : n % 2 ^ 8 = n := by omega
  cases F with
  | register =>
    simp only [Format.fields, List.forall_mem_cons, Field.size, Field.width, Nat.one_shiftLeft] at h
    obtain ⟨opcode, rs, rt, rd, shamt, funct, _⟩ := h
    simp only [ofValues, entries, Format.fields, List.map, UInt8.toNat_ofNat']
    rw [byte opcode, byte (by omega), byte (by omega), byte (by omega), byte (by omega), byte funct]
  | immediate =>
    simp only [Format.fields, List.forall_mem_cons, Field.size, Field.width, Nat.one_shiftLeft] at h
    obtain ⟨opcode, rs, rt, imm, _⟩ := h
    simp only [ofValues, entries, Format.fields, List.map, UInt8.toNat_ofNat', UInt16.toNat_ofNat']
    rw [byte opcode, byte (by omega), byte (by omega), Nat.mod_eq_of_lt imm]
  | jump =>
    simp only [Format.fields, List.forall_mem_cons, Field.size, Field.width, Nat.one_shiftLeft] at h
    obtain ⟨opcode, label, _⟩ := h
    simp only [ofValues, entries, Format.fields, List.map, UInt8.toNat_ofNat', UInt32.toNat_ofNat']
    rw [byte opcode, Nat.mod_eq_of_lt (Nat.lt_trans label (by decide))]

theorem fits_ofValues {F : Format} {value : Field → Nat} (h : ∀ f ∈ F.fields, value f < f.size) :
    (ofValues F value).Fits := by
  intro e he
  rw [entries_ofValues h] at he
  obtain ⟨f, hf, rfl⟩ := List.mem_map.mp he
  exact h f hf

theorem get?_ofValues {F : Format} {value : Field → Nat} (h : ∀ f ∈ F.fields, value f < f.size)
    {f : Field} (hf : f ∈ F.fields) : (ofValues F value).get? f = some (value f) := by
  rw [get?, entries_ofValues h]
  generalize F.fields = fields at hf
  induction fields with
  | nil => cases hf
  | cons g fs ih =>
    rw [List.map_cons, List.lookup_cons]
    by_cases same : f = g
    · simp [same]
    · rw [beq_false_of_ne same]
      exact ih ((List.mem_cons.mp hf).resolve_left same)

/-- **Slicing lemma.** Slicing a word is reading the fields of the format. -/
theorem ofWord_eq_ofValues (w : Word) (F : Format) : ofWord w F = ofValues F w.read := by
  cases F <;> rfl

theorem entries_ofWord (w : Word) (F : Format) :
    (ofWord w F).entries = F.fields.map fun f => (f, w.read f) := by
  rw [ofWord_eq_ofValues, entries_ofValues fun f _ => w.read_lt f]

theorem fits_ofWord (w : Word) (F : Format) : (ofWord w F).Fits := by
  rw [ofWord_eq_ofValues]
  exact fits_ofValues fun f _ => w.read_lt f

theorem entries_injective {fs gs : Fields} (h : fs.entries = gs.entries) : fs = gs := by
  cases fs <;> cases gs <;>
    simp only [entries, List.cons.injEq, Prod.mk.injEq, UInt8.toNat_inj, UInt16.toNat_inj,
      UInt32.toNat_inj, reduceCtorEq, true_and, false_and, and_false, and_true] at h
  case register.register f g =>
    obtain ⟨opcode, rs, rt, rd, shamt, funct⟩ := h
    cases f; cases g; simp_all
  case immediate.immediate f g =>
    obtain ⟨opcode, rs, rt, imm⟩ := h
    cases f; cases g; simp_all
  case jump.jump f g =>
    obtain ⟨opcode, label⟩ := h
    cases f; cases g; simp_all

/-- **Packing undoes slicing.** No bit of a word lies outside the fields of a format. -/
@[simp] theorem pack_ofWord (w : Word) (F : Format) : (ofWord w F).pack = w := by
  have bound := w.toNat_lt
  apply UInt32.toNat_inj.mp
  rw [pack, UInt32.toNat_ofNat', entries_ofWord]
  cases F <;>
    simp only [Format.fields, List.map, List.foldl, Word.read, Word.slice_eq_div_mod,
      Field.low, Field.width, Field.size, Nat.one_shiftLeft] <;>
    omega

theorem read_pack {fs : Fields} (h : fs.Fits) : ∀ e ∈ fs.entries, fs.pack.read e.1 = e.2 := by
  cases fs <;>
    simp only [Fits, entries, List.forall_mem_cons, List.not_mem_nil, Field.size, Field.width,
      Nat.one_shiftLeft] at h <;>
    simp only [pack, entries, List.forall_mem_cons, List.not_mem_nil, List.foldl,
      UInt32.toNat_ofNat', Word.read, Word.slice_eq_div_mod, Field.low, Field.width, Field.size,
      Nat.one_shiftLeft, false_implies, implies_true, and_true] <;>
    omega

/-- **Slicing undoes packing**, for values that fit their fields. -/
theorem ofWord_pack {fs : Fields} (h : fs.Fits) : ofWord fs.pack fs.format = fs := by
  apply entries_injective
  have read := read_pack h
  rw [entries_ofWord]
  cases fs <;>
    simp only [entries, List.forall_mem_cons, List.not_mem_nil, false_implies, implies_true,
      and_true] at read <;>
    simp [format, Format.fields, entries, read]

end Fields

end Mips32
