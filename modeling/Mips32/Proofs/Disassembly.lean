import Mips32.Proofs.Decoding

/-! Mnemonics and meanings correspond. The meaning of a decoded word is its operation with the
values of the fields that the layout prints: words share a mnemonic when they share the meaning,
and every meaning has a word, which `Selector.encode` builds around the selector. -/
namespace Mips32

theorem Format.ofOpcode_eq_register_iff {o : UInt8} : ofOpcode o = .register ↔ o = 0 := by
  rw [ofOpcode]
  split
  case isTrue h => simp [h]
  case isFalse h => split <;> simp [h]

/-! ### Equal mnemonics -/

/-- Both field sets hold the field, with one value. -/
def Fields.AgreeOn (fs gs : Fields) (f : Field) : Prop :=
  ∃ v, fs.get? f = some v ∧ gs.get? f = some v

/-- The fields that the operands of an operation come from. -/
def Operation.operandFields (op : Operation) : List Field := op.layout?.elim [] Layout.reads

theorem Slot.agreeOn_of_read? {fs gs : Fields} {s : Slot} {o : Operand} (hf : s.read? fs = some o)
    (hg : s.read? gs = some o) : ∀ f ∈ s.fields, fs.AgreeOn gs f := by
  cases s with
  | register f =>
    obtain ⟨v, getf, rfl⟩ := Option.map_eq_some_iff.mp hf
    obtain ⟨u, getg, same⟩ := Option.map_eq_some_iff.mp hg
    cases same
    simpa [fields] using ⟨v, getf, getg⟩
  | number f =>
    obtain ⟨v, getf, rfl⟩ := Option.map_eq_some_iff.mp hf
    obtain ⟨u, getg, same⟩ := Option.map_eq_some_iff.mp hg
    cases same
    simpa [fields] using ⟨v, getf, getg⟩
  | memory offset base =>
    obtain ⟨m, offsetf, n, basef, rfl⟩ := read?_memory_eq_some_iff.mp hf
    obtain ⟨m', offsetg, n', baseg, same⟩ := read?_memory_eq_some_iff.mp hg
    cases same
    simpa [fields] using ⟨⟨m, offsetf, offsetg⟩, n, basef, baseg⟩

theorem Slot.read?_congr {fs gs : Fields} {s : Slot} (h : ∀ f ∈ s.fields, fs.AgreeOn gs f) :
    s.read? fs = s.read? gs := by
  have get (f : Field) (hf : f ∈ s.fields) : fs.get? f = gs.get? f := by
    obtain ⟨v, getf, getg⟩ := h f hf
    rw [getf, getg]
  cases s <;> simp_all [fields, read?]

theorem Layout.agreeOn_of_operands? {fs gs : Fields} {l : Layout} {operands : List Operand}
    (hf : l.operands? fs = some operands) (hg : l.operands? gs = some operands) :
    ∀ f ∈ l.reads, fs.AgreeOn gs f := by
  obtain ⟨_, readf⟩ := operands?_eq_some_iff.mp hf
  obtain ⟨_, readg⟩ := operands?_eq_some_iff.mp hg
  intro f hfield
  rw [← fields_slots, List.mem_flatMap] at hfield
  obtain ⟨s, hs, hfs⟩ := hfield
  obtain ⟨n, bound, rfl⟩ := List.getElem_of_mem hs
  have bound' : n < operands.length := readf.length_eq ▸ bound
  exact Slot.agreeOn_of_read? (readf.get bound bound') (readg.get bound bound') f hfs

theorem Layout.operands?_congr {fs gs : Fields} {l : Layout} {operands : List Operand}
    (hf : l.operands? fs = some operands) (format : l.format = gs.format)
    (h : ∀ f ∈ l.reads, fs.AgreeOn gs f) : l.operands? gs = some operands := by
  obtain ⟨_, read⟩ := operands?_eq_some_iff.mp hf
  refine operands?_eq_some_iff.mpr ⟨format, ?_⟩
  have congr (s : Slot) (hs : s ∈ l.slots) : s.read? fs = s.read? gs :=
    Slot.read?_congr fun f hf => h f (l.fields_slots ▸ List.mem_flatMap.mpr ⟨s, hs, hf⟩)
  refine List.forall₂_iff_get.mpr ⟨read.length_eq, ?_⟩
  intro n hs ho
  rw [← congr _ (List.get_mem ..)]
  exact read.get hs ho

namespace Operation

theorem commas_of_mapM_text {operands : List Operand} {texts : List String}
    (h : operands.mapM Operand.text = .ok texts) : ∀ t ∈ texts, ',' ∉ t.toList := by
  have written := mapM_eq_ok_iff.mp h
  clear h
  induction written with
  | nil => simp
  | cons first _ ih => exact List.forall_mem_cons.mpr ⟨Operand.comma_not_mem_text first, ih⟩

/-- **Mnemonics are equal when their meanings are.** -/
theorem mnemonic_eq_iff {a b : Operation} {fs gs : Fields} {m n : String}
    (hm : a.mnemonic fs = .ok m) (hn : b.mnemonic gs = .ok n) :
    m = n ↔ a = b ∧ ∀ f ∈ a.operandFields, fs.AgreeOn gs f := by
  obtain ⟨l, operands, texts, layout, read, written, rfl⟩ := mnemonic_eq_ok_iff.mp hm
  obtain ⟨l', operands', texts', layout', read', written', rfl⟩ := mnemonic_eq_ok_iff.mp hn
  have fields : a.operandFields = l.reads := by rw [operandFields, layout, Option.elim_some]
  rw [fields]
  constructor
  · intro same
    obtain ⟨rfl, rfl⟩ :=
      spell_injective (commas_of_mapM_text written) (commas_of_mapM_text written') same
    obtain rfl := Option.some.inj (layout.symm.trans layout')
    have unique : Relator.LeftUnique fun (o : Operand) (t : String) => o.text = .ok t :=
      fun _ _ _ => Operand.text_injective
    obtain rfl := List.left_unique_forall₂' unique
      (mapM_eq_ok_iff.mp written) (mapM_eq_ok_iff.mp written')
    exact ⟨rfl, Layout.agreeOn_of_operands? read read'⟩
  · rintro ⟨rfl, agree⟩
    obtain rfl := Option.some.inj (layout.symm.trans layout')
    obtain ⟨format, _⟩ := Layout.operands?_eq_some_iff.mp read'
    have same := Layout.operands?_congr read format agree
    obtain rfl := Option.some.inj (same.symm.trans read')
    rw [Except.ok.inj (written.symm.trans written')]

end Operation

/-! ### Words for every meaning -/

namespace Selector

/-- The field that holds the code. -/
def field (s : Selector) : Field :=
  match s.table with
  | .function => .funct
  | .regimm => .rt
  | .opcode => .opcode

/-- The opcode of the words that hold a selector. -/
def opcode (s : Selector) : Nat :=
  match s.table with
  | .function => 0
  | .regimm => 1
  | .opcode => s.code

/-- The fields that take no part in the selection. -/
def free (s : Selector) : List Field := s.format.fields.filter fun f => f ≠ s.field ∧ f ≠ .opcode

/-- The selector in its place, and the given values in the other fields. -/
def values (s : Selector) (v : Field → Nat) (f : Field) : Nat :=
  if f = s.field then s.code else if f = .opcode then s.opcode else v f

def encode (s : Selector) (v : Field → Nat) : Fields := .ofValues s.format (s.values v)

/-- A word can hold the selector: its code has room, and the opcodes that point to other tables
are not looked up as such. -/
structure Encodable (s : Selector) : Prop where
  room : s.code < s.field.size
  direct : s.table = .opcode → s.code ≠ 0 ∧ s.code ≠ 1

theorem values_lt {s : Selector} (hs : s.Encodable) {v : Field → Nat}
    (hv : ∀ f ∈ s.free, v f < f.size) : ∀ f ∈ s.format.fields, s.values v f < f.size := by
  intro f hf
  rw [values]
  split
  case isTrue h => exact h ▸ hs.room
  case isFalse h =>
    split
    case isTrue h' =>
      subst h'
      obtain ⟨table, code⟩ := s
      cases table with
      | function => simp [opcode, Field.size, Field.width]
      | regimm => simp [opcode, Field.size, Field.width]
      | opcode => exact absurd rfl h
    case isFalse h' => exact hv f (List.mem_filter.mpr ⟨hf, by simp [h, h']⟩)

theorem get?_encode {s : Selector} (hs : s.Encodable) {v : Field → Nat}
    (hv : ∀ f ∈ s.free, v f < f.size) {f : Field} (hf : f ∈ s.free) :
    (s.encode v).get? f = some (v f) := by
  obtain ⟨inFormat, others⟩ := List.mem_filter.mp hf
  rw [encode, Fields.get?_ofValues (values_lt hs hv) inFormat, values]
  simp_all

theorem format_eq_ofOpcode (s : Selector) : s.format = .ofOpcode (.ofNat s.opcode) := by
  obtain ⟨table, code⟩ := s
  cases table <;> rfl

theorem values_opcode (s : Selector) (v : Field → Nat) : s.values v .opcode = s.opcode := by
  obtain ⟨table, code⟩ := s
  cases table <;> rfl

theorem format_encode (s : Selector) (v : Field → Nat) :
    (s.encode v).format = .ofOpcode (s.encode v).opcode := by
  rw [encode, Fields.format_ofValues, Fields.opcode_ofValues, values_opcode, format_eq_ofOpcode]

theorem fits_encode {s : Selector} (hs : s.Encodable) {v : Field → Nat}
    (hv : ∀ f ∈ s.free, v f < f.size) : (s.encode v).Fits :=
  Fields.fits_ofValues (values_lt hs hv)

theorem toNat_code {s : Selector} (hs : s.Encodable) : (UInt8.ofNat s.code).toNat = s.code := by
  have room := hs.room
  have size : s.field.size ≤ 64 := by
    obtain ⟨table, code⟩ := s
    cases table <;> simp [field, Field.size, Field.width]
  rw [UInt8.toNat_ofNat']
  exact Nat.mod_eq_of_lt (by omega)

/-- The selector of the encoded fields is the one that was put in. -/
theorem selector_encode {s : Selector} (hs : s.Encodable) (v : Field → Nat) :
    (s.encode v).selector = s := by
  have code := toNat_code hs
  have direct := hs.direct
  obtain ⟨table, n⟩ := s
  cases table with
  | function => exact congrArg (Selector.mk .function) code
  | regimm => exact congrArg (Selector.mk .regimm) code
  | opcode =>
    have ne (k : UInt8) (h : n ≠ k.toNat) : UInt8.ofNat n ≠ k := by
      rintro rfl
      exact h code.symm
    have special := ne 0 (direct rfl).1
    have regimm : UInt8.ofNat n ≠ regimmOpcode := ne 1 (direct rfl).2
    rw [encode]
    cases format : Selector.format ⟨.opcode, n⟩ with
    | register => exact absurd (Format.ofOpcode_eq_register_iff.mp format) special
    | immediate =>
      change Selector.ofOpcode (.ofNat n) _ = _
      rw [Selector.ofOpcode, if_neg regimm, code]
    | jump =>
      change Selector.ofOpcode (.ofNat n) _ = _
      rw [Selector.ofOpcode, if_neg regimm, code]

end Selector

/-- The word of fields that fit, in the format of their opcode. -/
theorem Fields.fields_pack {fs : Fields} (fits : fs.Fits)
    (format : fs.format = .ofOpcode fs.opcode) : fs.pack.fields = fs := by
  have sliced := ofWord_pack fits
  have opcode : fs.pack.opcode = fs.opcode := by rw [← opcode_ofWord fs.pack fs.format, sliced]
  rw [Word.fields, Word.format, opcode, ← format, sliced]

namespace Operation

theorem encodable {op : Operation} (h : op ≠ special) : op.selector.Encodable := by
  cases op <;> first | contradiction | exact ⟨by decide, by decide⟩

/-- A layout prints none of the fields that select the operation. -/
theorem operandFields_free {op : Operation} (h : op ≠ special) :
    ∀ f ∈ op.operandFields, f ∈ op.selector.free := by
  cases op <;> first | contradiction | decide

/-- **Decoding undoes encoding.** -/
theorem decode_encode {op : Operation} (h : op ≠ special) {v : Field → Nat}
    (hv : ∀ f ∈ op.selector.free, v f < f.size) :
    ∃ m, decode (op.selector.encode v).pack =
      .ok ⟨(op.selector.encode v).pack, op.selector.encode v, op, m⟩ := by
  have encodable := op.encodable h
  have fields := Fields.fields_pack (Selector.fits_encode encodable hv)
    (Selector.format_encode op.selector v)
  have selector : op.selector = (op.selector.encode v).pack.selector := by
    rw [← Word.selector_fields, fields, Selector.selector_encode encodable]
  obtain ⟨m, _, decoded⟩ := exists_decode selector
  exact ⟨m, by rw [decoded, fields]⟩

end Operation

/-- **Mnemonics and meanings are in bijection.** Decoded words have one mnemonic exactly when they
have one operation and one value in every operand field, and every operation with operands in
range is the meaning of a word. -/
theorem mnemonics_biject_meanings :
    (∀ (w₁ w₂ : Word) (i₁ i₂ : Instruction), decode w₁ = .ok i₁ → decode w₂ = .ok i₂ →
      (i₁.mnemonic = i₂.mnemonic ↔ i₁.operation = i₂.operation ∧
        ∀ f ∈ i₁.operation.operandFields,
          ∃ v, i₁.fields.get? f = some v ∧ i₂.fields.get? f = some v)) ∧
    ∀ op ∈ Operation.all, ∀ v : Field → Nat, (∀ f ∈ op.operandFields, v f < f.size) →
      ∃ w i, decode w = .ok i ∧ i.operation = op ∧
        ∀ f ∈ op.operandFields, i.fields.get? f = some (v f) := by
  constructor
  · intro w₁ w₂ i₁ i₂ h₁ h₂
    obtain ⟨_, fields₁, _, written₁⟩ := decode_eq_ok_iff.mp h₁
    obtain ⟨_, fields₂, _, written₂⟩ := decode_eq_ok_iff.mp h₂
    rw [fields₁, fields₂]
    exact Operation.mnemonic_eq_iff written₁ written₂
  · intro op hop v hv
    have assigned := (Operation.mem_all_iff op).mp hop
    -- Fields that the layout leaves out may hold anything; they are filled with zeros.
    let filled (f : Field) : Nat := if f ∈ op.operandFields then v f else 0
    have bound : ∀ f ∈ op.selector.free, filled f < f.size := by
      intro f _
      by_cases printed : f ∈ op.operandFields
      · simpa [filled, printed] using hv f printed
      · rw [show filled f = 0 from if_neg printed, Field.size, Nat.one_shiftLeft]
        exact Nat.two_pow_pos _
    obtain ⟨m, decoded⟩ := Operation.decode_encode assigned bound
    refine ⟨_, _, decoded, rfl, ?_⟩
    intro f printed
    have free := Operation.operandFields_free assigned f printed
    have stored := Selector.get?_encode (op.encodable assigned) bound free
    simpa [filled, printed] using stored

theorem mnemonics_biject_meanings_sll_lw :
    (decode 0 = .ok ⟨0, .register ⟨0, 0, 0, 0, 0, 0⟩, .sll, "sll $zero, $zero, 0"⟩ ∧
      decode 0x03E00000 =
        .ok ⟨0x03E00000, .register ⟨0, 31, 0, 0, 0, 0⟩, .sll, "sll $zero, $zero, 0"⟩ ∧
      ("sll $zero, $zero, 0" = "sll $zero, $zero, 0" ↔ Operation.sll = .sll ∧
        ∀ f ∈ Operation.sll.operandFields, ∃ v,
          (Fields.register ⟨0, 0, 0, 0, 0, 0⟩).get? f = some v ∧
            (Fields.register ⟨0, 31, 0, 0, 0, 0⟩).get? f = some v)) ∧
    Operation.lw ∈ Operation.all ∧ (∀ f ∈ Operation.lw.operandFields, 31 < f.size) ∧
      ∃ w i, decode w = .ok i ∧ i.operation = .lw ∧
        ∀ f ∈ Operation.lw.operandFields, i.fields.get? f = some 31 :=
  have listed : Operation.lw ∈ Operation.all := by decide
  have bound : ∀ f ∈ Operation.lw.operandFields, 31 < f.size := by decide
  ⟨⟨rfl, rfl, mnemonics_biject_meanings.1 0 0x03E00000 _ _ rfl rfl⟩,
    listed, bound, mnemonics_biject_meanings.2 .lw listed (fun _ => 31) bound⟩

end Mips32
