import Mips32.Instruction
import Mips32.Proofs.Packing
import Mathlib.Data.List.Forall2
import Mathlib.Data.List.Nodup

/-! What a mnemonic says. Operands are written one by one and separated by commas; no text of
an operand holds a comma and no name of an operation a blank, so a mnemonic spells one operation
and one list of operands (`spell_injective`, `text_injective`). -/
namespace Mips32

/-- In a monad where results come from results, a list of results is made item by item. -/
theorem mapM_eq_pure_iff {m : Type → Type} [Monad m] [LawfulMonad m]
    (pure_inj : ∀ {α : Type} {a b : α}, (pure a : m α) = pure b ↔ a = b)
    (bind_iff : ∀ {α β : Type} {x : m α} {f : α → m β} {b : β},
      x >>= f = pure b ↔ ∃ a, x = pure a ∧ f a = pure b)
    {α β : Type} {f : α → m β} {l : List α} {r : List β} :
    l.mapM f = pure r ↔ List.Forall₂ (fun a b => f a = pure b) l r := by
  induction l generalizing r with
  | nil => rw [List.mapM_nil, pure_inj, List.forall₂_nil_left_iff, eq_comm]
  | cons a l ih =>
    simp only [List.mapM_cons, bind_iff, List.forall₂_cons_left_iff, pure_inj, ih]
    constructor
    · rintro ⟨b, hb, bs, hbs, rfl⟩
      exact ⟨b, bs, hb, hbs, rfl⟩
    · rintro ⟨b, bs, hb, hbs, rfl⟩
      exact ⟨b, hb, bs, hbs, rfl⟩

theorem mapM_eq_some_iff {α β : Type} {f : α → Option β} {l : List α} {r : List β} :
    l.mapM f = some r ↔ List.Forall₂ (fun a b => f a = some b) l r :=
  mapM_eq_pure_iff Option.some_inj Option.bind_eq_some_iff

theorem bind_eq_ok_iff {α β ε : Type} {x : Except ε α} {f : α → Except ε β} {b : β} :
    x >>= f = .ok b ↔ ∃ a, x = .ok a ∧ f a = .ok b := by
  cases x <;> simp [bind, Except.bind]

theorem mapM_eq_ok_iff {α β ε : Type} {f : α → Except ε β} {l : List α} {r : List β} :
    l.mapM f = .ok r ↔ List.Forall₂ (fun a b => f a = .ok b) l r :=
  mapM_eq_pure_iff (iff_of_eq (Except.ok.injEq ..)) bind_eq_ok_iff

/-- Lists that are equal up to the first `a` are cut there alike. -/
theorem append_cons_cancel {α : Type} {a : α} {xs ys xs' ys' : List α} (hx : a ∉ xs) (hy : a ∉ ys)
    (h : xs ++ a :: xs' = ys ++ a :: ys') : xs = ys ∧ xs' = ys' := by
  induction xs generalizing ys with
  | nil =>
    cases ys with
    | nil => exact ⟨rfl, List.tail_eq_of_cons_eq h⟩
    | cons y ys =>
      obtain rfl := List.head_eq_of_cons_eq h
      exact absurd (List.mem_cons_self ..) hy
  | cons x xs ih =>
    cases ys with
    | nil =>
      obtain rfl := List.head_eq_of_cons_eq h
      exact absurd (List.mem_cons_self ..) hx
    | cons y ys =>
      rw [List.mem_cons, not_or] at hx hy
      obtain ⟨heads, tails⟩ := List.cons.inj h
      obtain ⟨front, rest⟩ := ih hx.2 hy.2 tails
      exact ⟨by rw [heads, front], rest⟩

/-! ### Registers -/

namespace Register

theorem names_nodup : names.Nodup := by decide

theorem text_eq_ok_iff {index : Nat} {t : String} :
    text index = .ok t ↔ names[index]? = some t := by
  rw [text, name?]
  cases names[index]? <;> simp

theorem text_injective {i j : Nat} {t : String} (hi : text i = .ok t) (hj : text j = .ok t) :
    i = j := by
  rw [text_eq_ok_iff] at hi hj
  obtain ⟨bound, _⟩ := List.getElem?_eq_some_iff.mp hi
  exact (List.getElem?_inj bound names_nodup).mp (hi.trans hj.symm)

theorem exists_text {index : Nat} (h : index < 32) : ∃ t, text index = .ok t := by
  obtain ⟨t, ht⟩ := Option.isSome_iff_exists.mp ((name?_isSome_iff index).mpr h)
  exact ⟨t, text_eq_ok_iff.mpr ht⟩

/-- A register is written with a dollar sign in front, and none of the signs between operands. -/
theorem text_chars {index : Nat} {t : String} (h : text index = .ok t) :
    t.toList.head? = some '$' ∧ ',' ∉ t.toList ∧ '(' ∉ t.toList := by
  have names_chars : ∀ t ∈ names, t.toList.head? = some '$' ∧ ',' ∉ t.toList ∧ '(' ∉ t.toList := by
    decide
  exact names_chars t (List.mem_of_getElem? (text_eq_ok_iff.mp h))

end Register

/-! ### Operands -/

theorem toDigits_injective {b : Nat} (h : 1 < b) (hb : b ≤ 10) :
    Function.Injective (Nat.toDigits b) := by
  intro m n same
  rw [← Nat.ofDigitChars_toDigits (n := m) h hb, same, Nat.ofDigitChars_toDigits h hb]

namespace Operand

theorem repr_chars {n : Nat} {c : Char} (h : c ∈ (Nat.repr n).toList) : c.isDigit := by
  rw [Nat.toList_repr] at h
  exact Nat.isDigit_of_mem_toDigits (by decide) (by decide) h

theorem not_mem_repr (n : Nat) {c : Char} (h : c.isDigit = false) : c ∉ (Nat.repr n).toList := by
  intro hc
  rw [repr_chars hc] at h
  cases h

theorem text_memory_eq_ok_iff {offset base : Nat} {t : String} :
    text (memory offset base) = .ok t ↔
      ∃ name, Register.text base = .ok name ∧ Nat.repr offset ++ "(" ++ name ++ ")" = t := by
  simp only [text, bind_eq_ok_iff, pure, Except.pure, Except.ok.injEq]

/-- No operand is written with a comma. -/
theorem comma_not_mem_text {o : Operand} {t : String} (h : o.text = .ok t) : ',' ∉ t.toList := by
  cases o with
  | register index => exact (Register.text_chars h).2.1
  | number value =>
    obtain rfl := Except.ok.inj h
    exact not_mem_repr value rfl
  | memory offset base =>
    obtain ⟨name, hname, rfl⟩ := text_memory_eq_ok_iff.mp h
    have offset_chars := not_mem_repr offset (c := ',') rfl
    have base_chars := (Register.text_chars hname).2.1
    simp only [String.toList_append, List.mem_append, offset_chars, base_chars]
    decide

theorem paren_mem_text_memory {offset base : Nat} {t : String}
    (h : (memory offset base).text = .ok t) : '(' ∈ t.toList := by
  obtain ⟨name, _, rfl⟩ := text_memory_eq_ok_iff.mp h
  simp

theorem register_text_ne_repr (index value : Nat) : Register.text index ≠ .ok (Nat.repr value) := by
  intro h
  have dollar := List.mem_of_mem_head? (Register.text_chars h).1
  exact not_mem_repr value rfl dollar

/-- **An operand text has one reading.** Only registers start with a dollar sign, and only memory
operands hold a parenthesis. -/
theorem text_injective {o p : Operand} {t : String} (ho : o.text = .ok t) (hp : p.text = .ok t) :
    o = p := by
  cases o with
  | register i =>
    cases p with
    | register j => rw [Register.text_injective ho hp]
    | number v =>
      obtain rfl := Except.ok.inj hp
      exact absurd ho (register_text_ne_repr i v)
    | memory offset base =>
      exact absurd (paren_mem_text_memory hp) (Register.text_chars ho).2.2
  | number v =>
    obtain rfl := Except.ok.inj ho
    cases p with
    | register j => exact absurd hp (register_text_ne_repr j v)
    | number u =>
      have digits := congrArg String.toList (Except.ok.inj hp)
      rw [Nat.toList_repr, Nat.toList_repr] at digits
      rw [toDigits_injective (by decide) (by decide) digits]
    | memory offset base => exact absurd (paren_mem_text_memory hp) (not_mem_repr v rfl)
  | memory offset base =>
    cases p with
    | register j => exact absurd (paren_mem_text_memory ho) (Register.text_chars hp).2.2
    | number u =>
      obtain rfl := Except.ok.inj hp
      exact absurd (paren_mem_text_memory ho) (not_mem_repr u rfl)
    | memory offset' base' =>
      obtain ⟨name, hname, rfl⟩ := text_memory_eq_ok_iff.mp ho
      obtain ⟨name', hname', same⟩ := text_memory_eq_ok_iff.mp hp
      have chars := congrArg String.toList same
      simp only [String.toList_append, List.append_assoc] at chars
      obtain ⟨offsets, rest⟩ :=
        append_cons_cancel (not_mem_repr offset' rfl) (not_mem_repr offset rfl) chars
      rw [Nat.toList_repr, Nat.toList_repr] at offsets
      obtain rfl := toDigits_injective (by decide) (by decide) offsets
      obtain rfl := String.toList_inj.mp (List.append_cancel_right rest)
      rw [Register.text_injective hname hname']

end Operand

/-! ### Spelling -/

/-- Texts without commas can be told apart when they are joined by commas. -/
theorem intercalate_injective {ss ts : List String} (hs : ∀ s ∈ ss, ',' ∉ s.toList)
    (ht : ∀ t ∈ ts, ',' ∉ t.toList) (hss : ss ≠ []) (hts : ts ≠ [])
    (h : String.intercalate ", " ss = String.intercalate ", " ts) : ss = ts := by
  have joined (s s' : String) (rest : List String) :
      (String.intercalate ", " (s :: s' :: rest)).toList =
        s.toList ++ ',' :: ' ' :: (String.intercalate ", " (s' :: rest)).toList := by
    rw [String.intercalate_cons_cons, String.toList_append, String.toList_append, List.append_assoc]
    rfl
  induction ss generalizing ts with
  | nil => contradiction
  | cons s ss ih =>
    cases ts with
    | nil => contradiction
    | cons t ts =>
      rw [List.forall_mem_cons] at hs ht
      have chars := congrArg String.toList h
      cases ss with
      | nil =>
        cases ts with
        | nil => rw [String.intercalate_singleton, String.intercalate_singleton] at h; rw [h]
        | cons t' ts =>
          rw [String.intercalate_singleton, joined] at chars
          exact absurd (chars ▸ List.mem_append_right _ (List.mem_cons_self ..)) hs.1
      | cons s' ss =>
        cases ts with
        | nil =>
          rw [String.intercalate_singleton, joined] at chars
          exact absurd (chars ▸ List.mem_append_right _ (List.mem_cons_self ..)) ht.1
        | cons t' ts =>
          rw [joined, joined] at chars
          obtain ⟨first, rest⟩ := append_cons_cancel hs.1 ht.1 chars
          have others := ih hs.2 ht.2 (by simp) (by simp)
            (String.toList_inj.mp (List.tail_eq_of_cons_eq rest))
          rw [String.toList_inj.mp first, others]

namespace Operation

theorem names_nodup : ((special :: all).map name).Nodup := by decide +kernel

theorem name_injective {a b : Operation} (h : a.name = b.name) : a = b := by
  have mem (op : Operation) : op ∈ special :: all := by cases op <;> decide
  exact List.inj_on_of_nodup_map names_nodup (mem a) (mem b) h

theorem blank_not_mem_name (op : Operation) : ' ' ∉ op.name.toList := by
  cases op <;> decide

theorem spell_toList (op : Operation) {texts : List String} (h : texts ≠ []) :
    (op.spell texts).toList = op.name.toList ++ ' ' :: (String.intercalate ", " texts).toList := by
  cases texts with
  | nil => contradiction
  | cons t texts =>
    rw [spell, String.toList_append, String.toList_append, List.append_assoc]
    · rfl
    · exact nofun

/-- **A mnemonic has one reading.** The first blank ends the name, and commas end the operands. -/
theorem spell_injective {a b : Operation} {ss ts : List String} (hs : ∀ s ∈ ss, ',' ∉ s.toList)
    (ht : ∀ t ∈ ts, ',' ∉ t.toList) (h : a.spell ss = b.spell ts) : a = b ∧ ss = ts := by
  have chars := congrArg String.toList h
  by_cases hss : ss = []
  · by_cases hts : ts = []
    · subst hss hts
      exact ⟨name_injective h, rfl⟩
    · rw [hss, b.spell_toList hts] at chars
      exact absurd (chars ▸ List.mem_append_right _ (List.mem_cons_self ..)) a.blank_not_mem_name
  · by_cases hts : ts = []
    · rw [hts, a.spell_toList hss] at chars
      exact absurd (chars ▸ List.mem_append_right _ (List.mem_cons_self ..)) b.blank_not_mem_name
    · rw [a.spell_toList hss, b.spell_toList hts] at chars
      obtain ⟨names, rest⟩ :=
        append_cons_cancel a.blank_not_mem_name b.blank_not_mem_name chars
      exact ⟨name_injective (String.toList_inj.mp names),
        intercalate_injective hs ht hss hts (String.toList_inj.mp rest)⟩

end Operation

/-! ### Reading the operands of a field set -/

theorem Fields.get?_lt {fs : Fields} (fits : fs.Fits) {f : Field} {v : Nat}
    (h : fs.get? f = some v) : v < f.size := by
  obtain ⟨before, after, split, _⟩ := List.lookup_eq_some_iff.mp h
  exact fits (f, v) (by rw [split]; simp)

/-- The place of an operand in a layout: which field it is read from, and as what. -/
inductive Slot where
  | register (f : Field)
  | number (f : Field)
  | memory (offset base : Field)

/-- The fields that a slot is filled from, in printed order. -/
def Slot.fields : Slot → List Field
  | register f => [f]
  | number f => [f]
  | memory offset base => [offset, base]

def Slot.read? (fs : Fields) : Slot → Option Operand
  | register f => (fs.get? f).map .register
  | number f => (fs.get? f).map .number
  | memory offset base => do return .memory (← fs.get? offset) (← fs.get? base)

/-- The places of the operands, in printed order. -/
def Layout.slots : Layout → List Slot
  | rdRsRt => [.register .rd, .register .rs, .register .rt]
  | rdRtShamt => [.register .rd, .register .rt, .number .shamt]
  | rdRtRs => [.register .rd, .register .rt, .register .rs]
  | rsRt => [.register .rs, .register .rt]
  | rs => [.register .rs]
  | rd => [.register .rd]
  | rdRs => [.register .rd, .register .rs]
  | noOperands => []
  | rtRsImm => [.register .rt, .register .rs, .number .imm]
  | rtImm => [.register .rt, .number .imm]
  | rtImmRs => [.register .rt, .memory .imm .rs]
  | rsRtLabel => [.register .rs, .register .rt, .number .imm]
  | rsLabel => [.register .rs, .number .imm]
  | label => [.number .label]

/-- The fields that a layout stands for, as its name lists them. -/
def Layout.reads : Layout → List Field
  | rdRsRt => [.rd, .rs, .rt]
  | rdRtShamt => [.rd, .rt, .shamt]
  | rdRtRs => [.rd, .rt, .rs]
  | rsRt => [.rs, .rt]
  | rs => [.rs]
  | rd => [.rd]
  | rdRs => [.rd, .rs]
  | noOperands => []
  | rtRsImm => [.rt, .rs, .imm]
  | rtImm => [.rt, .imm]
  | rtImmRs => [.rt, .imm, .rs]
  | rsRtLabel => [.rs, .rt, .imm]
  | rsLabel => [.rs, .imm]
  | label => [.label]

theorem Layout.fields_slots (l : Layout) : l.slots.flatMap Slot.fields = l.reads := by
  cases l <;> rfl

/-- The operands are the slots, filled from the fields. -/
theorem Layout.operands?_eq (l : Layout) (fs : Fields) :
    l.operands? fs = if l.format = fs.format then l.slots.mapM (Slot.read? fs) else none := by
  cases l <;> cases fs <;> rfl

namespace Slot

theorem read?_memory_eq_some_iff {fs : Fields} {offset base : Field} {o : Operand} :
    (memory offset base).read? fs = some o ↔
      ∃ m, fs.get? offset = some m ∧ ∃ n, fs.get? base = some n ∧ .memory m n = o := by
  simp only [read?, bind, Option.bind_eq_some_iff, pure, Option.some_inj]

/-- The registers of a slot are read from fields that number no more than 32 registers. -/
def Narrow : Slot → Prop
  | register f => f.size = 32
  | number _ => True
  | memory _ base => base.size = 32

theorem exists_text {fs : Fields} (fits : fs.Fits) {s : Slot} (narrow : s.Narrow) {o : Operand}
    (read : s.read? fs = some o) : ∃ t, o.text = .ok t := by
  cases s with
  | register f =>
    obtain ⟨index, get, rfl⟩ := Option.map_eq_some_iff.mp read
    have bound := Fields.get?_lt fits get
    exact Register.exists_text (narrow ▸ bound)
  | number f =>
    obtain ⟨value, _, rfl⟩ := Option.map_eq_some_iff.mp read
    exact ⟨_, rfl⟩
  | memory offset base =>
    obtain ⟨m, _, n, get, rfl⟩ := read?_memory_eq_some_iff.mp read
    have bound := Fields.get?_lt fits get
    obtain ⟨name, hname⟩ := Register.exists_text (narrow ▸ bound)
    exact ⟨_, Operand.text_memory_eq_ok_iff.mpr ⟨name, hname, rfl⟩⟩

theorem exists_texts {fs : Fields} (fits : fs.Fits) {slots : List Slot} {operands : List Operand}
    (narrow : ∀ s ∈ slots, s.Narrow)
    (read : List.Forall₂ (fun s o => s.read? fs = some o) slots operands) :
    ∃ texts, operands.mapM Operand.text = .ok texts := by
  induction read with
  | nil => exact ⟨[], rfl⟩
  | cons first _ ih =>
    rw [List.forall_mem_cons] at narrow
    obtain ⟨t, ht⟩ := exists_text fits narrow.1 first
    obtain ⟨texts, htexts⟩ := ih narrow.2
    exact ⟨t :: texts, mapM_eq_ok_iff.mpr (.cons ht (mapM_eq_ok_iff.mp htexts))⟩

end Slot

theorem Layout.narrow (l : Layout) : ∀ s ∈ l.slots, s.Narrow := by
  cases l <;> simp [slots, Slot.Narrow, Field.size, Field.width]

theorem Layout.operands?_eq_some_iff {l : Layout} {fs : Fields} {operands : List Operand} :
    l.operands? fs = some operands ↔
      l.format = fs.format ∧ List.Forall₂ (fun s o => s.read? fs = some o) l.slots operands := by
  rw [operands?_eq, Option.ite_none_right_eq_some, mapM_eq_some_iff]

namespace Operation

/-- How a mnemonic is made: the operands of the layout are read and written. -/
theorem mnemonic_eq_ok_iff {op : Operation} {fs : Fields} {m : String} :
    op.mnemonic fs = .ok m ↔
      ∃ l operands texts, op.layout? = some l ∧ l.operands? fs = some operands ∧
        operands.mapM Operand.text = .ok texts ∧ op.spell texts = m := by
  constructor
  · intro h
    rw [mnemonic] at h
    split at h
    case h_1 => cases h
    case h_2 operands read =>
      obtain ⟨l, layout, hoperands⟩ := Option.bind_eq_some_iff.mp read
      obtain ⟨texts, written, spelled⟩ := bind_eq_ok_iff.mp h
      exact ⟨l, operands, texts, layout, hoperands, written, Except.ok.inj spelled⟩
  · rintro ⟨l, operands, texts, layout, hoperands, written, rfl⟩
    rw [mnemonic, layout, Option.bind_some, hoperands]
    exact bind_eq_ok_iff.mpr ⟨texts, written, rfl⟩

/-- Fields that fit and suit the layout have a mnemonic. -/
theorem exists_mnemonic {op : Operation} {fs : Fields} {l : Layout} (layout : op.layout? = some l)
    (format : l.format = fs.format) (fits : fs.Fits) : ∃ m, op.mnemonic fs = .ok m := by
  obtain ⟨operands, hoperands⟩ := Layout.exists_operands_iff.mpr format
  obtain ⟨_, read⟩ := Layout.operands?_eq_some_iff.mp hoperands
  obtain ⟨texts, written⟩ := Slot.exists_texts fits l.narrow read
  exact ⟨_, mnemonic_eq_ok_iff.mpr ⟨l, operands, texts, layout, hoperands, written, rfl⟩⟩

end Operation

end Mips32
