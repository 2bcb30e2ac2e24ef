import Mips32.Proofs.Operands
import Mips32.Proofs.Reports

/-! The notes of a report in text style, against the operands of its mnemonic. Both are read off the
text (`Annotated.ofText`); a note stands in parentheses at the end of the line of a field (`cutNote`).
The note of a register field is what the mnemonic shows for it. Under opcode 1 the field `rt` has no
note, but there no layout prints it (`Operation.layout_of_regimm`), so the notes agree with the
mnemonic. -/
namespace Mips32

/-! ### Notes on lines -/

/-- An indented line without its note, and the note. A note stands in parentheses at the end of the
line, behind a blank. -/
def cutNote (line : List Char) : List Char × Option String :=
  let front := line.takeWhile (· ≠ '(')
  match line.dropWhile (· ≠ '(') with
  | '(' :: inside =>
    if line.head? = some '\t' ∧ front.getLast? = some ' ' ∧ inside.getLast? = some ')' then
      (front.dropLast, some (.ofList inside.dropLast))
    else (line, none)
  | _ => (line, none)

/-- A line of a field as a report shows it. -/
structure FieldLine where
  name : String
  value : Nat
  note : Option String
  deriving DecidableEq, Repr

/-- The mnemonic and the field lines of a report. -/
structure Annotated where
  mnemonic : String
  fields : List FieldLine
  deriving DecidableEq, Repr

def FieldLine.ofLine? (line : List Char) : Option FieldLine := do
  let (name, value) ← Summary.entryOf? Summary.number? line
  return ⟨name, value, (cutNote line).2⟩

namespace Annotated

/-- Reads a report in text style. -/
def ofText (text : String) : Option Annotated := do
  let lines := text.toList.splitOn '\n'
  let mnemonic ← Summary.labelled "- Mnemonic: " lines
  let fields ← (Summary.under "- Fields:" lines).mapM FieldLine.ofLine?
  return ⟨mnemonic, fields⟩

def line? (a : Annotated) (f : Field) : Option FieldLine := a.fields.find? (·.name = f.name)

end Annotated

theorem cutNote_plain {line : List Char} (h : '(' ∉ line) : cutNote line = (line, none) := by
  have ends : line.dropWhile (· ≠ '(') = [] :=
    List.dropWhile_eq_nil_iff.mpr fun c member => decide_eq_true fun same => h (same ▸ member)
  simp only [cutNote, ends]

/-- Only indented lines have notes. -/
theorem cutNote_unindented {line : List Char} (h : line.head? ≠ some '\t') :
    cutNote line = (line, none) := by
  rw [cutNote]
  split
  case h_1 => exact if_neg fun noted => h noted.1
  case h_2 => rfl

theorem cutNote_noted {front : List Char} (indented : front.head? = some '\t')
    (h : '(' ∉ front) (note : String) :
    cutNote (front ++ ' ' :: '(' :: (note.toList ++ [')'])) = (front, some note) := by
  have before : ∀ c ∈ front ++ [' '], decide (c ≠ '(') := by
    rw [List.forall_mem_append, List.forall_mem_singleton]
    exact ⟨fun c member => decide_eq_true fun same => h (same ▸ member), rfl⟩
  have split : front ++ ' ' :: '(' :: (note.toList ++ [')']) =
      (front ++ [' ']) ++ '(' :: (note.toList ++ [')']) := by simp
  -- the front has no parenthesis, so the first one opens the note
  rw [cutNote, split, List.dropWhile_append_of_pos before, List.takeWhile_append_of_pos before,
    List.dropWhile_cons_of_neg (by simp), List.takeWhile_cons_of_neg (by simp), List.append_nil]
  simp [indented]

/-- The note of a field line stands behind the line without notes. -/
theorem Report.fieldLine_append (notes : Bool) (i : Instruction) (e : Field × Nat) :
    fieldLine notes i e =
      fieldLine false i e ++ noteText (if notes then note? i e.1 e.2 else none) := by
  simp [fieldLine, noteText]

/-- The note of a field line is cut off where there is one. -/
theorem cutNote_fieldLine (notes : Bool) (i : Instruction) (e : Field × Nat) :
    cutNote (Report.fieldLine notes i e).toList =
      ((Report.fieldLine false i e).toList, if notes then Report.note? i e.1 e.2 else none) := by
  have plain : (Report.fieldLine false i e).toList =
      '\t' :: (e.1.name.toList ++ ':' :: ' ' :: (Nat.repr e.2).toList) := by
    simp [Report.fieldLine, Report.noteText]
  have no_parenthesis : '(' ∉ (Report.fieldLine false i e).toList := by
    have name : '(' ∉ e.1.name.toList := e.1.not_mem_name rfl
    have value : '(' ∉ (Nat.repr e.2).toList := Operand.not_mem_repr e.2 rfl
    rw [plain]
    simp only [List.mem_cons, List.mem_append, name, value]
    decide
  rw [Report.fieldLine_append, String.toList_append]
  cases (if notes then Report.note? i e.1 e.2 else none) with
  | none =>
    rw [Report.noteText, String.toList_empty, List.append_nil]
    exact cutNote_plain no_parenthesis
  | some note =>
    have text : (Report.noteText (some note)).toList = ' ' :: '(' :: (note.toList ++ [')']) := by
      simp [Report.noteText]
    rw [text]
    exact cutNote_noted (by simp [plain]) no_parenthesis note

/-! ### The notes of a report -/

namespace Annotated

/-- The field lines of an instruction with their notes. -/
def fieldLines (i : Instruction) : List FieldLine :=
  i.fields.entries.map fun e => ⟨e.1.name, e.2, Report.note? i e.1 e.2⟩

theorem ofLine?_fieldLine (i : Instruction) (e : Field × Nat) :
    FieldLine.ofLine? (Report.fieldLine true i e).toList =
      some ⟨e.1.name, e.2, Report.note? i e.1 e.2⟩ := by
  rw [FieldLine.ofLine?, Summary.fieldLine_read, cutNote_fieldLine]
  rfl

theorem ofText_report {w : Word} {i : Instruction} (h : decode w = .ok i) (s : Signals)
    (bits : Bool) :
    ofText (Report.text ⟨.text, bits, true⟩ i s) = some ⟨i.mnemonic, fieldLines i⟩ := by
  have fields : ((i.fields.entries.map (Report.fieldLine true i)).map String.toList).mapM
      FieldLine.ofLine? = some (fieldLines i) := by
    rw [mapM_eq_some_iff, fieldLines, List.forall₂_map_left_iff, List.forall₂_map_left_iff,
      List.forall₂_map_right_iff, List.forall₂_same]
    exact fun e _ => ofLine?_fieldLine i e
  rw [ofText, Summary.framed_report h s bits true,
    (Summary.labelled_lines ⟨.text, bits, true⟩ i s).2.2, Summary.under_fields, fields]
  rfl

/-- The line of a field is found by its name. -/
theorem line?_fieldLines (m : String) (i : Instruction) (f : Field) :
    line? ⟨m, fieldLines i⟩ f =
      (i.fields.get? f).map fun v => ⟨f.name, v, Report.note? i f v⟩ := by
  rw [line?, fieldLines, Fields.get?, List.find?_map]
  generalize i.fields.entries = entries
  induction entries with
  | nil => rfl
  | cons e es ih =>
    rw [List.lookup_cons]
    by_cases same : f = e.1
    · subst same
      simp
    · have other : ¬ e.1.name = f.name := fun h => same (Field.name_injective h).symm
      rw [List.find?_cons_of_neg (by simpa using other), beq_false_of_ne same]
      exact ih

end Annotated

/-- The registers have their notes, the operation has its note on the line of the code that selects
it, and there are no other notes. -/
structure FieldLine.Noted (f : FieldLine) (w : Word) (i : Instruction) : Prop where
  register : f.name ∈ ["rs", "rt", "rd"] → ¬ (f.name = "rt" ∧ w.bits 31 26 = 1) →
    ∃ name, Register.names[f.value]? = some name ∧ f.note = some name
  selector : f.name = "rt" → (f.note = none ↔ w.bits 31 26 = 1)
  operation : f.note = some i.operation.name ↔
    f.name = "opcode" ∧ i.fields.format ≠ .register ∨ f.name = "funct" ∧ i.fields.format = .register
  others : f.name ∉ ["rs", "rt", "rd"] → f.note ≠ none → f.note = some i.operation.name

theorem Operation.name_ne_register (op : Operation) {index : Nat} {name : String}
    (h : Register.names[index]? = some name) : name ≠ op.name := by
  have dollar := (Register.text_chars (Register.text_eq_ok_iff.mpr h)).1
  rintro rfl
  have letter : op.name.toList.head? ≠ some '$' := by cases op <;> decide
  exact letter dollar

/-- Under opcode 1 the operation is a branch on one register. -/
theorem Operation.layout_of_regimm {op : Operation} (h : op.selector.table = .regimm) :
    op.layout? = some .rsLabel := by
  revert h
  cases op <;> decide

theorem Word.table_of_regimm {w : Word} (h : w.bits 31 26 = 1) : w.selector.table = .regimm := by
  rw [selector, if_neg (by simp [h]), if_pos h]

theorem Instruction.opcode_eq_regimm_iff {w : Word} {i : Instruction} (h : decode w = .ok i) :
    i.fields.opcode = regimmOpcode ↔ w.bits 31 26 = 1 := by
  rw [(decode_eq_ok_iff.mp h).fields, w.opcode_fields]
  exact w.opcode_eq_iff 1

/-- A word has room for the indices of registers only. -/
theorem Instruction.exists_register {w : Word} {i : Instruction} (h : decode w = .ok i) {f : Field}
    (register : f.isRegister = true) {v : Nat} (held : (f, v) ∈ i.fields.entries) :
    ∃ name, Register.names[v]? = some name := by
  have fits : i.fields.Fits := (decode_eq_ok_iff.mp h).fields ▸ w.fits_fields
  have small : v < f.size := fits (f, v) held
  have size : f.size = 32 := by
    revert register
    cases f <;> decide
  have bound : v < Register.names.length := by rwa [Register.names_length, ← size]
  exact ⟨_, List.getElem?_eq_getElem bound⟩

theorem noted_fieldLines {w : Word} {i : Instruction} (h : decode w = .ok i) :
    ∀ f ∈ Annotated.fieldLines i, f.Noted w i := by
  rw [Annotated.fieldLines, List.forall_mem_map]
  rintro ⟨f, v⟩ held
  have opcode := Instruction.opcode_eq_regimm_iff h
  cases f with
  | opcode =>
    by_cases register : i.fields.format = .register <;>
      constructor <;> simp [Field.name, Report.note?, register]
  | rs =>
    obtain ⟨name, named⟩ := Instruction.exists_register h rfl held
    have other := i.operation.name_ne_register named
    constructor <;> simp [Field.name, Report.note?, Register.name?, named, other]
  | rt =>
    obtain ⟨name, named⟩ := Instruction.exists_register h rfl held
    have other := i.operation.name_ne_register named
    by_cases regimm : w.bits 31 26 = 1 <;>
      constructor <;> simp [Field.name, Report.note?, Register.name?, opcode, regimm, named, other]
  | rd =>
    obtain ⟨name, named⟩ := Instruction.exists_register h rfl held
    have other := i.operation.name_ne_register named
    constructor <;> simp [Field.name, Report.note?, Register.name?, named, other]
  | funct =>
    have register : i.fields.format = .register := by
      revert held
      cases i.fields <;> simp [Fields.entries, Fields.format]
    constructor <;> simp [Field.name, Report.note?, register]
  | shamt => constructor <;> simp [Field.name, Report.note?]
  | imm => constructor <;> simp [Field.name, Report.note?]
  | label => constructor <;> simp [Field.name, Report.note?]

/-- The line of a register that the layout prints has the shown name as its note. -/
theorem note_of_printed {w : Word} {i : Instruction} (h : decode w = .ok i) {l : Layout}
    (layout : i.operation.layout? = some l) {f : Field} (printed : f ∈ l.reads)
    (register : f.isRegister = true) (m : String) :
    (Annotated.line? ⟨m, Annotated.fieldLines i⟩ f).bind FieldLine.note = i.fields.shown? f := by
  rw [Annotated.line?_fieldLines, Fields.shown?]
  cases i.fields.get? f with
  | none => rfl
  | some v =>
    rw [Option.map_some, Option.bind_some, Option.bind_some, if_pos register]
    cases f with
    | rs => rfl
    | rd => rfl
    | rt =>
      -- under opcode 1 the line has no note, but then the layout prints `rs` and the label only
      refine if_neg fun regimm => ?_
      have selector := (decode_eq_ok_iff.mp h).selector
      have table := Word.table_of_regimm ((Instruction.opcode_eq_regimm_iff h).mp regimm)
      have branch := Operation.layout_of_regimm (selector ▸ table)
      obtain rfl := Option.some.inj (layout.symm.trans branch)
      revert printed
      decide
    | _ => cases register

theorem value_of_printed {f : Field} (number : f.isRegister = false) (i : Instruction) (m : String) :
    (Annotated.line? ⟨m, Annotated.fieldLines i⟩ f).map (fun line => Nat.repr line.value) =
      i.fields.shown? f := by
  rw [Annotated.line?_fieldLines, Fields.shown?]
  cases i.fields.get? f with
  | none => rfl
  | some v => simp [number]

/-- **The notes agree with the mnemonic.** In a report with notes, the registers of the mnemonic are
the notes of the register fields that the layout prints, in printed order, and its numbers are the
values of the other fields that the layout prints. Each line of a register has the name of its value
as its note, except that `rt` has none under opcode 1; the operation stands on the line of the
opcode, or of the function code in the register format; and there are no other notes. -/
theorem notes_agree_with_mnemonic {w : Word} {i : Instruction} (h : decode w = .ok i) (s : Signals)
    (bits : Bool) :
    ∃ l a, i.operation.layout? = some l ∧
      Annotated.ofText (Report.text ⟨.text, bits, true⟩ i s) = some a ∧
      a.mnemonic = i.mnemonic ∧
      a.fields.map (fun f => (f.name, f.value)) =
        i.fields.entries.map (fun e => (e.1.name, e.2)) ∧
      (Mnemonic.registers a.mnemonic).map some =
        (l.reads.filter (·.isRegister)).map (fun f => (a.line? f).bind FieldLine.note) ∧
      (Mnemonic.numbers a.mnemonic).map some =
        (l.reads.filter (!·.isRegister)).map
          (fun f => (a.line? f).map fun line => Nat.repr line.value) ∧
      ∀ f ∈ a.fields, f.Noted w i := by
  obtain ⟨_, fields, _, mnemonic⟩ := decode_eq_ok_iff.mp h
  obtain ⟨l, layout, shown⟩ := Operation.shown_words mnemonic
  rw [← fields] at shown
  refine ⟨l, _, layout, Annotated.ofText_report h s bits, rfl, ?_, ?_, ?_, noted_fieldLines h⟩
  · rw [Annotated.fieldLines, List.map_map]
    rfl
  · refine (Fields.shown?_filter shown id).trans (List.map_congr_left fun f member => ?_)
    obtain ⟨printed, register⟩ := List.mem_filter.mp member
    exact (note_of_printed h layout printed register _).symm
  · refine (Fields.shown?_filter shown not).trans (List.map_congr_left fun f member => ?_)
    obtain ⟨_, number⟩ := List.mem_filter.mp member
    exact (value_of_printed (by simpa using number) i _).symm

/-- A branch whose field `rt` selects it: `rt` has no note, and the layout does not print it. -/
theorem notes_agree_with_mnemonic_bgez :
    ∃ i, decode 0x04410003 = .ok i ∧ ∃ l a, i.operation.layout? = some l ∧
      l = .rsLabel ∧ l.reads = [.rs, .imm] ∧
      Annotated.ofText (Report.text ⟨.text, false, true⟩ i i.signals) = some a ∧
      a = ⟨"bgez $v0, 3", [⟨"opcode", 1, some "bgez"⟩, ⟨"rs", 2, some "$v0"⟩, ⟨"rt", 1, none⟩,
        ⟨"imm", 3, none⟩]⟩ ∧
      (Mnemonic.registers a.mnemonic).map some =
        (l.reads.filter (·.isRegister)).map (fun f => (a.line? f).bind FieldLine.note) ∧
      (Mnemonic.numbers a.mnemonic).map some =
        (l.reads.filter (!·.isRegister)).map
          (fun f => (a.line? f).map fun line => Nat.repr line.value) ∧
      ∀ f ∈ a.fields, f.Noted 0x04410003 i := by
  have decoded : decode 0x04410003 =
      .ok ⟨0x04410003, .immediate ⟨1, 2, 1, 3⟩, .bgez, "bgez $v0, 3"⟩ := by decide +kernel
  obtain ⟨l, a, layout, read, _, _, registers, numbers, noted⟩ := notes_agree_with_mnemonic decoded
    (Instruction.signals ⟨0x04410003, .immediate ⟨1, 2, 1, 3⟩, .bgez, "bgez $v0, 3"⟩) false
  obtain rfl : .rsLabel = l := Option.some.inj layout
  obtain rfl := Option.some.inj (read.symm.trans (Annotated.ofText_report decoded _ false))
  exact ⟨_, decoded, _, _, layout, rfl, by decide, read, by decide +kernel, registers, numbers, noted⟩

end Mips32
