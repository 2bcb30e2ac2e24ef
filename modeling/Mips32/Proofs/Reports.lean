import Mips32.Report
import Mips32.Proofs.Decoding
import Mips32.Proofs.Json.Texts

/-! What a report tells. A `Summary` is read off the lines of a text (`Summary.ofText`) and off a
JSON value (`Summary.ofJson`), without a look at the settings of the report. Both find what was
reported (`ofText_report`, `ofJson_report`), and a summary is of one word and one set of signals
(`Summary.of_injective`), so `reports_carry_summary`. -/
namespace Mips32

/-! ### Lines of text -/

/-- The text has no line feed inside. -/
def OneLine (s : String) : Prop := '\n' ∉ s.toList

instance (s : String) : Decidable (OneLine s) := inferInstanceAs (Decidable ('\n' ∉ s.toList))

/-- The text is the lines, each ended by a line feed. -/
def Framed (text : String) (lines : List String) : Prop :=
  text.toList.splitOn '\n' = lines.map String.toList ++ [[]]

instance (text : String) (lines : List String) : Decidable (Framed text lines) :=
  inferInstanceAs (Decidable (text.toList.splitOn '\n' = lines.map String.toList ++ [[]]))

/-- A text is cut into lines in one way. -/
theorem Framed.unique {text : String} {ls ls' : List String} (h : Framed text ls)
    (h' : Framed text ls') : ls = ls' :=
  have chars := List.append_cancel_right (Eq.trans (Eq.symm h) h')
  List.map_injective_iff.mpr (fun _ _ => String.toList_inj.mp) chars

theorem OneLine.append {s t : String} (hs : OneLine s) (ht : OneLine t) : OneLine (s ++ t) := by
  rw [OneLine, String.toList_append, List.mem_append, not_or]
  exact ⟨hs, ht⟩

theorem oneLine_of_visible {s : String} (h : ∀ c ∈ s.toList, 0x20 ≤ c.toNat) : OneLine s :=
  fun feed => absurd (h '\n' feed) (by decide)

theorem framed_cons {line text : String} {lines : List String} (h : OneLine line)
    (rest : Framed text lines) : Framed (line ++ "\n" ++ text) (line :: lines) := by
  have chars : (line ++ "\n" ++ text).toList = line.toList ++ '\n' :: text.toList := by
    simp [String.toList_append]
  rw [Framed, chars, List.splitOn_append_cons_self, List.splitOn_eq_singleton h, rest]
  rfl

/-- Lines that are written one after the other can be told apart. -/
theorem framed_join {lines : List String} (h : ∀ l ∈ lines, OneLine l) :
    Framed (String.join (lines.map (· ++ "\n"))) lines := by
  induction lines with
  | nil => rfl
  | cons l ls ih =>
    rw [List.forall_mem_cons] at h
    rw [List.map_cons, String.join_cons]
    exact framed_cons h.1 (ih h.2)

theorem oneLine_repr (n : Nat) : OneLine (Nat.repr n) := Operand.not_mem_repr n rfl

theorem oneLine_operation (op : Operation) : OneLine op.name := by
  cases op <;> decide +kernel

theorem oneLine_register {index : Nat} {t : String} (h : Register.name? index = some t) :
    OneLine t := by
  have names : ∀ t ∈ Register.names, OneLine t := by decide +kernel
  exact names t (List.mem_of_getElem? h)

theorem oneLine_operand {o : Operand} {t : String} (h : o.text = .ok t) : OneLine t := by
  cases o with
  | register index => exact oneLine_register (Register.text_eq_ok_iff.mp h)
  | number value =>
    obtain rfl := Except.ok.inj h
    exact oneLine_repr value
  | memory offset base =>
    obtain ⟨name, register, rfl⟩ := Operand.text_memory_eq_ok_iff.mp h
    have opened : OneLine (Nat.repr offset ++ "(") := (oneLine_repr offset).append (by decide)
    exact (opened.append (oneLine_register (Register.text_eq_ok_iff.mp register))).append (by decide)

theorem oneLine_intercalate {ts : List String} (h : ∀ t ∈ ts, OneLine t) :
    OneLine (String.intercalate ", " ts) := by
  induction ts with
  | nil => decide
  | cons t ts ih =>
    rw [List.forall_mem_cons] at h
    cases ts with
    | nil => exact h.1
    | cons u ts =>
      rw [String.intercalate_cons_cons]
      exact (h.1.append (by decide)).append (ih h.2)

/-- A mnemonic goes on one line. -/
theorem oneLine_mnemonic {op : Operation} {fs : Fields} {m : String} (h : op.mnemonic fs = .ok m) :
    OneLine m := by
  obtain ⟨l, operands, texts, -, -, written, rfl⟩ := Operation.mnemonic_eq_ok_iff.mp h
  have operand_lines : ∀ t ∈ texts, OneLine t := by
    have spelled := mapM_eq_ok_iff.mp written
    clear h written
    induction spelled with
    | nil => simp
    | cons first _ ih => exact List.forall_mem_cons.mpr ⟨oneLine_operand first, ih⟩
  cases texts with
  | nil => exact oneLine_operation op
  | cons t texts =>
    exact ((oneLine_operation op).append (by decide)).append (oneLine_intercalate operand_lines)

/-- Padded binary digits go on one line. -/
theorem oneLine_binary (width n : Nat) : OneLine (Text.binary width n) := by
  intro feed
  rw [Text.binary, String.toList_ofList, List.leftpad, List.mem_append] at feed
  rcases feed with padding | digit
  · cases List.eq_of_mem_replicate padding
  · have := Nat.isDigit_of_mem_toDigits (by decide) (by decide) digit
    cases this

theorem oneLine_note {i : Instruction} {f : Field} {v : Nat} {t : String}
    (h : Report.note? i f v = some t) : OneLine t := by
  cases f with
  | opcode =>
    rw [Report.note?, Option.ite_none_left_eq_some] at h
    rw [← Option.some.inj h.2]
    exact oneLine_operation _
  | funct =>
    rw [← Option.some.inj h]
    exact oneLine_operation _
  | rt =>
    rw [Report.note?, Option.ite_none_left_eq_some] at h
    exact oneLine_register h.2
  | rs => exact oneLine_register h
  | rd => exact oneLine_register h
  | shamt => cases h
  | imm => cases h
  | label => cases h

/-- The names of fields are written in letters. -/
theorem Field.not_mem_name (f : Field) {c : Char} (h : c.isAlpha = false) : c ∉ f.name.toList := by
  have letters : f.name.toList.all Char.isAlpha := by cases f <;> decide
  intro member
  exact absurd (List.all_eq_true.mp letters c member) (by simp [h])

/-- The names of signals are written in letters. -/
theorem Signals.not_mem_name {s : Signals} {e : String × Signal} (held : e ∈ s.entries) {c : Char}
    (h : c.isAlpha = false) : c ∉ e.1.toList := by
  have letters : ∀ n ∈ names, n.toList.all Char.isAlpha := by decide +kernel
  intro member
  exact absurd (List.all_eq_true.mp (letters e.1 (List.of_mem_zip held).1) c member) (by simp [h])

theorem oneLine_fieldLine (notes : Bool) (i : Instruction) (e : Field × Nat) :
    OneLine (Report.fieldLine notes i e) := by
  have name : OneLine e.1.name := e.1.not_mem_name rfl
  have value : OneLine ("\t" ++ e.1.name ++ ": " ++ Nat.repr e.2) :=
    ((OneLine.append (by decide) name).append (by decide)).append (oneLine_repr e.2)
  refine value.append ?_
  cases note : (if notes then Report.note? i e.1 e.2 else none) with
  | none => decide
  | some t =>
    rw [Option.ite_none_right_eq_some] at note
    exact (OneLine.append (by decide) (oneLine_note note.2)).append (by decide)

theorem oneLine_signalLine {s : Signals} {e : String × Signal} (h : e ∈ s.entries) :
    OneLine (Report.signalLine e) := by
  have name : OneLine e.1 := Signals.not_mem_name h rfl
  have letter : OneLine e.2.letter := by cases e.2 <;> decide
  exact ((OneLine.append (by decide) name).append (by decide)).append letter

theorem oneLine_lines {w : Word} {i : Instruction} (h : decode w = .ok i) (s : Signals)
    (c : ReportConfig) : ∀ l ∈ Report.lines c i s, OneLine l := by
  have mnemonic := oneLine_mnemonic (decode_eq_ok_iff.mp h).mnemonic
  have format : OneLine i.fields.format.letter := by cases i.fields.format <;> decide
  have bits : ∀ l ∈ if c.showBits then ["- Bits: " ++ i.word.binary] else [], OneLine l := by
    cases c.showBits with
    | true => exact List.forall_mem_singleton.mpr (.append (by decide) (oneLine_binary 32 i.word.toNat))
    | false => simp
  have fields : ∀ l ∈ i.fields.entries.map (Report.fieldLine c.annotateFields i), OneLine l := by
    rw [List.forall_mem_map]
    exact fun e _ => oneLine_fieldLine c.annotateFields i e
  have signals : ∀ l ∈ s.entries.map Report.signalLine, OneLine l := by
    rw [List.forall_mem_map]
    exact fun e member => oneLine_signalLine member
  have labelled : OneLine ("Instruction: " ++ i.operation.name) ∧
      OneLine ("- Format: " ++ i.fields.format.letter) ∧ OneLine ("- Mnemonic: " ++ i.mnemonic) :=
    ⟨.append (by decide) (oneLine_operation _), .append (by decide) format,
      .append (by decide) mnemonic⟩
  have headings : OneLine "- Fields:" ∧ OneLine "- Control signals:" := by decide +kernel
  simp only [Report.lines, List.forall_mem_append, List.forall_mem_cons]
  exact ⟨⟨⟨⟨⟨⟨labelled.1, labelled.2.1, nofun⟩, bits⟩, labelled.2.2, headings.1, nofun⟩, fields⟩,
    headings.2, nofun⟩, signals⟩

theorem Field.name_injective : Function.Injective Field.name := fun f g => by
  cases f <;> cases g <;> simp [Field.name]

/-! ### Names and order

The lines of text take names and order from the entries, the objects of JSON from the structures
that are written. They agree. -/

theorem Format.toJson_eq (f : Format) : f.toJson = .ofString f.letter := by
  cases f <;> rfl

theorem Fields.toJson_eq (fs : Fields) :
    fs.toJson = .ofMembers (fs.entries.map fun e => (e.1.name, .ofNat e.2)) := by
  cases fs <;> rfl

theorem pascalCase_names :
    pascalCase "branch" = "Branch" ∧ pascalCase "mem_read" = "MemRead" ∧
      pascalCase "mem_to_reg" = "MemToReg" ∧ pascalCase "mem_write" = "MemWrite" ∧
      pascalCase "reg_dst" = "RegDst" ∧ pascalCase "reg_write" = "RegWrite" := by
  decide +kernel

theorem Signals.toJson_eq (s : Signals) :
    s.toJson = .ofMembers (s.entries.map fun e => (e.1, e.2.toJson)) := by
  rw [Signals.toJson]
  simp only [pascalCase_names]
  rfl

/-! ### Summaries -/

/-- What a report tells of an instruction and of signals. A signal left open has no value. -/
structure Summary where
  operation : String
  format : String
  mnemonic : String
  fields : List (String × Nat)
  signals : List (String × Option Nat)
  deriving DecidableEq, Repr

namespace Summary

/-- The fields of each format, in the order of the encoding. -/
def fieldsOf : Fields → List (String × Nat)
  | .register f => [("opcode", f.opcode.toNat), ("rs", f.rs.toNat), ("rt", f.rt.toNat),
      ("rd", f.rd.toNat), ("shamt", f.shamt.toNat), ("funct", f.funct.toNat)]
  | .immediate f => [("opcode", f.opcode.toNat), ("rs", f.rs.toNat), ("rt", f.rt.toNat),
      ("imm", f.imm.toNat)]
  | .jump f => [("opcode", f.opcode.toNat), ("label", f.label.toNat)]

def signalsOf (s : Signals) : List (String × Option Nat) :=
  [("ALUSrc", s.aluSrc.bit?), ("Branch", s.branch.bit?), ("MemRead", s.memRead.bit?),
   ("MemToReg", s.memToReg.bit?), ("MemWrite", s.memWrite.bit?), ("RegDst", s.regDst.bit?),
   ("RegWrite", s.regWrite.bit?)]

def of (i : Instruction) (s : Signals) : Summary where
  operation := i.operation.name
  format := i.fields.format.letter
  mnemonic := i.mnemonic
  fields := fieldsOf i.fields
  signals := signalsOf s

theorem fields_entries (fs : Fields) : (fs.entries.map fun e => (e.1.name, e.2)) = fieldsOf fs := by
  cases fs <;> rfl

theorem signals_entries (s : Signals) : (s.entries.map fun e => (e.1, e.2.bit?)) = signalsOf s := rfl

/-! ### Reading text -/

/-- What follows a label on the first line that starts with it. -/
def labelled (label : String) (lines : List (List Char)) : Option String :=
  (lines.findSome? label.toList.isPrefixOf?).map .ofList

/-- The indented lines under a heading. -/
def under (heading : String) (lines : List (List Char)) : List (List Char) :=
  ((lines.dropWhile (· ≠ heading.toList)).drop 1).takeWhile (·.head? = some '\t')

/-- The name and the value of an indented line, with a colon and a blank between them. A note may
follow behind another blank. -/
def entry? (line : List Char) : Option (String × List Char) :=
  match line.drop 1 |>.dropWhile (· ≠ ':') with
  | ':' :: ' ' :: value =>
    some (.ofList (line.drop 1 |>.takeWhile (· ≠ ':')), value.takeWhile (· ≠ ' '))
  | _ => none

def number? (digits : List Char) : Option Nat :=
  if digits ≠ [] ∧ digits.all Char.isDigit then some (Nat.ofDigitChars 10 digits 0) else none

def bit? : List Char → Option (Option Nat)
  | ['0'] => some (some 0)
  | ['1'] => some (some 1)
  | ['X'] => some none
  | _ => none

/-- An entry whose value is read by `f`. -/
def entryOf? {α : Type} (f : List Char → Option α) (line : List Char) : Option (String × α) := do
  let (name, value) ← entry? line
  return (name, ← f value)

def ofLines (lines : List (List Char)) : Option Summary := do
  let operation ← labelled "Instruction: " lines
  let format ← labelled "- Format: " lines
  let mnemonic ← labelled "- Mnemonic: " lines
  let fields ← (under "- Fields:" lines).mapM (entryOf? number?)
  let signals ← (under "- Control signals:" lines).mapM (entryOf? bit?)
  return ⟨operation, format, mnemonic, fields, signals⟩

/-- Reads a report in text style, line by line. -/
def ofText (text : String) : Option Summary := ofLines (text.toList.splitOn '\n')

theorem entryOf?_append {α : Type} {f : List Char → Option α} {name value rest : List Char} {a : α}
    (hname : ':' ∉ name) (hvalue : ' ' ∉ value) (hrest : ∀ c ∈ rest.head?, c = ' ')
    (read : f value = some a) :
    entryOf? f ('\t' :: (name ++ ':' :: ' ' :: (value ++ rest))) = some (.ofList name, a) := by
  have before : ∀ c ∈ name, decide (c ≠ ':') := fun c hc =>
    decide_eq_true fun same => hname (same ▸ hc)
  have inside : ∀ c ∈ value, decide (c ≠ ' ') := fun c hc =>
    decide_eq_true fun same => hvalue (same ▸ hc)
  have stop : rest.takeWhile (· ≠ ' ') = [] := by
    cases rest with
    | nil => rfl
    | cons c rest => simp [hrest c rfl]
  have whole : (value ++ rest).takeWhile (· ≠ ' ') = value := by
    rw [List.takeWhile_append_of_pos inside, stop, List.append_nil]
  rw [entryOf?, entry?, List.drop_one, List.tail_cons, List.dropWhile_append_of_pos before,
    List.takeWhile_append_of_pos before, List.dropWhile_cons_of_neg (by simp),
    List.takeWhile_cons_of_neg (by simp), List.append_nil]
  simp only [whole, Option.bind_eq_bind, Option.bind_some, read]
  rfl

theorem number?_repr (n : Nat) : number? (Nat.repr n).toList = some n := by
  have some_digit : (Nat.repr n).toList ≠ [] := by
    rw [Nat.toList_repr]
    exact Nat.toDigits_ne_nil
  have digits : (Nat.repr n).toList.all Char.isDigit :=
    List.all_eq_true.mpr fun c hc => Operand.repr_chars hc
  rw [number?, if_pos ⟨some_digit, digits⟩, Nat.toList_repr,
    Nat.ofDigitChars_toDigits (by decide) (by decide)]

/-- The lines under a heading are found if the heading comes first there. -/
theorem under_append {heading : String} {front items rest : List (List Char)}
    (hfront : heading.toList ∉ front) (indented : ∀ l ∈ items, l.head? = some '\t')
    (hrest : ∀ l ∈ rest.head?, l.head? ≠ some '\t') :
    under heading (front ++ heading.toList :: (items ++ rest)) = items := by
  have before : ∀ l ∈ front, decide (l ≠ heading.toList) := fun l hl =>
    decide_eq_true fun same => hfront (same ▸ hl)
  have inside : ∀ l ∈ items, decide (l.head? = some '\t') := fun l hl =>
    decide_eq_true (indented l hl)
  have stop : rest.takeWhile (·.head? = some '\t') = [] := by
    cases rest with
    | nil => rfl
    | cons l rest => simp [hrest l rfl]
  rw [under, List.dropWhile_append_of_pos before,
    List.dropWhile_cons_of_neg (by simp), List.drop_one, List.tail_cons,
    List.takeWhile_append_of_pos inside, stop, List.append_nil]

theorem fieldLine_read (notes : Bool) (i : Instruction) (e : Field × Nat) :
    entryOf? number? (Report.fieldLine notes i e).toList = some (e.1.name, e.2) := by
  have name : ':' ∉ e.1.name.toList := e.1.not_mem_name rfl
  have value : ' ' ∉ (Nat.repr e.2).toList := Operand.not_mem_repr e.2 rfl
  have note : ∀ c ∈ (Report.noteText (if notes then Report.note? i e.1 e.2 else none)).toList.head?,
      c = ' ' := by
    cases (if notes then Report.note? i e.1 e.2 else none) <;> simp [Report.noteText]
  have chars : (Report.fieldLine notes i e).toList =
      '\t' :: (e.1.name.toList ++ ':' :: ' ' :: ((Nat.repr e.2).toList ++
        (Report.noteText (if notes then Report.note? i e.1 e.2 else none)).toList)) := by
    simp [Report.fieldLine]
  rw [chars, entryOf?_append name value note (number?_repr e.2), String.ofList_toList]

theorem signalLine_read {s : Signals} {e : String × Signal} (h : e ∈ s.entries) :
    entryOf? bit? (Report.signalLine e).toList = some (e.1, e.2.bit?) := by
  have name : ':' ∉ e.1.toList := Signals.not_mem_name h rfl
  have value : ' ' ∉ e.2.letter.toList := by cases e.2 <;> decide
  have chars : (Report.signalLine e).toList =
      '\t' :: (e.1.toList ++ ':' :: ' ' :: (e.2.letter.toList ++ [])) := by
    simp [Report.signalLine]
  have letter : bit? e.2.letter.toList = some e.2.bit? := by cases e.2 <;> rfl
  rw [chars, entryOf?_append name value (by simp) letter, String.ofList_toList]

/-- The lines of the entries are read back in order. -/
theorem fieldLines_read (notes : Bool) (i : Instruction) :
    ((i.fields.entries.map (Report.fieldLine notes i)).map String.toList).mapM (entryOf? number?) =
      some (fieldsOf i.fields) := by
  rw [← fields_entries, mapM_eq_some_iff, List.forall₂_map_left_iff, List.forall₂_map_left_iff,
    List.forall₂_map_right_iff, List.forall₂_same]
  exact fun e _ => fieldLine_read notes i e

theorem signalLines_read (s : Signals) :
    ((s.entries.map Report.signalLine).map String.toList).mapM (entryOf? bit?) =
      some (signalsOf s) := by
  rw [← signals_entries, mapM_eq_some_iff, List.forall₂_map_left_iff, List.forall₂_map_left_iff,
    List.forall₂_map_right_iff, List.forall₂_same]
  exact fun e member => signalLine_read member

/-- The lines of a report above those of the fields. -/
def top (c : ReportConfig) (i : Instruction) : List String :=
  ["Instruction: " ++ i.operation.name, "- Format: " ++ i.fields.format.letter] ++
    (if c.showBits then ["- Bits: " ++ i.word.binary] else []) ++ ["- Mnemonic: " ++ i.mnemonic]

theorem lines_eq (c : ReportConfig) (i : Instruction) (s : Signals) :
    Report.lines c i s =
      top c i ++ "- Fields:" :: (i.fields.entries.map (Report.fieldLine c.annotateFields i) ++
        "- Control signals:" :: s.entries.map Report.signalLine) := by
  simp [Report.lines, top]

/-- The labels are found whether or not there are bits among the lines. -/
theorem labelled_lines (c : ReportConfig) (i : Instruction) (s : Signals) :
    labelled "Instruction: " ((Report.lines c i s).map String.toList ++ [[]]) =
        some i.operation.name ∧
      labelled "- Format: " ((Report.lines c i s).map String.toList ++ [[]]) =
        some i.fields.format.letter ∧
      labelled "- Mnemonic: " ((Report.lines c i s).map String.toList ++ [[]]) =
        some i.mnemonic := by
  cases bits : c.showBits <;> simp [Report.lines, labelled, List.isPrefixOf?, bits]

theorem fieldLines_indented (notes : Bool) (i : Instruction) :
    ∀ l ∈ (i.fields.entries.map (Report.fieldLine notes i)).map String.toList,
      l.head? = some '\t' := by
  rw [List.forall_mem_map, List.forall_mem_map]
  exact fun e _ => by simp [Report.fieldLine]

theorem signalLines_indented (s : Signals) :
    ∀ l ∈ (s.entries.map Report.signalLine).map String.toList, l.head? = some '\t' := by
  rw [List.forall_mem_map, List.forall_mem_map]
  exact fun e _ => by simp [Report.signalLine]

theorem under_fields (c : ReportConfig) (i : Instruction) (s : Signals) :
    under "- Fields:" ((Report.lines c i s).map String.toList ++ [[]]) =
      (i.fields.entries.map (Report.fieldLine c.annotateFields i)).map String.toList := by
  have first : "- Fields:".toList ∉ (top c i).map String.toList := by
    cases bits : c.showBits <;> simp [top, bits]
  rw [lines_eq, List.map_append, List.map_cons, List.map_append, List.append_assoc,
    List.cons_append, List.append_assoc]
  exact under_append first (fieldLines_indented c.annotateFields i) (by simp)

theorem under_signals (c : ReportConfig) (i : Instruction) (s : Signals) :
    under "- Control signals:" ((Report.lines c i s).map String.toList ++ [[]]) =
      (s.entries.map Report.signalLine).map String.toList := by
  have first : "- Control signals:".toList ∉ (top c i ++ "- Fields:" ::
      i.fields.entries.map (Report.fieldLine c.annotateFields i)).map String.toList := by
    rw [List.map_append, List.map_cons, List.mem_append, List.mem_cons, not_or, not_or]
    refine ⟨by cases bits : c.showBits <;> simp [top, bits], by simp, fun member => ?_⟩
    have indented := fieldLines_indented c.annotateFields i _ member
    simp at indented
  rw [lines_eq, ← List.cons_append, ← List.append_assoc, List.map_append, List.map_cons,
    List.append_assoc, List.cons_append]
  exact under_append first (signalLines_indented s) (by simp)

theorem framed_report {w : Word} {i : Instruction} (h : decode w = .ok i) (s : Signals)
    (bits notes : Bool) :
    Framed (Report.text ⟨.text, bits, notes⟩ i s) (Report.lines ⟨.text, bits, notes⟩ i s) :=
  framed_join (oneLine_lines h s ⟨.text, bits, notes⟩)

/-- **A report in text style is read back.** -/
theorem ofText_report {w : Word} {i : Instruction} (h : decode w = .ok i) (s : Signals)
    (bits notes : Bool) : ofText (Report.text ⟨.text, bits, notes⟩ i s) = some (of i s) := by
  obtain ⟨operation, format, mnemonic⟩ := labelled_lines ⟨.text, bits, notes⟩ i s
  rw [ofText, framed_report h s bits notes, ofLines, operation, format, mnemonic, under_fields,
    under_signals, fieldLines_read, signalLines_read]
  rfl

/-! ### Reading JSON -/

/-- The text that units stand for. -/
def unitsText? (us : List Json.TextUnit) : Option String :=
  (Json.TextUnit.joined none us).toOption.map .ofList

def text? : Json → Option String
  | .string us => unitsText? us
  | _ => none

def natural? : Json → Option Nat
  | .number n => n.integer?.bind Int.toNat?
  | _ => none

/-- A number, or null when there is none. -/
def optional? : Json → Option (Option Nat)
  | .null => some none
  | v => (natural? v).map some

/-- The value of the only member of an object that has a name. -/
def only? (name : String) : Json → Option Json
  | .object members =>
    match members.filter fun m => unitsText? m.1 = some name with
    | [m] => some m.2
    | _ => none
  | _ => none

/-- The members of an object in order, with values read by `f`. -/
def entriesOf? {α : Type} (f : Json → Option α) : Json → Option (List (String × α))
  | .object members => members.mapM fun m => do return (← unitsText? m.1, ← f m.2)
  | _ => none

/-- Reads a report in JSON style. -/
def ofJson (v : Json) : Option Summary := do
  let operation ← (only? "operation" v).bind text?
  let format ← (only? "format" v).bind text?
  let mnemonic ← (only? "mnemonic" v).bind text?
  let fields ← (only? "fields" v).bind (entriesOf? natural?)
  let signals ← (only? "signals" v).bind (entriesOf? optional?)
  return ⟨operation, format, mnemonic, fields, signals⟩

@[simp] theorem unitsText?_units (s : String) : unitsText? (Json.units s) = some s := by
  have stands := Json.TextUnit.joined_eq_ok_iff.mpr (Json.TextUnit.stand_chars s.toList)
  rw [unitsText?, Json.units, stands]
  exact congrArg some s.ofList_toList

@[simp] theorem text?_ofString (s : String) : text? (.ofString s) = some s := unitsText?_units s

theorem natural?_ofNat {n : Nat} (h : n < UInt64.size) : natural? (.ofNat n) = some n := by
  obtain ⟨digits, eq, _, _, value, _⟩ := Json.Numeral.ofNat_whole n
  have number : Radix.decimal.number digits = n :=
    (Radix.number_eq_ofDigits .decimal digits).trans value
  simp only [natural?, Json.ofNat, Json.Numeral.integer?, eq, number, h]
  rfl

theorem optional?_toJson (x : Signal) : optional? x.toJson = some x.bit? := by
  cases x with
  | asserted => exact congrArg (Option.map some) (natural?_ofNat (n := 1) (by decide))
  | deasserted => exact congrArg (Option.map some) (natural?_ofNat (n := 0) (by decide))
  | dontCare => rfl

@[simp] theorem only?_ofMembers (name : String) (members : List (String × Json)) :
    only? name (.ofMembers members) =
      match members.filter fun m => m.1 = name with
      | [m] => some m.2
      | _ => none := by
  have named : (fun m : List Json.TextUnit × Json => decide (unitsText? m.1 = some name)) ∘
      (fun m : String × Json => (Json.units m.1, m.2)) = fun m => decide (m.1 = name) := by
    funext m
    simp
  rw [Json.ofMembers, only?, List.filter_map, named]
  generalize List.filter _ members = found
  rcases found with - | ⟨m, - | ⟨n, rest⟩⟩ <;> rfl

theorem entriesOf?_ofMembers {α β : Type} {f : Json → Option α} {g : β → String × Json}
    {a : β → α} {items : List β} (read : ∀ b ∈ items, f (g b).2 = some (a b)) :
    entriesOf? f (.ofMembers (items.map g)) = some (items.map fun b => ((g b).1, a b)) := by
  rw [Json.ofMembers, entriesOf?, List.map_map, mapM_eq_some_iff, List.forall₂_map_left_iff,
    List.forall₂_map_right_iff, List.forall₂_same]
  intro b member
  simp [read b member]

/-- The values of fields are machine numbers. -/
theorem entries_lt (fs : Fields) : ∀ e ∈ fs.entries, e.2 < UInt64.size := by
  have byte (b : UInt8) : b.toNat < UInt64.size := b.toNat_lt.trans (by decide)
  have half (b : UInt16) : b.toNat < UInt64.size := b.toNat_lt.trans (by decide)
  have word (b : UInt32) : b.toNat < UInt64.size := b.toNat_lt.trans (by decide)
  cases fs <;> simp [Fields.entries, byte, half, word]

/-- **A report in JSON style is read back.** -/
theorem ofJson_report (i : Instruction) (s : Signals) :
    ofJson (Report.toJson i s) = some (of i s) := by
  have fields : entriesOf? natural? i.fields.toJson = some (fieldsOf i.fields) := by
    rw [Fields.toJson_eq, ← fields_entries]
    exact entriesOf?_ofMembers fun e member => natural?_ofNat (entries_lt i.fields e member)
  have signals : entriesOf? optional? s.toJson = some (signalsOf s) := by
    rw [Signals.toJson_eq, ← signals_entries]
    exact entriesOf?_ofMembers fun e _ => optional?_toJson e.2
  simp [ofJson, Report.toJson, fields, signals, Operation.toJson, Format.toJson_eq, of]

/-! ### What a summary is of -/

/-- **A summary is of one word and one set of signals.** -/
theorem of_injective {w w' : Word} {i i' : Instruction} (h : decode w = .ok i)
    (h' : decode w' = .ok i') {s s' : Signals} (same : of i s = of i' s') : w = w' ∧ s = s' := by
  have word {w : Word} {i : Instruction} (h : decode w = .ok i) : w = i.fields.pack := by
    simp [(decode_eq_ok_iff.mp h).fields, Word.fields]
  have fields : i.fields = i'.fields := by
    have entries := congrArg Summary.fields same
    rw [of, of, ← fields_entries, ← fields_entries] at entries
    refine Fields.entries_injective (List.map_injective_iff.mpr ?_ entries)
    intro e e' entry
    obtain ⟨name, value⟩ := Prod.mk.inj entry
    exact Prod.ext (Field.name_injective name) value
  have bits : Function.Injective Signal.bit? := fun x y => by cases x <;> cases y <;> simp [Signal.bit?]
  have signals : s = s' := by
    have entries := congrArg Summary.signals same
    simp only [of, signalsOf, List.cons.injEq, Prod.mk.injEq, true_and, bits.eq_iff] at entries
    cases s
    cases s'
    simp_all
  exact ⟨by rw [word h, word h', fields], signals⟩

end Summary

/-! ### Both styles -/

theorem Report.plain_toJson (i : Instruction) (s : Signals) : Json.Plain (toJson i s) := by
  have fields : Json.Plain i.fields.toJson := by
    rw [Fields.toJson_eq]
    refine Json.plain_ofMembers ?_
    rw [List.forall_mem_map]
    exact fun e _ => Json.plain_ofNat e.2
  have signals : Json.Plain s.toJson := by
    rw [Signals.toJson_eq]
    refine Json.plain_ofMembers ?_
    rw [List.forall_mem_map]
    rintro ⟨name, x⟩ _
    cases x with
    | asserted => exact Json.plain_ofNat 1
    | deasserted => exact Json.plain_ofNat 0
    | dontCare => exact Json.plain_null
  refine Json.plain_ofMembers ?_
  simp [fields, signals, Operation.toJson, Format.toJson_eq]

theorem Report.textOf_report (bits notes : Bool) (i : Instruction) (s : Signals) :
    Json.TextOf (toJson i s) (text ⟨.json, bits, notes⟩ i s).toList := by
  have blank : Json.Blank ['\n'] := by simp [Json.Blank]
  simpa [text] using (Json.textOf_compact (plain_toJson i s)).append_blank blank

/-- **Both styles of a report tell the same, and enough to know the word and the signals.** -/
theorem reports_carry_summary {w : Word} {i : Instruction} (h : decode w = .ok i) (s : Signals)
    (bits notes : Bool) :
    Summary.ofText (Report.text ⟨.text, bits, notes⟩ i s) = some (.of i s) ∧
      (∃ v, Json.TextOf v (Report.text ⟨.json, bits, notes⟩ i s).toList) ∧
      (∀ v, Json.TextOf v (Report.text ⟨.json, bits, notes⟩ i s).toList →
        Summary.ofJson v = some (.of i s)) ∧
      ∀ style w' i' s', decode w' = .ok i' →
        Report.text ⟨style, bits, notes⟩ i s = Report.text ⟨style, bits, notes⟩ i' s' →
        w = w' ∧ s = s' := by
  have json (i : Instruction) (s : Signals) {v : Json}
      (reading : Json.TextOf v (Report.text ⟨.json, bits, notes⟩ i s).toList) :
      Summary.ofJson v = some (.of i s) := by
    rw [reading.unique (Report.textOf_report bits notes i s), Summary.ofJson_report]
  refine ⟨Summary.ofText_report h s bits notes, ⟨_, Report.textOf_report bits notes i s⟩,
    fun v => json i s, ?_⟩
  intro style w' i' s' h' same
  refine Summary.of_injective h h' (Option.some.inj ?_)
  cases style with
  | text =>
    rw [← Summary.ofText_report h s bits notes, same, Summary.ofText_report h' s' bits notes]
  | json =>
    have reading := Report.textOf_report bits notes i s
    rw [← json i s reading]
    rw [same] at reading
    exact json i' s' reading

/-- A store, whose destination is left open: `X` in a line of text, null in JSON. -/
theorem reports_carry_summary_sw :
    ∃ i, decode 0xAFBF0008 = .ok i ∧
      Report.text ⟨.json, false, false⟩ i i.signals =
        "\x7b\"raw\":2948530184,\"bits\":\"10101111101111110000000000001000\",\"format\":\"I\"," ++
        "\"operation\":\"sw\",\"mnemonic\":\"sw $ra, 8($sp)\"," ++
        "\"fields\":\x7b\"opcode\":43,\"rs\":29,\"rt\":31,\"imm\":8\x7d," ++
        "\"signals\":\x7b\"ALUSrc\":1,\"Branch\":0,\"MemRead\":0,\"MemToReg\":null," ++
        "\"MemWrite\":1,\"RegDst\":null,\"RegWrite\":0\x7d\x7d\n" ∧
      ∃ summary : Summary,
        summary = ⟨"sw", "I", "sw $ra, 8($sp)", [("opcode", 43), ("rs", 29), ("rt", 31), ("imm", 8)],
          [("ALUSrc", some 1), ("Branch", some 0), ("MemRead", some 0), ("MemToReg", none),
            ("MemWrite", some 1), ("RegDst", none), ("RegWrite", some 0)]⟩ ∧
        Summary.ofText (Report.text ⟨.text, false, false⟩ i i.signals) = some summary ∧
        ∀ v, Json.TextOf v (Report.text ⟨.json, false, false⟩ i i.signals).toList →
          Summary.ofJson v = some summary := by
  have decoded : decode 0xAFBF0008 =
      .ok ⟨0xAFBF0008, .immediate ⟨43, 29, 31, 8⟩, .sw, "sw $ra, 8($sp)"⟩ := by decide +kernel
  obtain ⟨text, -, json, -⟩ := reports_carry_summary decoded
    (Instruction.signals ⟨0xAFBF0008, .immediate ⟨43, 29, 31, 8⟩, .sw, "sw $ra, 8($sp)"⟩) false false
  exact ⟨_, decoded, by decide +kernel, _, rfl, text, json⟩

end Mips32
