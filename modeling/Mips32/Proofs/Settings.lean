import Mips32.Proofs.Notes
import Mips32.Proofs.Tiling

/-! What the settings of a report in text style change. The report without bits is the whole report
without its third line (`lines_withoutBits`), and the report without notes is the whole report with
the note cut off each line that has one (`lines_withoutNotes`), so the two can be left out in either
order. The signals stand on the last seven lines (`lines_signals`). -/
namespace Mips32

namespace Report

/-- A line of a report without its note. -/
def withoutNote (line : String) : String := .ofList (cutNote line.toList).1

/-- The lines of a report without their notes. -/
def withoutNotes (lines : List String) : List String := lines.map withoutNote

/-- The lines of a report without the third one. -/
def withoutBits (lines : List String) : List String := lines.eraseIdx 2

/-! ### Lines without notes -/

@[simp] theorem withoutNote_fieldLine (notes : Bool) (i : Instruction) (e : Field × Nat) :
    withoutNote (fieldLine notes i e) = fieldLine false i e := by
  rw [withoutNote, cutNote_fieldLine, String.ofList_toList]

theorem withoutNote_unindented {line : String} (h : line.toList.head? ≠ some '\t') :
    withoutNote line = line := by
  rw [withoutNote, cutNote_unindented h, String.ofList_toList]

theorem withoutNote_top {c : ReportConfig} {i : Instruction} {line : String}
    (h : line ∈ Summary.top c i) : withoutNote line = line := by
  refine withoutNote_unindented ?_
  revert line
  cases bits : c.showBits <;> simp [Summary.top, bits]

theorem withoutNote_signalLine {s : Signals} {e : String × Signal} (h : e ∈ s.entries) :
    withoutNote (signalLine e) = signalLine e := by
  have name : '(' ∉ e.1.toList := Signals.not_mem_name h rfl
  have letter : '(' ∉ e.2.letter.toList := by cases e.2 <;> decide
  have plain : '(' ∉ (signalLine e).toList := by simp [signalLine, name, letter]
  rw [withoutNote, cutNote_plain plain, String.ofList_toList]

/-- A line of a report is a field line, or it has no note. -/
theorem line_cases {c : ReportConfig} {i : Instruction} {s : Signals} {line : String}
    (h : line ∈ lines c i s) :
    withoutNote line = line ∨ ∃ e ∈ i.fields.entries, line = fieldLine c.annotateFields i e := by
  rw [Summary.lines_eq, List.mem_append, List.mem_cons, List.mem_append, List.mem_cons,
    List.mem_map, List.mem_map] at h
  rcases h with top | rfl | ⟨e, held, rfl⟩ | rfl | ⟨e, held, rfl⟩
  · exact .inl (withoutNote_top top)
  · exact .inl (withoutNote_unindented (by decide))
  · exact .inr ⟨e, held, rfl⟩
  · exact .inl (withoutNote_unindented (by decide))
  · exact .inl (withoutNote_signalLine held)

/-- What is cut off a line is the name in parentheses at the end of a field line. -/
theorem withoutNote_cases {c : ReportConfig} {i : Instruction} {s : Signals} {line : String}
    (h : line ∈ lines c i s) :
    withoutNote line = line ∨ ∃ e ∈ i.fields.entries, ∃ name,
      withoutNote line = "\t" ++ e.1.name ++ ": " ++ Nat.repr e.2 ∧
        line = withoutNote line ++ " (" ++ name ++ ")" := by
  rcases line_cases h with unchanged | ⟨e, held, rfl⟩
  · exact .inl unchanged
  rw [withoutNote_fieldLine, fieldLine_append c.annotateFields]
  cases (if c.annotateFields then note? i e.1 e.2 else none) with
  | none => exact .inl String.append_empty.symm
  | some name =>
    refine .inr ⟨e, held, name, ?_, ?_⟩
    · exact String.append_empty
    · simp only [noteText, String.append_assoc]

/-! ### The four reports -/

/-- **The report without notes** is the report with the notes cut off. -/
theorem lines_withoutNotes (st : ReportStyle) (bits notes : Bool) (i : Instruction) (s : Signals) :
    withoutNotes (lines ⟨st, bits, notes⟩ i s) = lines ⟨st, bits, false⟩ i s := by
  have top : (Summary.top ⟨st, bits, notes⟩ i).map withoutNote = Summary.top ⟨st, bits, false⟩ i :=
    (List.map_congr_left fun _ => withoutNote_top).trans (List.map_id _)
  have fields : (i.fields.entries.map (fieldLine notes i)).map withoutNote =
      i.fields.entries.map (fieldLine false i) := by
    rw [List.map_map]
    exact List.map_congr_left fun e _ => withoutNote_fieldLine notes i e
  have signals : (s.entries.map signalLine).map withoutNote = s.entries.map signalLine := by
    rw [List.map_map]
    exact List.map_congr_left fun e held => withoutNote_signalLine held
  have headings : withoutNote "- Fields:" = "- Fields:" ∧
      withoutNote "- Control signals:" = "- Control signals:" :=
    ⟨withoutNote_unindented (by decide), withoutNote_unindented (by decide)⟩
  simp only [withoutNotes, Summary.lines_eq, List.map_append, List.map_cons, top, fields, signals,
    headings]

/-- **The report without bits** is the report without its third line. -/
theorem lines_withoutBits (st : ReportStyle) (notes : Bool) (i : Instruction) (s : Signals) :
    withoutBits (lines ⟨st, true, notes⟩ i s) = lines ⟨st, false, notes⟩ i s := rfl

/-- **The signals** stand on the last seven lines. -/
theorem lines_signals (c : ReportConfig) (i : Instruction) :
    ∃ front, ∀ s, ∃ back, back.length = 7 ∧ lines c i s = front ++ back := by
  refine ⟨Summary.top c i ++ "- Fields:" :: (i.fields.entries.map (fieldLine c.annotateFields i) ++
    ["- Control signals:"]), fun s => ⟨s.entries.map signalLine, rfl, ?_⟩⟩
  rw [Summary.lines_eq]
  simp only [List.append_assoc, List.cons_append, List.nil_append]

end Report

open Report in
/-- **The settings of a report in text style change only what they name.** There are the lines of the
whole report, and the other three reports are these lines without the third one, without the notes,
and without both. The third line has the 32 binary digits of the word; a note is a name in parentheses
at the end of a field line; and other signals change no line but the last seven. -/
theorem text_settings_change_only {w : Word} {i : Instruction} (h : decode w = .ok i) (s : Signals) :
    (∃ lines, Framed (Report.text ⟨.text, true, true⟩ i s) lines ∧
      lines[2]? = some ("- Bits: " ++ .ofList (Text.lowBits 32 w.toNat)) ∧
      (∀ line ∈ lines, withoutNote line = line ∨ ∃ e ∈ i.fields.entries, ∃ name,
        withoutNote line = "\t" ++ e.1.name ++ ": " ++ Nat.repr e.2 ∧
          line = withoutNote line ++ " (" ++ name ++ ")") ∧
      Framed (Report.text ⟨.text, false, true⟩ i s) (withoutBits lines) ∧
      Framed (Report.text ⟨.text, true, false⟩ i s) (withoutNotes lines) ∧
      (withoutNotes lines)[2]? = lines[2]? ∧
      Framed (Report.text ⟨.text, false, false⟩ i s) (withoutBits (withoutNotes lines)) ∧
      Framed (Report.text ⟨.text, false, false⟩ i s) (withoutNotes (withoutBits lines))) ∧
    ∀ s' bits notes, ∃ front back back', back.length = 7 ∧ back'.length = 7 ∧
      Framed (Report.text ⟨.text, bits, notes⟩ i s) (front ++ back) ∧
      Framed (Report.text ⟨.text, bits, notes⟩ i s') (front ++ back') := by
  have word : i.word = w := (decode_eq_ok_iff.mp h).word
  have framed := Summary.framed_report h
  constructor
  · refine ⟨lines ⟨.text, true, true⟩ i s, framed s true true, ?_, fun _ => withoutNote_cases, ?_⟩
    · rw [← w.binary_eq, ← word]
      rfl
    · rw [lines_withoutBits, lines_withoutNotes, lines_withoutNotes, lines_withoutBits]
      exact ⟨framed s false true, framed s true false, rfl, framed s false false,
        framed s false false⟩
  · intro s' bits notes
    obtain ⟨front, ending⟩ := lines_signals ⟨.text, bits, notes⟩ i
    obtain ⟨back, seven, lines⟩ := ending s
    obtain ⟨back', seven', lines'⟩ := ending s'
    exact ⟨front, back, back', seven, seven', lines ▸ framed s bits notes,
      lines' ▸ framed s' bits notes⟩

/-- A store, under its own signals and under those of an operation on registers. -/
theorem text_settings_change_only_sw :
    ∃ i lines, decode 0xAFBF0008 = .ok i ∧
      lines = ["Instruction: sw", "- Format: I", "- Bits: 10101111101111110000000000001000",
        "- Mnemonic: sw $ra, 8($sp)", "- Fields:", "\topcode: 43 (sw)", "\trs: 29 ($sp)",
        "\trt: 31 ($ra)", "\timm: 8", "- Control signals:", "\tALUSrc: 1", "\tBranch: 0",
        "\tMemRead: 0", "\tMemToReg: X", "\tMemWrite: 1", "\tRegDst: X", "\tRegWrite: 0"] ∧
      Framed (Report.text ⟨.text, true, true⟩ i i.signals) lines ∧
      (∀ line ∈ lines, Report.withoutNote line = line ∨ ∃ e ∈ i.fields.entries, ∃ name,
        Report.withoutNote line = "\t" ++ e.1.name ++ ": " ++ Nat.repr e.2 ∧
          line = Report.withoutNote line ++ " (" ++ name ++ ")") ∧
      Framed (Report.text ⟨.text, true, false⟩ i i.signals) (Report.withoutNotes lines) ∧
      Framed (Report.text ⟨.text, false, false⟩ i i.signals)
        (Report.withoutBits (Report.withoutNotes lines)) ∧
      Report.withoutBits (Report.withoutNotes lines) = ["Instruction: sw", "- Format: I",
        "- Mnemonic: sw $ra, 8($sp)", "- Fields:", "\topcode: 43", "\trs: 29", "\trt: 31",
        "\timm: 8", "- Control signals:", "\tALUSrc: 1", "\tBranch: 0", "\tMemRead: 0",
        "\tMemToReg: X", "\tMemWrite: 1", "\tRegDst: X", "\tRegWrite: 0"] ∧
      ∃ front back back', back.length = 7 ∧ back'.length = 7 ∧
        Framed (Report.text ⟨.text, true, false⟩ i i.signals) (front ++ back) ∧
        Framed (Report.text ⟨.text, true, false⟩ i (.derive .register ⟨false, false, false⟩))
          (front ++ back') := by
  have decoded : decode 0xAFBF0008 =
      .ok ⟨0xAFBF0008, .immediate ⟨43, 29, 31, 8⟩, .sw, "sw $ra, 8($sp)"⟩ := by decide +kernel
  obtain ⟨⟨lines, whole, _, noted, _, notes, _, bare, _⟩, signals⟩ :=
    text_settings_change_only decoded (Instruction.signals _)
  obtain rfl := whole.unique (Summary.framed_report decoded _ true true)
  exact ⟨_, _, decoded, by decide +kernel, whole, noted, notes, bare, by decide +kernel,
    signals _ true false⟩

end Mips32
