import Mips32.Proofs.Records

/-! How many lines the report of a failure takes. In JSON style it is one line, whatever the input.
In text style the input is written as it is, and so is the text that an error repeats
(`DecodeError.carried?`), so each line feed in them ends a line (`lineFeeds_failureLine`). A refused
word goes on one line when it has no line feed itself. -/
namespace Mips32

/-! ### Line feeds -/

def lineFeeds (s : String) : Nat := s.toList.count '\n'

@[simp] theorem lineFeeds_append (s t : String) : lineFeeds (s ++ t) = lineFeeds s + lineFeeds t := by
  rw [lineFeeds, String.toList_append, List.count_append, lineFeeds, lineFeeds]

theorem oneLine_iff_lineFeeds {s : String} : OneLine s ↔ lineFeeds s = 0 :=
  List.count_eq_zero.symm

/-- Text on one line around another text brings no line feeds. -/
theorem lineFeeds_between {front back : String} (before : OneLine front) (behind : OneLine back)
    (s : String) : lineFeeds (front ++ s ++ back) = lineFeeds s := by
  rw [lineFeeds_append, lineFeeds_append, oneLine_iff_lineFeeds.mp before,
    oneLine_iff_lineFeeds.mp behind, Nat.zero_add, Nat.add_zero]

/-! ### Errors -/

namespace DecodeError

/-- The text that the message of an error repeats. -/
def carried? : DecodeError → Option String
  | malformedWord input => some input
  | unknownRegister name => some name
  | unknownOperation _ | unformattable _ | invalidRegister _ => none

theorem oneLine_codeText (code : Nat) : OneLine (codeText code) :=
  OneLine.append (by decide) (oneLine_binary 6 code)

/-- **A message has the line feeds of the text that it repeats.** -/
theorem lineFeeds_message (e : DecodeError) :
    lineFeeds e.message = e.carried?.elim 0 lineFeeds := by
  cases e with
  | malformedWord input => exact lineFeeds_between (by decide) (by decide) input
  | unknownRegister name => exact lineFeeds_between (by decide) (by decide) name
  | unknownOperation s =>
    have table : OneLine s.table.name := by cases s.table <;> decide
    have code : OneLine ("unknown operation: " ++ s.table.name ++ " " ++ codeText s.code) :=
      ((OneLine.append (by decide) table).append (by decide)).append (oneLine_codeText s.code)
    exact oneLine_iff_lineFeeds.mp (code.append (by decide))
  | unformattable op =>
    have opened : OneLine ("operation `" ++ op.name) := .append (by decide) (oneLine_operation op)
    exact oneLine_iff_lineFeeds.mp (opened.append (by decide))
  | invalidRegister index =>
    exact oneLine_iff_lineFeeds.mp (.append (by decide) (oneLine_repr index))

/-- A word is refused because it is no literal, or because its selector is unassigned. -/
theorem refused_cases {word : String} {e : DecodeError}
    (h : Word.ofLiteral word >>= decode = .error e) :
    e = .malformedWord word ∨
      ∃ w, Word.ofLiteral word = .ok w ∧ e = .unknownOperation w.selector := by
  cases read : Word.ofLiteral word with
  | error e' =>
    rw [read] at h
    obtain rfl := Except.error.inj h
    exact .inl (Word.ofLiteral_eq_error_iff.mp read).2
  | ok w =>
    rw [read] at h
    have undecoded : decode w = .error e := h
    exact .inr ⟨w, rfl, (decode_eq_error_iff.mp undecoded).2⟩

/-- A refused word has no text but its own repeated. -/
theorem carried_of_refused {word : String} {e : DecodeError}
    (h : Word.ofLiteral word >>= decode = .error e) : ∀ t ∈ e.carried?, t = word := by
  rcases refused_cases h with rfl | ⟨w, _, rfl⟩ <;> simp [carried?]

end DecodeError

/-! ### Reports of failures -/

namespace Report

/-- The report of a failure without the line feed at its end. -/
def failureLine (c : ReportConfig) (input : String) (e : DecodeError) : String :=
  match c.style with
  | .text => "error: " ++ input ++ ": " ++ e.message
  | .json => (failureToJson input e).compact

theorem failureText_eq (c : ReportConfig) (input : String) (e : DecodeError) :
    failureText c input e = failureLine c input e ++ "\n" := by
  unfold failureText failureLine
  cases c.style <;> rfl

/-- **The line feeds in the report of a failure** are those of the texts in it, in text style. -/
theorem lineFeeds_failureLine (c : ReportConfig) (input : String) (e : DecodeError) :
    lineFeeds (failureLine c input e) =
      match c.style with
      | .text => lineFeeds input + e.carried?.elim 0 lineFeeds
      | .json => 0 := by
  unfold failureLine
  cases c.style with
  | text =>
    show lineFeeds ("error: " ++ input ++ ": " ++ e.message) = _
    rw [lineFeeds_append, lineFeeds_between (by decide) (by decide), e.lineFeeds_message]
  | json =>
    have visible := Json.compact_visible (plain_failureToJson input e)
    exact oneLine_iff_lineFeeds.mp (oneLine_of_visible visible)

theorem oneLine_failureLine_iff (c : ReportConfig) (input : String) (e : DecodeError) :
    OneLine (failureLine c input e) ↔
      c.style = .json ∨ OneLine input ∧ ∀ t ∈ e.carried?, OneLine t := by
  rw [oneLine_iff_lineFeeds, lineFeeds_failureLine]
  cases c.style with
  | text => cases e.carried? <;> simp [oneLine_iff_lineFeeds]
  | json => simp

end Report

/-- **When a failure is reported on one line.** The report of a failure ends with a line feed. The
line feeds before it are, in text style, those of the input and of the text that the error repeats,
and in JSON style there are none; so the report goes on one line when the style is JSON or these
texts do. A refused word is reported on one line when the style is JSON or the word has no line feed. -/
theorem failure_one_line_iff (c : ReportConfig) :
    (∀ input e, ∃ line, Report.failureText c input e = line ++ "\n" ∧
      lineFeeds line = (match c.style with
        | .text => lineFeeds input + e.carried?.elim 0 lineFeeds
        | .json => 0) ∧
      (OneLine line ↔ c.style = .json ∨ OneLine input ∧ ∀ t ∈ e.carried?, OneLine t)) ∧
    ∀ word e, Word.ofLiteral word >>= decode = .error e →
      ∃ line, (Transcript.answer c word).output = line ++ "\n" ∧
        (OneLine line ↔ c.style = .json ∨ OneLine word) := by
  constructor
  · intro input e
    exact ⟨Report.failureLine c input e, Report.failureText_eq c input e,
      Report.lineFeeds_failureLine c input e, Report.oneLine_failureLine_iff c input e⟩
  · intro word e refused
    refine ⟨Report.failureLine c word e, ?_, ?_⟩
    · rw [output_answer, refused]
      exact Report.failureText_eq c word e
    · have own := DecodeError.carried_of_refused refused
      have repeated : OneLine word → ∀ t ∈ e.carried?, OneLine t := fun one t held =>
        own t held ▸ one
      rw [Report.oneLine_failureLine_iff, and_iff_left_of_imp repeated]

/-- A word without line feeds in text style. -/
theorem failure_one_line_iff_zz :
    Word.ofLiteral "zz" >>= decode = .error (.malformedWord "zz") ∧
      ∃ line, (Transcript.answer ⟨.text, true, true⟩ "zz").output = line ++ "\n" ∧ OneLine line := by
  have refused : Word.ofLiteral "zz" >>= decode = .error (.malformedWord "zz") := by
    decide +kernel
  obtain ⟨line, written, one⟩ := (failure_one_line_iff ⟨.text, true, true⟩).2 "zz" _ refused
  exact ⟨refused, line, written, one.mpr (.inr (by decide))⟩

/-- **A word with a line feed is reported on three lines** in text style, as it stands in the report
twice. -/
theorem failure_on_three_lines :
    Word.ofLiteral "zz\nforged" >>= decode = .error (.malformedWord "zz\nforged") ∧
      Framed (Report.failureText ⟨.text, true, true⟩ "zz\nforged" (.malformedWord "zz\nforged"))
        ["error: zz", "forged: malformed instruction word `zz", "forged`"] ∧
      ¬ ∃ line, OneLine line ∧
        Report.failureText ⟨.text, true, true⟩ "zz\nforged" (.malformedWord "zz\nforged") =
          line ++ "\n" := by
  refine ⟨by decide +kernel, by decide +kernel, ?_⟩
  rintro ⟨line, one, written⟩
  rw [Report.failureText_eq] at written
  have same := (String.append_left_inj "\n").mp written
  rw [← same, Report.oneLine_failureLine_iff] at one
  revert one
  decide

end Mips32
