import Mips32.Proofs.Reports
import Mips32.Proofs.Sessions

/-! The output of a run in JSON style: one line for each word that is answered, in order
(`json_output_records`). A line is a whole JSON object, the report of the word or the word with
the reason why it was refused (`Record`). -/
namespace Mips32

open Json (Blank Plain TextOf)

/-! ### Records -/

/-- The object has two members, the input and the error, in this order. -/
def Refusal (members : List (List Json.TextUnit × Json)) (input message : String) : Prop :=
  ∃ first second v u, members = [(first, v), (second, u)] ∧
    Json.Named first "input" ∧ v.Says input ∧ Json.Named second "error" ∧ u.Says message

/-- The record of a word: one JSON object without controls, which reports the instruction of the
word, or tells why there is none. -/
structure Record (c : ReportConfig) (word record : String) : Prop where
  visible : ∀ ch ∈ record.toList, 0x20 ≤ ch.toNat
  object : ∃ members, TextOf (.object members) record.toList
  reported : ∀ i, Word.ofLiteral word >>= decode = .ok i →
    record ++ "\n" = Report.text c i i.signals
  refused : ∀ e members, Word.ofLiteral word >>= decode = .error e →
    TextOf (.object members) record.toList → Refusal members word e.message

/-- The words that a run answers: those of the command line or, if there are none, those that the
session hears. -/
inductive Answered (i : Invocation) (input : List UInt8) : List String → Prop
  | batch : i.words ≠ [] → Answered i input i.words
  | session {ls : List (List UInt8)} {words : List String} {ending : Session.Ending} :
      i.words = [] → Session.Lines input ls → Session.Heard ls words ending →
      Answered i input words

theorem exists_answered (i : Invocation) (input : List UInt8) : ∃ words, Answered i input words := by
  by_cases no_words : i.words = []
  · obtain ⟨words, ending, heard⟩ := Session.exists_heard (Session.lines input)
    exact ⟨words, .session no_words (Session.lines_eq_iff.mp rfl) heard⟩
  · exact ⟨i.words, .batch no_words⟩

/-! ### One word -/

theorem Report.plain_failureToJson (input : String) (e : DecodeError) :
    Plain (failureToJson input e) :=
  Json.plain_ofMembers (by simp)

theorem refusal_failureToJson {input : String} {e : DecodeError}
    {members : List (List Json.TextUnit × Json)}
    (h : .object members = Report.failureToJson input e) : Refusal members input e.message := by
  cases h
  exact ⟨_, _, _, _, rfl, by simp⟩

/-- The output for a word, by what becomes of the word. -/
theorem output_answer (c : ReportConfig) (word : String) :
    (Transcript.answer c word).output =
      match Word.ofLiteral word >>= decode with
      | .ok i => Report.text c i i.signals
      | .error e => Report.failureText c word e := by
  rw [Transcript.answer]
  cases Word.ofLiteral word with
  | error e => rfl
  | ok w =>
    change (Transcript.ofWord c word w).output = match decode w with | .ok i => _ | .error e => _
    rw [Transcript.ofWord]
    cases decode w with
    | ok i => rfl
    | error e => exact String.empty_append

/-- **A word is answered with its record**, on a line of its own. -/
theorem exists_record {c : ReportConfig} (style : c.style = .json) (word : String) :
    ∃ record, (Transcript.answer c word).output = record ++ "\n" ∧ Record c word record := by
  rw [output_answer]
  cases result : Word.ofLiteral word >>= decode with
  | ok i =>
    have plain := Report.plain_toJson i i.signals
    refine ⟨(Report.toJson i i.signals).compact, by simp [Report.text, style], ?_⟩
    exact {
      visible := Json.compact_visible plain
      object := ⟨_, Json.textOf_compact plain⟩
      reported := fun j decoded => by
        obtain rfl := Except.ok.inj (result.symm.trans decoded)
        simp [Report.text, style]
      refused := fun e _ failed _ => by cases result.symm.trans failed }
  | error e =>
    have plain := Report.plain_failureToJson word e
    refine ⟨(Report.failureToJson word e).compact, by simp [Report.failureText, style], ?_⟩
    exact {
      visible := Json.compact_visible plain
      object := ⟨_, Json.textOf_compact plain⟩
      reported := fun i decoded => by cases result.symm.trans decoded
      refused := fun e' members failed reading => by
        obtain rfl := Except.error.inj (result.symm.trans failed)
        exact refusal_failureToJson (reading.unique (Json.textOf_compact plain)) }

theorem Record.oneLine {c : ReportConfig} {word record : String} (h : Record c word record) :
    OneLine record :=
  oneLine_of_visible h.visible

/-! ### Runs -/

/-- A batch writes the records of its words. -/
theorem exists_records {c : ReportConfig} (style : c.style = .json) (words : List String) :
    ∃ records, Framed (Transcript.batch c words).output records ∧
      List.Forall₂ (Record c) words records := by
  induction words with
  | nil => exact ⟨[], rfl, .nil⟩
  | cons word words ih =>
    obtain ⟨record, answered, first⟩ := exists_record style word
    obtain ⟨records, framed, others⟩ := ih
    refine ⟨record :: records, ?_, .cons first others⟩
    rw [Transcript.batch_cons, Transcript.output_append, answered]
    exact framed_cons first.oneLine framed

theorem output_run {arguments : List String} {file : String → FileContents} {i : Invocation}
    {c : Config} (command : Command.ofArguments arguments = .ok (.decode i))
    (configured : i.config file = .ok c) (style : c.report.style = .json) {input : List UInt8}
    {words : List String} (h : Answered i input words) :
    (run arguments file input).output = (Transcript.batch c.report words).output := by
  cases h with
  | batch some_word =>
    have given : i.words.isEmpty = false := by simpa using some_word
    simp only [run, command, configured, Invocation.transcript, given]
    rfl
  | session no_words cut heard =>
    rw [run_of_interactive ⟨i, command, no_words, configured⟩, Session.transcript_eq_heard c cut heard]
    simp only [Outcome.output, Session.spoken, style]

/-- **In JSON style a run writes one record for each word, in order, and nothing else.** -/
theorem json_output_records {arguments : List String} {file : String → FileContents}
    {i : Invocation} {c : Config} (command : Command.ofArguments arguments = .ok (.decode i))
    (configured : i.config file = .ok c) (style : c.report.style = .json) (input : List UInt8) :
    (∃ words, Answered i input words) ∧
      ∀ words, Answered i input words →
        ∃ records, Framed (run arguments file input).output records ∧
          List.Forall₂ (Record c.report) words records := by
  refine ⟨exists_answered i input, fun words answered => ?_⟩
  rw [output_run command configured style answered]
  exact exists_records style words

/-- A word that decodes, and one with a quote and a line feed inside. -/
theorem json_output_records_quote :
    Answered ⟨["0", "\"\n"], [.json], none⟩ [] ["0", "\"\n"] ∧
      (∃ records,
        Framed (run ["--json", "0", "\"\n"] (fun _ => .error .missing) []).output records ∧
          List.Forall₂ (Record ⟨.json, true, true⟩) ["0", "\"\n"] records) ∧
      (run ["--json", "0", "\"\n"] (fun _ => .error .missing) []).output =
        "\x7b\"raw\":0,\"bits\":\"00000000000000000000000000000000\",\"format\":\"R\"," ++
        "\"operation\":\"sll\",\"mnemonic\":\"sll $zero, $zero, 0\",\"fields\":\x7b\"opcode\":0," ++
        "\"rs\":0,\"rt\":0,\"rd\":0,\"shamt\":0,\"funct\":0\x7d,\"signals\":\x7b\"ALUSrc\":0," ++
        "\"Branch\":0,\"MemRead\":0,\"MemToReg\":0,\"MemWrite\":0,\"RegDst\":1," ++
        "\"RegWrite\":1\x7d\x7d\n" ++
        "\x7b\"input\":\"\\\"\\n\",\"error\":\"malformed instruction word `\\\"\\n`\"\x7d\n" := by
  have command : Command.ofArguments ["--json", "0", "\"\n"] =
      .ok (.decode ⟨["0", "\"\n"], [.json], none⟩) := by decide +kernel
  have answered : Answered ⟨["0", "\"\n"], [.json], none⟩ [] ["0", "\"\n"] := .batch (by simp)
  exact ⟨answered, (json_output_records command rfl rfl []).2 _ answered, by decide +kernel⟩

end Mips32
