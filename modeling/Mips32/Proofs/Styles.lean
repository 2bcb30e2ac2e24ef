import Mips32.Proofs.Runs

/-! Runs in JSON style. A word has one record (`jsonRecord`), which no setting has a part in, and a
run is the records of its words with nothing around them, so two runs over the same words write the
same (`json_runs_ignore_text_settings`). The style is JSON when the command line or its
configuration asks for it; the flag wins. -/
namespace Mips32

/-- The record of a word in JSON style. -/
def jsonRecord (word : String) : String :=
  match Word.ofLiteral word >>= decode with
  | .ok i => (Report.toJson i i.signals).compact
  | .error e => (Report.failureToJson word e).compact

/-- What a run writes in JSON style for its words. -/
def jsonLines (words : List String) : String :=
  String.join (words.map fun w => jsonRecord w ++ "\n")

theorem output_answer_json {c : ReportConfig} (style : c.style = .json) (word : String) :
    (Transcript.answer c word).output = jsonRecord word ++ "\n" := by
  rw [output_answer, jsonRecord]
  cases Word.ofLiteral word >>= decode with
  | ok i => simp only [Report.text, style]
  | error e => simp only [Report.failureText, style]

namespace Invocation

/-- The flag or the configuration asks for JSON. -/
def AsksForJson (i : Invocation) (d : Config) : Prop := .json ∈ i.flags ∨ d.report.style = .json

theorem style_settings {i : Invocation} {d : Config} (h : i.AsksForJson d) :
    (i.settings d).report.style = .json := by
  show (if .json ∈ i.flags then ReportStyle.json else d.report.style) = .json
  split
  case isTrue => rfl
  case isFalse absent => exact h.resolve_left absent

/-- Nothing stands around the records in JSON style. -/
theorem frame_json {c : Config} (style : c.report.style = .json) (i : Invocation)
    (records : List String) : i.frame c records = String.join records := by
  unfold frame
  split
  · have banner : Session.banner c = "" := by simp only [Session.banner, style]
    have prompt : Session.prompt c = "" := by simp only [Session.prompt, style]
    simp [banner, prompt]
  · rfl

/-- **A run in JSON style is the records of its words.** -/
theorem output_run_json {arguments : List String} {file : String → FileContents} {i : Invocation}
    {d : Config} (command : Command.ofArguments arguments = .ok (.decode i))
    (loads : i.Loads file d) (json : i.AsksForJson d) {input : List UInt8} {words : List String}
    (h : Answered i input words) : (run arguments file input).output = jsonLines words := by
  have style := style_settings json
  rw [run_of_loads command loads]
  show (i.transcript (i.settings d) input).output = jsonLines words
  rw [output_transcript _ h, frame_json style, jsonLines]
  simp only [output_answer_json style]

end Invocation

/-- **In JSON style the settings for text do not count.** A run writes the records of its words and
nothing else; runs over the same words, or without words over the same input, write the same and
exit alike, whatever their other flags and settings. -/
theorem json_runs_ignore_text_settings {arguments : List String} {file : String → FileContents}
    {i : Invocation} {d : Config} (command : Command.ofArguments arguments = .ok (.decode i))
    (loads : i.Loads file d) (json : i.AsksForJson d) (input : List UInt8) :
    ((∃ words, Answered i input words) ∧
      ∀ words, Answered i input words → (run arguments file input).output = jsonLines words) ∧
    ∀ arguments' file' i' d' input', Command.ofArguments arguments' = .ok (.decode i') →
      i'.Loads file' d' → i'.AsksForJson d' → i'.words = i.words →
      (i.words = [] → input' = input) →
        (run arguments' file' input').output = (run arguments file input).output ∧
          (run arguments' file' input').exitCode = (run arguments file input).exitCode := by
  refine ⟨⟨exists_answered i input, fun _ => Invocation.output_run_json command loads json⟩, ?_⟩
  intro arguments' file' i' d' input' command' loads' json' same heard
  constructor
  · obtain ⟨words, answered⟩ := exists_answered i input
    rw [Invocation.output_run_json command loads json answered]
    apply Invocation.output_run_json command' loads' json'
    exact Invocation.answered_congr same heard answered
  · rw [Invocation.run_of_loads command loads, Invocation.run_of_loads command' loads']
    exact Invocation.exitCode_congr same heard ..

/-- The flag over the defaults, and a configuration of its own with other settings. -/
theorem json_runs_ignore_text_settings_zz :
    (run ["-c", "settings", "0", "zz"]
        (fun _ => .ok "[[], [\"Json\", false, false], [\"> \"]]".toUTF8) []).output =
      (run ["--json", "--no-bits", "0", "zz"] (fun _ => .error .missing) []).output ∧
    (run ["-c", "settings", "0", "zz"]
        (fun _ => .ok "[[], [\"Json\", false, false], [\"> \"]]".toUTF8) []).exitCode =
      (run ["--json", "--no-bits", "0", "zz"] (fun _ => .error .missing) []).exitCode :=
  have command : Command.ofArguments ["--json", "--no-bits", "0", "zz"] =
      .ok (.decode ⟨["0", "zz"], [.noBits, .json], none⟩) := by decide +kernel
  have command' : Command.ofArguments ["-c", "settings", "0", "zz"] =
      .ok (.decode ⟨["0", "zz"], [], some "settings"⟩) := by decide +kernel
  have loads : Invocation.Loads ⟨["0", "zz"], [.noBits, .json], none⟩ (fun _ => .error .missing)
      {} := rfl
  have loads' : Invocation.Loads ⟨["0", "zz"], [], some "settings"⟩
      (fun _ => .ok "[[], [\"Json\", false, false], [\"> \"]]".toUTF8)
      ⟨{}, ⟨.json, false, false⟩, ⟨"> "⟩⟩ := by
    show Config.ofFile _ = .ok _
    decide +kernel
  (json_runs_ignore_text_settings command loads (.inl (by decide)) []).2 _ _ _ _ []
    command' loads' (.inr rfl) rfl fun _ => rfl

end Mips32
