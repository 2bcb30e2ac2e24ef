import Mips32.Proofs.Batches

/-! A run by the words it answers. The words and the reason why a session ends are settled by the
input alone (`Heard.unique`); with the words given, the output of a run is their records with what
frames them (`output_transcript`), its events are those of the words with one more for a bad line
(`events_transcript`), and what it comes to is settled by the words of the command line and the bad
line (`succeeded_transcript_iff`). -/
namespace Mips32

namespace Session

/-- A session hears one list of words, and ends for one reason. -/
theorem Heard.unique {ls : List (List UInt8)} {words words' : List String} {e e' : Ending}
    (h : Heard ls words e) (h' : Heard ls words' e') : words = words' ∧ e = e' := by
  have decoded {line : List UInt8} {a b : String} (ha : Encodes line a) (hb : Encodes line b) :
      a = b := by
    have found := fromUTF8?_eq_some_iff.mpr ha
    rw [fromUTF8?_eq_some_iff.mpr hb] at found
    exact (Option.some.inj found).symm
  have trimmed {s t u : List Char} (ht : Text.Trimmed s t) (hu : Text.Trimmed s u) : t = u := by
    rw [← Text.trim_eq_iff.mpr ht, Text.trim_eq_iff.mpr hu]
  induction h generalizing words' e' with
  | endOfInput =>
    cases h'
    exact ⟨rfl, rfl⟩
  | blankLine text encoded blank =>
    cases h' with
    | blankLine => exact ⟨rfl, rfl⟩
    | badLine bad => exact absurd encoded (bad text)
    | word text' encoded' kept some_char =>
      obtain rfl := decoded encoded encoded'
      exact absurd (String.toList_eq_nil_iff.mp (trimmed kept blank)) some_char
  | badLine bad =>
    cases h' with
    | blankLine text' encoded' => exact absurd encoded' (bad text')
    | badLine => exact ⟨rfl, rfl⟩
    | word text' encoded' => exact absurd encoded' (bad text')
  | word text encoded kept some_char _ ih =>
    cases h' with
    | blankLine text' encoded' blank =>
      obtain rfl := decoded encoded encoded'
      exact absurd (String.toList_eq_nil_iff.mp (trimmed kept blank)) some_char
    | badLine bad => exact absurd encoded (bad text)
    | word text' encoded' kept' _ rest =>
      obtain rfl := decoded encoded encoded'
      obtain ⟨rfl, rfl⟩ := ih rest
      rw [String.toList_inj.mp (trimmed kept kept')]
      exact ⟨rfl, rfl⟩

end Session

namespace Invocation

/-! ### Configurations -/

/-- The configuration that the command line names, without its flags: the defaults if it names no
file. -/
def Loads (i : Invocation) (file : String → FileContents) (d : Config) : Prop :=
  match i.configPath with
  | none => d = {}
  | some path => Config.ofFile (file path) = .ok d

theorem config_of_loads {i : Invocation} {file : String → FileContents} {d : Config}
    (h : i.Loads file d) : i.config file = .ok (i.settings d) := by
  unfold Loads at h
  unfold config
  cases named : i.configPath with
  | none =>
    simp only [named] at h ⊢
    rw [h]
  | some path =>
    simp only [named] at h ⊢
    rw [h]
    rfl

theorem run_of_loads {arguments : List String} {file : String → FileContents} {i : Invocation}
    {d : Config} (command : Command.ofArguments arguments = .ok (.decode i)) (h : i.Loads file d)
    (input : List UInt8) :
    run arguments file input =
      .answered (i.settings d).logLimit (i.transcript (i.settings d) input) := by
  rw [run, command]
  simp only [config_of_loads h]

/-! ### The words of a run -/

/-- The session of the run ends at a line that is not UTF-8. -/
def Faults (i : Invocation) (input : List UInt8) : Prop :=
  i.words = [] ∧ ∃ ls words, Session.Lines input ls ∧ Session.Heard ls words .badLine

theorem faults_iff {i : Invocation} {input : List UInt8} {ls : List (List UInt8)}
    {words : List String} {ending : Session.Ending} (no_words : i.words = [])
    (cut : Session.Lines input ls) (heard : Session.Heard ls words ending) :
    i.Faults input ↔ ending = .badLine := by
  constructor
  · rintro ⟨_, ls', words', cut', heard'⟩
    obtain rfl : ls = ls' := by
      rw [← Session.lines_eq_iff.mpr cut, Session.lines_eq_iff.mpr cut']
    exact (heard.unique heard').2
  · rintro rfl
    exact ⟨no_words, ls, words, cut, heard⟩

/-- Runs with the same words, or without words and with the same input, answer alike. -/
theorem answered_congr {i i' : Invocation} {input input' : List UInt8} (same : i'.words = i.words)
    (heard : i.words = [] → input' = input) {words : List String} (h : Answered i input words) :
    Answered i' input' words := by
  cases h with
  | batch some_word =>
    rw [← same] at some_word ⊢
    exact .batch some_word
  | session no_words cut said =>
    rw [← heard no_words] at cut
    exact .session (same.trans no_words) cut said

theorem faults_congr {i i' : Invocation} {input input' : List UInt8} (same : i'.words = i.words)
    (heard : i.words = [] → input' = input) : i'.Faults input' ↔ i.Faults input := by
  rw [Faults, Faults, same]
  constructor
  · rintro ⟨no_words, rest⟩
    exact ⟨no_words, heard no_words ▸ rest⟩
  · rintro ⟨no_words, rest⟩
    exact ⟨no_words, (heard no_words).symm ▸ rest⟩

/-! ### The transcript of a run -/

/-- The records of a run with what stands around them: nothing in a batch, the banner and the
prompts in a session. -/
def frame (i : Invocation) (c : Config) (records : List String) : String :=
  if i.words = [] then
    Session.banner c ++ String.join (records.map (Session.prompt c ++ ·)) ++ Session.prompt c
  else String.join records

theorem transcript_of_session {i : Invocation} (c : Config) (input : List UInt8)
    (no_words : i.words = []) : i.transcript c input = Session.transcript c input := by
  rw [transcript, if_pos (by simpa using no_words)]

theorem output_transcript {i : Invocation} {input : List UInt8} {words : List String} (c : Config)
    (h : Answered i input words) :
    (i.transcript c input).output =
      i.frame c (words.map fun w => (Transcript.answer c.report w).output) := by
  cases h with
  | batch some_word =>
    rw [transcript_of_batch c input some_word, frame, if_neg some_word,
      Transcript.join_batch rfl Transcript.output_append]
    simp
  | session no_words cut heard =>
    rw [transcript_of_session c input no_words, Session.transcript_eq_heard c cut heard, frame,
      if_pos no_words, Session.spoken_eq_prompted, Session.prompted, List.map_map,
      String.append_assoc]
    simp
    rfl

open Classical in
theorem events_transcript {i : Invocation} {input : List UInt8} {words : List String} (c : Config)
    (h : Answered i input words) :
    (i.transcript c input).events =
      (words.flatMap fun w => (Transcript.answer c.report w).events) ++
        if i.Faults input then [.inputFault] else [] := by
  cases h with
  | batch some_word =>
    rw [transcript_of_batch c input some_word, Transcript.events_batch,
      if_neg fun faults => some_word faults.1, List.append_nil]
  | @session ls words ending no_words cut heard =>
    rw [transcript_of_session c input no_words, Session.transcript_eq_heard c cut heard,
      Transcript.events_batch]
    simp only [faults_iff no_words cut heard]
    cases ending <;> rfl

/-- **What makes a run fail**: a word of the command line that does not decode, or a line of the
input that is not UTF-8. -/
theorem succeeded_transcript_iff (i : Invocation) (c : Config) (input : List UInt8) :
    (i.transcript c input).succeeded = true ↔
      (∀ w ∈ i.words, Decodes w) ∧ ¬ i.Faults input := by
  by_cases no_words : i.words = []
  · obtain ⟨words, ending, heard⟩ := Session.exists_heard (Session.lines input)
    have cut := Session.lines_eq_iff.mp (rfl : Session.lines input = _)
    rw [transcript_of_session c input no_words, Session.transcript_eq_heard c cut heard,
      faults_iff no_words cut heard, no_words]
    simp
  · rw [transcript_of_batch c input no_words, Transcript.succeeded_batch_iff]
    exact ⟨fun decode => ⟨decode, fun faults => no_words faults.1⟩, And.left⟩

/-- Runs over the same words exit alike, whatever their configurations. -/
theorem exitCode_congr {i i' : Invocation} {input input' : List UInt8} (same : i'.words = i.words)
    (heard : i.words = [] → input' = input) (l l' : Level) (c c' : Config) :
    (Outcome.answered l' (i'.transcript c' input')).exitCode =
      (Outcome.answered l (i.transcript c input)).exitCode := by
  have alike : (i'.transcript c' input').succeeded = (i.transcript c input).succeeded := by
    rw [Bool.eq_iff_iff, succeeded_transcript_iff, succeeded_transcript_iff, same,
      faults_congr same heard]
  rw [Outcome.exitCode, Outcome.exitCode, alike]

end Invocation

end Mips32
