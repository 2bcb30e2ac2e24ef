import Mips32.Proofs.Records

/-! What a batch writes. The transcript of a batch is put together from those of its words, one
after the other (`batch_append`), so no word has a part in what is written for another, and a batch
succeeds when each of its words can be read and decoded (`succeeded_batch_iff`). -/
namespace Mips32

/-- The text is a literal, and its word decodes. -/
def Decodes (word : String) : Prop := ∃ w i, Word.ofLiteral word = .ok w ∧ decode w = .ok i

/-! ### Logs -/

theorem logText_append (limit : Level) (xs ys : List Event) :
    logText limit (xs ++ ys) = logText limit xs ++ logText limit ys := by
  rw [logText, List.filter_append, List.map_append, String.join_append]
  rfl

namespace Transcript

/-! ### One word -/

@[simp] theorem succeeded_answer_iff (c : ReportConfig) (word : String) :
    (answer c word).succeeded = true ↔ Decodes word := by
  rw [answer]
  cases read : Word.ofLiteral word with
  | error e => simp [Decodes, read, refusal]
  | ok w =>
    dsimp only
    rw [ofWord]
    cases decoded : decode w with
    | error e => simp [Decodes, read, decoded, refusal, noted]
    | ok i => simp [Decodes, read, decoded]

/-! ### Batches -/

/-- **Batches are answered one after the other.** -/
theorem batch_append (c : ReportConfig) (xs ys : List String) :
    batch c (xs ++ ys) = batch c xs ++ batch c ys := by
  induction xs with
  | nil => simp
  | cons w ws ih => simp [ih, append_assoc]

/-- What is put together from parts for a transcript is so for a batch, from its words. -/
theorem join_batch {f : Transcript → String} (f_empty : f empty = "")
    (f_append : ∀ a b, f (a ++ b) = f a ++ f b) (c : ReportConfig) (words : List String) :
    f (batch c words) = String.join (words.map fun w => f (batch c [w])) := by
  induction words with
  | nil => exact f_empty
  | cons w ws ih =>
    rw [← List.singleton_append, batch_append, f_append, ih, List.singleton_append, List.map_cons,
      String.join_cons]

theorem events_batch (c : ReportConfig) (words : List String) :
    (batch c words).events = words.flatMap fun w => (answer c w).events := by
  induction words with
  | nil => rfl
  | cons w ws ih => simp [ih]

/-- **A batch succeeds when all its words do**, wherever a word that fails may stand. -/
@[simp] theorem succeeded_batch_iff (c : ReportConfig) (words : List String) :
    (batch c words).succeeded = true ↔ ∀ w ∈ words, Decodes w := by
  induction words with
  | nil => simp [empty]
  | cons w ws ih => simp [ih]

end Transcript

/-! ### Runs -/

@[simp] theorem Outcome.exitCode_answered_eq_zero_iff (limit : Level) (t : Transcript) :
    (answered limit t).exitCode = 0 ↔ t.succeeded = true := by
  rw [exitCode]
  cases t.succeeded <;> decide

@[simp] theorem Outcome.exitCode_answered_eq_one_iff (limit : Level) (t : Transcript) :
    (answered limit t).exitCode = 1 ↔ ¬ t.succeeded = true := by
  rw [exitCode]
  cases t.succeeded <;> decide

theorem Invocation.transcript_of_batch {i : Invocation} (c : Config) (input : List UInt8)
    (some_word : i.words ≠ []) : i.transcript c input = .batch c.report i.words := by
  rw [transcript, if_neg (by simpa using some_word)]

/-- The program is started with words, and is configured by `c`. -/
def Batch (arguments : List String) (file : String → FileContents) (words : List String)
    (c : Config) : Prop :=
  ∃ i, Command.ofArguments arguments = .ok (.decode i) ∧ i.words = words ∧ words ≠ [] ∧
    i.config file = .ok c

theorem run_of_batch {arguments : List String} {file : String → FileContents}
    {words : List String} {c : Config} (h : Batch arguments file words c) (input : List UInt8) :
    run arguments file input = .answered c.logLimit (.batch c.report words) := by
  obtain ⟨i, command, rfl, some_word, configured⟩ := h
  rw [run, command]
  simp only [configured, i.transcript_of_batch c input some_word]

/-- **The words of a batch are independent.** What is written and logged for appended lists is
appended, so a batch is its words run alone, and a word that fails has its record between those of
the others. A batch exits with 0 when all its words decode, and with 1 otherwise. -/
theorem batch_words_independent (c : Config) :
    (∀ xs ys,
      (Transcript.batch c.report (xs ++ ys)).output =
          (Transcript.batch c.report xs).output ++ (Transcript.batch c.report ys).output ∧
        logText c.logLimit (Transcript.batch c.report (xs ++ ys)).events =
          logText c.logLimit (Transcript.batch c.report xs).events ++
            logText c.logLimit (Transcript.batch c.report ys).events ∧
        ((Transcript.batch c.report (xs ++ ys)).succeeded = true ↔
          (Transcript.batch c.report xs).succeeded = true ∧
            (Transcript.batch c.report ys).succeeded = true)) ∧
      (∀ words,
        (Transcript.batch c.report words).output =
            String.join (words.map fun w => (Transcript.batch c.report [w]).output) ∧
          logText c.logLimit (Transcript.batch c.report words).events =
            String.join (words.map fun w =>
              logText c.logLimit (Transcript.batch c.report [w]).events)) ∧
      (∀ xs w ys e, Word.ofLiteral w >>= decode = .error e →
        (Transcript.batch c.report (xs ++ w :: ys)).output =
          (Transcript.batch c.report xs).output ++ Report.failureText c.report w e ++
            (Transcript.batch c.report ys).output) ∧
      ∀ arguments file words input, Batch arguments file words c →
        (run arguments file input).output = (Transcript.batch c.report words).output ∧
          (run arguments file input).diagnostics =
            logText c.logLimit (Transcript.batch c.report words).events ∧
          ((run arguments file input).exitCode = 0 ↔ ∀ w ∈ words, Decodes w) ∧
          ((run arguments file input).exitCode = 1 ↔ ¬ ∀ w ∈ words, Decodes w) := by
  refine ⟨?_, ?_, ?_, ?_⟩
  · intro xs ys
    simp [Transcript.batch_append, logText_append]
  · intro words
    exact ⟨Transcript.join_batch rfl Transcript.output_append _ _,
      Transcript.join_batch (f := fun t => logText c.logLimit t.events) rfl
        (fun _ _ => logText_append ..) _ _⟩
  · intro xs w ys e failed
    simp [Transcript.batch_append, output_answer, failed, String.append_assoc]
  · intro arguments file words input started
    rw [run_of_batch started, Outcome.exitCode_answered_eq_zero_iff,
      Outcome.exitCode_answered_eq_one_iff, Transcript.succeeded_batch_iff]
    exact ⟨rfl, rfl, Iff.rfl, Iff.rfl⟩

/-- A word that cannot be read stands before one that decodes. -/
theorem batch_words_independent_zz :
    Word.ofLiteral "zz" >>= decode = .error (.malformedWord "zz") ∧
      (Transcript.batch {} ([] ++ "zz" :: ["0"])).output =
        (Transcript.batch {} []).output ++
          Report.failureText {} "zz" (.malformedWord "zz") ++ (Transcript.batch {} ["0"]).output ∧
      Report.failureText {} "zz" (.malformedWord "zz") =
        "error: zz: malformed instruction word `zz`\n" ∧
      Batch ["zz", "0"] (fun _ => .error .missing) ["zz", "0"] {} ∧
      (run ["zz", "0"] (fun _ => .error .missing) []).exitCode = 1 ∧
      ¬ ∀ w ∈ ["zz", "0"], Decodes w :=
  have failed : Word.ofLiteral "zz" >>= decode = .error (.malformedWord "zz") := rfl
  have started : Batch ["zz", "0"] (fun _ => .error .missing) ["zz", "0"] {} :=
    ⟨⟨["zz", "0"], [], none⟩, by decide +kernel, rfl, by simp, rfl⟩
  have code : (run ["zz", "0"] (fun _ => .error .missing) []).exitCode = 1 := by decide +kernel
  ⟨failed, (batch_words_independent {}).2.2.1 [] "zz" ["0"] _ failed, by decide +kernel, started,
    code, ((batch_words_independent {}).2.2.2 _ _ _ [] started).2.2.2.mp code⟩

end Mips32
