import Mips32.Proofs.Quoting
import Mips32.Proofs.Runs

/-! The log of a run. Each word has its events, next to its record (`Replied`), and the log is the
lines of these events in order (`Event.Shown`), with one more when the input ends at a bad line. The
line of a warning is read back as the input and the error of the record (`Warns.unique`). Tracing
adds the events of decoding and nothing else: reports, exit code, warnings and errors stay as they
are (`alikeButTracing_run`), also when the flag is put before a command line (`readFrom_traced`). -/
namespace Mips32

open Json (TextOf)

/-! ### Lines of the log -/

/-- The line warns of an input, which is quoted, and tells the error. -/
def Warns (line input err : String) : Prop :=
  ∃ quoted, Text.Quotes input quoted ∧
    line = " WARN decode failed input=" ++ quoted ++ " err=" ++ err ++ "\n"

/-- **A warning is read in one way.** -/
theorem Warns.unique {line input input' err err' : String} (h : Warns line input err)
    (h' : Warns line input' err') : input = input' ∧ err = err' := by
  obtain ⟨quoted, quotes, rfl⟩ := h
  obtain ⟨quoted', quotes', same⟩ := h'
  simp only [String.append_assoc] at same
  obtain ⟨inputs, rest⟩ := quotes.append_inj quotes' (String.append_right_inj _ |>.mp same)
  have errs := String.append_left_inj _ |>.mp (String.append_right_inj _ |>.mp rest)
  exact ⟨inputs, errs⟩

/-- What the line of an event tells. A warning tells the input and the error, and no others. -/
inductive Event.Shown : Event → String → Prop
  | decoded (i : Instruction) :
      Shown (.decoded i) ("TRACE decoded raw=" ++ Nat.repr i.word.toNat ++ " format=" ++
        i.fields.format.letter ++ " mnemonic=" ++ i.mnemonic ++ "\n")
  | undecodable (w : Word) (e : DecodeError) :
      Shown (.undecodable w e) ("DEBUG decode failed raw=" ++ Nat.repr w.toNat ++ " format=" ++
        w.format.letter ++ " err=" ++ e.message ++ "\n")
  | rejected {input line : String} {e : DecodeError} :
      (∀ input' err, Warns line input' err ↔ input' = input ∧ err = e.message) →
      Shown (.rejected input e) line
  | inputFault :
      Shown .inputFault "ERROR failed to write report err=stream did not contain valid UTF-8\n"

/-- Every event is shown by its line. -/
theorem Event.shown_line (e : Event) : e.Shown e.line := by
  cases e with
  | decoded i =>
    convert Shown.decoded i using 1
    simp [← String.toList_inj, line, level, Level.label, message, values, String.join_cons]
  | undecodable w e =>
    convert Shown.undecodable w e using 1
    simp [← String.toList_inj, line, level, Level.label, message, values, String.join_cons]
  | rejected input e =>
    have warns : Warns (Event.rejected input e).line input e.message := by
      refine ⟨_, Text.quotes_quoted input, ?_⟩
      simp [← String.toList_inj, line, level, Level.label, message, values, String.join_cons]
    refine .rejected fun input' err => ⟨fun h => h.unique warns, ?_⟩
    rintro ⟨rfl, rfl⟩
    exact warns
  | inputFault =>
    convert Shown.inputFault using 1
    decide +kernel

/-- Warnings and errors. -/
def Event.IsSerious (e : Event) : Prop := e.level = .warn ∨ e.level = .error

instance (e : Event) : Decidable e.IsSerious := by unfold Event.IsSerious; infer_instance

/-! ### Records and events -/

/-- The record tells that an input was refused, and why. -/
def Refuses (c : ReportConfig) (record input err : String) : Prop :=
  match c.style with
  | .text => record = "error: " ++ input ++ ": " ++ err ++ "\n"
  | .json => ∃ members, TextOf (.object members) record.toList ∧ Refusal members input err

theorem refuses_failureText (c : ReportConfig) (input : String) (e : DecodeError) :
    Refuses c (Report.failureText c input e) input e.message := by
  rw [Refuses, Report.failureText]
  cases c.style with
  | text => rfl
  | json =>
    have blank : Json.Blank ['\n'] := by simp [Json.Blank]
    have reading := Json.textOf_compact (Report.plain_failureToJson input e)
    refine ⟨_, ?_, refusal_failureToJson rfl⟩
    rw [String.toList_append]
    exact reading.append_blank blank

/-- The record of a word with its events in the log. A word that decodes has an event only when
decoding is traced; any other has a warning with the input and the error of its record. -/
inductive Replied (c : ReportConfig) (tracing : Bool) (word : String) : String × List Event → Prop
  | decoded {w : Word} {i : Instruction} : Word.ofLiteral word = .ok w → decode w = .ok i →
      i.word = w →
      Replied c tracing word (Report.text c i i.signals, if tracing then [.decoded i] else [])
  | undecodable {w : Word} {e : DecodeError} : Word.ofLiteral word = .ok w → decode w = .error e →
      Refuses c (Report.failureText c word e) word e.message →
      Replied c tracing word (Report.failureText c word e,
        (if tracing then [.undecodable w e] else []) ++ [.rejected word e])
  | unreadable {e : DecodeError} : Word.ofLiteral word = .error e →
      Refuses c (Report.failureText c word e) word e.message →
      Replied c tracing word (Report.failureText c word e, [.rejected word e])

/-! ### What is logged -/

/-- The events that are logged up to a level. -/
def logged (limit : Level) (events : List Event) : List Event := events.filter (·.enabled limit)

@[simp] theorem logged_append (limit : Level) (xs ys : List Event) :
    logged limit (xs ++ ys) = logged limit xs ++ logged limit ys := List.filter_append ..

theorem logged_flatMap {α : Type} (limit : Level) (f : α → List Event) (l : List α) :
    logged limit (l.flatMap f) = l.flatMap fun a => logged limit (f a) := by
  induction l with
  | nil => rfl
  | cons a l ih => simp [ih]

/-- The log shows the events that are logged, in order. -/
theorem shown_logText (limit : Level) (events : List Event) :
    ∃ lines, List.Forall₂ Event.Shown (logged limit events) lines ∧
      logText limit events = String.join lines := by
  refine ⟨(logged limit events).map Event.line, ?_, rfl⟩
  rw [List.forall₂_map_right_iff, List.forall₂_same]
  exact fun e _ => e.shown_line

/-- Warnings and errors are logged at every limit that a run can have. -/
theorem serious_logged {limit : Level} (h : Level.warn.detail ≤ limit.detail)
    (events : List Event) :
    (logged limit events).filter (·.IsSerious) = events.filter (·.IsSerious) := by
  have enabled (e : Event) (serious : e.IsSerious) : e.enabled limit = true := by
    cases e with
    | decoded | undecodable => rcases serious with h | h <;> cases h
    | rejected => exact decide_eq_true h
    | inputFault => exact decide_eq_true (Nat.zero_le _)
  rw [logged, List.filter_filter]
  apply List.filter_congr
  intro e _
  by_cases serious : e.IsSerious
  · simp [serious, enabled e serious]
  · simp [serious]

/-- The events that a run logs. -/
def Outcome.logged : Outcome → List Event
  | answered limit t => Mips32.logged limit t.events
  | help _ | version | misused _ | misconfigured _ => []

/-- **A word has its record and its events**, with tracing on or off. -/
theorem replied_answer (c : ReportConfig) (tracing : Bool) (word : String) :
    Replied c tracing word ((Transcript.answer c word).output,
      logged (if tracing then .trace else .warn) (Transcript.answer c word).events) := by
  have refuses (e : DecodeError) := refuses_failureText c word e
  rw [Transcript.answer]
  cases read : Word.ofLiteral word with
  | error e =>
    have replied : Replied c tracing word _ := .unreadable read (refuses e)
    cases tracing <;> exact replied
  | ok w =>
    simp only [Transcript.ofWord]
    cases result : decode w with
    | error e =>
      have replied : Replied c tracing word _ := .undecodable read result (refuses e)
      simp only [Transcript.output_append, Transcript.noted, String.empty_append]
      cases tracing <;> exact replied
    | ok i =>
      have replied : Replied c tracing word _ :=
        .decoded read result (decode_eq_ok_iff.mp result).word
      cases tracing <;> exact replied

/-! ### Tracing -/

namespace Invocation

/-- The flag or the configuration asks for tracing. -/
def AsksForTracing (i : Invocation) (d : Config) : Prop :=
  .trace ∈ i.flags ∨ d.general.traceDecodes = true

instance (i : Invocation) (d : Config) : Decidable (i.AsksForTracing d) := by
  unfold AsksForTracing; infer_instance

theorem logLimit_settings (i : Invocation) (d : Config) :
    (i.settings d).logLimit = if i.AsksForTracing d then .trace else .warn := by
  show (if (d.general.traceDecodes || i.flags.contains .trace) = true then Level.trace
    else .warn) = _
  simp only [AsksForTracing, Bool.or_eq_true, List.contains_iff_mem, or_comm]

/-- The two ask for the same words, and differ at most in tracing. -/
structure SameBesidesTracing (i i' : Invocation) : Prop where
  words : i'.words = i.words
  flags : ∀ f, f ≠ .trace → (f ∈ i'.flags ↔ f ∈ i.flags)

theorem SameBesidesTracing.settings {i i' : Invocation} (h : i.SameBesidesTracing i')
    {d d' : Config} (report : d'.report = d.report) (prompt : d'.prompt = d.prompt) :
    (i'.settings d').report = (i.settings d).report ∧
      (i'.settings d').prompt = (i.settings d).prompt := by
  have json := h.flags .json (by decide)
  have noBits : i'.flags.contains .noBits = i.flags.contains .noBits := by
    rw [Bool.eq_iff_iff, List.contains_iff_mem, List.contains_iff_mem]
    exact h.flags .noBits (by decide)
  refine ⟨?_, prompt⟩
  simp only [Invocation.settings, json, noBits, report]

/-- The invocation with the flag for tracing. -/
def traced (i : Invocation) : Invocation := { i with flags := i.flags ++ [.trace] }

theorem sameBesidesTracing_traced (i : Invocation) : i.SameBesidesTracing i.traced where
  words := rfl
  flags f other := by simp [traced, other]

theorem setFlag_eq_ok_iff {i j : Invocation} {f : Flag} :
    i.setFlag f = .ok j ↔ f ∉ i.flags ∧ { i with flags := f :: i.flags } = j := by
  rw [setFlag]
  split
  case isTrue given => simp [given]
  case isFalse fresh => simp [fresh]

theorem setConfig_traced {i j : Invocation} {path : String} (h : i.setConfig path = .ok j) :
    j.flags = i.flags ∧ i.traced.setConfig path = .ok j.traced := by
  unfold setConfig at h ⊢
  split at h
  case isTrue => cases h
  case isFalse named =>
    split at h
    case isTrue => cases h
    case isFalse first =>
      cases h
      exact ⟨rfl, (if_neg named).trans (if_neg first)⟩

theorem readFrom_cons (i : Invocation) (argument : String) (rest : List String) :
    i.readFrom (argument :: rest) =
      match Argument.ofString argument with
      | .word => readFrom { i with words := i.words ++ [argument] } rest
      | .flag f => i.setFlag f >>= (·.readFrom rest)
      | .config (some path) => i.setConfig path >>= (·.readFrom rest)
      | .config none =>
        match rest with
        | [] => .error .missingValue
        | path :: rest =>
          if Argument.ofString path = .word then i.setConfig path >>= (·.readFrom rest)
          else .error .missingValue
      | .help long => .ok (.help long)
      | .version => .ok .version
      | .endOfOptions => .ok (.decode { i with words := i.words ++ rest })
      | .refused e => .error e :=
  readFrom.eq_def i (argument :: rest)

/-- **The flag for tracing changes nothing else** in what a command line asks for. A flag that was
given stays, so a command line that asks for no tracing does not come across the flag. -/
theorem readFrom_traced {i j : Invocation} {arguments : List String}
    (h : i.readFrom arguments = .ok (.decode j)) :
    i.flags ⊆ j.flags ∧
      (.trace ∉ j.flags → i.traced.readFrom arguments = .ok (.decode j.traced)) := by
  induction i, arguments using readFrom.induct with
  | case1 i =>
    cases h
    exact ⟨List.Subset.refl _, fun _ => rfl⟩
  | case2 i argument rest kind ih =>
    rw [readFrom_cons, kind] at h ⊢
    exact ih h
  | case3 i argument rest f kind ih =>
    rw [readFrom_cons, kind] at h ⊢
    obtain ⟨k, set, read⟩ := bind_eq_ok_iff.mp h
    obtain ⟨fresh, rfl⟩ := setFlag_eq_ok_iff.mp set
    obtain ⟨stay, traced⟩ := ih _ read
    refine ⟨List.Subset.trans (List.subset_cons_self ..) stay, fun off => ?_⟩
    -- Were it the flag for tracing, it would stay among the flags of `j`.
    have other : f ≠ .trace := by
      rintro rfl
      exact off (stay (List.mem_cons_self ..))
    refine bind_eq_ok_iff.mpr ⟨_, setFlag_eq_ok_iff.mpr ⟨?_, rfl⟩, traced off⟩
    simp [Invocation.traced, fresh, other]
  | case4 i argument rest path kind ih =>
    rw [readFrom_cons, kind] at h ⊢
    obtain ⟨k, set, read⟩ := bind_eq_ok_iff.mp h
    obtain ⟨same, set'⟩ := setConfig_traced set
    obtain ⟨stay, traced⟩ := ih _ read
    exact ⟨same ▸ stay, fun off => bind_eq_ok_iff.mpr ⟨_, set', traced off⟩⟩
  | case6 i argument kind path rest word ih =>
    simp only [readFrom_cons, kind, word, if_pos] at h ⊢
    obtain ⟨k, set, read⟩ := bind_eq_ok_iff.mp h
    obtain ⟨same, set'⟩ := setConfig_traced set
    obtain ⟨stay, traced⟩ := ih _ read
    exact ⟨same ▸ stay, fun off => bind_eq_ok_iff.mpr ⟨_, set', traced off⟩⟩
  | case10 i argument rest kind =>
    rw [readFrom_cons, kind] at h ⊢
    cases h
    exact ⟨List.Subset.refl _, fun _ => rfl⟩
  -- In the other cases nothing is to be decoded.
  | case5 | case7 | case8 | case9 | case11 => simp_all [readFrom_cons]

theorem ofArguments_trace {i : Invocation} {arguments : List String}
    (h : Command.ofArguments arguments = .ok (.decode i)) (off : .trace ∉ i.flags) :
    Command.ofArguments ("--trace" :: arguments) = .ok (.decode i.traced) := by
  have kind : Argument.ofString "--trace" = .flag .trace := by decide +kernel
  have set : setFlag {} .trace = .ok (traced {}) := rfl
  rw [Command.ofArguments, readFrom_cons, kind]
  exact bind_eq_ok_iff.mpr ⟨_, set, (readFrom_traced h).2 off⟩

end Invocation

/-! ### Runs -/

/-- The outcomes differ at most in what tracing logs. -/
structure AlikeButTracing (o o' : Outcome) : Prop where
  output : o'.output = o.output
  exitCode : o'.exitCode = o.exitCode
  serious : o'.logged.filter (·.IsSerious) = o.logged.filter (·.IsSerious)

open Invocation in
/-- **Tracing leaves all else as it is.** -/
theorem alikeButTracing_run {arguments arguments' : List String}
    {file file' : String → FileContents} {i i' : Invocation} {d d' : Config}
    (command : Command.ofArguments arguments = .ok (.decode i)) (loads : i.Loads file d)
    (command' : Command.ofArguments arguments' = .ok (.decode i')) (loads' : i'.Loads file' d')
    (same : i.SameBesidesTracing i') (report : d'.report = d.report) (prompt : d'.prompt = d.prompt)
    (input : List UInt8) :
    AlikeButTracing (run arguments file input) (run arguments' file' input) := by
  obtain ⟨words, answered⟩ := exists_answered i input
  have answered' := answered_congr same.words (fun _ => rfl) answered
  have faults : i'.Faults input ↔ i.Faults input := faults_congr same.words fun _ => rfl
  obtain ⟨report, prompt⟩ := same.settings report prompt
  rw [run_of_loads command loads, run_of_loads command' loads']
  have enough (i : Invocation) (d : Config) :
      Level.warn.detail ≤ (i.settings d).logLimit.detail := by
    rw [logLimit_settings]
    split <;> decide
  refine ⟨?_, exitCode_congr same.words (fun _ => rfl) .., ?_⟩
  · show (i'.transcript _ input).output = (i.transcript _ input).output
    rw [output_transcript _ answered, output_transcript _ answered', frame, frame, same.words,
      Session.banner, Session.banner, Session.prompt, Session.prompt, report, prompt]
  · show (logged _ (i'.transcript _ input).events).filter _ =
      (logged _ (i.transcript _ input).events).filter _
    rw [serious_logged (enough i d), serious_logged (enough i' d'), events_transcript _ answered,
      events_transcript _ answered', report]
    by_cases bad : i.Faults input
    · rw [if_pos bad, if_pos (faults.mpr bad)]
    · rw [if_neg bad, if_neg (mt faults.mp bad)]

/-- Every word has its record and its events, in order. -/
theorem replied_words (c : ReportConfig) (tracing : Bool) (words : List String) :
    List.Forall₂ (Replied c tracing) words (words.map fun w => ((Transcript.answer c w).output,
      logged (if tracing then .trace else .warn) (Transcript.answer c w).events)) := by
  induction words with
  | nil => exact .nil
  | cons w ws ih => exact .cons (replied_answer c tracing w) ih

open Classical Invocation in
/-- **The log of a run is settled word by word, and tracing changes nothing else.** Next to the
record of each word stand its events, and a bad line of the input has the last one. The log shows them
line by line; the line of a warning is read back as the input and the error that the record tells.
Runs that differ in tracing, by the flag or by the configuration, differ in nothing but what tracing
logs. -/
theorem log_follows_words {arguments : List String} {file : String → FileContents} {i : Invocation}
    {d : Config} (command : Command.ofArguments arguments = .ok (.decode i))
    (loads : i.Loads file d) (input : List UInt8) :
    ((∃ words, Answered i input words) ∧
      ∀ words, Answered i input words →
        ∃ replies, List.Forall₂ (Replied (i.settings d).report (i.AsksForTracing d)) words replies ∧
          (run arguments file input).output = i.frame (i.settings d) (replies.map Prod.fst) ∧
          (run arguments file input).logged =
            replies.flatMap Prod.snd ++ (if i.Faults input then [.inputFault] else []) ∧
          ∃ lines, List.Forall₂ Event.Shown (run arguments file input).logged lines ∧
            (run arguments file input).diagnostics = String.join lines) ∧
    (∀ arguments' file' i' d', Command.ofArguments arguments' = .ok (.decode i') →
      i'.Loads file' d' → i.SameBesidesTracing i' → d'.report = d.report → d'.prompt = d.prompt →
        AlikeButTracing (run arguments file input) (run arguments' file' input)) ∧
    (.trace ∉ i.flags →
      AlikeButTracing (run arguments file input) (run ("--trace" :: arguments) file input)) := by
  refine ⟨⟨exists_answered i input, fun words answered => ?_⟩, ?_, ?_⟩
  · rw [run_of_loads command loads]
    refine ⟨_, replied_words _ _ words, ?_, ?_, shown_logText ..⟩
    · rw [List.map_map]
      exact output_transcript _ answered
    · rw [List.flatMap_map]
      show logged (i.settings d).logLimit (i.transcript _ input).events = _
      have last : logged (i.settings d).logLimit (if i.Faults input then [.inputFault] else []) =
          if i.Faults input then [.inputFault] else [] := by
        rw [logLimit_settings]
        split <;> split <;> rfl
      rw [events_transcript _ answered, logged_append, logged_flatMap, last, logLimit_settings]
      simp only [decide_eq_true_eq]
  · intro arguments' file' i' d' command' loads' same report prompt
    exact alikeButTracing_run command loads command' loads' same report prompt input
  · intro off
    exact alikeButTracing_run command loads (ofArguments_trace command off) loads
      i.sameBesidesTracing_traced rfl rfl input

/-- A word that decodes, one that does not, and one that cannot be read and has a quote inside: the
log of a run that is traced, and runs traced by a configuration and by the flag. -/
theorem log_follows_words_zz :
    (∃ replies lines,
      List.Forall₂ (Replied ⟨.text, true, true⟩ true) ["0", "0xfc000000", "z\"z"] replies ∧
      (run ["--trace", "0", "0xfc000000", "z\"z"] (fun _ => .error .missing) []).output =
        String.join (replies.map Prod.fst) ∧
      (run ["--trace", "0", "0xfc000000", "z\"z"] (fun _ => .error .missing) []).logged =
        replies.flatMap Prod.snd ++ [] ∧
      List.Forall₂ Event.Shown
        (run ["--trace", "0", "0xfc000000", "z\"z"] (fun _ => .error .missing) []).logged lines ∧
      (run ["--trace", "0", "0xfc000000", "z\"z"] (fun _ => .error .missing) []).diagnostics =
        String.join lines) ∧
    (run ["--trace", "0", "0xfc000000", "z\"z"] (fun _ => .error .missing) []).diagnostics =
      "TRACE decoded raw=0 format=R mnemonic=sll $zero, $zero, 0\n" ++
      "DEBUG decode failed raw=4227858432 format=I err=unknown operation: opcode 0b111111 is " ++
      "unassigned\n" ++
      " WARN decode failed input=\"0xfc000000\" err=unknown operation: opcode 0b111111 is " ++
      "unassigned\n" ++
      " WARN decode failed input=\"z\\\"z\" err=malformed instruction word `z\"z`\n" ∧
    AlikeButTracing (run ["0", "zz"] (fun _ => .error .missing) [])
      (run ["-c", "settings", "0", "zz"] (fun _ => .ok "[[true]]".toUTF8) []) ∧
    AlikeButTracing (run ["0", "zz"] (fun _ => .error .missing) [])
      (run ["--trace", "0", "zz"] (fun _ => .error .missing) []) := by
  have traced : Command.ofArguments ["--trace", "0", "0xfc000000", "z\"z"] =
      .ok (.decode ⟨["0", "0xfc000000", "z\"z"], [.trace], none⟩) := by decide +kernel
  have defaults : Invocation.Loads ⟨["0", "0xfc000000", "z\"z"], [.trace], none⟩
      (fun _ => .error .missing) {} := rfl
  have answered : Answered ⟨["0", "0xfc000000", "z\"z"], [.trace], none⟩ []
      ["0", "0xfc000000", "z\"z"] := .batch (by simp)
  have command : Command.ofArguments ["0", "zz"] = .ok (.decode ⟨["0", "zz"], [], none⟩) := by
    decide +kernel
  have command' : Command.ofArguments ["-c", "settings", "0", "zz"] =
      .ok (.decode ⟨["0", "zz"], [], some "settings"⟩) := by decide +kernel
  have loads : Invocation.Loads ⟨["0", "zz"], [], none⟩ (fun _ => .error .missing) {} := rfl
  have loads' : Invocation.Loads ⟨["0", "zz"], [], some "settings"⟩
      (fun _ => .ok "[[true]]".toUTF8) ⟨⟨true⟩, {}, {}⟩ := by
    show Config.ofFile _ = .ok _
    decide +kernel
  obtain ⟨replies, replied, output, events, lines, shown, log⟩ :=
    (log_follows_words traced defaults []).1.2 _ answered
  have no_fault : ¬ Invocation.Faults ⟨["0", "0xfc000000", "z\"z"], [.trace], none⟩ [] :=
    fun faults => absurd faults.1 (by simp)
  rw [if_neg no_fault] at events
  have tracing : Invocation.AsksForTracing ⟨["0", "0xfc000000", "z\"z"], [.trace], none⟩ {} :=
    .inl (by simp)
  simp only [tracing, decide_true] at replied
  exact ⟨⟨replies, lines, replied, output, events, shown, log⟩, by decide +kernel,
    (log_follows_words command loads []).2.1 _ _ _ _ command' loads' ⟨rfl, fun _ _ => Iff.rfl⟩
      rfl rfl,
    (log_follows_words command loads []).2.2 (by decide)⟩

end Mips32
