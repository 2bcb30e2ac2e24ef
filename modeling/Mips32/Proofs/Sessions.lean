import Mips32.Outcome
import Mips32.Proofs.Mnemonics
import Mips32.Proofs.Trimming

/-! What a session writes. The input is cut into lines (`Lines`), and the session hears a word in
each of them up to the one that ends it (`Heard`). It writes what a batch of the words heard does,
with a banner and prompts in text style (`transcript_eq_heard`), and nothing that follows the line
that ends it counts (`transcript_append`). -/
namespace Mips32

namespace Session

/-! ### Lines -/

/-- The bytes are the lines, each of which ends at its first line feed. The last line may lack it,
but not be empty. -/
inductive Lines : List UInt8 → List (List UInt8) → Prop
  | none : Lines [] []
  | unfinished {line : List UInt8} : line ≠ [] → lineFeed ∉ line → Lines line [line]
  | more (line : List UInt8) {rest : List UInt8} {ls : List (List UInt8)} : lineFeed ∉ line →
      Lines rest ls → Lines (line ++ lineFeed :: rest) ((line ++ [lineFeed]) :: ls)

theorem lines_of_not_mem {line : List UInt8} (some_byte : line ≠ []) (h : lineFeed ∉ line) :
    lines line = [line] := by
  induction line with
  | nil => contradiction
  | cons b line ih =>
    rw [List.mem_cons, not_or] at h
    rw [lines, if_neg (Ne.symm h.1)]
    cases line with
    | nil => rfl
    | cons a line => rw [ih (by simp) h.2]; rfl

theorem lines_append_lineFeed {line : List UInt8} (h : lineFeed ∉ line) (rest : List UInt8) :
    lines (line ++ lineFeed :: rest) = (line ++ [lineFeed]) :: lines rest := by
  induction line with
  | nil => rw [List.nil_append, lines, if_pos rfl]; rfl
  | cons b line ih =>
    rw [List.mem_cons, not_or] at h
    rw [List.cons_append, lines, if_neg (Ne.symm h.1), ih h.2]
    rfl

/-- Every input is cut into lines in one way, the one of `lines`. -/
theorem lines_eq_iff {bytes : List UInt8} {ls : List (List UInt8)} :
    lines bytes = ls ↔ Lines bytes ls := by
  constructor
  · rintro rfl
    induction bytes with
    | nil => exact .none
    | cons b bytes ih =>
      rw [lines]
      split
      case isTrue h =>
        rw [h]
        exact .more [] List.not_mem_nil ih
      case isFalse h =>
        generalize lines bytes = ls at ih ⊢
        cases ih with
        | none => exact .unfinished (by simp) (by simpa using Ne.symm h)
        | unfinished _ absent => exact .unfinished (by simp) (by simp [Ne.symm h, absent])
        | more line absent tail =>
          exact .more (b :: line) (by simp [Ne.symm h, absent]) tail
  · intro h
    induction h with
    | none => rfl
    | unfinished some_byte absent => exact lines_of_not_mem some_byte absent
    | more line absent _ ih => rw [lines_append_lineFeed absent, ih]

/-- A line that has ended does not change with what follows. -/
theorem lines_append {front : List UInt8} (ended : ∀ b ∈ front.getLast?, b = lineFeed)
    (back : List UInt8) : lines (front ++ back) = lines front ++ lines back := by
  have cut := lines_eq_iff.mp (rfl : lines front = _)
  generalize lines front = ls at cut ⊢
  induction cut with
  | none => rfl
  | @unfinished line some_byte absent =>
    obtain ⟨b, last⟩ := Option.ne_none_iff_exists'.mp (mt List.getLast?_eq_none_iff.mp some_byte)
    obtain rfl := ended b last
    exact absurd (List.mem_of_getLast? last) absent
  | more line absent _ ih =>
    rw [List.append_assoc, List.cons_append, lines_append_lineFeed absent, ih, List.cons_append]
    intro b last
    refine ended b ?_
    rw [List.getLast?_append, List.getLast?_cons, Option.mem_def.mp last]
    rfl

/-! ### Requests -/

/-- The line is UTF-8, of a text. -/
def Encodes (line : List UInt8) (text : String) : Prop := text.toUTF8 = ⟨line.toArray⟩

theorem fromUTF8?_eq_some_iff {bytes : ByteArray} {text : String} :
    String.fromUTF8? bytes = some text ↔ text.toUTF8 = bytes := by
  rw [String.fromUTF8?]
  constructor
  · intro h
    split at h
    · rw [← Option.some.inj h]
      rfl
    · cases h
  · rintro rfl
    rw [dif_pos (show text.toUTF8.IsValidUTF8 from text.isValidUTF8)]
    rfl

theorem Request.ofLine_word {line : List UInt8} {text word : String} (encoded : Encodes line text)
    (trimmed : Text.Trimmed text.toList word.toList) (some_char : word ≠ "") :
    ofLine line = .word word := by
  have found := fromUTF8?_eq_some_iff.mpr encoded
  obtain ⟨c, cs, chars⟩ := List.exists_cons_of_ne_nil (mt String.toList_eq_nil_iff.mp some_char)
  have kept : Text.trim text.toList = c :: cs := by rw [Text.trim_eq_iff.mpr trimmed, chars]
  simp only [ofLine, found, kept]
  rw [← chars, String.ofList_toList]

theorem Request.ofLine_blank {line : List UInt8} {text : String} (encoded : Encodes line text)
    (trimmed : Text.Trimmed text.toList []) : ofLine line = .quit := by
  have found := fromUTF8?_eq_some_iff.mpr encoded
  have kept := Text.trim_eq_iff.mpr trimmed
  simp only [ofLine, found, kept]

theorem Request.ofLine_fault {line : List UInt8} (h : ∀ text, ¬ Encodes line text) :
    ofLine line = .fault := by
  have none : String.fromUTF8? ⟨line.toArray⟩ = none := by
    rw [Option.eq_none_iff_forall_ne_some]
    exact fun text found => h text (fromUTF8?_eq_some_iff.mp found)
  rw [ofLine, none]

/-! ### What a session hears -/

/-- Why a session ends. -/
inductive Ending where
  | endOfInput | blankLine | badLine
  deriving DecidableEq, Repr

/-- The session hears the trimmed words of the lines up to the one that ends it: a line that is
blank, or one that is not UTF-8. -/
inductive Heard : List (List UInt8) → List String → Ending → Prop
  | endOfInput : Heard [] [] .endOfInput
  | blankLine (text : String) {line : List UInt8} {ls : List (List UInt8)} :
      Encodes line text → Text.Trimmed text.toList [] → Heard (line :: ls) [] .blankLine
  | badLine {line : List UInt8} {ls : List (List UInt8)} :
      (∀ text, ¬ Encodes line text) → Heard (line :: ls) [] .badLine
  | word (text : String) {word : String} {line : List UInt8} {ls : List (List UInt8)}
      {words : List String} {ending : Ending} : Encodes line text →
      Text.Trimmed text.toList word.toList → word ≠ "" → Heard ls words ending →
      Heard (line :: ls) (word :: words) ending

theorem exists_heard (ls : List (List UInt8)) : ∃ words ending, Heard ls words ending := by
  induction ls with
  | nil => exact ⟨[], .endOfInput, .endOfInput⟩
  | cons line ls ih =>
    by_cases encoded : ∃ text, Encodes line text
    · obtain ⟨text, encoded⟩ := encoded
      have trimmed := Text.trimmed_trim text.toList
      by_cases blank : Text.trim text.toList = []
      · rw [blank] at trimmed
        exact ⟨[], .blankLine, .blankLine text encoded trimmed⟩
      · obtain ⟨words, ending, heard⟩ := ih
        rw [← String.toList_ofList (l := Text.trim text.toList)] at trimmed blank
        have some_char := mt String.toList_eq_nil_iff.mpr blank
        exact ⟨_, ending, .word text encoded trimmed some_char heard⟩
    · push Not at encoded
      exact ⟨[], .badLine, .badLine encoded⟩

/-! ### What a session writes -/

/-- What a session writes when it hears words, by what batches write. -/
def spoken (c : Config) (words : List String) : String :=
  match c.report.style with
  | .json => (Transcript.batch c.report words).output
  | .text =>
    "--- [MIPS instruction decoder] ---\n" ++
      String.join (words.map fun w => c.prompt.text ++ (Transcript.batch c.report [w]).output) ++
      c.prompt.text

/-- What is logged at the end of a session. -/
def Ending.events : Ending → List Event
  | badLine => [.inputFault]
  | endOfInput | blankLine => []

/-- The words of a session, each behind a prompt. -/
def prompted (c : Config) (words : List String) : String :=
  String.join (words.map fun w => prompt c ++ (Transcript.batch c.report [w]).output)

@[simp] theorem prompted_nil (c : Config) : prompted c [] = "" := String.join_nil

theorem prompted_cons (c : Config) (w : String) (words : List String) :
    prompted c (w :: words) =
      prompt c ++ (Transcript.answer c.report w).output ++ prompted c words := by
  simp [prompted, String.join_cons]

/-- In text style the prompts stand between the answers, and in JSON style nothing does. -/
theorem spoken_eq_prompted (c : Config) (words : List String) :
    spoken c words = banner c ++ (prompted c words ++ prompt c) := by
  rw [spoken, banner, prompted, prompt]
  cases c.report.style with
  | text => rw [String.append_assoc]
  | json =>
    simp only [String.empty_append, String.append_empty]
    induction words with
    | nil => rfl
    | cons w words ih => simpa [String.join_cons] using ih

/-- A word is answered, and the session goes on. -/
theorem converse_word (c : Config) (text : String) (rs : List Request) :
    converse c (.word text :: rs) =
      .said (prompt c) ++ (Transcript.answer c.report text).forgiven ++ converse c rs := rfl

theorem converse_quit (c : Config) (rs : List Request) :
    converse c (.quit :: rs) = .said (prompt c) := by
  simp [converse, respond]

theorem converse_fault (c : Config) (rs : List Request) :
    converse c (.fault :: rs) = ⟨prompt c, [.inputFault], false⟩ := by
  apply Transcript.ext <;> simp [converse, respond]

/-- **The run of a session.** Each word is prompted for and answered as in a batch, and the last
prompt is for the line that ends it. -/
theorem converse_heard (c : Config) {ls : List (List UInt8)} {words : List String}
    {ending : Ending} (h : Heard ls words ending) :
    converse c (ls.map Request.ofLine) =
      ⟨prompted c words ++ prompt c, (Transcript.batch c.report words).events ++ ending.events,
        ending != .badLine⟩ := by
  induction h with
  | endOfInput =>
    apply Transcript.ext <;> simp [converse, Ending.events]
  | blankLine text encoded trimmed =>
    rw [List.map_cons, Request.ofLine_blank encoded trimmed, converse_quit]
    apply Transcript.ext <;> simp [Ending.events]
  | badLine bad =>
    rw [List.map_cons, Request.ofLine_fault bad, converse_fault]
    apply Transcript.ext <;> simp [Ending.events]
  | @word text word line ls words ending encoded trimmed some_char _ ih =>
    rw [List.map_cons, Request.ofLine_word encoded trimmed some_char, converse_word, ih]
    refine Transcript.ext ?_ ?_ ?_
    · simp [prompted_cons, String.append_assoc]
    · simp
    · simp

/-- **A session is the batch of the words it hears**, with its prompts. -/
theorem transcript_eq_heard (c : Config) {input : List UInt8} {ls : List (List UInt8)}
    {words : List String} {ending : Ending} (cut : Lines input ls) (heard : Heard ls words ending) :
    transcript c input =
      ⟨spoken c words, (Transcript.batch c.report words).events ++ ending.events,
        ending != .badLine⟩ := by
  rw [transcript, lines_eq_iff.mpr cut, converse_heard c heard, spoken_eq_prompted]
  rfl

/-! ### What follows a session -/

/-- The line is not UTF-8, or of a blank text. -/
def Ends (line : List UInt8) : Prop := ∀ text, Encodes line text → Text.Trimmed text.toList []

theorem respond_ends (c : Config) {line : List UInt8} (h : Ends line) :
    (respond c (Request.ofLine line)).2 = false := by
  by_cases encoded : ∃ text, Encodes line text
  · obtain ⟨text, encoded⟩ := encoded
    rw [Request.ofLine_blank encoded (h text encoded)]
    rfl
  · push Not at encoded
    rw [Request.ofLine_fault encoded]
    rfl

theorem converse_append (c : Config) {rs : List Request} (rs' : List Request)
    (h : ∃ r ∈ rs, (respond c r).2 = false) : converse c (rs ++ rs') = converse c rs := by
  induction rs with
  | nil => simp at h
  | cons r rs ih =>
    rw [List.exists_mem_cons_iff] at h
    rw [List.cons_append, converse, converse]
    generalize respond c r = reply at h ⊢
    obtain ⟨said, more⟩ := reply
    cases more with
    | false => rfl
    | true =>
      have tail := ih (h.resolve_left (by simp))
      rw [tail]

/-- **What follows the end of a session does not count.** -/
theorem transcript_append (c : Config) {front : List UInt8} {ls : List (List UInt8)}
    {line : List UInt8} (cut : Lines front ls) (member : line ∈ ls) (ends : Ends line)
    (ended : front.getLast? = some lineFeed) (rest : List UInt8) :
    transcript c (front ++ rest) = transcript c front := by
  have whole : lines (front ++ rest) = ls ++ lines rest := by
    rw [lines_append (by simp [ended]), lines_eq_iff.mpr cut]
  rw [transcript, transcript, whole, lines_eq_iff.mpr cut, List.map_append, converse_append]
  exact ⟨_, List.mem_map_of_mem member, respond_ends c ends⟩

end Session

/-! ### Interactive runs -/

/-- The program is started without words, and is configured by `c`. -/
def Interactive (arguments : List String) (file : String → FileContents) (c : Config) : Prop :=
  ∃ i, Command.ofArguments arguments = .ok (.decode i) ∧ i.words = [] ∧ i.config file = .ok c

theorem run_of_interactive {arguments : List String} {file : String → FileContents} {c : Config}
    (h : Interactive arguments file c) (input : List UInt8) :
    run arguments file input = .answered c.logLimit (Session.transcript c input) := by
  obtain ⟨i, command, no_words, configured⟩ := h
  rw [run, command]
  simp only [configured, Invocation.transcript, no_words, List.isEmpty_nil, if_pos]

/-- **An interactive run answers the words it hears as batches do.** It fails only at a line that
is not UTF-8, and nothing counts behind the line that ends it. -/
theorem interactive_run_answers_batch {arguments : List String} {file : String → FileContents}
    {c : Config} (h : Interactive arguments file c) (input : List UInt8) :
    (∃ ls words ending, Session.Lines input ls ∧ Session.Heard ls words ending) ∧
      (∀ ls words ending, Session.Lines input ls → Session.Heard ls words ending →
        (run arguments file input).output = Session.spoken c words ∧
          (run arguments file input).exitCode = (if ending = .badLine then 1 else 0) ∧
          (run arguments file input).diagnostics =
            logText c.logLimit ((Transcript.batch c.report words).events ++ ending.events)) ∧
      ∀ ls line rest, Session.Lines input ls → line ∈ ls → Session.Ends line →
        input.getLast? = some Session.lineFeed →
        run arguments file (input ++ rest) = run arguments file input := by
  refine ⟨?_, ?_, ?_⟩
  · obtain ⟨words, ending, heard⟩ := Session.exists_heard (Session.lines input)
    exact ⟨_, words, ending, Session.lines_eq_iff.mp rfl, heard⟩
  · intro ls words ending cut heard
    rw [run_of_interactive h, Session.transcript_eq_heard c cut heard]
    refine ⟨rfl, ?_, rfl⟩
    cases ending <;> rfl
  · intro ls line rest cut member ends ended
    rw [run_of_interactive h, run_of_interactive h,
      Session.transcript_append c cut member ends ended]

/-- A zero between blanks, a word that cannot be read, and a line that is not UTF-8, under a
configuration with a prompt of its own. -/
theorem interactive_run_answers_batch_zero :
    ∃ file c input, file = (fun _ => .ok "[[], [\"Text\", false, false], [\"> \"]]".toUTF8) ∧
      input = [0x20, 0x30, 0x0D, 0x0A, 0x7A, 0x7A, 0x0A, 0xFF, 0x0A] ∧
      Interactive ["-c", "settings"] file c ∧
      (run ["-c", "settings"] file input).output = Session.spoken c ["0", "zz"] ∧
      Session.spoken c ["0", "zz"] =
        "--- [MIPS instruction decoder] ---\n" ++
        "> Instruction: sll\n- Format: R\n- Mnemonic: sll $zero, $zero, 0\n" ++
        "- Fields:\n\topcode: 0\n\trs: 0\n\trt: 0\n\trd: 0\n\tshamt: 0\n\tfunct: 0\n" ++
        "- Control signals:\n\tALUSrc: 0\n\tBranch: 0\n\tMemRead: 0\n\tMemToReg: 0\n" ++
        "\tMemWrite: 0\n\tRegDst: 1\n\tRegWrite: 1\n" ++
        "> error: zz: malformed instruction word `zz`\n" ++
        "> " ∧
      (run ["-c", "settings"] file input).exitCode = 1 ∧
      (run ["-c", "settings"] file input).diagnostics =
        " WARN decode failed input=\"zz\" err=malformed instruction word `zz`\n" ++
        "ERROR failed to write report err=stream did not contain valid UTF-8\n" ∧
      run ["-c", "settings"] file (input ++ [0x30, 0x0A]) = run ["-c", "settings"] file input := by
  have started : Interactive ["-c", "settings"]
      (fun _ => .ok "[[], [\"Text\", false, false], [\"> \"]]".toUTF8)
      ⟨{}, ⟨.text, false, false⟩, ⟨"> "⟩⟩ :=
    ⟨⟨[], [], some "settings"⟩, by decide +kernel, rfl, by decide +kernel⟩
  have bad : ∀ text, ¬ Session.Encodes [0xFF, 0x0A] text := fun text encoded => by
    have none : String.fromUTF8? ⟨#[0xFF, 0x0A]⟩ = none := by decide +kernel
    cases none.symm.trans (Session.fromUTF8?_eq_some_iff.mpr encoded)
  have cut : Session.Lines [0x20, 0x30, 0x0D, 0x0A, 0x7A, 0x7A, 0x0A, 0xFF, 0x0A]
      [[0x20, 0x30, 0x0D, 0x0A], [0x7A, 0x7A, 0x0A], [0xFF, 0x0A]] :=
    Session.lines_eq_iff.mp (by decide)
  have heard : Session.Heard [[0x20, 0x30, 0x0D, 0x0A], [0x7A, 0x7A, 0x0A], [0xFF, 0x0A]] ["0", "zz"]
      .badLine :=
    .word " 0\r\n" rfl (Text.trim_eq_iff.mp (by decide)) (by decide)
      (.word "zz\n" rfl (Text.trim_eq_iff.mp (by decide)) (by decide) (.badLine bad))
  obtain ⟨-, answers, frame⟩ := interactive_run_answers_batch started
    [0x20, 0x30, 0x0D, 0x0A, 0x7A, 0x7A, 0x0A, 0xFF, 0x0A]
  obtain ⟨output, code, log⟩ := answers _ _ _ cut heard
  refine ⟨_, _, _, rfl, rfl, started, output, by decide +kernel, code, ?_, ?_⟩
  · rw [log]
    decide +kernel
  · exact frame _ [0xFF, 0x0A] _ cut (by simp) (fun text encoded => absurd encoded (bad text)) rfl

end Mips32
