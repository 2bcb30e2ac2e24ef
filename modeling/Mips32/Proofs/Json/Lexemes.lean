import Mips32.Json.Lexeme
import Mips32.Proofs.Json.Strings
import Mathlib.Data.List.TakeWhile

/-! How the lexemes of JSON are written (`Lexeme.Written`). The reader finds the lexeme that a text
starts with (`next?_append`), and what it finds is written there (`written_of_next?`). -/
namespace Mips32.Json

/-- Characters that may stand between lexemes. -/
def Blank (cs : List Char) : Prop := ∀ c ∈ cs, c ∈ [' ', '\t', '\n', '\r']

namespace Lexeme

/-- How a lexeme may be written. -/
inductive Written : Lexeme → List Char → Prop
  | beginArray : Written (opening .array) ['[']
  | endArray : Written (closing .array) [']']
  | beginObject : Written (opening .object) ['\x7b']
  | endObject : Written (closing .object) ['\x7d']
  | comma : Written comma [',']
  | colon : Written colon [':']
  | null : Written null ['n', 'u', 'l', 'l']
  | true : Written (bool true) ['t', 'r', 'u', 'e']
  | false : Written (bool false) ['f', 'a', 'l', 's', 'e']
  | number {n : Numeral} {cs : List Char} : n.Written cs → Written (number n) cs
  | string {us : List TextUnit} {cs : List Char} : TextUnit.BodyWritten us cs →
      Written (string us) ('"' :: cs ++ ['"'])

/-- A lexeme that ends here does not go on with `rest`. -/
def Stops (l : Lexeme) (rest : List Char) : Prop := ∀ n, l = number n → Numeral.Stops rest

theorem isBlank_iff (c : Char) : isBlank c ↔ c ∈ [' ', '\t', '\n', '\r'] := by
  simp [isBlank, or_assoc]

/-- The lexeme is read from its first character on, which is not blank. -/
theorem readFrom_append {l : Lexeme} {text rest : List Char} (h : l.Written text)
    (stop : l.Stops rest) :
    ∃ c more, text = c :: more ∧ isBlank c = false ∧ readFrom c (more ++ rest) = (l, rest) := by
  cases h with
  | number written =>
    have read := Numeral.read_append written (stop _ rfl)
    obtain ⟨c, more, rfl, head⟩ := written.head
    -- Nothing else starts with a minus sign or a digit.
    have table : ∀ d < 10, isBlank (Nat.digitChar d) = false ∧ punctuation? (Nat.digitChar d) = none ∧
        word? (Nat.digitChar d) = none ∧ Nat.digitChar d ≠ '"' ∧
        (Radix.decimal.digit? (Nat.digitChar d)).isSome := by decide
    refine ⟨c, more, rfl, ?_⟩
    rw [readFrom]
    rcases head with rfl | ⟨d, small, rfl⟩
    · refine ⟨rfl, ?_⟩
      rw [List.cons_append] at read
      simp [punctuation?, word?, readNumber, read]
    · obtain ⟨blank, punctuation, word, quote, digit⟩ := table d small
      rw [List.cons_append] at read
      simp [blank, punctuation, word, quote, digit, readNumber, read]
  | string written =>
    refine ⟨'"', _, rfl, rfl, ?_⟩
    have read := TextUnit.read_append written rest
    simp [readFrom, punctuation?, word?, readString, read]
  | _ => exact ⟨_, _, rfl, rfl, rfl⟩

theorem written_of_punctuation? {c : Char} {l : Lexeme} (h : punctuation? c = some l) :
    l.Written [c] := by
  rw [punctuation?.eq_def] at h
  split at h <;> cases h <;> constructor

theorem written_of_readWord {word l : Lexeme} {letters cs rest : List Char}
    (h : readWord word letters cs = (l, rest)) (sound : ∀ d, l ≠ defect d) :
    l = word ∧ cs = letters ++ rest := by
  fun_induction readWord word letters cs with
  | case1 => cases h; exact ⟨rfl, rfl⟩
  | case2 => cases h; exact absurd rfl (sound _)
  | case3 letters c cs ih =>
    obtain ⟨same, rest_eq⟩ := ih h
    exact ⟨same, congrArg (c :: ·) rest_eq⟩
  | case4 => cases h; exact absurd rfl (sound _)

theorem written_of_word? {c : Char} {word : Lexeme} {letters : List Char}
    (h : word? c = some (word, letters)) : word.Written (c :: letters) := by
  rw [word?.eq_def] at h
  split at h <;> cases h <;> constructor

/-- What is read is written there, unless it is a defect. -/
theorem written_of_readFrom {c : Char} {cs rest : List Char} {l : Lexeme}
    (h : readFrom c cs = (l, rest)) (sound : ∀ d, l ≠ defect d) :
    ∃ more, l.Written (c :: more) ∧ cs = more ++ rest := by
  rw [readFrom] at h
  split at h
  case h_1 found =>
    cases h
    exact ⟨[], written_of_punctuation? found, rfl⟩
  case h_2 word letters _ found =>
    obtain ⟨rfl, rfl⟩ := written_of_readWord h sound
    exact ⟨letters, written_of_word? found, rfl⟩
  case h_3 =>
    split_ifs at h with quote digit
    · subst quote
      rw [readString] at h
      split at h
      case h_1 us after read =>
        cases h
        obtain ⟨body, written, rfl⟩ := TextUnit.written_of_read read
        exact ⟨body ++ ['"'], .string written, by simp⟩
      case h_2 => cases h; exact absurd rfl (sound _)
    · rw [readNumber] at h
      split at h
      case h_1 n after read =>
        cases h
        obtain ⟨text, written, whole⟩ := Numeral.written_of_read read
        obtain ⟨d, more, rfl, _⟩ := written.head
        obtain ⟨rfl, rfl⟩ := List.cons.inj whole
        exact ⟨more, .number written, rfl⟩
      case h_2 => cases h; exact absurd rfl (sound _)
    · cases h
      exact absurd rfl (sound _)

theorem next?_blank {cs : List Char} (h : Blank cs) : next? cs = none := by
  have all : cs.dropWhile isBlank = [] :=
    List.dropWhile_eq_nil_iff.mpr fun c hc => (isBlank_iff c).mpr (h c hc)
  rw [next?, all]

/-- **A lexeme is found where it is written**, behind blanks. -/
theorem next?_append {l : Lexeme} {ws text rest : List Char} (blank : Blank ws)
    (h : l.Written text) (stop : l.Stops rest) : next? (ws ++ (text ++ rest)) = some (l, rest) := by
  obtain ⟨c, more, rfl, head, read⟩ := readFrom_append h stop
  have skipped : (ws ++ (c :: more ++ rest)).dropWhile isBlank = c :: (more ++ rest) := by
    rw [List.dropWhile_append_of_pos fun c hc => (isBlank_iff c).mpr (blank c hc), List.cons_append,
      List.dropWhile_cons_of_neg (by simp [head])]
  rw [next?, skipped]
  exact congrArg some read

/-- **A lexeme that is found is written there**, behind blanks. -/
theorem written_of_next? {l : Lexeme} {cs rest : List Char} (h : next? cs = some (l, rest))
    (sound : ∀ d, l ≠ defect d) :
    ∃ ws text, Blank ws ∧ l.Written text ∧ cs = ws ++ (text ++ rest) := by
  have whole := List.takeWhile_append_dropWhile (p := isBlank) (l := cs)
  have blank : Blank (cs.takeWhile isBlank) := fun c hc =>
    (isBlank_iff c).mp (List.all_eq_true.mp (List.all_takeWhile ..) c hc)
  rw [next?] at h
  split at h
  case h_1 => cases h
  case h_2 c tail start =>
    obtain ⟨more, written, rfl⟩ := written_of_readFrom (Option.some.inj h) sound
    rw [start] at whole
    exact ⟨_, _, blank, written, whole.symm⟩

theorem blank_of_next? {cs : List Char} (h : next? cs = none) : Blank cs := by
  rw [next?] at h
  split at h
  case h_1 none => exact fun c hc => (isBlank_iff c).mp (List.dropWhile_eq_nil_iff.mp none c hc)
  case h_2 => cases h

/-- No form of a lexeme holds a control below U+0020. -/
theorem Written.visible {l : Lexeme} {cs : List Char} (h : l.Written cs) :
    ∀ c ∈ cs, 0x20 ≤ c.toNat := by
  cases h with
  | number written => exact written.visible
  | string written =>
    exact List.forall_mem_cons.mpr ⟨by decide,
      List.forall_mem_append.mpr ⟨written.visible, by simp⟩⟩
  | _ => simp

/-- What is written for a lexeme is one of its forms, if that is so for its numeral. -/
theorem written_text {l : Lexeme} (sound : ∀ d, l ≠ defect d)
    (numeral : ∀ n, l = number n → n.Written n.text) : l.Written l.text := by
  cases l with
  | opening c => cases c <;> constructor
  | closing c => cases c <;> constructor
  | bool b => cases b <;> constructor
  | number n => exact .number (numeral n rfl)
  | string us => exact .string (TextUnit.bodyWritten_text us)
  | defect d => exact absurd rfl (sound d)
  | _ => constructor

end Lexeme

/-! ### Texts of lexemes -/

theorem lexemes_of_blank {cs : List Char} (h : Blank cs) : lexemes cs = [] := by
  rw [lexemes, Lexeme.next?_blank h]

theorem lexemes_append {l : Lexeme} {ws text rest : List Char} (blank : Blank ws)
    (h : l.Written text) (stop : l.Stops rest) :
    lexemes (ws ++ (text ++ rest)) = l :: lexemes rest := by
  rw [lexemes, Lexeme.next?_append blank h stop]

theorem lexemes_congr {cs ds : List Char} (h : Lexeme.next? cs = Lexeme.next? ds) :
    lexemes cs = lexemes ds := by
  rw [lexemes.eq_def cs, lexemes.eq_def ds]
  split <;> split <;> simp_all

/-- Blanks in front do not count. -/
theorem lexemes_blank_append {ws : List Char} (blank : Blank ws) (cs : List Char) :
    lexemes (ws ++ cs) = lexemes cs := by
  refine lexemes_congr ?_
  rw [Lexeme.next?, Lexeme.next?,
    List.dropWhile_append_of_pos fun c hc => (Lexeme.isBlank_iff c).mpr (blank c hc)]

/-- A numeral ends at a blank and at what may follow a value in a list. -/
theorem stops_cons {c : Char} (h : c ∈ [' ', '\t', '\n', '\r', ',', ']', '\x7d'])
    (rest : List Char) : Numeral.Stops (c :: rest) := by
  intro d hd
  cases hd
  simp only [List.mem_cons, List.not_mem_nil, or_false] at h
  rcases h with rfl | rfl | rfl | rfl | rfl | rfl | rfl <;> decide

theorem stops_of_blank_append {ws rest : List Char} (blank : Blank ws) (stop : Numeral.Stops rest) :
    Numeral.Stops (ws ++ rest) := by
  cases ws with
  | nil => exact stop
  | cons b ws =>
    have separator : b ∈ [' ', '\t', '\n', '\r'] := blank b (List.mem_cons_self ..)
    exact stops_cons (List.mem_append_left [',', ']', '\x7d'] separator) _

theorem blank_of_lexemes {cs : List Char} (h : lexemes cs = []) : Blank cs := by
  rw [lexemes] at h
  split at h
  case h_1 none => exact Lexeme.blank_of_next? none
  case h_2 => cases h

theorem written_of_lexemes {l : Lexeme} {ls : List Lexeme} {cs : List Char}
    (h : lexemes cs = l :: ls) (sound : ∀ d, l ≠ .defect d) :
    ∃ ws text rest, Blank ws ∧ l.Written text ∧ cs = ws ++ (text ++ rest) ∧ lexemes rest = ls := by
  rw [lexemes] at h
  split at h
  case h_1 => cases h
  case h_2 first rest found =>
    obtain ⟨rfl, rfl⟩ := List.cons.inj h
    obtain ⟨ws, text, blank, written, rfl⟩ := Lexeme.written_of_next? found sound
    exact ⟨ws, text, rest, blank, written, rfl, rfl⟩

end Mips32.Json
