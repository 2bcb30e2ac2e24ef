import Mips32.Proofs.Failures
import Mips32.Proofs.ReadBack

/-! A message tells which error it is of. The kinds of errors open their messages with words of their
own, of which none starts another (`Kind.opening_prefixFree`), and close them with words that depend
on the kind alone; what stands between is what the error is about. So no text that an error
repeats can pass for another error (`message_injective`), nor can the report of a refused word pass
for that of another word (`output_refused_injective`). -/
namespace Mips32

/-! ### Texts in parts -/

/-- None of the texts starts another one. -/
def PrefixFree {α : Type} (f : α → String) : Prop := ∀ a b, (f a).toList <+: (f b).toList → a = b

/-- In front of any text, one of such texts is told apart from the others. -/
theorem PrefixFree.append_inj {α : Type} {f : α → String} (free : PrefixFree f) {a b : α}
    {s t : String} (h : f a ++ s = f b ++ t) : a = b ∧ s = t := by
  have chars := congrArg String.toList h
  rw [String.toList_append, String.toList_append] at chars
  have same : a = b := by
    rcases List.prefix_or_prefix_of_prefix ⟨s.toList, chars⟩ (List.prefix_append ..) with h | h
    · exact free a b h
    · exact (free b a h).symm
  subst same
  exact ⟨rfl, (String.append_right_inj _).mp h⟩

/-- A text that stands twice between fixed texts is known from the whole. -/
theorem eq_of_twice {a b c d s t : String}
    (h : a ++ s ++ b ++ (c ++ (s ++ d)) = a ++ t ++ b ++ (c ++ (t ++ d))) : s = t := by
  have chars := congrArg String.toList h
  simp only [String.toList_append, List.append_assoc] at chars
  have sizes := congrArg List.length chars
  simp only [List.length_append] at sizes
  have rest := List.append_cancel_left chars
  exact String.toList_inj.mp (List.append_inj rest (by omega)).1

/-- A text without a colon is known from what is written up to the first one. -/
theorem eq_of_colon {a s t u v : String} (hs : ':' ∉ s.toList) (ht : ':' ∉ t.toList)
    (h : a ++ s ++ ": " ++ u = a ++ t ++ ": " ++ v) : s = t := by
  have colon : ": ".toList = [':', ' '] := by decide
  have chars := congrArg String.toList h
  simp only [String.toList_append, List.append_assoc, colon, List.cons_append] at chars
  have rest := List.append_cancel_left chars
  exact String.toList_inj.mp (append_cons_cancel hs ht rest).1

theorem getLast?_append {t : String} {x : Char} (ends : t.toList.getLast? = some x) (s : String) :
    (s ++ t).toList.getLast? = some x := by
  rw [String.toList_append, List.getLast?_append, ends, Option.some_or]

/-! ### Literals -/

namespace Literal.Denotes

/-- A text denotes one number. -/
theorem unique {s : List Char} {m n : Nat} (hm : Denotes s m) (hn : Denotes s n) :
    m = n :=
  Option.some.inj ((value?_eq_some_iff.mpr hm).symm.trans (value?_eq_some_iff.mpr hn))

/-- A literal has no colon in it. -/
theorem colon_not_mem {s : List Char} {n : Nat} (h : Denotes s n) : ':' ∉ s := by
  obtain ⟨t, r, rest, digits, trimmed, cut, spelled, -, -⟩ := h
  obtain ⟨before, after, rfl, blank⟩ := trimmed.around
  have table : ∀ d < 16, Nat.digitChar d ≠ ':' ∧ (Nat.digitChar d).toUpper ≠ ':' := by decide
  have behind : ∀ c ∈ rest, c ≠ ':' := forall_of_spelled (by decide)
    (fun d small => table d (Nat.lt_of_lt_of_le small r.base_le)) spelled
  have whole : ':' ∉ t := by
    cases cut with
    | announced member text =>
      have fronts : ∀ e ∈ prefixes, ':' ∉ e.1.toList := by decide
      rw [text, List.mem_append, not_or]
      exact ⟨fronts _ member, fun colon => behind _ colon rfl⟩
    | bare => exact fun colon => behind _ colon rfl
  have around : ':' ∉ before ++ after := fun colon => absurd (blank ':' colon) (by decide)
  rw [List.mem_append, not_or] at around
  simp [around, whole]

end Literal.Denotes

theorem Table.name_prefixFree : PrefixFree Table.name := fun a b => by
  cases a <;> cases b <;> decide

namespace DecodeError

/-! ### Kinds of errors -/

inductive Kind where
  | malformedWord | unknownOperation | unformattable | invalidRegister | unknownRegister
  deriving DecidableEq

/-- The words that a message of the kind starts with. -/
def Kind.opening : Kind → String
  | malformedWord => "malformed instruction word `"
  | unknownOperation => "unknown operation: "
  | unformattable => "operation `"
  | invalidRegister => "invalid register index "
  | unknownRegister => "unknown register name `"

/-- The words that a message of the kind ends with. -/
def Kind.ending : Kind → String
  | malformedWord | unknownRegister => "`"
  | unknownOperation => " is unassigned"
  | unformattable => "` cannot be formatted"
  | invalidRegister => ""

theorem Kind.opening_prefixFree : PrefixFree Kind.opening := fun a b => by
  cases a <;> cases b <;> decide

def kind : DecodeError → Kind
  | malformedWord _ => .malformedWord
  | unknownOperation _ => .unknownOperation
  | unformattable _ => .unformattable
  | invalidRegister _ => .invalidRegister
  | unknownRegister _ => .unknownRegister

/-- What the message of an error says between the words of its kind. -/
def detail : DecodeError → String
  | malformedWord input => input
  | unknownOperation s => s.table.name ++ (" " ++ codeText s.code)
  | unformattable op => op.name
  | invalidRegister index => Nat.repr index
  | unknownRegister name => name

theorem message_eq (e : DecodeError) :
    e.message = e.kind.opening ++ (e.detail ++ e.kind.ending) := by
  cases e with
  | malformedWord input => exact String.append_assoc
  | unknownOperation s =>
    change "unknown operation: " ++ s.table.name ++ " " ++ codeText s.code ++ " is unassigned" =
      "unknown operation: " ++ (s.table.name ++ (" " ++ codeText s.code) ++ " is unassigned")
    simp only [String.append_assoc]
  | unformattable op => exact String.append_assoc
  | invalidRegister index =>
    exact congrArg ("invalid register index " ++ ·) String.append_empty.symm
  | unknownRegister name => exact String.append_assoc

/-! ### Messages -/

/-- The text of a code is a literal of it. -/
theorem denotes_codeText (code : Nat) : Literal.Denotes (codeText code).toList code := by
  have prefixed : Literal.Announces "0b".toList .binary := .inr (by decide)
  have spelled := Literal.denotes_toDigits prefixed (6 - (Nat.toDigits 2 code).length) code
    (Literal.respelled_self "0b".toList _)
  have text : (codeText code).toList = "0b".toList ++ List.leftpad 6 '0' (Nat.toDigits 2 code) := by
    rw [codeText, String.toList_append]
    exact congrArg ("0b".toList ++ ·) String.toList_ofList
  rw [text]
  exact spelled

theorem detail_injective {d e : DecodeError} (kind : d.kind = e.kind) (h : d.detail = e.detail) :
    d = e := by
  cases d <;> cases e <;> try contradiction
  case malformedWord.malformedWord input input' => rw [show input = input' from h]
  case unknownOperation.unknownOperation s s' =>
    obtain ⟨table, rest⟩ := Table.name_prefixFree.append_inj h
    have code : codeText s.code = codeText s'.code := (String.append_right_inj " ").mp rest
    have same : s.code = s'.code := (code ▸ denotes_codeText s.code).unique (denotes_codeText s'.code)
    cases s
    cases s'
    cases table
    cases same
    rfl
  case unformattable.unformattable op op' => rw [Operation.name_injective h]
  case invalidRegister.invalidRegister index index' =>
    have digits : Nat.repr index = Nat.repr index' := h
    have same := (digits ▸ Literal.denotes_repr index).unique (Literal.denotes_repr index')
    rw [same]
  case unknownRegister.unknownRegister name name' => rw [show name = name' from h]

/-- **A message is of one error.** -/
theorem message_injective : Function.Injective message := fun d e same => by
  rw [message_eq, message_eq] at same
  obtain ⟨kind, rest⟩ := Kind.opening_prefixFree.append_inj same
  rw [kind] at rest
  exact detail_injective kind ((String.append_left_inj _).mp rest)

end DecodeError

/-! ### Reports of failures -/

theorem Json.compact_injective {v w : Json} (hv : Json.Plain v) (hw : Json.Plain w)
    (h : v.compact = w.compact) : v = w :=
  (Json.textOf_compact hv).unique (h ▸ Json.textOf_compact hw)

theorem Json.units_injective : Function.Injective Json.units := fun s t same =>
  (Json.named_units s).unique (same ▸ Json.named_units t)

namespace Report

theorem failureToJson_injective {input input' : String} {e e' : DecodeError}
    (h : failureToJson input e = failureToJson input' e') : input = input' ∧ e = e' := by
  simp only [failureToJson, Json.ofMembers, Json.ofString, List.map_cons, Json.object.injEq,
    List.cons.injEq, Prod.mk.injEq, Json.string.injEq, true_and, and_true] at h
  exact ⟨Json.units_injective h.1, DecodeError.message_injective (Json.units_injective h.2)⟩

/-- In JSON style a report is of one input and one error. -/
theorem failureText_json_injective {c : ReportConfig} (style : c.style = .json)
    {input input' : String} {e e' : DecodeError}
    (h : failureText c input e = failureText c input' e') : input = input' ∧ e = e' := by
  simp only [failureText, style] at h
  exact failureToJson_injective (Json.compact_injective (plain_failureToJson input e)
    (plain_failureToJson input' e') ((String.append_left_inj "\n").mp h))

/-- **For one input, a report is of one error.** -/
theorem failureText_inj (c : ReportConfig) (input : String) {e e' : DecodeError} :
    failureText c input e = failureText c input e' ↔ e = e' := by
  constructor
  · intro h
    cases style : c.style with
    | text =>
      simp only [failureText, style, String.append_left_inj, String.append_right_inj] at h
      exact DecodeError.message_injective h
    | json => exact (failureText_json_injective style h).2
  · rintro rfl
    rfl

end Report

/-! ### Refused words -/

namespace DecodeError

theorem getLast?_malformedWord (input : String) :
    (malformedWord input).message.toList.getLast? = some '\x60' :=
  getLast?_append (t := "`") (by decide) ("malformed instruction word `" ++ input)

theorem getLast?_unknownOperation (s : Selector) :
    (unknownOperation s).message.toList.getLast? = some 'd' :=
  getLast?_append (t := " is unassigned") (by decide)
    ("unknown operation: " ++ s.table.name ++ " " ++ codeText s.code)

/-- No text that is refused as it stands is reported like an unassigned code. -/
theorem append_malformedWord_ne (s t input : String) (selector : Selector) :
    s ++ (malformedWord input).message ≠ t ++ (unknownOperation selector).message := by
  intro same
  have ends := congrArg (fun u : String => u.toList.getLast?) same
  rw [getLast?_append (getLast?_malformedWord input),
    getLast?_append (getLast?_unknownOperation selector)] at ends
  exact absurd (Option.some.inj ends) (by decide)

end DecodeError

/-- In text style, the report of a refused word is that of no other refused word. A literal ends at
the first colon; a text that is none stands in the report twice, so that the length tells it; and the
two are told apart by the last character. -/
theorem failureText_text_injective {c : ReportConfig} (style : c.style = .text) {s s' : String}
    {e e' : DecodeError} (h : Word.ofLiteral s >>= decode = .error e)
    (h' : Word.ofLiteral s' >>= decode = .error e')
    (same : Report.failureText c s e = Report.failureText c s' e') : s = s' := by
  simp only [Report.failureText, style, String.append_left_inj] at same
  rcases DecodeError.refused_cases h with rfl | ⟨w, read, rfl⟩ <;>
    rcases DecodeError.refused_cases h' with rfl | ⟨w', read', rfl⟩
  · rw [DecodeError.message_eq, DecodeError.message_eq] at same
    exact eq_of_twice same
  · exact (DecodeError.append_malformedWord_ne _ _ _ _ same).elim
  · exact (DecodeError.append_malformedWord_ne _ _ _ _ same.symm).elim
  · have colon := (Word.ofLiteral_eq_ok_iff.mp read).colon_not_mem
    have colon' := (Word.ofLiteral_eq_ok_iff.mp read').colon_not_mem
    exact eq_of_colon colon colon' same

/-- **The output for a refused word tells the word and the error.** -/
theorem output_refused_injective (c : ReportConfig) {s s' : String} {e e' : DecodeError}
    (h : Word.ofLiteral s >>= decode = .error e) (h' : Word.ofLiteral s' >>= decode = .error e')
    (same : (Transcript.answer c s).output = (Transcript.answer c s').output) : s = s' ∧ e = e' := by
  have word : s = s' := by
    rw [output_answer, output_answer, h, h'] at same
    cases style : c.style with
    | text => exact failureText_text_injective style h h' same
    | json => exact (Report.failureText_json_injective style same).1
  subst word
  exact ⟨rfl, Except.error.inj (h.symm.trans h')⟩

/-- **A message determines its error.** Two errors have the same message only if they are the same,
whatever texts they repeat and whatever codes they name. So, in either style, two errors are reported
alike for the same input only if they are the same; and two refused words are answered alike only if
word and error are the same. -/
theorem message_determines_error :
    (∀ e e' : DecodeError, e.message = e'.message ↔ e = e') ∧
    (∀ c input e e', Report.failureText c input e = Report.failureText c input e' ↔ e = e') ∧
    ∀ c s s' e e', Word.ofLiteral s >>= decode = .error e → Word.ofLiteral s' >>= decode = .error e' →
      ((Transcript.answer c s).output = (Transcript.answer c s').output ↔ s = s' ∧ e = e') := by
  refine ⟨fun _ _ => DecodeError.message_injective.eq_iff, fun c input _ _ =>
    Report.failureText_inj c input, fun c s s' e e' h h' => ?_⟩
  constructor
  · exact output_refused_injective c h h'
  · rintro ⟨rfl, -⟩
    rfl

/-- The last of all words, which is unassigned, and a text with one digit more. -/
theorem message_determines_error_ffffffff :
    Word.ofLiteral "0xFFFFFFFF" >>= decode = .error (.unknownOperation ⟨.opcode, 63⟩) ∧
      Word.ofLiteral "0xFFFFFFFFF" >>= decode = .error (.malformedWord "0xFFFFFFFFF") ∧
      (Transcript.answer ⟨.text, true, true⟩ "0xFFFFFFFF").output ≠
        (Transcript.answer ⟨.text, true, true⟩ "0xFFFFFFFFF").output := by
  have unassigned : Word.ofLiteral "0xFFFFFFFF" >>= decode =
      .error (.unknownOperation ⟨.opcode, 63⟩) := by decide +kernel
  have malformed : Word.ofLiteral "0xFFFFFFFFF" >>= decode =
      .error (.malformedWord "0xFFFFFFFFF") := by decide +kernel
  refine ⟨unassigned, malformed, fun same => ?_⟩
  have alike := (message_determines_error.2.2 _ _ _ _ _ unassigned malformed).mp same
  exact absurd alike.1 (by decide)

end Mips32
