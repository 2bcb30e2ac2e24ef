import Mips32.Proofs.Decoding
import Mips32.Proofs.Json.Numerals

/-! Numbers that are written are read back. A number has many spellings: letters in either case,
zeros in front, underscores anywhere behind the radix prefix, and white space around it all
(`Literal.Respelled`). They all denote the number that their digits spell
(`Literal.denotes_respelled`), because no digit and no underscore is blank or the letter of a radix
prefix. So what is printed for a word is read as that word, and a number decodes as its decimal text
does. -/
namespace Mips32

/-! ### Spellings -/

namespace Text

/-- The same characters, letters in either case. -/
def EitherCase (cs ds : List Char) : Prop :=
  List.Forall₂ (fun c d => d = c ∨ d = c.toUpper) cs ds

/-- White space around a text that has none is trimmed off. -/
theorem trimmed_append {before t after : List Char}
    (blank : ∀ c ∈ before ++ after, c.toNat ∈ whiteSpace)
    (visible : ∀ c ∈ t, c.toNat ∉ whiteSpace) : Trimmed (before ++ t ++ after) t where
  around := ⟨before, after, rfl, blank⟩
  head := fun c first => visible c (List.mem_of_mem_head? first)
  last := fun c final => visible c (List.mem_of_mem_getLast? final)

theorem eitherCase_refl (cs : List Char) : EitherCase cs cs :=
  List.forall₂_same.mpr fun _ _ => .inl rfl

end Text

namespace Literal

/-- The characters with underscores put anywhere among them. -/
inductive Spread : List Char → List Char → Prop
  | nil : Spread [] []
  | underscore {cs body : List Char} : Spread cs body → Spread cs ('_' :: body)
  | character {cs body : List Char} (c : Char) : Spread cs body → Spread (c :: cs) (c :: body)

/-- A text that differs from a radix prefix with digits behind it in the case of letters, in zeros in
front of the digits, in underscores behind the prefix and in white space around it all. -/
inductive Respelled (front digits : List Char) : List Char → Prop
  | intro {before front' digits' body after : List Char} (zeros : Nat) :
      Text.EitherCase front front' → Text.EitherCase digits digits' →
      Spread (List.replicate zeros '0' ++ digits') body →
      (∀ c ∈ before ++ after, c.toNat ∈ Text.whiteSpace) →
      Respelled front digits (before ++ (front' ++ body) ++ after)

/-- The radix prefix is for the radix, or the radix is decimal and there is none. -/
def Announces (front : List Char) (r : Radix) : Prop :=
  (front = [] ∧ r = .decimal) ∨ (String.ofList front, r) ∈ prefixes

theorem spread_self (cs : List Char) : Spread cs cs := by
  induction cs with
  | nil => exact .nil
  | cons c cs ih => exact .character c ih

theorem respelled_self (front digits : List Char) : Respelled front digits (front ++ digits) := by
  have plain : Respelled front digits ([] ++ (front ++ digits) ++ []) :=
    .intro 0 (Text.eitherCase_refl front) (Text.eitherCase_refl digits) (spread_self digits) (by simp)
  simpa using plain

/-! ### What a spelling denotes -/

theorem forall_of_spelled {P : Char → Prop} {r : Radix} (underscore : P '_')
    (table : ∀ d < r.base, P (Nat.digitChar d) ∧ P (Nat.digitChar d).toUpper)
    {digits : List Nat} {cs : List Char} (h : Spelled r cs digits) : ∀ c ∈ cs, P c := by
  induction h with
  | nil => exact List.forall_mem_nil P
  | underscore _ ih => exact List.forall_mem_cons.mpr ⟨underscore, ih⟩
  | digit written _ ih => exact List.forall_mem_cons.mpr ⟨Radix.of_writes table written, ih⟩

theorem not_whiteSpace_of_spelled {r : Radix} {digits : List Nat} {cs : List Char}
    (h : Spelled r cs digits) : ∀ c ∈ cs, c.toNat ∉ Text.whiteSpace := by
  have table : ∀ d < 16, (Nat.digitChar d).toNat ∉ Text.whiteSpace ∧
      (Nat.digitChar d).toUpper.toNat ∉ Text.whiteSpace := by decide
  exact forall_of_spelled (by decide)
    (fun d small => table d (Nat.lt_of_lt_of_le small r.base_le)) h

/-- The letter of a radix prefix is no decimal digit. -/
theorem cut_of_spelled {digits : List Nat} {cs : List Char} (h : Spelled .decimal cs digits) :
    Cut cs .decimal cs := by
  have table : ∀ d < Radix.decimal.base, Radix.ofLetter? (Nat.digitChar d) = none ∧
      Radix.ofLetter? (Nat.digitChar d).toUpper = none := by decide
  refine .bare fun p r member start => ?_
  obtain ⟨c, text, letter⟩ := mem_prefixes_iff.mp member
  have none := forall_of_spelled (P := fun c => Radix.ofLetter? c = none) (by decide) table h c
    (start.subset (by simp [text]))
  rw [none] at letter
  cases letter

/-- Underscores spell nothing. -/
theorem spelled_of_spread {cs body : List Char} (spread : Spread cs body) {r : Radix}
    {digits : List Nat} (h : r.Spells digits cs) : Spelled r body digits := by
  induction spread generalizing digits with
  | nil =>
    cases h
    exact .nil
  | underscore _ ih => exact .underscore (ih h)
  | character c _ ih =>
    cases h with
    | cons written more => exact .digit written (ih more)

theorem writes_toUpper {r : Radix} {d : Nat} {c : Char} (h : r.Writes d c) :
    r.Writes d c.toUpper := by
  have table : ∀ e < 16, (Nat.digitChar e).toUpper.toUpper = (Nat.digitChar e).toUpper := by decide
  refine ⟨h.1, .inr ?_⟩
  rcases h.2 with rfl | rfl
  · rfl
  · exact table d (Nat.lt_of_lt_of_le h.1 r.base_le)

theorem spells_eitherCase {r : Radix} {digits : List Nat} {cs ds : List Char}
    (h : r.Spells digits cs) (case : Text.EitherCase cs ds) : r.Spells digits ds := by
  induction h generalizing ds with
  | nil =>
    cases case
    exact .nil
  | cons written _ ih =>
    cases case with
    | cons same more =>
      refine .cons ?_ (ih more)
      rcases same with rfl | rfl
      · exact written
      · exact writes_toUpper written

theorem spells_zeros (r : Radix) (zeros : Nat) :
    r.Spells (List.replicate zeros 0) (List.replicate zeros '0') := by
  induction zeros with
  | zero => exact .nil
  | succ zeros ih => exact .cons ⟨r.base_pos, .inl rfl⟩ ih

/-- A radix prefix in the other case is one of the same radix. -/
theorem announces_eitherCase {front front' : List Char} {r : Radix} (h : Announces front r)
    (case : Text.EitherCase front front') : Announces front' r := by
  rcases h with ⟨rfl, rfl⟩ | member
  · cases case
    exact .inl ⟨rfl, rfl⟩
  · obtain ⟨c, text, letter⟩ := mem_prefixes_iff.mp member
    rw [String.toList_ofList] at text
    subst text
    obtain ⟨z, rest, zero, more, rfl⟩ := List.forall₂_cons_left_iff.mp case
    obtain ⟨d, last, same, none, rfl⟩ := List.forall₂_cons_left_iff.mp more
    obtain rfl := List.forall₂_nil_left_iff.mp none
    have upper : Radix.ofLetter? c.toUpper = some r := by
      rw [Radix.ofLetter?] at letter
      split_ifs at letter with binary octal hexadecimal
      · rcases binary with rfl | rfl <;> exact letter
      · rcases octal with rfl | rfl <;> exact letter
      · rcases hexadecimal with rfl | rfl <;> exact letter
    refine .inr (mem_prefixes_iff.mpr ⟨d, ?_, ?_⟩)
    · rcases zero with rfl | rfl <;> simp
    · rcases same with rfl | rfl
      · exact letter
      · exact upper

theorem not_whiteSpace_of_announces {front : List Char} {r : Radix} (h : Announces front r) :
    ∀ c ∈ front, c.toNat ∉ Text.whiteSpace := by
  rcases h with ⟨rfl, -⟩ | member
  · exact List.forall_mem_nil _
  · have table : ∀ e ∈ prefixes, e.1.toList.all (·.toNat ∉ Text.whiteSpace) := by decide +kernel
    simpa using table _ member

theorem cut_of_announces {front body : List Char} {r : Radix} {digits : List Nat}
    (h : Announces front r) (spelled : Spelled r body digits) : Cut (front ++ body) r body := by
  rcases h with ⟨rfl, rfl⟩ | member
  · exact cut_of_spelled spelled
  · exact .announced member (by rw [String.toList_ofList])

/-- Digits behind a radix prefix denote their number, with white space around it all. -/
theorem denotes_of_spelled {before front body after : List Char} {r : Radix} {digits : List Nat}
    (announced : Announces front r) (spelled : Spelled r body digits) (some_digit : digits ≠ [])
    (blank : ∀ c ∈ before ++ after, c.toNat ∈ Text.whiteSpace) :
    Denotes (before ++ (front ++ body) ++ after) (Nat.ofDigits r.base digits.reverse) := by
  have visible : ∀ c ∈ front ++ body, c.toNat ∉ Text.whiteSpace :=
    List.forall_mem_append.mpr
      ⟨not_whiteSpace_of_announces announced, not_whiteSpace_of_spelled spelled⟩
  exact ⟨_, r, body, digits, Text.trimmed_append blank visible, cut_of_announces announced spelled,
    spelled, some_digit, rfl⟩

/-- **All spellings denote the same number.** -/
theorem denotes_respelled {front cs text : List Char} {r : Radix} {digits : List Nat}
    (announced : Announces front r) (spells : r.Spells digits cs) (some_digit : digits ≠ [])
    (h : Respelled front cs text) : Denotes text (Nat.ofDigits r.base digits.reverse) := by
  cases h with
  | @intro before front' cs' body after zeros front_case digits_case spread blank =>
    have announced' := announces_eitherCase announced front_case
    have padded : r.Spells (List.replicate zeros 0 ++ digits) (List.replicate zeros '0' ++ cs') :=
      List.rel_append (spells_zeros r zeros) (spells_eitherCase spells digits_case)
    have spelled := spelled_of_spread spread padded
    have value : Nat.ofDigits r.base (List.replicate zeros 0 ++ digits).reverse =
        Nat.ofDigits r.base digits.reverse := by
      rw [List.reverse_append, List.reverse_replicate, Nat.ofDigits_append_replicate_zero]
    rw [← value]
    exact denotes_of_spelled announced' spelled (by simp [some_digit]) blank

/-- **The digits of a number are spelled in many ways**, which all denote it, whatever its size. -/
theorem denotes_toDigits {front text : List Char} {r : Radix} (announced : Announces front r)
    (zeros n : Nat)
    (h : Respelled front (List.replicate zeros '0' ++ Nat.toDigits r.base n) text) :
    Denotes text n := by
  obtain ⟨digits, spells, some_digit, value, _⟩ := Radix.exists_digits r n
  have padded := List.rel_append (spells_zeros r zeros) spells
  have denoted := denotes_respelled announced padded (by simp [some_digit]) h
  rwa [List.reverse_append, List.reverse_replicate, Nat.ofDigits_append_replicate_zero,
    value] at denoted

/-- The decimal text of a number is a literal of it. -/
theorem denotes_repr (n : Nat) : Denotes (Nat.repr n).toList n := by
  rw [Nat.toList_repr]
  exact denotes_toDigits (r := .decimal) (.inl ⟨rfl, rfl⟩) 0 n (respelled_self [] _)

end Literal

/-! ### Numbers and their texts -/

/-- A decimal text is read as a word when the number fits, and refused as it stands when not. -/
theorem Word.ofLiteral_repr (n : Nat) : Word.ofLiteral (Nat.repr n) =
    if n < UInt32.size then .ok (.ofNat n) else .error (.malformedWord (Nat.repr n)) := by
  rw [Word.ofLiteral, Literal.value?_eq_some_iff.mpr (Literal.denotes_repr n)]

theorem decodeNumber_eq_bind (n : Nat) :
    decodeNumber n = Word.ofLiteral (Nat.repr n) >>= decode := by
  rw [Word.ofLiteral_repr, decodeNumber]
  split <;> rfl

theorem decodeNumber_toNat (w : Word) : decodeNumber w.toNat = decode w := by
  rw [decodeNumber, if_pos w.toNat_lt_size, UInt32.ofNat_toNat]

/-- **A number decodes as its decimal text does**: to the instruction of its word, to the code that
is unassigned there, or, above all words, to the refusal of that text. -/
theorem number_decodes_as_text (n : Nat) :
    decodeNumber n = Word.ofLiteral (Nat.repr n) >>= decode ∧
    (∀ w : Word, w.toNat = n → w.Assigned → ∃ i, decode w = .ok i ∧ decodeNumber n = .ok i) ∧
    (∀ w : Word, w.toNat = n → ¬ w.Assigned →
      decodeNumber n = .error (.unknownOperation w.selector)) ∧
    (2 ^ 32 - 1 < n → decodeNumber n = .error (.malformedWord (Nat.repr n))) := by
  refine ⟨decodeNumber_eq_bind n, ?_, ?_, ?_⟩
  · rintro w rfl assigned
    obtain ⟨op, selector⟩ := w.assigned_iff.mp assigned
    obtain ⟨m, _, decoded⟩ := exists_decode selector
    exact ⟨_, decoded, by rw [decodeNumber_toNat, decoded]⟩
  · rintro w rfl unassigned
    rw [w.assigned_iff, not_exists] at unassigned
    rw [decodeNumber_toNat, decode_of_unassigned unassigned]
  · intro large
    have above : ¬ n < UInt32.size := Nat.not_lt.mpr large
    rw [decodeNumber, if_neg above]

/-- The first number above all words, a word that is assigned and one that is not. -/
theorem number_decodes_as_text_bounds :
    ((0x22300005 : Word).toNat = 573571077 ∧ Word.Assigned 0x22300005 ∧
      ∃ i, decode 0x22300005 = .ok i ∧ decodeNumber 573571077 = .ok i) ∧
    ((0xFFFFFFFF : Word).toNat = 4294967295 ∧ ¬ Word.Assigned 0xFFFFFFFF ∧
      decodeNumber 4294967295 = .error (.unknownOperation ⟨.opcode, 63⟩)) ∧
    2 ^ 32 - 1 < 4294967296 ∧
      decodeNumber 4294967296 = .error (.malformedWord (Nat.repr 4294967296)) :=
  have assigned : Word.Assigned 0x22300005 := by decide
  have unassigned : ¬ Word.Assigned 0xFFFFFFFF := by decide
  ⟨⟨rfl, assigned, (number_decodes_as_text 573571077).2.1 0x22300005 rfl assigned⟩,
    ⟨rfl, unassigned, (number_decodes_as_text 4294967295).2.2.1 0xFFFFFFFF rfl unassigned⟩,
    by decide, (number_decodes_as_text 4294967296).2.2.2 (by decide)⟩

/-! ### What is printed for a word -/

/-- The texts that are printed for a word, each as a radix prefix and digits: the raw number, the
bits behind a prefix, the code in the error of an unknown operation, and the digits in each radix. -/
inductive Word.Printed (w : Word) : String → String → Prop
  | raw : Printed w "" (Nat.repr w.toNat)
  | bits : Printed w "0b" w.binary
  | code {digits : String} : DecodeError.codeText w.toNat = "0b" ++ digits → Printed w "0b" digits
  | binary : Printed w "0b" (.ofList (Nat.toDigits 2 w.toNat))
  | octal : Printed w "0o" (.ofList (Nat.toDigits 8 w.toNat))
  | hexadecimal : Printed w "0x" (.ofList (Nat.toDigits 16 w.toNat))

/-- What is printed are the digits of the word in the radix of the prefix, with zeros in front. -/
theorem Word.Printed.padded {w : Word} {front digits : String} (h : w.Printed front digits) :
    ∃ r zeros, Literal.Announces front.toList r ∧
      digits.toList = List.replicate zeros '0' ++ Nat.toDigits r.base w.toNat := by
  cases h with
  | raw => exact ⟨.decimal, 0, .inl ⟨rfl, rfl⟩, Nat.toList_repr⟩
  | bits => exact ⟨.binary, _, .inr (by decide), String.toList_ofList⟩
  | code text =>
    obtain rfl := (String.append_right_inj _).mp text
    exact ⟨.binary, _, .inr (by decide), String.toList_ofList⟩
  | binary => exact ⟨.binary, 0, .inr (by decide), String.toList_ofList⟩
  | octal => exact ⟨.octal, 0, .inr (by decide), String.toList_ofList⟩
  | hexadecimal => exact ⟨.hexadecimal, 0, .inr (by decide), String.toList_ofList⟩

theorem Word.ofLiteral_respelled {w : Word} {front digits text : String}
    (h : w.Printed front digits)
    (respelled : Literal.Respelled front.toList digits.toList text.toList) :
    Word.ofLiteral text = .ok w := by
  obtain ⟨r, zeros, announced, padded⟩ := h.padded
  rw [padded] at respelled
  exact Word.ofLiteral_eq_ok_iff.mpr (Literal.denotes_toDigits announced zeros _ respelled)

theorem Word.ofLiteral_printed {w : Word} {front digits : String} (h : w.Printed front digits) :
    Word.ofLiteral (front ++ digits) = .ok w := by
  apply Word.ofLiteral_respelled h
  rw [String.toList_append]
  exact Literal.respelled_self ..

/-- **What is printed for a word is read as that word**: its decimal number, its bits behind a
prefix, its text as a code in the error of an unknown operation, and its digits in any radix; also
with letters in either case, zeros in front of the digits, underscores anywhere behind the prefix,
and white space around it. -/
theorem printed_word_reads_back (w : Word) :
    Word.ofLiteral (Nat.repr w.toNat) = .ok w ∧
      Word.ofLiteral ("0b" ++ w.binary) = .ok w ∧
      Word.ofLiteral (DecodeError.codeText w.toNat) = .ok w ∧
      (Word.ofLiteral ("0x" ++ .ofList (Nat.toDigits 16 w.toNat)) = .ok w ∧
        Word.ofLiteral ("0o" ++ .ofList (Nat.toDigits 8 w.toNat)) = .ok w ∧
        Word.ofLiteral ("0b" ++ .ofList (Nat.toDigits 2 w.toNat)) = .ok w) ∧
      ∀ front digits text : String, w.Printed front digits →
        Literal.Respelled front.toList digits.toList text.toList → Word.ofLiteral text = .ok w := by
  refine ⟨?_, Word.ofLiteral_printed .bits, Word.ofLiteral_printed (.code rfl),
    ⟨Word.ofLiteral_printed .hexadecimal, Word.ofLiteral_printed .octal,
      Word.ofLiteral_printed .binary⟩, fun _ _ _ => Word.ofLiteral_respelled⟩
  have raw := Word.ofLiteral_printed (w := w) .raw
  rwa [String.empty_append] at raw

/-- A hexadecimal text with all liberties taken. -/
theorem printed_word_reads_back_abcdef01 :
    Word.Printed 0xABCDEF01 "0x" "abcdef01" ∧
      Literal.Respelled "0x".toList "abcdef01".toList " \t0X_00aB_cDeF__01\u2003\n".toList ∧
      Word.ofLiteral " \t0X_00aB_cDeF__01\u2003\n" = .ok 0xABCDEF01 :=
  have printed : Word.Printed 0xABCDEF01 "0x" "abcdef01" := .hexadecimal
  have spread : Literal.Spread (List.replicate 2 '0' ++ "aBcDeF01".toList) "_00aB_cDeF__01".toList :=
    .underscore <| .character '0' <| .character '0' <| .character 'a' <| .character 'B' <|
      .underscore <| .character 'c' <| .character 'D' <| .character 'e' <| .character 'F' <|
      .underscore <| .underscore <| .character '0' <| .character '1' .nil
  have respelled : Literal.Respelled "0x".toList "abcdef01".toList
      ([' ', '\t'] ++ ("0X".toList ++ "_00aB_cDeF__01".toList) ++ ['\u2003', '\n']) :=
    .intro 2 (by simp [Text.EitherCase]) (by simp [Text.EitherCase]) spread
      (by simp [Text.whiteSpace])
  ⟨printed, respelled, (printed_word_reads_back 0xABCDEF01).2.2.2.2 _ _ _ printed respelled⟩

end Mips32
