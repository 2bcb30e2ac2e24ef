import Mips32.Text.Quoted
import Mips32.Proofs.Json.Numerals

/-! How quoted texts are read. Between the quotes each character stands in one of three forms
(`ShownAs`); no form is the start of another, so the text and the place of the closing quote are
settled by what is written (`QuotesBody.append_inj`), also when more follows. -/
namespace Mips32.Text

/-- The letters of the short escapes, with the characters they stand for. -/
def escapes : List (Char × Char) :=
  [('0', '\x00'), ('t', '\t'), ('n', '\n'), ('r', '\r'), ('"', '"'), ('\\', '\\')]

/-- How a character may stand between the quotes: as it is, as the letter of a short escape, or as
its code point in hexadecimal. -/
inductive ShownAs : Char → List Char → Prop
  | plain {c : Char} : 0x20 ≤ c.toNat → c ≠ '"' → c ≠ '\\' → ShownAs c [c]
  | short {letter c : Char} : (letter, c) ∈ escapes → ShownAs c ['\\', letter]
  | code {c : Char} {digits : List Nat} {cs : List Char} : Radix.hexadecimal.Spells digits cs →
      c.toNat = Nat.ofDigits 16 digits.reverse →
      ShownAs c ('\\' :: 'u' :: '\x7b' :: (cs ++ ['\x7d']))

/-- The characters one after the other. -/
inductive QuotesBody : List Char → List Char → Prop
  | nil : QuotesBody [] []
  | cons {c : Char} {cs front back : List Char} : ShownAs c front → QuotesBody cs back →
      QuotesBody (c :: cs) (front ++ back)

/-- `quoted` is the text between double quotes. -/
def Quotes (text quoted : String) : Prop :=
  ∃ body, QuotesBody text.toList body ∧ quoted = "\"" ++ .ofList body ++ "\""

/-! ### Reading -/

/-- No form starts with a quote. -/
theorem ShownAs.head {c : Char} {front : List Char} (h : ShownAs c front) :
    ∃ a as, front = a :: as ∧ a ≠ '"' := by
  cases h with
  | plain _ quote _ => exact ⟨c, [], rfl, quote⟩
  | short _ => exact ⟨_, _, rfl, by decide⟩
  | code _ _ => exact ⟨_, _, rfl, by decide⟩

theorem brace_not_mem {digits : List Nat} {cs : List Char}
    (h : Radix.hexadecimal.Spells digits cs) : '\x7d' ∉ cs := by
  have table : ∀ d < Radix.hexadecimal.base, Nat.digitChar d ≠ '\x7d' ∧
      (Nat.digitChar d).toUpper ≠ '\x7d' := by decide
  exact fun member => Radix.forall_of_spells (P := (· ≠ '\x7d')) table h _ member rfl

/-- The letters tell their characters, and none of them announces a code point. -/
theorem escapes_letters : (∀ e ∈ escapes, ∀ e' ∈ escapes, e.1 = e'.1 → e.2 = e'.2) ∧
    ∀ e ∈ escapes, e.1 ≠ 'u' := by
  decide

/-- **No form is the start of another.** -/
theorem ShownAs.append_inj {c c' : Char} {front front' rest rest' : List Char}
    (h : ShownAs c front) (h' : ShownAs c' front') (same : front ++ rest = front' ++ rest') :
    c = c' ∧ rest = rest' := by
  cases h with
  | plain _ _ backslash =>
    cases h' with
    | plain => exact List.cons.inj same
    | short => exact absurd (List.cons.inj same).1 backslash
    | code => exact absurd (List.cons.inj same).1 backslash
  | @short letter _ member =>
    cases h' with
    | plain _ _ backslash => exact absurd (List.cons.inj same).1.symm backslash
    | short member' =>
      simp only [List.cons_append, List.nil_append, List.cons.injEq, true_and] at same
      exact ⟨escapes_letters.1 _ member _ member' same.1, same.2⟩
    | code =>
      simp only [List.cons_append, List.nil_append, List.cons.injEq, true_and] at same
      exact absurd same.1 (escapes_letters.2 _ member)
  | code spelled value =>
    cases h' with
    | plain _ _ backslash => exact absurd (List.cons.inj same).1.symm backslash
    | short member' =>
      simp only [List.cons_append, List.nil_append, List.cons.injEq, true_and] at same
      exact absurd same.1.symm (escapes_letters.2 _ member')
    | code spelled' value' =>
      simp only [List.cons_append, List.append_assoc, List.nil_append, List.cons.injEq,
        true_and] at same
      obtain ⟨rfl, rest⟩ := append_cons_cancel (brace_not_mem spelled) (brace_not_mem spelled') same
      rw [← Radix.filterMap_digit? spelled, Radix.filterMap_digit? spelled', ← value'] at value
      exact ⟨Char.toNat_inj.mp value, rest⟩

/-- **The closing quote is the first one that no escape has taken**, so what follows it does not
matter. -/
theorem QuotesBody.append_inj {s t body body' rest rest' : List Char} (h : QuotesBody s body)
    (h' : QuotesBody t body') (same : body ++ '"' :: rest = body' ++ '"' :: rest') :
    s = t ∧ rest = rest' := by
  induction h generalizing t body' with
  | nil =>
    cases h' with
    | nil => exact ⟨rfl, (List.cons.inj same).2⟩
    | cons first _ =>
      obtain ⟨a, as, rfl, quote⟩ := first.head
      exact absurd (List.cons.inj same).1.symm quote
  | cons first _ ih =>
    cases h' with
    | nil =>
      obtain ⟨a, as, rfl, quote⟩ := first.head
      exact absurd (List.cons.inj same).1 quote
    | cons first' others =>
      rw [List.append_assoc, List.append_assoc] at same
      obtain ⟨rfl, tail⟩ := first.append_inj first' same
      obtain ⟨rfl, rest⟩ := ih others tail
      exact ⟨rfl, rest⟩

theorem Quotes.append_inj {s t q q' rest rest' : String} (h : Quotes s q) (h' : Quotes t q')
    (same : q ++ rest = q' ++ rest') : s = t ∧ rest = rest' := by
  obtain ⟨body, reads, rfl⟩ := h
  obtain ⟨body', reads', rfl⟩ := h'
  have chars := congrArg String.toList same
  simp only [String.toList_append, String.toList_ofList, List.append_assoc] at chars
  obtain ⟨texts, rests⟩ := reads.append_inj reads' (List.cons.inj chars).2
  exact ⟨String.toList_inj.mp texts, String.toList_inj.mp rests⟩

/-! ### Writing -/

theorem visible_of_printable {c : Char} (h : isUnprintable c = false) : 0x20 ≤ c.toNat := by
  have controls : (0x0, 0x1F) ∈ unprintableRanges := List.mem_cons_self ..
  have outside := List.any_eq_false.mp h _ controls
  simp at outside
  omega

theorem shownAs_quotedChar (c : Char) : ShownAs c (quotedChar c) := by
  unfold quotedChar
  split
  case h_7 quote backslash =>
    split
    case isTrue =>
      obtain ⟨digits, spelled, -, value, -⟩ := Radix.hexadecimal.exists_digits c.toNat
      exact .code spelled value.symm
    case isFalse printable =>
      exact .plain (visible_of_printable (by simpa using printable)) quote backslash
  all_goals exact .short (by decide)

/-- **A quoted text is read back as the text.** -/
theorem quotes_quoted (s : String) : Quotes s (quoted s) := by
  refine ⟨s.toList.flatMap quotedChar, ?_, rfl⟩
  induction s.toList with
  | nil => exact .nil
  | cons c cs ih => exact .cons (shownAs_quotedChar c) ih

end Mips32.Text
