import Mips32.Json.TextUnit
import Mips32.Proofs.Json.Numerals

/-! How JSON strings are written, unit by unit (`TextUnit.Written`). The reader takes the units up to
the closing quote where they are written (`read_append`), and nothing else (`written_of_read`); and
what is written for a unit is one of its forms (`written_text`). Units that hold no half of a
surrogate pair alone stand for a text (`Stand`). -/
namespace Mips32.Json

namespace TextUnit

/-- The letters of the short escapes, with the code points they stand for. -/
def escapes : List (Char × Nat) :=
  [('"', 0x22), ('\\', 0x5C), ('/', 0x2F), ('b', 0x8), ('f', 0xC), ('n', 0xA), ('r', 0xD), ('t', 0x9)]

/-- Four hexadecimal digits, with letters in either case. -/
def CodeWritten (n : Nat) (cs : List Char) : Prop :=
  ∃ digits, Radix.hexadecimal.Spells digits cs ∧ digits.length = 4 ∧ n = Nat.ofDigits 16 digits.reverse

/-- How a unit may be written. Quotes, backslashes and controls below U+0020 are only written by
escapes, and a half of a surrogate pair is only written by its code. -/
inductive Written : TextUnit → List Char → Prop
  | plain {c : Char} : 0x20 ≤ c.toNat → c ≠ '"' → c ≠ '\\' → Written (.char c) [c]
  | short {letter c : Char} : (letter, c.toNat) ∈ escapes → Written (.char c) ['\\', letter]
  | code {c : Char} {cs : List Char} : CodeWritten c.toNat cs → Written (.char c) ('\\' :: 'u' :: cs)
  | leading {bits : Fin 1024} {cs : List Char} : CodeWritten (0xD800 + bits) cs →
      Written (.leading bits) ('\\' :: 'u' :: cs)
  | trailing {bits : Fin 1024} {cs : List Char} : CodeWritten (0xDC00 + bits) cs →
      Written (.trailing bits) ('\\' :: 'u' :: cs)

/-- The units one after the other. -/
inductive BodyWritten : List TextUnit → List Char → Prop
  | nil : BodyWritten [] []
  | cons {u : TextUnit} {us : List TextUnit} {front back : List Char} : u.Written front →
      BodyWritten us back → BodyWritten (u :: us) (front ++ back)

theorem code?_eq_some_iff {cs : List Char} {n : Nat} :
    code? cs = some n ↔
      ∃ digits, Radix.hexadecimal.Spells digits cs ∧ n = Nat.ofDigits 16 digits.reverse := by
  rw [code?, Option.map_eq_some_iff]
  simp only [mapM_eq_some_iff, Radix.digit?_eq_some_iff, Radix.number_eq_ofDigits, eq_comm (a := n)]
  constructor
  · rintro ⟨digits, spelled, value⟩
    exact ⟨digits, spelled.flip, value⟩
  · rintro ⟨digits, spelled, value⟩
    exact ⟨digits, spelled.flip, value⟩

theorem ofCode_toNat (c : Char) : ofCode c.toNat = char c := by
  have valid : c.toNat < 0xD800 ∨ 0xE000 ≤ c.toNat := by
    rcases c.valid with low | high
    · exact .inl low
    · exact .inr high.1
  rw [ofCode, if_pos valid, Char.ofNat_toNat]

theorem ofCode_leading (bits : Fin 1024) : ofCode (0xD800 + bits) = leading bits := by
  rw [ofCode, if_neg (by omega), if_pos (by omega), Nat.add_sub_cancel_left]
  simp

theorem ofCode_trailing (bits : Fin 1024) : ofCode (0xDC00 + bits) = trailing bits := by
  rw [ofCode, if_neg (by omega), if_neg (by omega), Nat.add_sub_cancel_left]
  simp

theorem CodeWritten.lt {n : Nat} {cs : List Char} (h : CodeWritten n cs) : n < 0x10000 := by
  obtain ⟨digits, spelled, length, rfl⟩ := h
  have small : ∀ d ∈ digits.reverse, d < 16 := by
    intro d hd
    obtain ⟨i, bound, rfl⟩ := List.getElem_of_mem (List.mem_reverse.mp hd)
    exact (spelled.get bound (spelled.length_eq ▸ bound)).1
  have bound := Nat.ofDigits_lt_base_pow_length (b := 16) (by decide) small
  rwa [List.length_reverse, length] at bound

theorem written_ofCode {n : Nat} {cs : List Char} (h : CodeWritten n cs) :
    (ofCode n).Written ('\\' :: 'u' :: cs) := by
  have bound := h.lt
  by_cases plain : n < 0xD800 ∨ 0xE000 ≤ n
  · have valid : n.isValidChar := by
      rcases plain with low | high
      · exact .inl low
      · exact .inr ⟨high, by omega⟩
    have value : (Char.ofNat n).toNat = n := by
      rw [Char.ofNat, dif_pos valid]
      rfl
    rw [← value, ofCode_toNat]
    exact .code (value.symm ▸ h)
  · by_cases low : n < 0xDC00
    · obtain ⟨bits, rfl⟩ : ∃ bits : Fin 1024, n = 0xD800 + bits :=
        ⟨⟨n - 0xD800, by omega⟩, by simp only; omega⟩
      rw [ofCode_leading]
      exact .leading h
    · obtain ⟨bits, rfl⟩ : ∃ bits : Fin 1024, n = 0xDC00 + bits :=
        ⟨⟨n - 0xDC00, by omega⟩, by simp only; omega⟩
      rw [ofCode_trailing]
      exact .trailing h

theorem lookup_shortEscapes {letter c : Char} :
    shortEscapes.lookup letter = some c ↔ (letter, c.toNat) ∈ escapes := by
  constructor
  · intro found
    have table : ∀ e ∈ shortEscapes, (e.1, e.2.toNat) ∈ escapes := by decide
    obtain ⟨front, back, whole, _⟩ := List.lookup_eq_some_iff.mp found
    exact table (letter, c) (by rw [whole]; simp)
  · intro member
    have table : ∀ e ∈ escapes, shortEscapes.lookup e.1 = some (Char.ofNat e.2) := by decide
    have found := table _ member
    rwa [Char.ofNat_toNat] at found

/-- A unit is read where it is written. -/
theorem read_unit {u : TextUnit} {cs : List Char} (h : u.Written cs) (rest : List Char) :
    read (cs ++ rest) = Reading.before u (read rest) := by
  have code {n : Nat} {cs : List Char} (h : CodeWritten n cs) :
      read ('\\' :: 'u' :: cs ++ rest) = Reading.before (ofCode n) (read rest) := by
    obtain ⟨digits, spelled, length, value⟩ := h
    have found : code? cs = some n := code?_eq_some_iff.mpr ⟨digits, spelled, value⟩
    obtain ⟨a, b, c, d, rfl⟩ : ∃ a b c d, cs = [a, b, c, d] := by
      rw [spelled.length_eq] at length
      exact List.length_eq_four.mp length
    simp only [List.cons_append, List.nil_append, read, found]
  cases h with
  | @plain c visible quote backslash =>
    have above : ¬ c < ' ' := Nat.not_lt.mpr visible
    simp [read, backslash, above]
  | @short letter c member =>
    have found := lookup_shortEscapes.mpr member
    have other : letter ≠ 'u' := by
      rintro rfl
      cases found
    simp [read, other, found]
  | code h => rw [code h, ofCode_toNat]
  | leading h => rw [code h, ofCode_leading]
  | trailing h => rw [code h, ofCode_trailing]

/-- **A string is read where it is written.** -/
theorem read_append {us : List TextUnit} {cs : List Char} (h : BodyWritten us cs)
    (rest : List Char) : read (cs ++ '"' :: rest) = (us, .ok rest) := by
  induction h with
  | nil => rw [List.nil_append, read]
  | cons written _ ih => rw [List.append_assoc, read_unit written, ih]; rfl

/-- **A string that is read is written there.** -/
theorem written_of_read {us : List TextUnit} {cs rest : List Char} (h : read cs = (us, .ok rest)) :
    ∃ body, BodyWritten us body ∧ cs = body ++ '"' :: rest := by
  have step {u : TextUnit} {text cs : List Char} (written : u.Written text)
      (ih : ∀ {us}, read cs = (us, .ok rest) → ∃ body, BodyWritten us body ∧ cs = body ++ '"' :: rest)
      {us : List TextUnit} (h : Reading.before u (read cs) = (us, .ok rest)) :
      ∃ body, BodyWritten us body ∧ text ++ cs = body ++ '"' :: rest := by
    have back : (Reading.before u (read cs)).2 = .ok rest := by rw [h]
    obtain ⟨body, others, rfl⟩ := @ih (read cs).1 (Prod.ext rfl back)
    obtain rfl : u :: _ = us := congrArg Prod.fst h
    exact ⟨text ++ body, .cons written others, by rw [List.append_assoc]⟩
  fun_induction read cs generalizing us with
  | case1 => cases h
  | case2 rest' =>
    cases h
    exact ⟨[], .nil, rfl⟩
  | case3 a b c d cs n found ih =>
    obtain ⟨digits, spelled, value⟩ := code?_eq_some_iff.mp found
    exact step (written_ofCode ⟨digits, spelled, spelled.length_eq, value⟩) ih h
  | case4 => cases h
  | case5 => cases h
  | case6 letter cs _ _ c found ih => exact step (.short (lookup_shortEscapes.mp found)) ih h
  | case7 => cases h
  | case8 => cases h
  | case9 => cases h
  | case10 c cs quote _ _ pair single visible ih =>
    have backslash : c ≠ '\\' := by
      rintro rfl
      cases cs with
      | nil => exact single rfl rfl
      | cons d cs => exact pair d cs rfl rfl
    exact step (.plain (Nat.not_lt.mp visible) quote backslash) ih h

/-! ### Writing -/

theorem codeWritten_leftpad {n : Nat} (h : n < 0x10000) :
    CodeWritten n (List.leftpad 4 '0' (Nat.toDigits 16 n)) := by
  obtain ⟨digits, spelled, _, value, _⟩ := Radix.exists_digits .hexadecimal n
  have short : (Nat.toDigits 16 n).length ≤ 4 :=
    (Nat.length_toDigits_le_iff (by decide) (by decide)).mpr h
  have zeros (k : Nat) : Radix.hexadecimal.Spells (List.replicate k 0) (List.replicate k '0') := by
    induction k with
    | zero => exact .nil
    | succ k ih => exact .cons ⟨by decide, .inl rfl⟩ ih
  have length : digits.length = (Nat.toDigits 16 n).length := spelled.length_eq
  refine ⟨_, List.rel_append (zeros _) spelled, ?_, ?_⟩
  · rw [List.length_append, List.length_replicate, length]
    omega
  · rw [List.reverse_append, List.reverse_replicate, Nat.ofDigits_append_replicate_zero]
    exact value.symm

theorem codeWritten_escape {n : Nat} (h : n < 0x10000) :
    ∃ cs, codeEscape n = '\\' :: 'u' :: cs ∧ CodeWritten n cs :=
  ⟨_, rfl, codeWritten_leftpad h⟩

theorem mem_escapes_of_escapeLetter? {c letter : Char} (h : escapeLetter? c = some letter) :
    (letter, c.toNat) ∈ escapes := by
  obtain ⟨e, found, rfl⟩ := Option.map_eq_some_iff.mp h
  have table : ∀ e ∈ shortEscapes, (e.1, e.2.toNat) ∈ escapes := by decide
  have same := List.find?_some found
  rw [← (of_decide_eq_true same).1]
  exact table e (List.mem_of_find?_eq_some found)

/-- **What is written for a unit is one of its forms.** -/
theorem written_text (u : TextUnit) : u.Written u.text := by
  cases u with
  | char c =>
    rw [text]
    split
    case h_1 letter found => exact .short (mem_escapes_of_escapeLetter? found)
    case h_2 none =>
      split
      case isTrue control =>
        have small : c.toNat < 0x20 := control
        obtain ⟨cs, escape, written⟩ := codeWritten_escape (n := c.toNat) (by omega)
        rw [escape]
        exact .code written
      case isFalse visible =>
        have other (d : Char) (h : (escapeLetter? d).isSome) : c ≠ d := by
          rintro rfl
          rw [none] at h
          cases h
        exact .plain (Nat.not_lt.mp visible) (other '"' rfl) (other '\\' rfl)
  | leading bits =>
    obtain ⟨cs, escape, written⟩ := codeWritten_escape (n := 0xD800 + bits) (by omega)
    rw [text, escape]
    exact .leading written
  | trailing bits =>
    obtain ⟨cs, escape, written⟩ := codeWritten_escape (n := 0xDC00 + bits) (by omega)
    rw [text, escape]
    exact .trailing written

theorem bodyWritten_text (us : List TextUnit) : BodyWritten us (us.flatMap text) := by
  induction us with
  | nil => exact .nil
  | cons u us ih => exact .cons u.written_text ih

theorem CodeWritten.visible {n : Nat} {cs : List Char} (h : CodeWritten n cs) :
    ∀ c ∈ '\\' :: 'u' :: cs, 0x20 ≤ c.toNat := by
  obtain ⟨digits, spelled, _⟩ := h
  exact List.forall_mem_cons.mpr ⟨by decide, List.forall_mem_cons.mpr
    ⟨by decide, Radix.visible_of_spells spelled⟩⟩

/-- No form of a unit holds a control below U+0020. -/
theorem Written.visible {u : TextUnit} {cs : List Char} (h : u.Written cs) :
    ∀ c ∈ cs, 0x20 ≤ c.toNat := by
  cases h with
  | plain visible => exact List.forall_mem_singleton.mpr visible
  | @short letter c member =>
    have table : ∀ e ∈ escapes, ∀ c ∈ ['\\', e.1], 0x20 ≤ c.toNat := by simp [escapes]
    exact table _ member
  | code h => exact h.visible
  | leading h => exact h.visible
  | trailing h => exact h.visible

theorem BodyWritten.visible {us : List TextUnit} {cs : List Char} (h : BodyWritten us cs) :
    ∀ c ∈ cs, 0x20 ≤ c.toNat := by
  induction h with
  | nil => exact fun _ => nofun
  | cons written _ ih => exact List.forall_mem_append.mpr ⟨written.visible, ih⟩

/-! ### The text of units -/

/-- The units stand for the text: halves of surrogate pairs are side by side. -/
inductive Stand : List TextUnit → List Char → Prop
  | nil : Stand [] []
  | char {c : Char} {us : List TextUnit} {cs : List Char} : Stand us cs →
      Stand (.char c :: us) (c :: cs)
  | pair {high low : Fin 1024} {c : Char} {us : List TextUnit} {cs : List Char} :
      c.toNat = 0x10000 + high * 1024 + low → Stand us cs →
      Stand (.leading high :: .trailing low :: us) (c :: cs)

theorem toNat_joinPair (high low : Fin 1024) :
    (joinPair high low).toNat = 0x10000 + high * 1024 + low := by
  have valid : (0x10000 + high.val * 1024 + low.val).isValidChar := .inr ⟨by omega, by omega⟩
  rw [joinPair, Char.ofNat, dif_pos valid]
  rfl

/-- **Joining reads off the text that units stand for.** -/
theorem joined_eq_ok_iff {us : List TextUnit} {cs : List Char} :
    joined none us = .ok cs ↔ Stand us cs := by
  constructor
  · intro h
    fun_induction joined none us generalizing cs with
    | case1 => cases h; exact .nil
    | case2 => cases h
    | case3 c us ih =>
      obtain ⟨rest, more, result⟩ := bind_eq_ok_iff.mp h
      cases result
      exact .char (ih more)
    | case4 high low us ih =>
      obtain ⟨rest, more, result⟩ := bind_eq_ok_iff.mp h
      cases result
      exact .pair (toNat_joinPair high low) (ih more)
    | case5 => cases h
    | case6 => cases h
    | case7 => cases h
  · intro h
    induction h with
    | nil => rfl
    | char _ ih => exact bind_eq_ok_iff.mpr ⟨_, ih, rfl⟩
    | @pair high low c us cs code _ ih =>
      have same : c = joinPair high low := Char.toNat_inj.mp (code.trans (toNat_joinPair high low).symm)
      rw [same]
      exact bind_eq_ok_iff.mpr ⟨_, ih, rfl⟩

theorem Stand.unique {us : List TextUnit} {cs ds : List Char} (h : Stand us cs) (h' : Stand us ds) :
    cs = ds :=
  Except.ok.inj ((joined_eq_ok_iff.mpr h).symm.trans (joined_eq_ok_iff.mpr h'))

/-- Characters stand for themselves. -/
theorem stand_chars (cs : List Char) : Stand (cs.map .char) cs := by
  induction cs with
  | nil => exact .nil
  | cons c cs ih => exact .char ih

end TextUnit

end Mips32.Json
