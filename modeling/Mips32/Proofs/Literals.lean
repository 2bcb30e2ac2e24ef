import Mips32.Literal
import Mips32.Proofs.Mnemonics
import Mips32.Proofs.Trimming
import Mathlib.Data.Nat.Digits.Defs

/-! Which texts are word literals, and which words they are. The grammar is stated on its own: the
trimmed text, a cut behind its radix prefix, and digits with underscores among them (`Denotes`).
The reader accepts what the grammar does (`value?_eq_some_iff`), and the cut of the prefix, made by
counting bytes, never falls inside a character (`splitRadixBytes?_eq`). -/
namespace Mips32

/-- A table over the ASCII code points is about every ASCII character. -/
theorem forall_ascii {P : Char → Prop} (table : ∀ n < 128, P (Char.ofNat n)) {c : Char}
    (ascii : c.toNat < 128) : P c := by
  have := table c.toNat ascii
  rwa [Char.ofNat_toNat] at this

/-! ### Digits -/

namespace Radix

/-- The character `c` writes the digit `d`, a letter in either case. -/
def Writes (r : Radix) (d : Nat) (c : Char) : Prop :=
  d < r.base ∧ (c = Nat.digitChar d ∨ c = (Nat.digitChar d).toUpper)

theorem base_le (r : Radix) : r.base ≤ 16 := by
  cases r <;> decide

theorem digitValue?_writes {c : Char} {d : Nat} (h : digitValue? c = some d) :
    c = Nat.digitChar d ∨ c = (Nat.digitChar d).toUpper := by
  have ascii : c.toNat < 128 := by
    by_contra large
    have above : ∀ e : Char, e.toNat < 128 → ¬ c ≤ e := by
      intro e he hc
      have : c.toNat ≤ e.toNat := hc
      omega
    rw [digitValue?, if_neg (above '9' (by decide) ·.2), if_neg (above 'f' (by decide) ·.2),
      if_neg (above 'F' (by decide) ·.2)] at h
    cases h
  have table : ∀ n < 128, ∀ e ∈ digitValue? (Char.ofNat n),
      Char.ofNat n = Nat.digitChar e ∨ Char.ofNat n = (Nat.digitChar e).toUpper := by decide
  exact forall_ascii (P := fun c => ∀ e ∈ digitValue? c,
    c = Nat.digitChar e ∨ c = (Nat.digitChar e).toUpper) table ascii d h

theorem digitValue?_of_writes {c : Char} {d : Nat} (small : d < 16)
    (h : c = Nat.digitChar d ∨ c = (Nat.digitChar d).toUpper) : digitValue? c = some d := by
  have table : ∀ e < 16, digitValue? (Nat.digitChar e) = some e ∧
      digitValue? (Nat.digitChar e).toUpper = some e := by decide
  rcases h with rfl | rfl
  · exact (table d small).1
  · exact (table d small).2

theorem digit?_eq_some_iff {r : Radix} {c : Char} {d : Nat} :
    r.digit? c = some d ↔ r.Writes d c := by
  rw [digit?, Option.filter_eq_some_iff, decide_eq_true_eq]
  constructor
  · rintro ⟨value, small⟩
    exact ⟨small, digitValue?_writes value⟩
  · rintro ⟨small, written⟩
    exact ⟨digitValue?_of_writes (Nat.lt_of_lt_of_le small r.base_le) written, small⟩

/-- An underscore writes no digit. -/
theorem not_writes_underscore (r : Radix) (d : Nat) : ¬ r.Writes d '_' := by
  rw [← digit?_eq_some_iff]
  simp [digit?, show digitValue? '_' = none from rfl]

/-- The number of a run of digits, which weighs them by powers of the base. -/
theorem number_eq_ofDigits (r : Radix) (digits : List Nat) :
    r.number digits = Nat.ofDigits r.base digits.reverse := by
  rw [number, Nat.ofDigits_eq_foldr, List.foldr_reverse]
  congr 1
  funext acc d
  simp [Nat.mul_comm, Nat.add_comm]

end Radix

namespace Literal

/-! ### The grammar -/

/-- The radix prefixes, with either letter. -/
def prefixes : List (String × Radix) :=
  [("0b", .binary), ("0B", .binary), ("0o", .octal), ("0O", .octal), ("0x", .hexadecimal),
    ("0X", .hexadecimal)]

/-- The radix that a text is written in, and the text behind the prefix that says so. -/
inductive Cut (t : List Char) : Radix → List Char → Prop
  | announced {p : String} {r : Radix} {rest : List Char} :
      (p, r) ∈ prefixes → t = p.toList ++ rest → Cut t r rest
  | bare : (∀ p r, (p, r) ∈ prefixes → ¬ p.toList <+: t) → Cut t .decimal t

/-- The text is the digits, written in order, with underscores anywhere among them. -/
inductive Spelled (r : Radix) : List Char → List Nat → Prop
  | nil : Spelled r [] []
  | underscore {cs : List Char} {digits : List Nat} :
      Spelled r cs digits → Spelled r ('_' :: cs) digits
  | digit {c : Char} {cs : List Char} {d : Nat} {digits : List Nat} :
      r.Writes d c → Spelled r cs digits → Spelled r (c :: cs) (d :: digits)

/-- The text `s` is a literal of the number `n`, of any size. -/
def Denotes (s : List Char) (n : Nat) : Prop :=
  ∃ t r rest digits, Text.Trimmed s t ∧ Cut t r rest ∧ Spelled r rest digits ∧ digits ≠ [] ∧
    n = Nat.ofDigits r.base digits.reverse

/-! ### Reading by the grammar -/

/-- A radix prefix is a zero and a letter. -/
theorem mem_prefixes_iff {p : String} {r : Radix} :
    (p, r) ∈ prefixes ↔ ∃ c, p.toList = ['0', c] ∧ Radix.ofLetter? c = some r := by
  constructor
  · intro member
    simp only [prefixes, List.mem_cons, Prod.mk.injEq, List.not_mem_nil, or_false] at member
    rcases member with ⟨rfl, rfl⟩ | ⟨rfl, rfl⟩ | ⟨rfl, rfl⟩ | ⟨rfl, rfl⟩ | ⟨rfl, rfl⟩ | ⟨rfl, rfl⟩
    all_goals exact ⟨_, rfl, rfl⟩
  · rintro ⟨c, text, letter⟩
    obtain rfl : p = String.ofList ['0', c] := by rw [← text, String.ofList_toList]
    rw [Radix.ofLetter?] at letter
    split_ifs at letter with binary octal hexadecimal
    · obtain rfl := Option.some.inj letter
      rcases binary with rfl | rfl <;> decide
    · obtain rfl := Option.some.inj letter
      rcases octal with rfl | rfl <;> decide
    · obtain rfl := Option.some.inj letter
      rcases hexadecimal with rfl | rfl <;> decide

theorem splitRadix_of_letter {c : Char} {r : Radix} (cs : List Char)
    (h : Radix.ofLetter? c = some r) : splitRadix ('0' :: c :: cs) = (r, cs) := by
  simp only [splitRadix, h]

/-- Without a prefix the text is left whole. -/
theorem splitRadix_of_bare {t : List Char} (h : ∀ p r, (p, r) ∈ prefixes → ¬ p.toList <+: t) :
    splitRadix t = (.decimal, t) := by
  rw [splitRadix.eq_def]
  split
  · rename_i c cs
    cases letter : Radix.ofLetter? c with
    | none => rfl
    | some r =>
      have member : (String.ofList ['0', c], r) ∈ prefixes :=
        mem_prefixes_iff.mpr ⟨c, String.toList_ofList, letter⟩
      exact absurd ⟨cs, by simp⟩ (h _ _ member)
  · rfl

theorem splitRadix_eq_iff {t : List Char} {r : Radix} {rest : List Char} :
    splitRadix t = (r, rest) ↔ Cut t r rest := by
  constructor
  · rintro split
    by_cases bare : ∀ p r, (p, r) ∈ prefixes → ¬ p.toList <+: t
    · rw [splitRadix_of_bare bare] at split
      cases split
      exact .bare bare
    · push Not at bare
      obtain ⟨p, q, member, more, rfl⟩ := bare
      obtain ⟨c, text, letter⟩ := mem_prefixes_iff.mp member
      rw [text, List.cons_append, List.singleton_append, splitRadix_of_letter more letter] at split
      cases split
      exact .announced member rfl
  · rintro (⟨member, rfl⟩ | bare)
    · obtain ⟨c, text, letter⟩ := mem_prefixes_iff.mp member
      rw [text]
      exact splitRadix_of_letter _ letter
    · exact splitRadix_of_bare bare

theorem mapM_digit?_eq_some_iff {r : Radix} {cs : List Char} {digits : List Nat} :
    (cs.filter (· ≠ '_')).mapM r.digit? = some digits ↔ Spelled r cs digits := by
  rw [mapM_eq_some_iff]
  constructor
  · intro h
    induction cs generalizing digits with
    | nil =>
      cases h
      exact .nil
    | cons c cs ih =>
      by_cases underscore : c = '_'
      · subst underscore
        exact .underscore (ih h)
      · rw [List.filter_cons_of_pos (by simpa using underscore)] at h
        obtain ⟨d, ds, written, more, rfl⟩ := List.forall₂_cons_left_iff.mp h
        exact .digit (Radix.digit?_eq_some_iff.mp written) (ih more)
  · intro h
    induction h with
    | nil => exact .nil
    | underscore _ ih => exact ih
    | @digit c cs d digits written _ ih =>
      have other : c ≠ '_' := by
        rintro rfl
        exact r.not_writes_underscore d written
      rw [List.filter_cons_of_pos (by simpa using other)]
      exact .cons (Radix.digit?_eq_some_iff.mpr written) ih

theorem number?_eq_some_iff {r : Radix} {cs : List Char} {n : Nat} :
    number? r cs = some n ↔
      ∃ digits, Spelled r cs digits ∧ digits ≠ [] ∧ n = Nat.ofDigits r.base digits.reverse := by
  simp only [← mapM_digit?_eq_some_iff, ← Radix.number_eq_ofDigits]
  rw [number?]
  cases (cs.filter (· ≠ '_')).mapM r.digit? with
  | none => simp
  | some digits => cases digits <;> simp [eq_comm]

/-- **The reader accepts the grammar.** It gives the number that a text denotes. -/
theorem value?_eq_some_iff {s : List Char} {n : Nat} : value? s = some n ↔ Denotes s n := by
  rw [value?]
  constructor
  · intro h
    obtain ⟨digits, spelled, some_digit, value⟩ := number?_eq_some_iff.mp h
    have cut := splitRadix_eq_iff.mp (rfl : splitRadix (Text.trim s) = _)
    exact ⟨_, _, _, digits, Text.trimmed_trim s, cut, spelled, some_digit, value⟩
  · rintro ⟨t, r, rest, digits, trimmed, cut, spelled, some_digit, value⟩
    obtain rfl := Text.trim_eq_iff.mpr trimmed
    rw [splitRadix_eq_iff.mpr cut]
    exact number?_eq_some_iff.mpr ⟨digits, spelled, some_digit, value⟩

end Literal

/-! ### The prefix by bytes -/

/-- A text in two, the first part of a number of bytes. There is no cut inside a character. -/
def Text.cutAt? : Nat → List Char → Option (List Char × List Char)
  | 0, cs => some ([], cs)
  | _ + 1, [] => none
  | n + 1, c :: cs =>
    if c.utf8Size ≤ n + 1 then (cutAt? (n + 1 - c.utf8Size) cs).map fun cut => (c :: cut.1, cut.2)
    else none

theorem Text.cutAt?_append (front back : List Char) :
    cutAt? (String.ofList front).utf8ByteSize (front ++ back) = some (front, back) := by
  induction front with
  | nil => simp [cutAt?]
  | cons c front ih =>
    have size : (String.ofList (c :: front)).utf8ByteSize =
        c.utf8Size + (String.ofList front).utf8ByteSize := by
      rw [← String.utf8ByteSize_singleton, ← String.utf8ByteSize_append,
        String.singleton_eq_ofList, ← String.ofList_append, List.singleton_append]
    have positive := c.utf8Size_pos
    obtain ⟨n, step⟩ : ∃ n, c.utf8Size + (String.ofList front).utf8ByteSize = n + 1 :=
      ⟨_, (Nat.succ_pred_eq_of_pos (by omega)).symm⟩
    rw [size, step, List.cons_append, cutAt?, if_pos (by omega),
      show n + 1 - c.utf8Size = (String.ofList front).utf8ByteSize by omega, ih]
    rfl

theorem Text.append_of_cutAt? {n : Nat} {cs front back : List Char}
    (h : cutAt? n cs = some (front, back)) : cs = front ++ back := by
  induction cs generalizing n front with
  | nil =>
    cases n with
    | zero => cases h; rfl
    | succ n => cases h
  | cons c cs ih =>
    cases n with
    | zero => cases h; rfl
    | succ n =>
      rw [cutAt?] at h
      split at h
      · obtain ⟨cut, found, same⟩ := Option.map_eq_some_iff.mp h
        cases same
        rw [ih found]
        rfl
      · cases h

namespace Literal

/-- The radix of a prefix in lower case. -/
def radixOf? : List Char → Option Radix
  | ['0', 'b'] => some .binary
  | ['0', 'o'] => some .octal
  | ['0', 'x'] => some .hexadecimal
  | _ => none

/-- The prefix is looked for in the first two bytes, if these are whole characters, and cut off
there. The result is missing if the text cannot be cut there. -/
def splitRadixBytes? (t : List Char) : Option (Radix × List Char) :=
  match (Text.cutAt? 2 t).bind fun cut => radixOf? (cut.1.map Char.toLower) with
  | some r => (Text.cutAt? 2 t).map fun cut => (r, cut.2)
  | none => some (.decimal, t)

theorem eq_of_toLower_eq {c l : Char} (h : c.toLower = l) : c = l ∨ c = l.toUpper := by
  subst h
  by_cases ascii : c.toNat < 128
  · have table : ∀ n < 128, Char.ofNat n = (Char.ofNat n).toLower ∨
        Char.ofNat n = (Char.ofNat n).toLower.toUpper := by decide
    exact forall_ascii (P := fun c => c = c.toLower ∨ c = c.toLower.toUpper) table ascii
  · left
    have above : ¬ (c.val ≥ 'A'.val ∧ c.val ≤ 'Z'.val) :=
      fun h => ascii (Nat.lt_of_le_of_lt h.2 (by decide))
    exact (dif_neg (e := fun _ => c) above).symm

theorem radixOf?_eq_some_iff {cs : List Char} {r : Radix} :
    radixOf? (cs.map Char.toLower) = some r ↔ (String.ofList cs, r) ∈ prefixes := by
  constructor
  · intro h
    have two : ∀ l : Char, cs.map Char.toLower = ['0', l] →
        ∃ c, cs = ['0', c] ∧ (c = l ∨ c = l.toUpper) := by
      intro l lower
      obtain ⟨z, rest, rfl, zero, more⟩ := List.map_eq_cons_iff.mp lower
      obtain ⟨c, _, rfl, letter, last⟩ := List.map_eq_cons_iff.mp more
      rw [List.map_eq_nil_iff] at last
      obtain rfl : z = '0' := by
        rcases eq_of_toLower_eq zero with h | h <;> exact h
      exact ⟨c, by rw [last], eq_of_toLower_eq letter⟩
    rw [radixOf?.eq_def] at h
    split at h
    case h_4 => cases h
    all_goals
      obtain rfl := Option.some.inj h
      rename_i lower
      obtain ⟨c, rfl, rfl | rfl⟩ := two _ lower <;> decide
  · intro member
    have table : ∀ e ∈ prefixes, radixOf? (e.1.toList.map Char.toLower) = some e.2 := by decide
    have found := table _ member
    rwa [String.toList_ofList] at found

theorem utf8ByteSize_of_mem_prefixes {p : String} {r : Radix} (h : (p, r) ∈ prefixes) :
    p.utf8ByteSize = 2 := by
  have table : ∀ e ∈ prefixes, e.1.utf8ByteSize = 2 := by decide
  exact table _ h

/-- **The prefix is cut off between characters**, whatever the text starts with. -/
theorem splitRadixBytes?_eq (t : List Char) : splitRadixBytes? t = some (splitRadix t) := by
  rw [splitRadixBytes?]
  obtain ⟨r, rest, split⟩ : ∃ r rest, splitRadix t = (r, rest) := ⟨_, _, rfl⟩
  rw [split]
  rcases splitRadix_eq_iff.mp split with @⟨p, r, rest, member, rfl⟩ | bare
  · have cut := Text.cutAt?_append p.toList rest
    rw [String.ofList_toList, utf8ByteSize_of_mem_prefixes member] at cut
    have found : radixOf? (p.toList.map Char.toLower) = some r :=
      radixOf?_eq_some_iff.mpr (by rwa [String.ofList_toList])
    rw [cut, Option.bind_some, found]
    rfl
  · have missing :
        ((Text.cutAt? 2 t).bind fun cut => radixOf? (cut.1.map Char.toLower)) = none := by
      rw [Option.eq_none_iff_forall_ne_some]
      intro r found
      obtain ⟨⟨front, back⟩, cut, radix⟩ := Option.bind_eq_some_iff.mp found
      have member := radixOf?_eq_some_iff.mp radix
      exact bare _ r member ⟨back, by rw [String.toList_ofList, Text.append_of_cutAt? cut]⟩
    rw [missing]

/-- The second byte of this text is inside a character. -/
example : splitRadixBytes? ['0', 'é'] = some (.decimal, ['0', 'é']) := by decide

end Literal

theorem Word.ofLiteral_eq_ok_iff {s : String} {w : Word} :
    Word.ofLiteral s = .ok w ↔ Literal.Denotes s.toList w.toNat := by
  rw [← Literal.value?_eq_some_iff, Word.ofLiteral]
  constructor
  · intro h
    split at h
    case h_2 => cases h
    case h_1 n value =>
      split at h
      case isFalse => cases h
      case isTrue fits =>
        rw [value, ← Except.ok.inj h, UInt32.toNat_ofNat_of_lt' fits]
  · intro value
    rw [value]
    simp only [w.toNat_lt_size, if_pos, UInt32.ofNat_toNat]

theorem Word.ofLiteral_cases (s : String) :
    (∃ w, Word.ofLiteral s = .ok w) ∨ Word.ofLiteral s = .error (.malformedWord s) := by
  rw [Word.ofLiteral]
  split
  · split
    · exact .inl ⟨_, rfl⟩
    · exact .inr rfl
  · exact .inr rfl

theorem Word.ofLiteral_eq_error_iff {s : String} {e : DecodeError} :
    Word.ofLiteral s = .error e ↔
      (¬ ∃ n ≤ 2 ^ 32 - 1, Literal.Denotes s.toList n) ∧ e = .malformedWord s := by
  constructor
  · intro refused
    rcases Word.ofLiteral_cases s with ⟨w, read⟩ | malformed
    · rw [read] at refused
      cases refused
    · rw [malformed] at refused
      refine ⟨?_, (Except.error.inj refused).symm⟩
      rintro ⟨n, small, denoted⟩
      have fits : (UInt32.ofNat n).toNat = n :=
        UInt32.toNat_ofNat_of_lt' (Nat.lt_succ_of_le small)
      rw [← fits] at denoted
      rw [Word.ofLiteral_eq_ok_iff.mpr denoted] at malformed
      cases malformed
  · rintro ⟨denied, rfl⟩
    rcases Word.ofLiteral_cases s with ⟨w, read⟩ | malformed
    · have small : w.toNat ≤ 2 ^ 32 - 1 := Nat.le_pred_of_lt w.toNat_lt_size
      exact absurd ⟨w.toNat, small, Word.ofLiteral_eq_ok_iff.mp read⟩ denied
    · exact malformed

/-- **Exactly the literals of words are read.** A text is read as the word that it denotes; a text
that denotes none, or a number above all words, is refused and given back with its blanks; and the
cut of the prefix is never made inside a character. -/
theorem Word.ofLiteral_exactly_denoted (s : String) :
    (∀ w, Word.ofLiteral s = .ok w ↔ Literal.Denotes s.toList w.toNat) ∧
      (∀ e, Word.ofLiteral s = .error e ↔
        (¬ ∃ n ≤ 2 ^ 32 - 1, Literal.Denotes s.toList n) ∧ e = .malformedWord s) ∧
      Literal.splitRadixBytes? (Text.trim s.toList) =
        some (Literal.splitRadix (Text.trim s.toList)) :=
  ⟨fun _ => Word.ofLiteral_eq_ok_iff, fun _ => Word.ofLiteral_eq_error_iff,
    Literal.splitRadixBytes?_eq _⟩

end Mips32
