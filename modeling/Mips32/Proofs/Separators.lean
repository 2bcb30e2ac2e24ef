import Mips32.Proofs.ReadBack

/-! Where underscores stand in a literal. They separate digits in the literals that neither start nor
end with one behind the radix prefix, and in no others (`Literal.separating_iff`). Those others are
literals all the same: behind the prefix underscores can be put anywhere, or left out, and the
number stays the same (`Literal.denotes_of_filter_eq`). -/
namespace Mips32

namespace Literal

/-! ### Runs of underscores -/

/-- Between `front` and `back` the text has underscores only, and all that stand there together. -/
structure Run (cs front back : List Char) : Prop where
  text : ∃ k, cs = front ++ (List.replicate (k + 1) '_' ++ back)
  before : front.getLast? ≠ some '_'
  behind : back.head? ≠ some '_'

/-- Every run of underscores has a digit in front of it and a digit behind it. -/
def Separating (r : Radix) (cs : List Char) : Prop :=
  ∀ front back, Run cs front back →
    (∃ c ∈ front.getLast?, ∃ d, r.Writes d c) ∧ ∃ c ∈ back.head?, ∃ d, r.Writes d c

theorem Run.reverse {cs front back : List Char} (run : Run cs front back) :
    Run cs.reverse back.reverse front.reverse := by
  obtain ⟨k, rfl⟩ := run.text
  refine ⟨⟨k, ?_⟩, ?_, ?_⟩
  · simp
  · rw [List.getLast?_reverse]
    exact run.behind
  · rw [List.head?_reverse]
    exact run.before

/-- A text that starts with an underscore starts with a run. -/
theorem exists_first_run {cs : List Char} (first : cs.head? = some '_') :
    ∃ back, Run cs [] back := by
  induction cs with
  | nil => cases first
  | cons c cs ih =>
    obtain rfl : c = '_' := Option.some.inj first
    by_cases more : cs.head? = some '_'
    · obtain ⟨back, ⟨k, rfl⟩, -, behind⟩ := ih more
      exact ⟨back, ⟨k + 1, rfl⟩, nofun, behind⟩
    · exact ⟨cs, ⟨0, rfl⟩, nofun, more⟩

theorem exists_last_run {cs : List Char} (last : cs.getLast? = some '_') :
    ∃ front, Run cs front [] := by
  rw [← List.head?_reverse] at last
  obtain ⟨back, run⟩ := exists_first_run last
  have turned := run.reverse
  rw [List.reverse_reverse] at turned
  exact ⟨back.reverse, turned⟩

/-! ### Runs in spelled digits -/

theorem underscore_or_digit {r : Radix} {cs : List Char} {digits : List Nat}
    (h : Spelled r cs digits) : ∀ c ∈ cs, c = '_' ∨ ∃ d, r.Writes d c := by
  induction h with
  | nil => exact List.forall_mem_nil _
  | underscore _ ih => exact List.forall_mem_cons.mpr ⟨.inl rfl, ih⟩
  | digit written _ ih => exact List.forall_mem_cons.mpr ⟨.inr ⟨_, written⟩, ih⟩

/-- On either side of a run stands a digit, or the text ends there. -/
theorem Run.sides {r : Radix} {cs front back : List Char} {digits : List Nat}
    (run : Run cs front back) (h : Spelled r cs digits) :
    (front = [] ∨ ∃ c ∈ front.getLast?, ∃ d, r.Writes d c) ∧
      (back = [] ∨ ∃ c ∈ back.head?, ∃ d, r.Writes d c) := by
  obtain ⟨k, rfl⟩ := run.text
  have chars := underscore_or_digit h
  constructor
  · cases last : front.getLast? with
    | none => exact .inl (List.getLast?_eq_none_iff.mp last)
    | some c =>
      have member : c ∈ front := List.mem_of_getLast? last
      have digit := (chars c (List.mem_append_left _ member)).resolve_left
        (fun underscore => run.before (underscore ▸ last))
      exact .inr ⟨c, rfl, digit⟩
  · cases first : back.head? with
    | none => exact .inl (List.head?_eq_none_iff.mp first)
    | some c =>
      have member : c ∈ back := List.mem_of_head? first
      have digit := (chars c (by simp [member])).resolve_left
        (fun underscore => run.behind (underscore ▸ first))
      exact .inr ⟨c, rfl, digit⟩

/-- **Underscores separate digits when there is none at the ends.** -/
theorem separating_iff {r : Radix} {cs : List Char} {digits : List Nat} (h : Spelled r cs digits) :
    Separating r cs ↔ cs.head? ≠ some '_' ∧ cs.getLast? ≠ some '_' := by
  constructor
  · intro separating
    constructor
    · intro first
      obtain ⟨back, run⟩ := exists_first_run first
      obtain ⟨c, none, _⟩ := (separating [] back run).1
      cases none
    · intro last
      obtain ⟨front, run⟩ := exists_last_run last
      obtain ⟨c, none, _⟩ := (separating front [] run).2
      cases none
  · rintro ⟨first, last⟩ front back run
    obtain ⟨before, behind⟩ := run.sides h
    obtain ⟨k, rfl⟩ := run.text
    refine ⟨before.resolve_left ?_, behind.resolve_left ?_⟩
    · rintro rfl
      exact first rfl
    · rintro rfl
      exact last (by simp [List.getLast?_append, List.getLast?_replicate])

/-! ### Underscores behind the prefix -/

/-- What stands in front of the digits is the prefix that announces their radix. -/
theorem exists_front {t rest : List Char} {r : Radix} (cut : Cut t r rest) :
    ∃ front, Announces front r ∧ t = front ++ rest := by
  cases cut with
  | @announced p _ _ member text => exact ⟨p.toList, .inr (by rwa [String.ofList_toList]), text⟩
  | bare => exact ⟨[], .inl ⟨rfl, rfl⟩, rfl⟩

/-- Underscores do not count among the digits. -/
theorem spelled_of_filter_eq {r : Radix} {cs ds : List Char} {digits : List Nat}
    (same : ds.filter (· ≠ '_') = cs.filter (· ≠ '_')) (h : Spelled r cs digits) :
    Spelled r ds digits := by
  rw [← mapM_digit?_eq_some_iff] at h ⊢
  rwa [same]

/-- **Behind the prefix underscores may stand anywhere**, and the number stays the same. -/
theorem denotes_of_filter_eq {front cs ds : List Char} {r : Radix} {digits : List Nat}
    (announced : Announces front r) (spelled : Spelled r cs digits) (some_digit : digits ≠ [])
    (same : ds.filter (· ≠ '_') = cs.filter (· ≠ '_')) :
    Denotes (front ++ ds) (Nat.ofDigits r.base digits.reverse) := by
  have denoted : Denotes ([] ++ (front ++ ds) ++ []) (Nat.ofDigits r.base digits.reverse) :=
    denotes_of_spelled announced (spelled_of_filter_eq same spelled) some_digit (by simp)
  rwa [List.nil_append, List.append_nil] at denoted

/-- A literal is cut in one way. -/
theorem Denotes.spelled {s t rest : List Char} {r : Radix} {n : Nat} (h : Denotes s n)
    (trimmed : Text.Trimmed s t) (cut : Cut t r rest) :
    ∃ digits, Spelled r rest digits ∧ digits ≠ [] ∧ n = Nat.ofDigits r.base digits.reverse := by
  obtain ⟨t', r', rest', digits, trimmed', cut', spelled, some_digit, value⟩ := h
  obtain rfl : t' = t := (Text.trim_eq_iff.mpr trimmed').symm.trans (Text.trim_eq_iff.mpr trimmed)
  obtain ⟨rfl, rfl⟩ : r' = r ∧ rest' = rest :=
    Prod.mk.inj ((splitRadix_eq_iff.mpr cut').symm.trans (splitRadix_eq_iff.mpr cut))
  exact ⟨digits, spelled, some_digit, value⟩

end Literal

/-- **Where underscores stand in a word literal.** Let `rest` be what is behind the radix prefix. Its
underscores all separate digits exactly when it neither starts nor ends with one; those of them that
are not at its ends always do. And underscores are read over wherever they stand: when they are put
anywhere in `rest`, or left out, the literal is read as the same word. -/
theorem underscores_separate_iff {s : String} {w : Word} (read : Word.ofLiteral s = .ok w)
    {t rest : List Char} {r : Radix} (trimmed : Text.Trimmed s.toList t)
    (cut : Literal.Cut t r rest) :
    (Literal.Separating r rest ↔ rest.head? ≠ some '_' ∧ rest.getLast? ≠ some '_') ∧
      (∀ front back, Literal.Run rest front back →
        (front = [] ∨ ∃ c ∈ front.getLast?, ∃ d, r.Writes d c) ∧
          (back = [] ∨ ∃ c ∈ back.head?, ∃ d, r.Writes d c)) ∧
      ∃ front, t = front ++ rest ∧
        ∀ body, body.filter (· ≠ '_') = rest.filter (· ≠ '_') →
          Word.ofLiteral (.ofList (front ++ body)) = .ok w := by
  obtain ⟨digits, spelled, some_digit, value⟩ :=
    (Word.ofLiteral_eq_ok_iff.mp read).spelled trimmed cut
  obtain ⟨front, announced, text⟩ := Literal.exists_front cut
  refine ⟨Literal.separating_iff spelled, fun _ _ run => run.sides spelled, front, text, ?_⟩
  intro body same
  rw [Word.ofLiteral_eq_ok_iff, String.toList_ofList, value]
  exact Literal.denotes_of_filter_eq announced spelled some_digit same

/-- Underscores between digits, and the same digits with underscores around them. -/
theorem underscores_separate_iff_22300005 :
    Word.ofLiteral "0X2230_0005" = .ok 0x22300005 ∧
      Text.Trimmed "0X2230_0005".toList "0X2230_0005".toList ∧
      Literal.Cut "0X2230_0005".toList .hexadecimal "2230_0005".toList ∧
      Literal.Separating .hexadecimal "2230_0005".toList ∧
      Word.ofLiteral "0X_22300005__" = .ok 0x22300005 := by
  have read : Word.ofLiteral "0X2230_0005" = .ok 0x22300005 := by decide +kernel
  have trimmed : Text.Trimmed "0X2230_0005".toList "0X2230_0005".toList :=
    Text.trim_eq_iff.mp (by decide +kernel)
  have cut : Literal.Cut "0X2230_0005".toList .hexadecimal "2230_0005".toList :=
    Literal.splitRadix_eq_iff.mp (by decide +kernel)
  obtain ⟨separating, -, front, text, free⟩ := underscores_separate_iff read trimmed cut
  obtain rfl : front = ['0', 'X'] := (List.append_cancel_right text).symm
  have around : Word.ofLiteral "0X_22300005__" = .ok 0x22300005 :=
    free "_22300005__".toList (by decide +kernel)
  exact ⟨read, trimmed, cut, separating.mpr (by decide +kernel), around⟩

/-- **Underscores that separate nothing are accepted**: right behind the prefix, and at the end. -/
theorem underscores_around_digit :
    Word.ofLiteral "0x_1_" = .ok 1 ∧ Text.Trimmed "0x_1_".toList "0x_1_".toList ∧
      Literal.Cut "0x_1_".toList .hexadecimal "_1_".toList ∧
      ¬ Literal.Separating .hexadecimal "_1_".toList := by
  refine ⟨by decide +kernel, Text.trim_eq_iff.mp (by decide +kernel),
    Literal.splitRadix_eq_iff.mp (by decide +kernel), fun separating => ?_⟩
  have run : Literal.Run "_1_".toList [] "1_".toList :=
    ⟨⟨0, by decide⟩, by decide, by decide⟩
  obtain ⟨c, none, _⟩ := (separating _ _ run).1
  cases none

end Mips32
