import Mips32.Literal

/-! What trimming keeps of a text. A text has one trimmed part, which starts and ends with
characters that are not blank and has only blanks around it (`trim_eq_iff`). -/
namespace Mips32.Text

/-- The code points with the Unicode property White_Space. -/
def whiteSpace : List Nat :=
  [0x9, 0xA, 0xB, 0xC, 0xD, 0x20, 0x85, 0xA0, 0x1680, 0x2000, 0x2001, 0x2002, 0x2003, 0x2004,
    0x2005, 0x2006, 0x2007, 0x2008, 0x2009, 0x200A, 0x2028, 0x2029, 0x202F, 0x205F, 0x3000]

theorem isBlank_iff (c : Char) : isBlank c ↔ c.toNat ∈ whiteSpace := by
  constructor
  · intro blank
    simp only [isBlank, Bool.or_eq_true, Bool.and_eq_true, decide_eq_true_eq,
      List.contains_iff_mem] at blank
    rcases blank with (⟨low, high⟩ | ⟨low, high⟩) | lone
    · have controls : ∀ k < 5, 0x9 + k ∈ whiteSpace := by decide
      have := controls (c.toNat - 0x9) (by omega)
      rwa [Nat.add_sub_cancel' low] at this
    · have spaces : ∀ k < 11, 0x2000 + k ∈ whiteSpace := by decide
      have := spaces (c.toNat - 0x2000) (by omega)
      rwa [Nat.add_sub_cancel' low] at this
    · have others : ∀ n ∈ loneBlanks, n ∈ whiteSpace := by decide
      exact others c.toNat lone
  · intro member
    have blank : ∀ n ∈ whiteSpace, isBlank (Char.ofNat n) := by decide
    have := blank c.toNat member
    rwa [Char.ofNat_toNat] at this

theorem not_isBlank_iff (c : Char) : isBlank c = false ↔ c.toNat ∉ whiteSpace := by
  rw [← isBlank_iff, Bool.not_eq_true]

/-- The text `cs` is `t` with white space around it, and `t` has none at its ends. -/
structure Trimmed (cs t : List Char) : Prop where
  around : ∃ before after, cs = before ++ t ++ after ∧
    ∀ c ∈ before ++ after, c.toNat ∈ whiteSpace
  head : ∀ c ∈ t.head?, c.toNat ∉ whiteSpace
  last : ∀ c ∈ t.getLast?, c.toNat ∉ whiteSpace

/-- Blanks in front are dropped, up to a character that is none. -/
theorem dropWhile_blanks {before rest : List Char} (blank : ∀ c ∈ before, isBlank c)
    (stop : ∀ c ∈ rest.head?, isBlank c = false) :
    (before ++ rest).dropWhile isBlank = rest := by
  rw [List.dropWhile_append_of_pos blank]
  cases rest with
  | nil => rfl
  | cons c cs => rw [List.dropWhile_cons_of_neg (by simp [stop c rfl])]

theorem head?_dropWhile_blanks (cs : List Char) :
    ∀ c ∈ (cs.dropWhile isBlank).head?, isBlank c = false := by
  intro c hc
  have := List.head?_dropWhile_not isBlank cs
  rw [Option.mem_def.mp hc] at this
  exact this

theorem trimmed_trim (cs : List Char) : Trimmed cs (trim cs) := by
  have front := List.takeWhile_append_dropWhile (p := isBlank) (l := cs)
  have back := congrArg List.reverse
    (List.takeWhile_append_dropWhile (p := isBlank) (l := (cs.dropWhile isBlank).reverse))
  rw [List.reverse_append, List.reverse_reverse] at back
  change trim cs ++ _ = _ at back
  refine ⟨⟨_, _, by rw [List.append_assoc, back, front], ?_⟩, ?_, ?_⟩
  · intro c hc
    rw [← isBlank_iff]
    rw [List.mem_append, List.mem_reverse] at hc
    rcases hc with hc | hc <;> exact List.all_eq_true.mp (List.all_takeWhile ..) c hc
  · intro c hc
    rw [← not_isBlank_iff]
    refine head?_dropWhile_blanks cs c ?_
    rw [← back, List.head?_append, Option.mem_def.mp hc]
    rfl
  · intro c hc
    rw [trim, List.getLast?_reverse] at hc
    exact (not_isBlank_iff c).mp (head?_dropWhile_blanks _ c hc)

/-- **Trimming keeps what is between the blanks at both ends**, and nothing else. -/
theorem trim_eq_iff {cs t : List Char} : trim cs = t ↔ Trimmed cs t := by
  constructor
  · rintro rfl
    exact trimmed_trim cs
  · rintro ⟨⟨before, after, rfl, blank⟩, head, last⟩
    have front : ∀ c ∈ before, isBlank c := fun c hc =>
      (isBlank_iff c).mpr (blank c (List.mem_append_left _ hc))
    have back : ∀ c ∈ after.reverse, isBlank c := fun c hc =>
      (isBlank_iff c).mpr (blank c (List.mem_append_right _ (List.mem_reverse.mp hc)))
    cases t with
    | nil =>
      have all : ∀ c ∈ before ++ after, isBlank c := fun c hc => (isBlank_iff c).mpr (blank c hc)
      have none : ((before ++ after) ++ []).dropWhile isBlank = [] := dropWhile_blanks all (by simp)
      rw [List.append_nil] at none
      rw [trim, List.append_nil, none]
      rfl
    | cons c t =>
      rw [trim, List.append_assoc, dropWhile_blanks front, List.reverse_append,
        dropWhile_blanks back, List.reverse_reverse]
      · rw [List.head?_reverse]
        exact fun d hd => (not_isBlank_iff d).mpr (last d hd)
      · exact fun d hd => (not_isBlank_iff d).mpr (head d hd)

end Mips32.Text
