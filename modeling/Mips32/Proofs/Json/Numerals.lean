import Mips32.Json.Numeral
import Mips32.Proofs.Literals

/-! How JSON numerals are written. The rules are stated by the characters of each part
(`Numeral.Written`); the reader takes a numeral where one is written, if the text does not go on with
it (`read_append`), and nothing else (`written_of_read`). -/
namespace Mips32

/-! ### Digits -/

namespace Radix

/-- The characters write the digits, in order. -/
def Spells (r : Radix) (digits : List Nat) (cs : List Char) : Prop :=
  List.Forall₂ r.Writes digits cs

theorem takeDigits_append {r : Radix} {digits : List Nat} {cs rest : List Char}
    (h : r.Spells digits cs) (stop : ∀ c ∈ rest.head?, r.digit? c = none) :
    r.takeDigits (cs ++ rest) = (digits, rest) := by
  induction h with
  | nil =>
    cases rest with
    | nil => rfl
    | cons c rest => rw [List.nil_append, takeDigits, stop c rfl]
  | cons written _ ih =>
    rw [List.cons_append, takeDigits, digit?_eq_some_iff.mpr written]
    simp only [ih]

theorem exists_takeDigits (r : Radix) (cs : List Char) :
    ∃ front, r.Spells (r.takeDigits cs).1 front ∧ cs = front ++ (r.takeDigits cs).2 := by
  induction cs with
  | nil => exact ⟨[], .nil, rfl⟩
  | cons c cs ih =>
    rw [takeDigits]
    cases found : r.digit? c with
    | none => exact ⟨[], .nil, rfl⟩
    | some d =>
      obtain ⟨front, spelled, whole⟩ := ih
      exact ⟨c :: front, .cons (digit?_eq_some_iff.mp found) spelled, congrArg (c :: ·) whole⟩

theorem filterMap_digit? {r : Radix} {digits : List Nat} {cs : List Char}
    (h : r.Spells digits cs) : cs.filterMap r.digit? = digits := by
  induction h with
  | nil => rfl
  | cons written _ ih => rw [List.filterMap_cons_some (digit?_eq_some_iff.mpr written), ih]

/-- What holds of the characters of each digit holds of every character that writes one. -/
theorem of_writes {P : Char → Prop} {r : Radix}
    (table : ∀ d < r.base, P (Nat.digitChar d) ∧ P (Nat.digitChar d).toUpper)
    {d : Nat} {c : Char} (h : r.Writes d c) : P c := by
  rcases h.2 with rfl | rfl
  · exact (table d h.1).1
  · exact (table d h.1).2

theorem forall_of_spells {P : Char → Prop} {r : Radix}
    (table : ∀ d < r.base, P (Nat.digitChar d) ∧ P (Nat.digitChar d).toUpper)
    {digits : List Nat} {cs : List Char} (h : r.Spells digits cs) : ∀ c ∈ cs, P c := by
  induction h with
  | nil => exact fun _ => nofun
  | cons written _ ih => exact List.forall_mem_cons.mpr ⟨of_writes table written, ih⟩

theorem visible_of_spells {r : Radix} {digits : List Nat} {cs : List Char}
    (h : r.Spells digits cs) : ∀ c ∈ cs, 0x20 ≤ c.toNat := by
  have table : ∀ d < 16, 0x20 ≤ (Nat.digitChar d).toNat ∧
      0x20 ≤ (Nat.digitChar d).toUpper.toNat := by decide
  exact forall_of_spells (fun d small => table d (Nat.lt_of_lt_of_le small r.base_le)) h

theorem one_lt_base (r : Radix) : 1 < r.base := by
  cases r <;> decide

theorem base_pos (r : Radix) : 0 < r.base := Nat.lt_of_succ_lt r.one_lt_base

/-- The digits of a number, with no zero in front of others. -/
theorem exists_digits (r : Radix) (n : Nat) :
    ∃ digits, r.Spells digits (Nat.toDigits r.base n) ∧ digits ≠ [] ∧
      Nat.ofDigits r.base digits.reverse = n ∧ ∀ ds, digits = 0 :: ds → ds = [] := by
  induction n using Nat.strongRecOn with
  | _ n ih =>
    rw [Nat.toDigits_eq_if r.one_lt_base]
    split
    case isTrue small =>
      exact ⟨[n], .cons ⟨small, .inl rfl⟩ .nil, by simp, by simp, by simp⟩
    case isFalse large =>
      have high : 0 < n / r.base := Nat.div_pos (Nat.not_lt.mp large) r.base_pos
      have shorter : n / r.base < n :=
        Nat.div_lt_self (Nat.lt_of_lt_of_le r.base_pos (Nat.not_lt.mp large)) r.one_lt_base
      obtain ⟨digits, spelled, some_digit, value, leading⟩ := ih _ shorter
      have last : r.Spells [n % r.base] [Nat.digitChar (n % r.base)] :=
        .cons ⟨Nat.mod_lt _ r.base_pos, .inl rfl⟩ .nil
      refine ⟨digits ++ [n % r.base], List.rel_append spelled last, by simp, ?_, ?_⟩
      · rw [List.reverse_append, List.reverse_singleton, List.singleton_append, Nat.ofDigits_cons,
          value]
        exact Nat.mod_add_div n r.base
      · intro ds start
        cases digits with
        | nil => contradiction
        | cons d digits =>
          obtain ⟨rfl, rfl⟩ := List.cons.inj start
          -- The number of the digits in front would be zero.
          rw [leading digits rfl] at value
          simp at value
          omega

end Radix

namespace Json

/-! ### Numerals -/

namespace Numeral

/-- A numeral that ends here does not go on with `rest`. -/
def Stops (rest : List Char) : Prop :=
  ∀ c ∈ rest.head?, Radix.decimal.digit? c = none ∧ c ≠ '.' ∧ c ≠ 'e' ∧ c ≠ 'E'

/-- The digits before the point. Only a zero that stands alone may come first. -/
inductive WholeWritten : List Nat → List Char → Prop
  | zero : WholeWritten [0] ['0']
  | digits {d : Nat} {ds : List Nat} {cs : List Char} : d ≠ 0 → Radix.decimal.Spells (d :: ds) cs →
      WholeWritten (d :: ds) cs

/-- The point and the digits after it. -/
inductive FractionWritten : List Nat → List Char → Prop
  | none : FractionWritten [] []
  | digits {ds : List Nat} {cs : List Char} : ds ≠ [] → Radix.decimal.Spells ds cs →
      FractionWritten ds ('.' :: cs)

/-- The signs that an exponent may have. -/
def exponentSigns : List (List Char × Int) := [([], 1), (['+'], 1), (['-'], -1)]

inductive ExponentWritten : Option Int → List Char → Prop
  | none : ExponentWritten none []
  | digits {e : Char} {text : List Char} {sign : Int} {ds : List Nat} {cs : List Char} :
      e = 'e' ∨ e = 'E' → (text, sign) ∈ exponentSigns → ds ≠ [] → Radix.decimal.Spells ds cs →
      ExponentWritten (some (sign * (Nat.ofDigits 10 ds.reverse : Nat))) (e :: (text ++ cs))

/-- The parts of a numeral one after the other. -/
inductive Written : Numeral → List Char → Prop
  | mk (negative : Bool) {whole fraction : List Nat} {exponent : Option Int} {ws fs es : List Char} :
      WholeWritten whole ws → FractionWritten fraction fs → ExponentWritten exponent es →
      Written ⟨negative, whole, fraction, exponent⟩ ((if negative then ['-'] else []) ++ (ws ++ (fs ++ es)))

theorem someDigits_append {ds : List Nat} {cs rest : List Char} (some_digit : ds ≠ [])
    (h : Radix.decimal.Spells ds cs) (stop : ∀ c ∈ rest.head?, Radix.decimal.digit? c = none) :
    someDigits (cs ++ rest) = .ok (ds, rest) := by
  simp only [someDigits, Radix.takeDigits_append h stop, if_neg some_digit]

theorem spells_of_someDigits {ds : List Nat} {cs rest : List Char}
    (h : someDigits cs = .ok (ds, rest)) :
    ds ≠ [] ∧ ∃ front, Radix.decimal.Spells ds front ∧ cs = front ++ rest := by
  obtain ⟨front, spelled, whole⟩ := Radix.exists_takeDigits .decimal cs
  simp only [someDigits] at h
  split at h
  case isTrue => cases h
  case isFalse some_digit =>
    rw [Except.ok.inj h] at some_digit spelled whole
    exact ⟨some_digit, front, spelled, whole⟩

theorem wholeDigits_append {ds : List Nat} {cs rest : List Char} (h : WholeWritten ds cs)
    (stop : ∀ c ∈ rest.head?, Radix.decimal.digit? c = none) :
    wholeDigits (cs ++ rest) = .ok (ds, rest) := by
  cases h with
  | zero =>
    have zero : Radix.decimal.Spells [0] ['0'] := .cons ⟨by decide, .inl rfl⟩ .nil
    rw [wholeDigits, someDigits_append (by simp) zero stop]
    rfl
  | @digits d ds cs nonzero spelled =>
    rw [wholeDigits, someDigits_append (by simp) spelled stop]
    cases d with
    | zero => contradiction
    | succ d => rfl

theorem written_of_wholeDigits {ds : List Nat} {cs rest : List Char}
    (h : wholeDigits cs = .ok (ds, rest)) : ∃ front, WholeWritten ds front ∧ cs = front ++ rest := by
  rw [wholeDigits] at h
  split at h
  case h_1 => cases h
  case h_2 found other =>
    obtain ⟨some_digit, front, spelled, rfl⟩ := spells_of_someDigits h
    obtain ⟨d, ds, rfl⟩ := List.exists_cons_of_ne_nil some_digit
    refine ⟨front, ?_, rfl⟩
    by_cases zero : d = 0
    · subst zero
      cases ds with
      | nil =>
        obtain ⟨c, _, written, none, rfl⟩ := List.forall₂_cons_left_iff.mp spelled
        obtain rfl := List.forall₂_nil_left_iff.mp none
        obtain rfl : c = '0' := by rcases written.2 with h | h <;> exact h
        exact .zero
      | cons e ds => exact absurd h (other e ds rest)
    · exact .digits zero spelled

theorem fractionDigits_append {ds : List Nat} {cs rest : List Char} (h : FractionWritten ds cs)
    (stop : ∀ c ∈ rest.head?, Radix.decimal.digit? c = none ∧ c ≠ '.') :
    fractionDigits (cs ++ rest) = .ok (ds, rest) := by
  cases h with
  | none =>
    rw [List.nil_append, fractionDigits.eq_def]
    split
    · exact absurd rfl (stop '.' rfl).2
    · rfl
  | digits some_digit spelled =>
    exact someDigits_append some_digit spelled fun c hc => (stop c hc).1

theorem written_of_fractionDigits {ds : List Nat} {cs rest : List Char}
    (h : fractionDigits cs = .ok (ds, rest)) :
    ∃ front, FractionWritten ds front ∧ cs = front ++ rest := by
  rw [fractionDigits.eq_def] at h
  split at h
  · obtain ⟨some_digit, front, spelled, rfl⟩ := spells_of_someDigits h
    exact ⟨'.' :: front, .digits some_digit spelled, rfl⟩
  · cases h
    exact ⟨[], .none, rfl⟩

theorem exponentValue_eq (negative : Bool) (ds : List Nat) :
    exponentValue negative ds =
      (if negative then -1 else 1) * (Nat.ofDigits 10 ds.reverse : Nat) := by
  rw [exponentValue, Radix.number_eq_ofDigits]
  cases negative
  · exact (Int.one_mul _).symm
  · exact (Int.neg_one_mul _).symm

/-- Digits start with a digit. -/
theorem digit_head {ds : List Nat} {cs : List Char} (some_digit : ds ≠ [])
    (h : Radix.decimal.Spells ds cs) : ∃ d < 10, ∃ rest, cs = Nat.digitChar d :: rest := by
  obtain ⟨d, ds, rfl⟩ := List.exists_cons_of_ne_nil some_digit
  obtain ⟨c, rest, ⟨small, written⟩, _, rfl⟩ := List.forall₂_cons_left_iff.mp h
  have table : ∀ d < 10, (Nat.digitChar d).toUpper = Nat.digitChar d := by decide
  rw [table d small, or_self] at written
  exact ⟨d, small, rest, by rw [written]⟩

theorem digitChar_ne_sign : ∀ d < 10, Nat.digitChar d ≠ '-' ∧ Nat.digitChar d ≠ '+' := by decide

theorem exponentSign_append {text : List Char} {sign : Int} {ds : List Nat} {cs : List Char}
    (signed : (text, sign) ∈ exponentSigns) (some_digit : ds ≠ [])
    (spelled : Radix.decimal.Spells ds cs) (rest : List Char) :
    ∃ negative, exponentSign (text ++ cs ++ rest) = (negative, cs ++ rest) ∧
      sign = if negative then -1 else 1 := by
  simp only [exponentSigns, List.mem_cons, Prod.mk.injEq, List.not_mem_nil, or_false] at signed
  rcases signed with ⟨rfl, rfl⟩ | ⟨rfl, rfl⟩ | ⟨rfl, rfl⟩
  · obtain ⟨d, small, more, rfl⟩ := digit_head some_digit spelled
    refine ⟨false, ?_, rfl⟩
    rw [List.nil_append, List.cons_append, exponentSign.eq_def]
    split
    · next h => exact absurd (List.cons.inj h).1 (digitChar_ne_sign d small).1
    · next h => exact absurd (List.cons.inj h).1 (digitChar_ne_sign d small).2
    · rfl
  · exact ⟨false, rfl, rfl⟩
  · exact ⟨true, rfl, rfl⟩

theorem mem_exponentSigns (cs : List Char) :
    ∃ text, (text, if (exponentSign cs).1 then -1 else 1) ∈ exponentSigns ∧
      cs = text ++ (exponentSign cs).2 := by
  rw [exponentSign.eq_def]
  split
  · exact ⟨['-'], by simp [exponentSigns], rfl⟩
  · exact ⟨['+'], by simp [exponentSigns], rfl⟩
  · exact ⟨[], by simp [exponentSigns], rfl⟩

theorem exponentPart_append {e : Option Int} {cs rest : List Char} (h : ExponentWritten e cs)
    (stop : Stops rest) : exponentPart (cs ++ rest) = .ok (e, rest) := by
  cases h with
  | none =>
    cases rest with
    | nil => rfl
    | cons c rest =>
      obtain ⟨_, _, lower, upper⟩ := stop c rfl
      rw [List.nil_append, exponentPart, if_neg (by simp [lower, upper])]
  | @digits e text sign ds cs letter signed some_digit spelled =>
    obtain ⟨negative, split, rfl⟩ := exponentSign_append signed some_digit spelled rest
    have read := someDigits_append some_digit spelled fun c hc => (stop c hc).1
    rw [List.cons_append, exponentPart, if_pos letter, split]
    refine bind_eq_ok_iff.mpr ⟨_, read, ?_⟩
    rw [← exponentValue_eq]
    rfl

theorem written_of_exponentPart {e : Option Int} {cs rest : List Char}
    (h : exponentPart cs = .ok (e, rest)) : ∃ front, ExponentWritten e front ∧ cs = front ++ rest := by
  rw [exponentPart.eq_def] at h
  split at h
  · split at h
    case isTrue c cs letter =>
      obtain ⟨⟨ds, after⟩, read, result⟩ := bind_eq_ok_iff.mp h
      obtain ⟨some_digit, front, spelled, rest_eq⟩ := spells_of_someDigits read
      obtain ⟨text, signed, whole⟩ := mem_exponentSigns cs
      cases result
      rw [exponentValue_eq]
      refine ⟨_, .digits letter signed some_digit spelled, ?_⟩
      rw [List.cons_append, List.append_assoc, ← rest_eq, ← whole]
    case isFalse =>
      cases h
      exact ⟨[], .none, rfl⟩
  · cases h
    exact ⟨[], .none, rfl⟩

theorem not_digit_head_of_fraction {fs es rest : List Char} {fraction : List Nat} {e : Option Int}
    (hf : FractionWritten fraction fs) (he : ExponentWritten e es) (stop : Stops rest) :
    ∀ c ∈ (fs ++ (es ++ rest)).head?, Radix.decimal.digit? c = none := by
  intro c hc
  cases hf with
  | digits =>
    cases hc
    rfl
  | none =>
    cases he with
    | digits letter =>
      cases hc
      rcases letter with rfl | rfl <;> rfl
    | none => exact (stop c hc).1

theorem stops_exponent {es rest : List Char} {e : Option Int} (he : ExponentWritten e es)
    (stop : Stops rest) :
    ∀ c ∈ (es ++ rest).head?, Radix.decimal.digit? c = none ∧ c ≠ '.' := by
  intro c hc
  cases he with
  | none => exact ⟨(stop c hc).1, (stop c hc).2.1⟩
  | digits letter =>
    cases hc
    rcases letter with rfl | rfl <;> exact ⟨rfl, by decide⟩

theorem unsigned_append (negative : Bool) {whole fraction : List Nat} {exponent : Option Int}
    {ws fs es rest : List Char} (hw : WholeWritten whole ws) (hf : FractionWritten fraction fs)
    (he : ExponentWritten exponent es) (stop : Stops rest) :
    unsigned negative (ws ++ (fs ++ (es ++ rest))) = .ok (⟨negative, whole, fraction, exponent⟩, rest) := by
  refine bind_eq_ok_iff.mpr ⟨_, wholeDigits_append hw (not_digit_head_of_fraction hf he stop), ?_⟩
  refine bind_eq_ok_iff.mpr ⟨_, fractionDigits_append hf (stops_exponent he stop), ?_⟩
  exact bind_eq_ok_iff.mpr ⟨_, exponentPart_append he stop, rfl⟩

theorem WholeWritten.digit_head {whole : List Nat} {ws : List Char} (h : WholeWritten whole ws) :
    ∃ d < 10, ∃ rest, ws = Nat.digitChar d :: rest := by
  cases h with
  | zero => exact ⟨0, by decide, _, rfl⟩
  | digits _ spelled => exact Numeral.digit_head (by simp) spelled

/-- **A numeral is read where it is written**, if the text does not go on with it. -/
theorem read_append {n : Numeral} {cs rest : List Char} (h : n.Written cs) (stop : Stops rest) :
    read (cs ++ rest) = .ok (n, rest) := by
  obtain ⟨negative, hw, hf, he⟩ := h
  have parts := unsigned_append negative hw hf he stop
  cases negative with
  | true => simpa [read] using parts
  | false =>
    obtain ⟨d, small, more, rfl⟩ := hw.digit_head
    simp only [Bool.false_eq_true, if_false, List.nil_append, List.cons_append, List.append_assoc]
      at parts ⊢
    rw [read.eq_def]
    split
    · next h => exact absurd (List.cons.inj h).1 (digitChar_ne_sign d small).1
    · exact parts

/-- **A numeral that is read is written there.** -/
theorem written_of_read {n : Numeral} {cs rest : List Char} (h : read cs = .ok (n, rest)) :
    ∃ front, n.Written front ∧ cs = front ++ rest := by
  have parts {negative : Bool} {cs : List Char} (h : unsigned negative cs = .ok (n, rest)) :
      ∃ front, n.Written ((if negative then ['-'] else []) ++ front) ∧ cs = front ++ rest := by
    obtain ⟨⟨whole, cs₁⟩, readWhole, h⟩ := bind_eq_ok_iff.mp h
    obtain ⟨⟨fraction, cs₂⟩, readFraction, h⟩ := bind_eq_ok_iff.mp h
    obtain ⟨⟨exponent, cs₃⟩, readExponent, h⟩ := bind_eq_ok_iff.mp h
    cases h
    obtain ⟨ws, hw, rfl⟩ := written_of_wholeDigits readWhole
    obtain ⟨fs, hf, rfl⟩ := written_of_fractionDigits readFraction
    obtain ⟨es, he, rfl⟩ := written_of_exponentPart readExponent
    exact ⟨_, .mk negative hw hf he, by simp⟩
  rw [read.eq_def] at h
  split at h
  · obtain ⟨front, written, rfl⟩ := parts h
    exact ⟨_, written, rfl⟩
  · obtain ⟨front, written, rfl⟩ := parts h
    exact ⟨_, written, rfl⟩

/-- A numeral starts with a minus sign or a digit. -/
theorem Written.head {n : Numeral} {cs : List Char} (h : n.Written cs) :
    ∃ c rest, cs = c :: rest ∧ (c = '-' ∨ ∃ d < 10, c = Nat.digitChar d) := by
  obtain ⟨negative, hw, hf, he⟩ := h
  cases negative with
  | true => exact ⟨'-', _, rfl, .inl rfl⟩
  | false =>
    obtain ⟨d, small, more, rfl⟩ := hw.digit_head
    exact ⟨_, _, rfl, .inr ⟨d, small, rfl⟩⟩

theorem WholeWritten.visible {ds : List Nat} {cs : List Char} (h : WholeWritten ds cs) :
    ∀ c ∈ cs, 0x20 ≤ c.toNat := by
  cases h with
  | zero => simp
  | digits _ spelled => exact Radix.visible_of_spells spelled

theorem FractionWritten.visible {ds : List Nat} {cs : List Char} (h : FractionWritten ds cs) :
    ∀ c ∈ cs, 0x20 ≤ c.toNat := by
  cases h with
  | none => exact fun _ => nofun
  | digits _ spelled => exact List.forall_mem_cons.mpr ⟨by decide, Radix.visible_of_spells spelled⟩

theorem ExponentWritten.visible {e : Option Int} {cs : List Char} (h : ExponentWritten e cs) :
    ∀ c ∈ cs, 0x20 ≤ c.toNat := by
  cases h with
  | none => exact fun _ => nofun
  | digits letter signed _ spelled =>
    have table : ∀ s ∈ exponentSigns, ∀ c ∈ s.1, 0x20 ≤ c.toNat := by simp [exponentSigns]
    refine List.forall_mem_cons.mpr ⟨?_, ?_⟩
    · rcases letter with rfl | rfl <;> decide
    · exact List.forall_mem_append.mpr ⟨table _ signed, Radix.visible_of_spells spelled⟩

theorem Written.visible {n : Numeral} {cs : List Char} (h : n.Written cs) :
    ∀ c ∈ cs, 0x20 ≤ c.toNat := by
  obtain ⟨negative, hw, hf, he⟩ := h
  simp only [List.forall_mem_append]
  exact ⟨by cases negative <;> simp, hw.visible, hf.visible, he.visible⟩

/-! ### Whole numbers -/

theorem ofNat_whole (n : Nat) :
    ∃ digits, ofNat n = ⟨false, digits, [], none⟩ ∧ Radix.decimal.Spells digits (Nat.toDigits 10 n) ∧
      digits ≠ [] ∧ Nat.ofDigits 10 digits.reverse = n ∧ ∀ ds, digits = 0 :: ds → ds = [] := by
  obtain ⟨digits, spelled, some_digit, value, leading⟩ := Radix.exists_digits .decimal n
  refine ⟨digits, ?_, spelled, some_digit, value, leading⟩
  rw [ofNat]
  exact congrArg (Numeral.mk false · [] none) (Radix.filterMap_digit? spelled)

theorem spells_digitChars {r : Radix} {digits : List Nat} {cs : List Char}
    (h : r.Spells digits cs) : r.Spells digits (digitChars digits) := by
  induction h with
  | nil => exact .nil
  | cons written _ ih => exact .cons ⟨written.1, .inl rfl⟩ ih

theorem written_ofNat (n : Nat) : (ofNat n).Written (ofNat n).text := by
  obtain ⟨digits, whole, spelled, some_digit, _, leading⟩ := ofNat_whole n
  have written : WholeWritten digits (digitChars digits) := by
    cases digits with
    | nil => contradiction
    | cons d ds =>
      by_cases zero : d = 0
      · subst zero
        rw [leading ds rfl]
        exact .zero
      · exact .digits zero (spells_digitChars spelled)
  have parts := Written.mk false written .none .none
  rw [whole, text]
  simpa [exponentText] using parts

end Numeral

end Json

end Mips32
