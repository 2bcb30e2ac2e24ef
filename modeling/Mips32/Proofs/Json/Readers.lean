import Mips32.Json.Reader
import Mips32.Proofs.Json.Skipping

/-! What readers read: a reader reads values that conform (`Reader.Reads`) when it finds one exactly
where the lexemes of one stand. -/
namespace Mips32.Json.Reader

variable {α β : Type} {ls rest : List Lexeme}

/-- The reader reads the values that conform, up to their end. -/
def Reads (r : Reader α) (Conforms : Json → α → Prop) : Prop :=
  ∀ ls a rest, r.run ls = .ok (a, rest) ↔ ∃ v, Conforms v a ∧ ls = v.toLexemes ++ rest

/-- What is read is determined by the value. -/
theorem Reads.unique {r : Reader α} {Conforms : Json → α → Prop} (h : r.Reads Conforms) {v : Json}
    {a b : α} (ha : Conforms v a) (hb : Conforms v b) : a = b := by
  have reads_a := (h _ a []).mpr ⟨v, ha, rfl⟩
  have reads_b := (h _ b []).mpr ⟨v, hb, rfl⟩
  rw [reads_a] at reads_b
  cases reads_b
  rfl

theorem Reads.congr {r : Reader α} {C D : Json → α → Prop} (h : r.Reads C)
    (same : ∀ v a, C v a ↔ D v a) : r.Reads D := by
  intro ls a rest
  simp only [h ls a rest, same]

/-! ### Steps -/

theorem run_lexeme {f : Lexeme → Except Failure α} {a : α} :
    (lexeme f).run ls = .ok (a, rest) ↔ ∃ l, ls = l :: rest ∧ f l = .ok a := by
  cases ls with
  | nil => simp [lexeme]
  | cons l ls => cases h : f l <;> simp [lexeme, Except.map, h, and_comm]

theorem run_check {r : Reader α} {f : α → Except Failure β} {b : β} :
    (r.check f).run ls = .ok (b, rest) ↔ ∃ a, r.run ls = .ok (a, rest) ∧ f a = .ok b := by
  simp only [check]
  split
  case h_1 a middle h => cases examined : f a <;> simp_all [Except.map, and_comm]
  case h_2 e h => simp [h]

theorem run_map {r : Reader α} {f : α → β} {b : β} :
    (r.map f).run ls = .ok (b, rest) ↔ ∃ a, r.run ls = .ok (a, rest) ∧ f a = b := by
  rw [map, run_check]
  simp

theorem run_bind {r : Reader α} {f : α → Reader β} {b : β} :
    (r.bind f).run ls = .ok (b, rest) ↔
      ∃ a middle, r.run ls = .ok (a, middle) ∧ (f a).run middle = .ok (b, rest) := by
  simp only [bind]
  split
  case h_1 a middle h => simp [h]
  case h_2 e h => simp [h]

theorem run_mark {l : Lexeme} {u : Unit} : (mark l).run ls = .ok (u, rest) ↔ ls = l :: rest := by
  rw [mark, run_lexeme]
  constructor
  · rintro ⟨m, rfl, h⟩
    split at h
    case isTrue same => rw [same]
    case isFalse => cases h
  · rintro rfl
    exact ⟨l, rfl, if_pos rfl⟩

theorem run_skipped {u : Unit} :
    skipped.run ls = .ok (u, rest) ↔ ∃ v : Json, ls = v.toLexemes ++ rest := by
  rw [← skip_eq_ok_iff]
  simp only [skipped]
  cases skip ls <;> simp

/-! ### Scalars -/

theorem textOf_eq_ok_iff {us : List TextUnit} {s : String} : textOf us = .ok s ↔ Named us s := by
  rw [Named, ← TextUnit.joined_eq_ok_iff, textOf]
  cases TextUnit.joined none us with
  | error p => simp
  | ok cs => simp [← String.toList_inj]

theorem run_name {s : String} :
    name.run ls = .ok (s, rest) ↔ ∃ us, Named us s ∧ ls = .string us :: rest := by
  rw [name, run_lexeme]
  constructor
  · rintro ⟨l, rfl, h⟩
    split at h
    case h_1 us => exact ⟨us, textOf_eq_ok_iff.mp h, rfl⟩
    case h_2 => cases h
    case h_3 => cases h
  · rintro ⟨us, named, rfl⟩
    exact ⟨_, rfl, textOf_eq_ok_iff.mpr named⟩

theorem reads_bool : bool.Reads fun v b => v = .bool b := by
  intro ls b rest
  rw [bool, run_lexeme]
  constructor
  · rintro ⟨l, rfl, h⟩
    split at h
    case h_1 => cases h; exact ⟨_, rfl, rfl⟩
    case h_2 => cases h
  · rintro ⟨_, rfl, rfl⟩
    exact ⟨_, rfl, rfl⟩

theorem reads_null : null.Reads fun v _ => v = .null := by
  intro ls u rest
  rw [null, run_lexeme]
  constructor
  · rintro ⟨l, rfl, h⟩
    split at h
    case h_1 => exact ⟨_, rfl, rfl⟩
    case h_2 => cases h
  · rintro ⟨_, rfl, rfl⟩
    exact ⟨_, rfl, rfl⟩

theorem reads_string : string.Reads Says := by
  intro ls s rest
  rw [string, run_lexeme]
  constructor
  · rintro ⟨l, rfl, h⟩
    split at h
    case h_1 us => exact ⟨.string us, ⟨us, rfl, textOf_eq_ok_iff.mp h⟩, rfl⟩
    case h_2 => cases h
  · rintro ⟨_, ⟨us, rfl, named⟩, rfl⟩
    exact ⟨_, rfl, textOf_eq_ok_iff.mpr named⟩

/-! ### Variants -/

/-- The value is a name, alone or as the only member of an object, whose value is null. -/
def Picks (v : Json) (name : String) : Prop :=
  v.Says name ∨ ∃ us, v = .object [(us, .null)] ∧ Named us name

theorem variantOf_eq_ok_iff {known : List (String × α)} {s : String} {a : α} :
    variantOf known s = .ok a ↔ known.lookup s = some a := by
  rw [variantOf]
  cases known.lookup s <;> simp

theorem run_named {known : List (String × α)} {a : α} :
    (named known).run ls = .ok (a, rest) ↔
      ∃ s us, known.lookup s = some a ∧ Named us s ∧ ls = .string us :: rest := by
  rw [named, run_check]
  constructor
  · rintro ⟨s, read, found⟩
    obtain ⟨us, named, rfl⟩ := run_name.mp read
    exact ⟨s, us, variantOf_eq_ok_iff.mp found, named, rfl⟩
  · rintro ⟨s, us, found, named, rfl⟩
    exact ⟨s, run_name.mpr ⟨us, named, rfl⟩, variantOf_eq_ok_iff.mpr found⟩

theorem run_wrapped {known : List (String × α)} {a : α} :
    (wrapped known).run ls = .ok (a, rest) ↔
      ∃ s us, known.lookup s = some a ∧ Named us s ∧
        ls = .string us :: .colon :: .null :: .closing .object :: rest := by
  simp only [wrapped, run_bind, run_named, run_mark, run_map, reads_null _ _ _]
  constructor
  · rintro ⟨b, _, ⟨s, us, found, named, rfl⟩, -, _, rfl, -, _, ⟨_, rfl, rfl⟩, -, rfl, rfl⟩
    exact ⟨s, us, found, named, rfl⟩
  · rintro ⟨s, us, found, named, rfl⟩
    exact ⟨a, _, ⟨s, us, found, named, rfl⟩, (), _, rfl, (), _, ⟨.null, rfl, rfl⟩, (), rfl, rfl⟩

theorem reads_variant (known : List (String × α)) :
    (variant known).Reads fun v a => ∃ s, known.lookup s = some a ∧ Picks v s := by
  intro ls a rest
  constructor
  · intro h
    rcases ls with - | ⟨l, ls⟩
    · cases h
    simp only [variant] at h
    split at h
    case isTrue opening =>
      obtain ⟨s, us, found, named, rfl⟩ := run_wrapped.mp h
      subst opening
      exact ⟨.object [(us, .null)], ⟨s, found, .inr ⟨us, rfl, named⟩⟩, rfl⟩
    case isFalse =>
      obtain ⟨s, us, found, named, eq⟩ := run_named.mp h
      exact ⟨.string us, ⟨s, found, .inl ⟨us, rfl, named⟩⟩, eq⟩
  · rintro ⟨_, ⟨s, found, ⟨us, rfl, named⟩ | ⟨us, rfl, named⟩⟩, rfl⟩
    · exact run_named.mpr ⟨s, us, found, named, rfl⟩
    · exact run_wrapped.mpr ⟨s, us, found, named, rfl⟩

end Mips32.Json.Reader
