import Mips32.Json.Skip
import Mips32.Proofs.Json.Texts

/-! Skipping passes one value of any kind and nothing else (`skip_eq_ok_iff`). Forwards, the
lexemes of a value lead from a place before the value to the place after it (`skipFrom_value`).
Backwards, a skip that ends has passed what completes the value it started in (`Completes`), which
holds lexeme by lexeme. -/
namespace Mips32.Json

/-! ### Single lexemes -/

theorem skipFrom_finished (ls : List Lexeme) : skipFrom ⟨.separator, []⟩ ls = .ok ls := by
  cases ls with
  | nil => rfl
  | cons l ls => rfl

/-- Unless a value has been passed, the next lexeme is. -/
theorem skipFrom_cons (p : Position) (h : p.turn ≠ .separator ∨ p.inside ≠ []) (l : Lexeme)
    (ls : List Lexeme) :
    skipFrom p (l :: ls) = match p.step l with
      | .ok q => skipFrom q ls
      | .error e => .error e := by
  have unfinished : ¬ p.finished := by
    rintro rfl
    simp at h
  cases passed : p.step l <;> simp [skipFrom, unfinished, passed]

@[simp] theorem skipFrom_value_cons (inside : List Container) (l : Lexeme) (ls : List Lexeme) :
    skipFrom ⟨.value, inside⟩ (l :: ls) = match Position.enter inside l with
      | .ok q => skipFrom q ls
      | .error e => .error e :=
  skipFrom_cons _ (by simp) l ls

@[simp] theorem skipFrom_name_cons (inside : List Container) (l : Lexeme) (ls : List Lexeme) :
    skipFrom ⟨.name, inside⟩ (l :: ls) = match Position.enterName inside l with
      | .ok q => skipFrom q ls
      | .error e => .error e :=
  skipFrom_cons _ (by simp) l ls

@[simp] theorem skipFrom_colon_cons (inside : List Container) (ls : List Lexeme) :
    skipFrom ⟨.colon, inside⟩ (.colon :: ls) = skipFrom ⟨.value, inside⟩ ls :=
  skipFrom_cons _ (by simp) .colon ls

@[simp] theorem skipFrom_separator_cons (c : Container) (outer : List Container) (l : Lexeme)
    (ls : List Lexeme) :
    skipFrom ⟨.separator, c :: outer⟩ (l :: ls) = match Position.leave (c :: outer) l with
      | .ok q => skipFrom q ls
      | .error e => .error e :=
  skipFrom_cons _ (by simp) l ls

/-- Unless an array ends at once, its first item is passed as values are. -/
theorem skipFrom_firstItem_cons (inside : List Container) {l : Lexeme} (h : l ≠ .closing .array)
    (ls : List Lexeme) :
    skipFrom ⟨.firstItem, inside⟩ (l :: ls) = skipFrom ⟨.value, inside⟩ (l :: ls) := by
  rw [skipFrom_cons _ (by simp), skipFrom_value_cons, Position.step]
  simp only [if_neg h]

theorem skipFrom_firstName_cons (inside : List Container) {l : Lexeme} (h : l ≠ .closing .object)
    (ls : List Lexeme) :
    skipFrom ⟨.firstName, inside⟩ (l :: ls) = skipFrom ⟨.name, inside⟩ (l :: ls) := by
  rw [skipFrom_cons _ (by simp), skipFrom_name_cons, Position.step]
  simp only [if_neg h]

/-! ### Forwards -/

theorem skipFrom_firstItem (inside : List Container) (v : Json) (ls : List Lexeme) :
    skipFrom ⟨.firstItem, inside⟩ (v.toLexemes ++ ls) =
      skipFrom ⟨.value, inside⟩ (v.toLexemes ++ ls) := by
  cases v <;> exact skipFrom_firstItem_cons inside (by simp) _

mutual

/-- A value leads to the place behind it. -/
theorem skipFrom_value : ∀ (v : Json) (inside : List Container) (ls : List Lexeme),
    skipFrom ⟨.value, inside⟩ (v.toLexemes ++ ls) = skipFrom ⟨.separator, inside⟩ ls
  | .null, _, _ => by simp [toLexemes, Position.enter]
  | .bool _, _, _ => by simp [toLexemes, Position.enter]
  | .number _, _, _ => by simp [toLexemes, Position.enter]
  | .string _, _, _ => by simp [toLexemes, Position.enter]
  | .array [], inside, ls => rfl
  | .array (v :: vs), inside, ls => by
    have items := skipFrom_moreItems vs inside ls
    simp [toLexemes, itemLexemes_cons, Position.enter, skipFrom_firstItem, skipFrom_value v, items]
  | .object [], inside, ls => rfl
  | .object ((us, v) :: ms), inside, ls => by
    have members := skipFrom_moreMembers ms inside ls
    simp [toLexemes, memberLexemes_cons, Position.enter, skipFrom_firstName_cons,
      Position.enterName, skipFrom_value v, members]

theorem skipFrom_moreItems : ∀ (vs : List Json) (inside : List Container) (ls : List Lexeme),
    skipFrom ⟨.separator, .array :: inside⟩
        ((vs.flatMap fun v => .comma :: v.toLexemes) ++ .closing .array :: ls) =
      skipFrom ⟨.separator, inside⟩ ls
  | [], _, _ => by simp [Position.leave]
  | v :: vs, inside, ls => by
    simp [Position.leave, skipFrom_value v, skipFrom_moreItems vs]

theorem skipFrom_moreMembers : ∀ (ms : List (List TextUnit × Json)) (inside : List Container)
    (ls : List Lexeme),
    skipFrom ⟨.separator, .object :: inside⟩
        ((ms.flatMap fun m => .comma :: .string m.1 :: .colon :: m.2.toLexemes) ++
          .closing .object :: ls) =
      skipFrom ⟨.separator, inside⟩ ls
  | [], _, _ => by simp [Position.leave]
  | (us, v) :: ms, inside, ls => by
    simp [Position.leave, Position.enterName, skipFrom_value v, skipFrom_moreMembers ms]

end

/-! ### Backwards -/

/-- The lexemes that end open containers, from the place behind an item or a member. -/
def Closes : List Container → List Lexeme → Prop
  | [], ks => ks = []
  | .array :: outer, ks => ∃ (vs : List Json) (rest : List Lexeme), Closes outer rest ∧
      ks = (vs.flatMap fun v => .comma :: v.toLexemes) ++ .closing .array :: rest
  | .object :: outer, ks => ∃ (ms : List (List TextUnit × Json)) (rest : List Lexeme),
      Closes outer rest ∧
      ks = (ms.flatMap fun m => .comma :: .string m.1 :: .colon :: m.2.toLexemes) ++
        .closing .object :: rest

/-- The lexemes that complete a value from a place in it. -/
inductive Completes : Position → List Lexeme → Prop
  | value (v : Json) {inside : List Container} {rest : List Lexeme} : Closes inside rest →
      Completes ⟨.value, inside⟩ (v.toLexemes ++ rest)
  | emptyArray {outer : List Container} {rest : List Lexeme} : Closes outer rest →
      Completes ⟨.firstItem, .array :: outer⟩ (.closing .array :: rest)
  | firstItem {inside : List Container} {ks : List Lexeme} : Completes ⟨.value, inside⟩ ks →
      Completes ⟨.firstItem, inside⟩ ks
  | emptyObject {outer : List Container} {rest : List Lexeme} : Closes outer rest →
      Completes ⟨.firstName, .object :: outer⟩ (.closing .object :: rest)
  | firstName {inside : List Container} {ks : List Lexeme} : Completes ⟨.name, inside⟩ ks →
      Completes ⟨.firstName, inside⟩ ks
  | name (us : List TextUnit) {inside : List Container} {ks : List Lexeme} :
      Completes ⟨.colon, inside⟩ ks → Completes ⟨.name, inside⟩ (.string us :: ks)
  | colon {inside : List Container} {ks : List Lexeme} : Completes ⟨.value, inside⟩ ks →
      Completes ⟨.colon, inside⟩ (.colon :: ks)
  | separator {inside : List Container} {ks : List Lexeme} : Closes inside ks →
      Completes ⟨.separator, inside⟩ ks

/-- A name, a colon and a value, and then what closes the containers around them. -/
theorem Completes.member {inside : List Container} {ks : List Lexeme}
    (h : Completes ⟨.name, inside⟩ ks) :
    ∃ us v rest, ks = .string us :: .colon :: (toLexemes v ++ rest) ∧ Closes inside rest := by
  cases h with
  | name us rest =>
    cases rest with
    | colon rest =>
      cases rest with
      | value v closes => exact ⟨us, v, _, rfl, closes⟩

theorem leave_closing {inside : List Container} {c : Container} {next : Position}
    (h : Position.leave inside (.closing c) = .ok next) :
    ∃ outer, inside = c :: outer ∧ next = ⟨.separator, outer⟩ := by
  cases inside with
  | nil => cases h
  | cons d outer => cases c <;> cases d <;> cases h <;> exact ⟨outer, rfl, rfl⟩

theorem completes_enter {inside : List Container} {l : Lexeme} {next : Position} {ks : List Lexeme}
    (h : Position.enter inside l = .ok next) (rest : Completes next ks) :
    Completes ⟨.value, inside⟩ (l :: ks) := by
  have scalar (v : Json) (one : v.toLexemes = [l])
      (rest : Completes ⟨.separator, inside⟩ ks) : Completes ⟨.value, inside⟩ (l :: ks) := by
    cases rest with
    | separator closes => simpa [one] using Completes.value v closes
  cases l with
  | null => cases h; exact scalar .null rfl rest
  | bool b => cases h; exact scalar (.bool b) rfl rest
  | number n => cases h; exact scalar (.number n) rfl rest
  | string us => cases h; exact scalar (.string us) rfl rest
  | opening c =>
    cases c with
    | array =>
      cases h
      cases rest with
      | emptyArray closes => exact .value (.array []) closes
      | firstItem rest =>
        obtain ⟨v, vs, rest, closes, rfl⟩ := rest
        simpa [toLexemes, itemLexemes_cons] using Completes.value (.array (v :: vs)) closes
    | object =>
      cases h
      cases rest with
      | emptyObject closes => exact .value (.object []) closes
      | firstName rest =>
        obtain ⟨us, v, _, rfl, ms, rest, closes, rfl⟩ := rest.member
        simpa [toLexemes, memberLexemes_cons] using Completes.value (.object ((us, v) :: ms)) closes
  | closing c => cases h
  | comma => cases h
  | colon => cases h
  | defect d => cases h

theorem completes_enterName {inside : List Container} {l : Lexeme} {next : Position}
    {ks : List Lexeme} (h : Position.enterName inside l = .ok next) (rest : Completes next ks) :
    Completes ⟨.name, inside⟩ (l :: ks) := by
  cases l with
  | string us => cases h; exact .name us rest
  | _ => cases h

theorem closes_leave {inside : List Container} {l : Lexeme} {next : Position}
    {ks : List Lexeme} (h : Position.leave inside l = .ok next) (rest : Completes next ks) :
    Closes inside (l :: ks) := by
  rw [Position.leave.eq_def] at h
  split at h
  case h_1 outer =>
    cases h
    obtain ⟨v, vs, rest, closes, rfl⟩ := rest
    exact ⟨v :: vs, rest, closes, by simp⟩
  case h_2 outer =>
    cases h
    obtain ⟨us, v, _, rfl, ms, tail, closes, rfl⟩ := rest.member
    exact ⟨(us, v) :: ms, tail, closes, by simp⟩
  case h_3 c outer d =>
    split at h
    case isTrue same =>
      cases h
      subst same
      cases rest with
      | separator closes => cases c <;> exact ⟨[], ks, closes, rfl⟩
    case isFalse => cases h
  case h_4 => cases h

/-- A lexeme that is passed belongs to what completes the value. -/
theorem completes_step {p next : Position} {l : Lexeme} {ks : List Lexeme}
    (h : p.step l = .ok next) (rest : Completes next ks) : Completes p (l :: ks) := by
  obtain ⟨turn, inside⟩ := p
  cases turn with
  | value => exact completes_enter h rest
  | firstItem =>
    simp only [Position.step] at h
    split at h
    case isTrue closing =>
      subst closing
      obtain ⟨outer, rfl, rfl⟩ := leave_closing h
      cases rest with
      | separator closes => exact .emptyArray closes
    case isFalse => exact .firstItem (completes_enter h rest)
  | firstName =>
    simp only [Position.step] at h
    split at h
    case isTrue closing =>
      subst closing
      obtain ⟨outer, rfl, rfl⟩ := leave_closing h
      cases rest with
      | separator closes => exact .emptyObject closes
    case isFalse => exact .firstName (completes_enterName h rest)
  | name => exact completes_enterName h rest
  | colon =>
    simp only [Position.step] at h
    split at h
    case isTrue colon =>
      cases h
      subst colon
      exact .colon rest
    case isFalse => cases h
  | separator => exact .separator (closes_leave h rest)

theorem completes_of_skipFrom {p : Position} {ls rest : List Lexeme} (h : skipFrom p ls = .ok rest) :
    ∃ ks, Completes p ks ∧ ls = ks ++ rest := by
  induction ls generalizing p with
  | nil =>
    rw [skipFrom] at h
    split at h
    case isTrue finished =>
      cases h
      subst finished
      exact ⟨[], .separator rfl, rfl⟩
    case isFalse => cases h
  | cons l ls ih =>
    rw [skipFrom] at h
    split at h
    case isTrue finished =>
      cases h
      subst finished
      exact ⟨[], .separator rfl, rfl⟩
    case isFalse =>
      split at h
      case h_1 next step =>
        obtain ⟨ks, completes, rfl⟩ := ih h
        exact ⟨l :: ks, completes_step step completes, rfl⟩
      case h_2 => cases h

/-- **Skipping passes one value.** -/
theorem skip_eq_ok_iff {ls rest : List Lexeme} :
    skip ls = .ok rest ↔ ∃ v : Json, ls = v.toLexemes ++ rest := by
  constructor
  · intro h
    obtain ⟨ks, ⟨v, nothing⟩, rfl⟩ := completes_of_skipFrom h
    cases nothing
    exact ⟨v, by rw [List.append_nil]⟩
  · rintro ⟨v, rfl⟩
    exact (skipFrom_value v [] rest).trans (skipFrom_finished rest)

end Mips32.Json
