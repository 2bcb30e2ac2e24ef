import Mips32.Json.Schema
import Mips32.Proofs.Json.Readers
import Mathlib.Data.List.Forall2
import Mathlib.Data.List.Nodup

/-! What records are read from. A value gives something for some of the names of a record (`Gives`),
and a record agrees with what is given when each of its settings is that or the default
(`Setting.Agrees`). A schema whose settings are independent of each other reads exactly the records
that agree with a value (`Laid.reads`). -/
namespace Mips32.Json

/-! ### What is given -/

/-- What members give for a name: the value of the only one that has it, or nothing. -/
inductive Occurs (name : String) : List (List TextUnit × Json) → Option Json → Prop
  | none : Occurs name [] none
  | other {us : List TextUnit} {v : Json} {ms : List (List TextUnit × Json)} {given : Option Json} :
      ¬ Named us name → Occurs name ms given → Occurs name ((us, v) :: ms) given
  | here {us : List TextUnit} {v : Json} {ms : List (List TextUnit × Json)} :
      Named us name → Occurs name ms none → Occurs name ((us, v) :: ms) (some v)

/-- What a value gives for names. An object gives what its members do, each of which has a name; an
array gives its items in the order of the names. -/
inductive Gives (names : List String) : Json → (String → Option Json) → Prop
  | object {ms : List (List TextUnit × Json)} {given : String → Option Json} :
      (∀ m ∈ ms, ∃ name, Named m.1 name) → (∀ name ∈ names, Occurs name ms (given name)) →
      Gives names (.object ms) given
  | array {items : List Json} {given : String → Option Json} : items.length ≤ names.length →
      (∀ (n : Nat) (name : String), names[n]? = some name → given name = items[n]?) →
      Gives names (.array items) given

theorem Occurs.unique {name : String} {ms : List (List TextUnit × Json)} {g g' : Option Json}
    (h : Occurs name ms g) (h' : Occurs name ms g') : g = g' := by
  induction h generalizing g' with
  | none => cases h'; rfl
  | other absent _ ih =>
    cases h' with
    | other _ more => exact ih more
    | here named _ => exact absurd named absent
  | here named _ ih =>
    cases h' with
    | other absent _ => exact absurd named absent
    | here _ _ => rfl

/-- What is given conforms, or the default stays. -/
def Holds {α : Type} (Conforms : Json → α → Prop) (default : α) : Option Json → α → Prop
  | none, a => a = default
  | some v, a => Conforms v a

/-- Whether something is given does not depend on the default. -/
theorem Holds.exists_of_default {α : Type} {Conforms : Json → α → Prop} {d : α} {given : Option Json}
    {a : α} (h : Holds Conforms d given a) (d' : α) : ∃ a, Holds Conforms d' given a := by
  cases given with
  | none => exact ⟨d', rfl⟩
  | some v => exact ⟨a, h⟩

theorem Holds.unique {α : Type} {r : Reader α} {Conforms : Json → α → Prop} (h : r.Reads Conforms)
    {d a b : α} {given : Option Json} (ha : Holds Conforms d given a) (hb : Holds Conforms d given b) :
    a = b := by
  cases given with
  | none => exact ha.trans hb.symm
  | some v => exact h.unique ha hb

/-! ### Settings -/

/-- A part of a record that a value of its own replaces. -/
structure Setting (ρ : Type) where
  name : String
  Value : Type
  reader : Reader Value
  Conforms : Json → Value → Prop
  get : ρ → Value
  set : Value → ρ → ρ

variable {ρ : Type}

/-- The member of a schema that reads the setting. -/
def Setting.member (k : Setting ρ) : Member ρ := ⟨k.name, k.reader.map k.set⟩

/-- The setting of a record is what is given, or the default. -/
def Setting.Agrees (k : Setting ρ) (defaults : ρ) (given : Option Json) (r : ρ) : Prop :=
  Holds k.Conforms (k.get defaults) given (k.get r)

/-- The schema reads the settings, which make up the record and do not touch each other. -/
structure Laid (s : Schema ρ) (settings : List (Setting ρ)) : Prop where
  members : s.members = settings.map Setting.member
  nodup : (settings.map Setting.name).Nodup
  reads : ∀ k ∈ settings, k.reader.Reads k.Conforms
  get_set : ∀ k ∈ settings, ∀ a r, k.get (k.set a r) = a
  get_set_of_ne : ∀ j ∈ settings, ∀ k ∈ settings, j.name ≠ k.name →
    ∀ a r, k.get (j.set a r) = k.get r
  ext : ∀ r r', (∀ k ∈ settings, k.get r = k.get r') → r = r'

namespace Laid

variable {s : Schema ρ} {settings : List (Setting ρ)} {ls rest : List Lexeme}

theorem eq_of_name (h : Laid s settings) {j k : Setting ρ} (hj : j ∈ settings) (hk : k ∈ settings)
    (name : j.name = k.name) : j = k :=
  List.inj_on_of_nodup_map h.nodup hj hk name

theorem find?_member (h : Laid s settings) {k : Setting ρ} (hk : k ∈ settings) :
    s.members.find? (·.name = k.name) = some k.member := by
  cases found : s.members.find? (·.name = k.name) with
  | none =>
    have member : k.member ∈ s.members := h.members ▸ List.mem_map_of_mem hk
    exact absurd (decide_eq_true rfl) (List.find?_eq_none.mp found k.member member)
  | some m =>
    have same := List.find?_some found
    obtain ⟨j, hj, rfl⟩ := List.mem_map.mp (h.members ▸ List.mem_of_find?_eq_some found)
    rw [h.eq_of_name hj hk (of_decide_eq_true same)]

theorem find?_eq_none (h : Laid s settings) {name : String} (absent : ∀ k ∈ settings, k.name ≠ name) :
    s.members.find? (·.name = name) = none := by
  rw [List.find?_eq_none, h.members, List.forall_mem_map]
  exact fun k hk same => absent k hk (of_decide_eq_true same)

/-! ### Objects -/

/-- What the value of a member with a given name does to a record on the way. -/
inductive Takes (settings : List (Setting ρ)) (p : Partial ρ) : String → Json → Partial ρ → Prop
  | other {name : String} {v : Json} : (∀ k ∈ settings, k.name ≠ name) → Takes settings p name v p
  | setting {name : String} {k : Setting ρ} {v : Json} {a : k.Value} : k ∈ settings →
      k.name = name → name ∉ p.seen → k.Conforms v a →
      Takes settings p name v ⟨k.set a p.record, name :: p.seen⟩

/-- What members do to a record on the way, one after the other. -/
inductive Overlaid (settings : List (Setting ρ)) :
    Partial ρ → List (List TextUnit × Json) → Partial ρ → Prop
  | nil (p : Partial ρ) : Overlaid settings p [] p
  | cons {p q r : Partial ρ} {us : List TextUnit} {name : String} {v : Json}
      {ms : List (List TextUnit × Json)} : Named us name → Takes settings p name v q →
      Overlaid settings q ms r → Overlaid settings p ((us, v) :: ms) r

theorem run_value (h : Laid s settings) {p q : Partial ρ} {name : String} :
    (s.value p name).run ls = .ok (q, rest) ↔
      ∃ v, Takes settings p name v q ∧ ls = .colon :: (v.toLexemes ++ rest) := by
  by_cases known : ∃ k ∈ settings, k.name = name
  · obtain ⟨k, hk, rfl⟩ := known
    have found := h.find?_member hk
    by_cases seen : k.name ∈ p.seen
    · simp only [Schema.value, found, if_pos seen, Reader.fail]
      constructor
      · rintro ⟨⟩
      · rintro ⟨v, taken, -⟩
        cases taken with
        | other unknown => exact absurd rfl (unknown k hk)
        | setting _ _ unseen _ => exact absurd seen unseen
    · simp only [Schema.value, found, if_neg seen, Reader.run_bind, Reader.run_mark, Reader.run_map,
        Setting.member]
      constructor
      · rintro ⟨-, _, rfl, _, ⟨a, read, rfl⟩, rfl⟩
        obtain ⟨v, conforms, rfl⟩ := (h.reads k hk _ _ _).mp read
        exact ⟨v, .setting hk rfl seen conforms, rfl⟩
      · rintro ⟨v, taken, rfl⟩
        cases taken with
        | other unknown => exact absurd rfl (unknown k hk)
        | @setting j _ a hj same _ conforms =>
          obtain rfl := h.eq_of_name hj hk same
          exact ⟨(), _, rfl, _, ⟨a, (h.reads j hj _ _ _).mpr ⟨v, conforms, rfl⟩, rfl⟩, rfl⟩
  · push Not at known
    simp only [Schema.value, h.find?_eq_none known, Reader.run_bind, Reader.run_mark,
      Reader.run_map, Reader.run_skipped]
    constructor
    · rintro ⟨-, _, rfl, -, ⟨v, rfl⟩, rfl⟩
      exact ⟨v, .other known, rfl⟩
    · rintro ⟨v, taken, rfl⟩
      cases taken with
      | other _ => exact ⟨(), _, rfl, (), ⟨v, rfl⟩, rfl⟩
      | setting hk same _ _ => exact absurd same (known _ hk)

theorem run_objectSeparator {more : Bool} :
    Schema.objectSeparator.run ls = .ok (more, rest) ↔
      ls = (if more then .comma else .closing .object) :: rest := by
  rw [Schema.objectSeparator, Reader.run_lexeme]
  constructor
  · rintro ⟨l, rfl, h⟩
    split at h
    case h_1 => cases h; rfl
    case h_2 => cases h; rfl
    case h_3 => cases h
  · rintro rfl
    exact ⟨_, rfl, by cases more <;> rfl⟩

theorem run_member (h : Laid s settings) {p q : Partial ρ} {more : Bool} :
    (s.member p).run ls = .ok ((q, more), rest) ↔
      ∃ us name v, Named us name ∧ Takes settings p name v q ∧
        ls = .string us :: .colon :: (v.toLexemes ++
          (if more then .comma else .closing .object) :: rest) := by
  simp only [Schema.member, Reader.run_bind, Reader.run_name, h.run_value, Reader.run_map,
    run_objectSeparator]
  constructor
  · rintro ⟨name, _, ⟨us, named, rfl⟩, _, _, ⟨v, taken, rfl⟩, _, rfl, ⟨⟩⟩
    exact ⟨us, name, v, named, taken, rfl⟩
  · rintro ⟨us, name, v, named, taken, rfl⟩
    exact ⟨name, _, ⟨us, named, rfl⟩, q, _, ⟨v, taken, rfl⟩, more, rfl, rfl⟩

/-- The members of an object are read up to its end. -/
theorem object_eq_ok_iff (h : Laid s settings) {p : Partial ρ} {r : ρ} :
    s.object p ls = .ok (r, rest) ↔
      ∃ m ms q, Overlaid settings p (m :: ms) q ∧ q.record = r ∧
        ls = memberLexemes (m :: ms) ++ .closing .object :: rest := by
  constructor
  · intro read
    fun_induction Schema.object s p ls with
    | case1 => cases read
    | case2 p ls q middle member ih =>
      obtain ⟨us, name, v, named, taken, rfl⟩ := h.run_member.mp member
      obtain ⟨m, ms, r', overlaid, record, rfl⟩ := ih read
      refine ⟨(us, v), m :: ms, r', .cons named taken overlaid, record, ?_⟩
      simp [memberLexemes]
    | case3 p ls q middle member =>
      cases read
      obtain ⟨us, name, v, named, taken, rfl⟩ := h.run_member.mp member
      exact ⟨(us, v), [], q, .cons named taken (.nil q), rfl, by simp [memberLexemes]⟩
  · rintro ⟨m, ms, q, overlaid, rfl, rfl⟩
    induction ms generalizing p m with
    | nil =>
      cases overlaid with
      | @cons _ q' _ us name v _ named taken after =>
        cases after
        have member : (s.member p).run (memberLexemes [(us, v)] ++ .closing .object :: rest) =
            .ok ((q, false), rest) :=
          h.run_member.mpr ⟨us, name, v, named, taken, by simp [memberLexemes]⟩
        rw [Schema.object]
        split <;> simp_all
    | cons n ms ih =>
      cases overlaid with
      | @cons _ q' _ us name v _ named taken after =>
        have member : (s.member p).run
            (memberLexemes ((us, v) :: n :: ms) ++ .closing .object :: rest) =
            .ok ((q', true), memberLexemes (n :: ms) ++ .closing .object :: rest) :=
          h.run_member.mpr ⟨us, name, v, named, taken, by simp [memberLexemes]⟩
        rw [Schema.object]
        split <;> simp_all

/-- Every setting is what the members on the way give, or what it was before. -/
theorem overlaid_holds (h : Laid s settings) {p q : Partial ρ} {ms : List (List TextUnit × Json)}
    (overlaid : Overlaid settings p ms q) {k : Setting ρ} (hk : k ∈ settings) :
    ∃ g, Occurs k.name ms g ∧ (k.name ∈ p.seen → g = none) ∧
      Holds k.Conforms (k.get p.record) g (k.get q.record) := by
  induction overlaid with
  | nil p => exact ⟨none, .none, fun _ => rfl, rfl⟩
  | @cons p q r us name v ms named taken _ ih =>
    obtain ⟨g, occurs, once, holds⟩ := ih
    cases taken with
    | other unknown =>
      have absent : ¬ Named us k.name := fun same => unknown k hk (same.unique named)
      exact ⟨g, .other absent occurs, once, holds⟩
    | @setting j _ a hj same unseen conforms =>
      by_cases here : k.name = name
      · obtain rfl := h.eq_of_name hj hk (same.trans here.symm)
        obtain rfl := once (List.mem_cons.mpr (.inl here))
        have value : j.get r.record = a := by rw [holds, h.get_set j hj]
        refine ⟨some v, .here (here ▸ named) occurs, fun seen => absurd (here ▸ seen) unseen, ?_⟩
        rw [value]
        exact conforms
      · have absent : ¬ Named us k.name := fun same => here (same.unique named)
        have untouched : k.get (j.set a p.record) = k.get p.record :=
          h.get_set_of_ne j hj k hk (fun both => here (both.symm.trans same)) a p.record
        rw [untouched] at holds
        exact ⟨g, .other absent occurs, fun seen => once (List.mem_cons_of_mem _ seen), holds⟩

theorem Overlaid.named {p q : Partial ρ} {ms : List (List TextUnit × Json)}
    (h : Overlaid settings p ms q) : ∀ m ∈ ms, ∃ name, Named m.1 name := by
  induction h with
  | nil p => simp
  | cons named _ _ ih => exact List.forall_mem_cons.mpr ⟨⟨_, named⟩, ih⟩

/-- Members that conform, each at most once, can be read on the way. -/
theorem exists_overlaid {ms : List (List TextUnit × Json)}
    (names : ∀ m ∈ ms, ∃ name, Named m.1 name) {p : Partial ρ}
    (conform : ∀ k ∈ settings, ∃ g, Occurs k.name ms g ∧ (k.name ∈ p.seen → g = none) ∧
      ∃ a, Holds k.Conforms (k.get p.record) g a) : ∃ q, Overlaid settings p ms q := by
  induction ms generalizing p with
  | nil => exact ⟨p, .nil p⟩
  | cons m ms ih =>
    obtain ⟨us, v⟩ := m
    obtain ⟨⟨name, named⟩, others⟩ := List.forall_mem_cons.mp names
    have passed {k : Setting ρ} {g : Option Json} (other : k.name ≠ name)
        (occurs : Occurs k.name ((us, v) :: ms) g) : Occurs k.name ms g := by
      cases occurs with
      | other _ occurs => exact occurs
      | here same _ => exact absurd (Named.unique same named) other
    by_cases known : ∃ k ∈ settings, k.name = name
    · obtain ⟨k, hk, rfl⟩ := known
      obtain ⟨g, occurs, once, a, holds⟩ := conform k hk
      cases occurs with
      | other absent _ => exact absurd named absent
      | here _ nowhere =>
        have unseen : k.name ∉ p.seen := fun seen => nomatch once seen
        obtain ⟨q, overlaid⟩ := ih others (p := ⟨k.set a p.record, k.name :: p.seen⟩) (by
          intro j hj
          by_cases same : j.name = k.name
          · exact ⟨none, same ▸ nowhere, fun _ => rfl, _, rfl⟩
          · obtain ⟨g, occurs, once, b, holds⟩ := conform j hj
            refine ⟨g, passed same occurs, fun seen => once ?_, holds.exists_of_default _⟩
            exact (List.mem_cons.mp seen).resolve_left same)
        exact ⟨q, .cons named (.setting hk rfl unseen holds) overlaid⟩
    · push Not at known
      obtain ⟨q, overlaid⟩ := ih others (p := p) fun k hk => by
        obtain ⟨g, occurs, rest⟩ := conform k hk
        exact ⟨g, passed (known k hk) occurs, rest⟩
      exact ⟨q, .cons named (.other known) overlaid⟩

/-! ### Arrays -/

/-- What items do to a record, one after the other. -/
inductive Listed : List (Setting ρ) → ρ → List Json → ρ → Prop
  | nil (ks : List (Setting ρ)) (r : ρ) : Listed ks r [] r
  | cons {k : Setting ρ} {ks : List (Setting ρ)} {r r' : ρ} {v : Json} {vs : List Json} {a : k.Value} :
      k.Conforms v a → Listed ks (k.set a r) vs r' → Listed (k :: ks) r (v :: vs) r'

theorem itemsAfter_eq_ok_iff {ks : List (Setting ρ)} (reads : ∀ k ∈ ks, k.reader.Reads k.Conforms)
    {r r' : ρ} :
    Schema.itemsAfter r (ks.map Setting.member) ls = .ok (r', rest) ↔
      ∃ vs, Listed ks r vs r' ∧
        ls = (vs.flatMap fun v => .comma :: v.toLexemes) ++ .closing .array :: rest := by
  constructor
  · intro read
    generalize members : ks.map Setting.member = ms at read
    fun_induction Schema.itemsAfter r ms ls generalizing ks with
    | case1 =>
      cases read
      exact ⟨[], .nil ks _, rfl⟩
    | case2 r m ms ls replace middle item ih =>
      obtain ⟨k, ks, rfl, rfl, rfl⟩ := List.map_eq_cons_iff.mp members
      rw [List.forall_mem_cons] at reads
      obtain ⟨a, read_item, rfl⟩ := Reader.run_map.mp item
      obtain ⟨v, conforms, rfl⟩ := (reads.1 _ _ _).mp read_item
      obtain ⟨vs, listed, rfl⟩ := ih reads.2 rfl read
      exact ⟨v :: vs, .cons conforms listed, by simp⟩
    | case3 => cases read
    | case4 => cases read
    | case5 => cases read
  · rintro ⟨vs, listed, rfl⟩
    induction listed with
    | nil ks r => cases ks <;> rfl
    | @cons k ks r r' v vs a conforms _ ih =>
      rw [List.forall_mem_cons] at reads
      have item (tail : List Lexeme) :
          k.member.reader.run (v.toLexemes ++ tail) = .ok (k.set a, tail) :=
        Reader.run_map.mpr ⟨a, (reads.1 _ _ _).mpr ⟨v, conforms, rfl⟩, rfl⟩
      rw [List.map_cons, List.flatMap_cons, List.append_assoc, List.cons_append, Schema.itemsAfter]
      simp only [item]
      exact ih reads.2

/-- The first item of an array is read as if it stood behind a comma. -/
theorem items_eq_ok_iff (h : Laid s settings) {r : ρ} :
    s.items ls = .ok (r, rest) ↔
      ∃ vs, Listed settings s.defaults vs r ∧ ls = itemLexemes vs ++ .closing .array :: rest := by
  rw [Schema.items.eq_def]
  split
  case h_1 tail =>
    constructor
    · rintro ⟨⟩
      exact ⟨[], .nil _ _, rfl⟩
    · rintro ⟨vs, listed, eq⟩
      cases listed with
      | nil => cases eq; rfl
      | cons _ _ =>
        rw [itemLexemes_cons, List.append_assoc] at eq
        exact absurd eq.symm (toLexemes_ne_closing _ .array _ _)
  case h_2 unclosed =>
    rw [h.members, itemsAfter_eq_ok_iff h.reads]
    constructor
    · rintro ⟨vs, listed, eq⟩
      cases vs with
      | nil => cases eq
      | cons v vs => exact ⟨v :: vs, listed, by rw [itemLexemes_cons]; exact (List.cons.inj eq).2⟩
    · rintro ⟨vs, listed, rfl⟩
      cases vs with
      | nil => exact absurd rfl (unclosed rest)
      | cons v vs => exact ⟨v :: vs, listed, by rw [itemLexemes_cons]; rfl⟩

/-- Items leave the settings alone that others are for. -/
theorem listed_get (h : Laid s settings) {ks : List (Setting ρ)} (sub : ∀ k ∈ ks, k ∈ settings)
    {r r' : ρ} {vs : List Json} (listed : Listed ks r vs r') {j : Setting ρ} (hj : j ∈ settings)
    (other : ∀ k ∈ ks, k.name ≠ j.name) : j.get r' = j.get r := by
  induction listed with
  | nil => rfl
  | @cons k ks r r' v vs a _ _ ih =>
    rw [List.forall_mem_cons] at sub other
    rw [ih sub.2 other.2, h.get_set_of_ne k sub.1 j hj other.1]

/-- Every setting is the item in its place, or what it was before. -/
theorem listed_holds (h : Laid s settings) {ks : List (Setting ρ)} (sub : ∀ k ∈ ks, k ∈ settings)
    (nodup : (ks.map Setting.name).Nodup) {r r' : ρ} {vs : List Json} (listed : Listed ks r vs r') :
    vs.length ≤ ks.length ∧
      ∀ (n : Nat) (k : Setting ρ), ks[n]? = some k →
        Holds k.Conforms (k.get r) vs[n]? (k.get r') := by
  induction listed with
  | nil ks r => exact ⟨Nat.zero_le _, fun n k _ => rfl⟩
  | @cons k ks r r' v vs a conforms after ih =>
    rw [List.forall_mem_cons] at sub
    rw [List.map_cons, List.nodup_cons] at nodup
    obtain ⟨length, holds⟩ := ih sub.2 nodup.2
    have apart : ∀ j ∈ ks, j.name ≠ k.name := fun j hj same =>
      nodup.1 (same ▸ List.mem_map_of_mem hj)
    refine ⟨Nat.succ_le_succ length, fun n j found => ?_⟩
    cases n with
    | zero =>
      obtain rfl := Option.some.inj found
      have value := listed_get h sub.2 after sub.1 apart
      rw [h.get_set k sub.1] at value
      rw [value]
      exact conforms
    | succ n =>
      have later : ks[n]? = some j := found
      have member := List.mem_of_getElem? later
      have untouched := h.get_set_of_ne k sub.1 j (sub.2 j member) (apart j member).symm a r
      rw [← untouched]
      exact holds n j later

/-- Items that conform, no more than there are settings, can be read. -/
theorem exists_listed {ks : List (Setting ρ)} {vs : List Json} (length : vs.length ≤ ks.length)
    {r : ρ} (conform : ∀ (n : Nat) (k : Setting ρ), ks[n]? = some k →
      ∃ a, Holds k.Conforms (k.get r) vs[n]? a) : ∃ r', Listed ks r vs r' := by
  induction vs generalizing ks r with
  | nil => exact ⟨r, .nil ks r⟩
  | cons v vs ih =>
    cases ks with
    | nil => cases length
    | cons k ks =>
      obtain ⟨a, conforms⟩ := conform 0 k rfl
      obtain ⟨r', listed⟩ := ih (Nat.le_of_succ_le_succ length) (r := k.set a r) fun n j found => by
        obtain ⟨b, holds⟩ := conform (n + 1) j found
        exact holds.exists_of_default _
      exact ⟨r', .cons conforms listed⟩

/-! ### Records -/

/-- The record agrees with what the value gives for each setting. -/
def Fits (s : Schema ρ) (settings : List (Setting ρ)) (v : Json) (r : ρ) : Prop :=
  ∃ given, Gives (settings.map Setting.name) v given ∧
    ∀ k ∈ settings, k.Agrees s.defaults (given k.name) r

theorem fits_object (h : Laid s settings) {ms : List (List TextUnit × Json)} {r : ρ} :
    Fits s settings (.object ms) r ↔
      ∃ q, Overlaid settings ⟨s.defaults, []⟩ ms q ∧ q.record = r := by
  constructor
  · rintro ⟨given, ⟨names, occurs⟩, agrees⟩
    rw [List.forall_mem_map] at occurs
    obtain ⟨q, overlaid⟩ := exists_overlaid (p := ⟨s.defaults, []⟩) names fun k hk =>
      ⟨given k.name, occurs k hk, nofun, k.get r, agrees k hk⟩
    refine ⟨q, overlaid, h.ext _ _ fun k hk => ?_⟩
    obtain ⟨g, found, -, holds⟩ := h.overlaid_holds overlaid hk
    obtain rfl := found.unique (occurs k hk)
    exact holds.unique (h.reads k hk) (agrees k hk)
  · rintro ⟨q, overlaid, rfl⟩
    have found : ∀ name ∈ settings.map Setting.name, ∃ g, Occurs name ms g := by
      rw [List.forall_mem_map]
      intro k hk
      obtain ⟨g, occurs, -⟩ := h.overlaid_holds overlaid hk
      exact ⟨g, occurs⟩
    choose! given occurs using found
    refine ⟨given, .object overlaid.named occurs, fun k hk => ?_⟩
    obtain ⟨g, occurs', -, holds⟩ := h.overlaid_holds overlaid hk
    obtain rfl := occurs'.unique (occurs k.name (List.mem_map_of_mem hk))
    exact holds

theorem fits_array (h : Laid s settings) {vs : List Json} {r : ρ} :
    Fits s settings (.array vs) r ↔ Listed settings s.defaults vs r := by
  have place {n : Nat} {k : Setting ρ} (found : settings[n]? = some k) :
      (settings.map Setting.name)[n]? = some k.name := by
    rw [List.getElem?_map, found]
    rfl
  constructor
  · rintro ⟨given, gives, agrees⟩
    obtain ⟨length, items⟩ : vs.length ≤ settings.length ∧ ∀ (n : Nat) (name : String),
        (settings.map Setting.name)[n]? = some name → given name = vs[n]? := by
      cases gives with
      | array length items => exact ⟨by rwa [List.length_map] at length, items⟩
    have held : ∀ (n : Nat) (k : Setting ρ), settings[n]? = some k →
        Holds k.Conforms (k.get s.defaults) vs[n]? (k.get r) := fun n k found => by
      rw [← items n k.name (place found)]
      exact agrees k (List.mem_of_getElem? found)
    obtain ⟨r', listed⟩ := exists_listed length fun n k found => ⟨_, held n k found⟩
    have same : r' = r := h.ext _ _ fun k hk => by
      obtain ⟨n, found⟩ := List.mem_iff_getElem?.mp hk
      have holds := (h.listed_holds (fun _ => id) h.nodup listed).2 n k found
      exact holds.unique (h.reads k hk) (held n k found)
    exact same ▸ listed
  · intro listed
    obtain ⟨length, holds⟩ := h.listed_holds (fun _ => id) h.nodup listed
    refine ⟨fun name => vs[(settings.map Setting.name).idxOf name]?,
      .array (by rwa [List.length_map]) fun n name found => ?_, fun k hk => ?_⟩
    · obtain ⟨bound, rfl⟩ := List.getElem?_eq_some_iff.mp found
      rw [h.nodup.idxOf_getElem n bound]
    · obtain ⟨n, found⟩ := List.mem_iff_getElem?.mp hk
      obtain ⟨bound, name⟩ := List.getElem?_eq_some_iff.mp (place found)
      have index : (settings.map Setting.name).idxOf k.name = n := by
        rw [← name, h.nodup.idxOf_getElem n bound]
      simp only [Setting.Agrees, index]
      exact holds n k found

/-- **A record is read from the values it agrees with.** -/
theorem reads_reader (h : Laid s settings) : s.reader.Reads (Fits s settings) := by
  intro ls r rest
  constructor
  · intro read
    simp only [Schema.reader] at read
    split at read
    case h_1 => cases read
    case h_2 ls =>
      cases read
      exact ⟨.object [], h.fits_object.mpr ⟨_, .nil _, rfl⟩, rfl⟩
    case h_3 ls _ =>
      obtain ⟨m, ms, q, overlaid, record, rfl⟩ := h.object_eq_ok_iff.mp read
      exact ⟨.object (m :: ms), h.fits_object.mpr ⟨q, overlaid, record⟩, by simp [toLexemes]⟩
    case h_4 ls =>
      obtain ⟨vs, listed, rfl⟩ := h.items_eq_ok_iff.mp read
      exact ⟨.array vs, h.fits_array.mpr listed, by simp [toLexemes]⟩
    case h_5 => cases read
  · rintro ⟨v, fits, rfl⟩
    cases v with
    | array vs =>
      have read : s.items (itemLexemes vs ++ .closing .array :: rest) = .ok (r, rest) :=
        h.items_eq_ok_iff.mpr ⟨vs, h.fits_array.mp fits, rfl⟩
      simpa [toLexemes, Schema.reader] using read
    | object ms =>
      obtain ⟨q, overlaid, record⟩ := h.fits_object.mp fits
      cases ms with
      | nil =>
        cases overlaid
        cases record
        rfl
      | cons m ms =>
        have read : s.object ⟨s.defaults, []⟩ (memberLexemes (m :: ms) ++ .closing .object :: rest) =
            .ok (r, rest) := h.object_eq_ok_iff.mpr ⟨m, ms, q, overlaid, record, rfl⟩
        simpa [toLexemes, memberLexemes_cons, Schema.reader] using read
    | _ =>
      obtain ⟨given, gives, -⟩ := fits
      cases gives

/-- A text holds a record when the value of the text agrees with it. -/
theorem ofText_eq_ok_iff (h : Laid s settings) {text : String} {r : ρ} :
    s.ofText text = .ok r ↔ ∃ v, TextOf v text.toList ∧ Fits s settings v r := by
  have read : s.ofText text = .ok r ↔ s.reader.run (lexemes text.toList) = .ok (r, []) := by
    rw [Schema.ofText]
    split <;> simp_all
  rw [read, h.reads_reader]
  simp only [List.append_nil, lexemes_eq_toLexemes_iff, and_comm]

end Laid

end Mips32.Json
