import Mips32.Proofs.Mnemonics
import Mathlib.Data.List.TakeWhile

/-! What a mnemonic shows. Its operands are read off the text, as the words between separators
behind the name (`Mnemonic.words`). They are shown for the fields that the layout prints, in printed
order (`Operation.shown_words`), and only the registers start with a dollar sign, so registers and
numbers are told apart in the text alone (`Fields.shown?_filter`). -/
namespace Mips32

def Field.isRegister (f : Field) : Bool := [rs, rt, rd].contains f

/-! ### The words of a mnemonic -/

namespace Mnemonic

def separators : List Char := [' ', ',', '(', ')']

/-- The pieces of a text between separators. -/
def pieces (cs : List Char) : List (List Char) :=
  (cs.splitOnP fun c => separators.contains c).filter (· ≠ [])

def textWords (text : String) : List String := (pieces text.toList).map .ofList

/-- The words behind the name of the operation. -/
def words (m : String) : List String :=
  (pieces (m.toList.dropWhile (· ≠ ' '))).map .ofList

/-- Registers are written with a dollar sign in front. -/
def namesRegister (word : String) : Bool := word.toList.head? = some '$'

def registers (m : String) : List String := (words m).filter namesRegister

def numbers (m : String) : List String := (words m).filter (!namesRegister ·)

theorem pieces_append {c : Char} (separates : c ∈ separators) (xs ys : List Char) :
    pieces (xs ++ c :: ys) = pieces xs ++ pieces ys := by
  rw [pieces, List.splitOnP_append_cons xs ys (List.contains_iff_mem.mpr separates),
    List.filter_append]
  rfl

theorem pieces_cons {c : Char} (separates : c ∈ separators) (cs : List Char) :
    pieces (c :: cs) = pieces cs := pieces_append separates [] cs

theorem pieces_word {word : List Char} (some_char : word ≠ [])
    (h : ∀ c ∈ word, c ∉ separators) : pieces word = [word] := by
  have whole : word.splitOnP (fun c => separators.contains c) = [word] :=
    List.splitOnP_eq_singleton fun c member => by simpa using h c member
  rw [pieces, whole, List.filter_cons_of_pos (by simpa using some_char)]
  rfl

theorem textWords_word {word : String} (some_char : word.toList ≠ [])
    (h : ∀ c ∈ word.toList, c ∉ separators) : textWords word = [word] := by
  rw [textWords, pieces_word some_char h, List.map_singleton, String.ofList_toList]

theorem textWords_repr (n : Nat) : textWords (Nat.repr n) = [Nat.repr n] := by
  apply textWords_word
  · rw [Nat.toList_repr]
    exact Nat.toDigits_ne_nil
  · intro c member separates
    have table : separators.all (!·.isDigit) := by decide
    have not_digit := List.all_eq_true.mp table c separates
    exact Operand.not_mem_repr n (by simpa using not_digit) member

theorem textWords_register {index : Nat} {name : String}
    (h : Register.names[index]? = some name) : textWords name = [name] := by
  have table : ∀ t ∈ Register.names, t.toList ≠ [] ∧ t.toList.all (· ∉ separators) := by
    decide +kernel
  obtain ⟨some_char, chars⟩ := table name (List.mem_of_getElem? h)
  exact textWords_word some_char fun c member => by simpa using List.all_eq_true.mp chars c member

theorem textWords_memory (offset : Nat) {base : Nat} {name : String}
    (h : Register.names[base]? = some name) :
    textWords (Nat.repr offset ++ "(" ++ name ++ ")") = [Nat.repr offset, name] := by
  have chars : (Nat.repr offset ++ "(" ++ name ++ ")").toList =
      (Nat.repr offset).toList ++ '(' :: (name.toList ++ ')' :: []) := by
    simp
  have pieces_nil : pieces [] = [] := rfl
  rw [textWords, chars, pieces_append (by decide), pieces_append (by decide), pieces_nil,
    List.append_nil, List.map_append]
  exact congrArg₂ (· ++ ·) (textWords_repr offset) (textWords_register h)

theorem pieces_intercalate (texts : List String) :
    (pieces (String.intercalate ", " texts).toList).map .ofList = texts.flatMap textWords := by
  induction texts with
  | nil => rfl
  | cons t ts ih =>
    cases ts with
    | nil => rw [String.intercalate_singleton, List.flatMap_singleton]; rfl
    | cons u us =>
      have chars : (String.intercalate ", " (t :: u :: us)).toList =
          t.toList ++ ',' :: ' ' :: (String.intercalate ", " (u :: us)).toList := by
        rw [String.intercalate_cons_cons]
        simp
      rw [chars, pieces_append (by decide), pieces_cons (by decide), List.map_append, ih,
        List.flatMap_cons]
      rfl

/-- The words of a mnemonic are those of its operands. -/
theorem words_spell (op : Operation) (texts : List String) :
    words (op.spell texts) = texts.flatMap textWords := by
  have name : ∀ c ∈ op.name.toList, decide (c ≠ ' ') := fun c member =>
    decide_eq_true fun same => op.blank_not_mem_name (same ▸ member)
  by_cases bare : texts = []
  · subst bare
    have ends : op.name.toList.dropWhile (· ≠ ' ') = [] := List.dropWhile_eq_nil_iff.mpr name
    rw [words, Operation.spell, ends]
    rfl
  · rw [words, op.spell_toList bare, List.dropWhile_append_of_pos name,
      List.dropWhile_cons_of_neg (by simp), pieces_cons (by decide), pieces_intercalate]

end Mnemonic

/-! ### What a mnemonic shows -/

/-- What is printed for a field: the name of a register, the decimal text of any other value. -/
def Fields.shown? (fs : Fields) (f : Field) : Option String :=
  (fs.get? f).bind fun v => if f.isRegister then Register.names[v]? else some (Nat.repr v)

/-- Registers are read from register fields, and numbers are not. -/
def Slot.Sorted : Slot → Prop
  | register f => f.isRegister = true
  | number f => f.isRegister = false
  | memory offset base => offset.isRegister = false ∧ base.isRegister = true

theorem Layout.sorted (l : Layout) : ∀ s ∈ l.slots, s.Sorted := by
  cases l <;> simp [slots, Slot.Sorted, Field.isRegister]

theorem Fields.shown?_register {fs : Fields} {f : Field} {v : Nat} {name : String}
    (register : f.isRegister = true) (held : fs.get? f = some v)
    (named : Register.names[v]? = some name) : fs.shown? f = some name := by
  rw [shown?, held, Option.bind_some, if_pos register, named]

theorem Fields.shown?_number {fs : Fields} {f : Field} {v : Nat} (number : f.isRegister = false)
    (held : fs.get? f = some v) : fs.shown? f = some (Nat.repr v) := by
  rw [shown?, held, Option.bind_some, if_neg (by simp [number])]

open Mnemonic in
/-- The words of an operand are what is shown for the fields of its slot. -/
theorem Slot.shown_words {fs : Fields} {s : Slot} {o : Operand} {t : String} (sorted : s.Sorted)
    (read : s.read? fs = some o) (written : o.text = .ok t) :
    List.Forall₂ (fun f word => fs.shown? f = some word) s.fields (textWords t) := by
  cases s with
  | register f =>
    obtain ⟨index, held, rfl⟩ := Option.map_eq_some_iff.mp read
    have named := Register.text_eq_ok_iff.mp written
    rw [textWords_register named]
    exact .cons (Fields.shown?_register sorted held named) .nil
  | number f =>
    obtain ⟨value, held, rfl⟩ := Option.map_eq_some_iff.mp read
    obtain rfl := Except.ok.inj written
    rw [textWords_repr]
    exact .cons (Fields.shown?_number sorted held) .nil
  | memory offset base =>
    obtain ⟨m, offset_held, n, base_held, rfl⟩ := read?_memory_eq_some_iff.mp read
    obtain ⟨name, register, rfl⟩ := Operand.text_memory_eq_ok_iff.mp written
    have named := Register.text_eq_ok_iff.mp register
    rw [textWords_memory m named]
    exact .cons (Fields.shown?_number sorted.1 offset_held)
      (.cons (Fields.shown?_register sorted.2 base_held named) .nil)

theorem Slot.shown_texts {fs : Fields} {slots : List Slot} {operands : List Operand}
    {texts : List String} (sorted : ∀ s ∈ slots, s.Sorted)
    (read : List.Forall₂ (fun s o => s.read? fs = some o) slots operands)
    (written : List.Forall₂ (fun o t => o.text = .ok t) operands texts) :
    List.Forall₂ (fun f word => fs.shown? f = some word) (slots.flatMap Slot.fields)
      (texts.flatMap Mnemonic.textWords) := by
  induction read generalizing texts with
  | nil =>
    cases written
    exact .nil
  | cons first _ ih =>
    rw [List.forall_mem_cons] at sorted
    cases written with
    | cons text others => exact List.rel_append (shown_words sorted.1 first text) (ih sorted.2 others)

/-- **A mnemonic shows the fields that the layout prints**, in printed order. -/
theorem Operation.shown_words {op : Operation} {fs : Fields} {m : String}
    (h : op.mnemonic fs = .ok m) :
    ∃ l, op.layout? = some l ∧
      List.Forall₂ (fun f word => fs.shown? f = some word) l.reads (Mnemonic.words m) := by
  obtain ⟨l, operands, texts, layout, read, written, rfl⟩ := mnemonic_eq_ok_iff.mp h
  refine ⟨l, layout, ?_⟩
  rw [Mnemonic.words_spell, ← l.fields_slots]
  exact Slot.shown_texts l.sorted (Layout.operands?_eq_some_iff.mp read).2
    (mapM_eq_ok_iff.mp written)

/-- Only what is shown for a register field starts with a dollar sign. -/
theorem Fields.namesRegister_of_shown {fs : Fields} {f : Field} {word : String}
    (h : fs.shown? f = some word) : Mnemonic.namesRegister word = f.isRegister := by
  obtain ⟨v, _, shown⟩ := Option.bind_eq_some_iff.mp h
  rw [Mnemonic.namesRegister]
  cases register : f.isRegister with
  | true =>
    rw [if_pos register] at shown
    exact decide_eq_true (Register.text_chars (Register.text_eq_ok_iff.mpr shown)).1
  | false =>
    rw [if_neg (by simp [register])] at shown
    obtain rfl := Option.some.inj shown
    refine decide_eq_false fun dollar => ?_
    exact Operand.not_mem_repr v rfl (List.mem_of_mem_head? dollar)

/-- The words of one kind are shown for the fields of that kind. -/
theorem Fields.shown?_filter {fs : Fields} {fields : List Field} {words : List String}
    (h : List.Forall₂ (fun f word => fs.shown? f = some word) fields words) (p : Bool → Bool) :
    (words.filter fun word => p (Mnemonic.namesRegister word)).map some =
      (fields.filter fun f => p f.isRegister).map fs.shown? := by
  induction h with
  | nil => rfl
  | cons first _ ih =>
    have kind := Fields.namesRegister_of_shown first
    rw [List.filter_cons, List.filter_cons, kind]
    split
    · rw [List.map_cons, List.map_cons, ih, first]
    · exact ih

end Mips32
