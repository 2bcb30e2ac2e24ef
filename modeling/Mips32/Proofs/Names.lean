import Mips32.Proofs.Mnemonics

/-! Names read back. A text is looked up as the register or the operation whose name it is, and as
nothing else: no name is in its table twice, so the entry that is found first is the only one
(`Register.index_eq_ok_iff`, `Operation.ofName?_eq_some_iff`). The text `$fp`, which is in no table,
stands for a register besides. -/
namespace Mips32

/-- In a list without duplicates an element is found where it stands. -/
theorem idxOf?_eq_some_iff_of_nodup {α : Type} [BEq α] [LawfulBEq α] {l : List α}
    (distinct : l.Nodup) {a : α} {i : Nat} : l.idxOf? a = some i ↔ l[i]? = some a := by
  rw [List.idxOf?_eq_some_iff, List.getElem?_eq_some_iff]
  refine exists_congr fun bound => and_iff_left_of_imp ?_
  rintro rfl j before same
  exact Nat.ne_of_lt before (distinct.getElem_inj_iff.mp same)

/-- A look-up by a key that no two elements share finds the one element that has it. -/
theorem find?_key_eq_some_iff {α κ : Type} [DecidableEq κ] {key : α → κ} {l : List α}
    (distinct : ∀ a ∈ l, ∀ b ∈ l, key a = key b → a = b) {k : κ} {a : α} :
    l.find? (fun b => key b = k) = some a ↔ a ∈ l ∧ key a = k := by
  constructor
  · intro found
    exact ⟨List.mem_of_find?_eq_some found, by simpa using List.find?_some found⟩
  · rintro ⟨member, rfl⟩
    obtain ⟨b, found⟩ : ∃ b, l.find? (fun b => key b = key a) = some b :=
      Option.isSome_iff_exists.mp (List.find?_isSome.mpr ⟨a, member, by simp⟩)
    have same : key b = key a := by simpa using List.find?_some found
    rw [found, distinct b (List.mem_of_find?_eq_some found) a member same]

/-! ### Registers -/

namespace Register

theorem index?_eq_some_iff {name : String} {i : Nat} :
    index? name = some i ↔ text i = .ok name ∨ name = "$fp" ∧ i = 30 := by
  rw [text_eq_ok_iff, index?, ← idxOf?_eq_some_iff_of_nodup names_nodup]
  split
  case isTrue pointer =>
    subst pointer
    have absent : names.idxOf? "$fp" = none := by decide
    simp [absent, eq_comm]
  case isFalse other => simp [other]

/-- **A text stands for the register whose name it is**, and `$fp` for register 30. -/
theorem index_eq_ok_iff {name : String} {i : Nat} :
    index name = .ok i ↔ text i = .ok name ∨ name = "$fp" ∧ i = 30 := by
  rw [← index?_eq_some_iff, index]
  cases index? name <;> simp

theorem index_eq_error_iff {name : String} {e : DecodeError} :
    index name = .error e ↔
      (∀ i, text i ≠ .ok name) ∧ name ≠ "$fp" ∧ e = .unknownRegister name := by
  have named : (∃ i, index? name = some i) ↔ (∃ i, text i = .ok name) ∨ name = "$fp" := by
    simp [index?_eq_some_iff, exists_or]
  rw [← not_exists, ← and_assoc, ← not_or, ← named, index]
  cases index? name <;> simp [eq_comm]

end Register

/-! ### Operations -/

namespace Operation

/-- **A text stands for the operation of the table whose name it is.** -/
theorem ofName?_eq_some_iff {name : String} {op : Operation} :
    ofName? name = some op ↔ op ∈ all ∧ op.name = name :=
  find?_key_eq_some_iff fun _ _ _ _ => name_injective

theorem ofName?_ne_special (name : String) : ofName? name ≠ some special := by
  intro found
  have member := (ofName?_eq_some_iff.mp found).1
  exact (mem_all_iff special).mp member rfl

/-- Every operation of the table is found by its name, wherever it stands. -/
theorem map_ofName?_names : all.map (fun op => ofName? op.name) = all.map some :=
  List.map_congr_left fun _ member => ofName?_eq_some_iff.mpr ⟨member, rfl⟩

end Operation

/-- **Looking up a name undoes naming.** A text is looked up as the register whose name it is, or
register 30 if it is `$fp`, and refused as it stands if it is neither; and it is looked up as the
operation of the table whose name it is, never as the marker, so that no operation hides one that
stands behind it. -/
theorem names_read_back :
    (∀ name i, Register.index name = .ok i ↔
      Register.text i = .ok name ∨ name = "$fp" ∧ i = 30) ∧
    (∀ name e, Register.index name = .error e ↔
      (∀ i, Register.text i ≠ .ok name) ∧ name ≠ "$fp" ∧ e = .unknownRegister name) ∧
    (∀ name op, Operation.ofName? name = some op ↔ op ∈ Operation.all ∧ op.name = name) ∧
    (∀ name, Operation.ofName? name ≠ some .special) ∧
    Operation.all.map (fun op => Operation.ofName? op.name) = Operation.all.map some :=
  ⟨fun _ _ => Register.index_eq_ok_iff, fun _ _ => Register.index_eq_error_iff,
    fun _ _ => Operation.ofName?_eq_some_iff, Operation.ofName?_ne_special,
    Operation.map_ofName?_names⟩

end Mips32
