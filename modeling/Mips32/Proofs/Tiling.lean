import Mips32.Proofs.Decoding

/-! The binary text of a word is the binary texts of its fields, one after the other, in every
format. A field stands right above the fields behind it (`Format.stacked`), and the digits of a
number are those above a position followed by those below it (`lowBits_add`); so each digit of the
word is a digit of one field, and fields that fit their widths are those of one word. -/
namespace Mips32

/-! ### Binary digits -/

namespace Text

/-- The lowest binary digits of a number, most significant first. -/
def lowBits : Nat → Nat → List Char
  | 0, _ => []
  | width + 1, n => lowBits width (n / 2) ++ [Nat.digitChar (n % 2)]

@[simp] theorem length_lowBits (width n : Nat) : (lowBits width n).length = width := by
  induction width generalizing n with
  | zero => rfl
  | succ width ih => simp [lowBits, ih]

/-- **The digits above a position and those below it** are all the digits. -/
theorem lowBits_add (high low n : Nat) :
    lowBits (high + low) n = lowBits high (n / 2 ^ low) ++ lowBits low n := by
  induction low generalizing n with
  | zero => simp [lowBits]
  | succ low ih =>
    rw [← Nat.add_assoc, lowBits, lowBits, ih, Nat.div_div_eq_div_mul, ← Nat.pow_succ',
      List.append_assoc]

/-- Higher digits do not count. -/
theorem lowBits_mod (width n : Nat) : lowBits width (n % 2 ^ width) = lowBits width n := by
  induction width generalizing n with
  | zero => rfl
  | succ width ih =>
    rw [lowBits, lowBits, Nat.pow_succ', Nat.mod_mul_right_div_self, ih, Nat.mod_mul_right_mod]

/-- Zeros are put in front of the digits behind which one more follows. -/
theorem leftpad_concat (width : Nat) (cs : List Char) (c : Char) :
    List.leftpad (width + 1) '0' (cs ++ [c]) = List.leftpad width '0' cs ++ [c] := by
  simp [List.leftpad]

/-- A number that fits is written with all its digits. -/
theorem leftpad_toDigits {width n : Nat} (fits : n < 2 ^ (width + 1)) :
    List.leftpad (width + 1) '0' (Nat.toDigits 2 n) = lowBits (width + 1) n := by
  induction width generalizing n with
  | zero =>
    have digit : n < 2 := fits
    rw [Nat.toDigits_of_lt_base digit, lowBits, Nat.mod_eq_of_lt digit]
    rfl
  | succ width ih =>
    have half : n / 2 < 2 ^ (width + 1) := by omega
    rw [lowBits, ← ih half]
    by_cases digit : n < 2
    · have high : n / 2 = 0 := Nat.div_eq_of_lt digit
      rw [Nat.toDigits_of_lt_base digit, high, Nat.toDigits_zero, Nat.mod_eq_of_lt digit]
      simp [List.leftpad, List.replicate_succ']
    · rw [Nat.toDigits_of_base_le (by decide) (Nat.not_lt.mp digit), leftpad_concat]

theorem binary_eq_lowBits {width n : Nat} (positive : 0 < width) (fits : n < 2 ^ width) :
    binary width n = .ofList (lowBits width n) := by
  obtain ⟨k, rfl⟩ := Nat.exists_eq_succ_of_ne_zero (Nat.ne_of_gt positive)
  rw [binary, leftpad_toDigits fits]

end Text

/-! ### Fields side by side -/

/-- The number of bits that fields take together. -/
def Field.room : List Field → Nat
  | [] => 0
  | f :: fs => f.width + room fs

/-- Each field stands right above those behind it, and the last one at the lowest bit. -/
def Field.Stacked : List Field → Prop
  | [] => True
  | f :: fs => f.low = room fs ∧ Stacked fs

theorem Format.stacked (F : Format) : Field.Stacked F.fields := by
  cases F <;> simp [Field.Stacked, Field.room, fields, Field.low, Field.width]

theorem Format.room_fields (F : Format) : Field.room F.fields = 32 := by
  cases F <;> rfl

theorem Field.width_pos (f : Field) : 0 < f.width := by
  cases f <;> decide

/-- **The digits of stacked fields** are the lowest digits of the word, each once. -/
theorem Field.lowBits_stacked {fs : List Field} (stacked : Stacked fs) (w : Word) :
    fs.flatMap (fun f => Text.lowBits f.width (w.read f)) =
      Text.lowBits (room fs) w.toNat := by
  induction fs with
  | nil => rfl
  | cons f fs ih =>
    obtain ⟨low, behind⟩ := stacked
    rw [List.flatMap_cons, ih behind, room, Text.lowBits_add, Word.read, Word.slice_eq_div_mod,
      Text.lowBits_mod, low]

/-- The widths of the fields of a format, most significant first. -/
def Format.widths : Format → List Nat
  | register => [6, 5, 5, 5, 5, 6]
  | immediate => [6, 5, 5, 16]
  | jump => [6, 26]

theorem Format.widths_eq (F : Format) : F.widths = F.fields.map Field.width := by
  cases F <;> rfl

theorem Word.binary_eq (w : Word) : w.binary = .ofList (Text.lowBits 32 w.toNat) :=
  Text.binary_eq_lowBits (by decide) w.toNat_lt

theorem Word.length_binary (w : Word) : w.binary.length = 32 := by
  simp [binary_eq]

namespace Fields

theorem map_fst_entries (fs : Fields) : fs.entries.map Prod.fst = fs.format.fields := by
  cases fs <;> rfl

/-- The values fit when each is below the power of two for its width. -/
theorem fits_iff_widths (fs : Fields) :
    fs.Fits ↔ List.Forall₂ (fun width e => e.2 < 2 ^ width) fs.format.widths fs.entries := by
  rw [Format.widths_eq, ← map_fst_entries, List.map_map, List.forall₂_map_left_iff,
    List.forall₂_same]
  simp only [Fits, Field.size, Nat.one_shiftLeft, Function.comp_apply]

/-- **The texts of the fields** are the text of the word. -/
theorem join_binary_ofWord (w : Word) (F : Format) :
    String.join (List.zipWith Text.binary F.widths ((ofWord w F).entries.map Prod.snd)) =
      w.binary := by
  have text (f : Field) : (Text.binary f.width (w.read f)).toList =
      Text.lowBits f.width (w.read f) := by
    have fits : w.read f < 2 ^ f.width := w.slice_lt_two_pow f.low f.width
    rw [Text.binary_eq_lowBits f.width_pos fits, String.toList_ofList]
  apply String.toList_inj.mp
  rw [Format.widths_eq, entries_ofWord, List.map_map, List.zipWith_map, List.zipWith_self,
    String.toList_join, List.flatMap_map, w.binary_eq, String.toList_ofList, ← F.room_fields,
    ← Field.lowBits_stacked F.stacked]
  exact List.flatMap_congr fun f _ => text f

/-- Opcode, two registers and an immediate value in one text. -/
example : String.join (List.zipWith Text.binary Format.immediate.widths [8, 17, 16, 5]) =
    "00100010001100000000000000000101" := by decide

/-- Fields that fit are those of one word. -/
theorem existsUnique_word {fs : Fields} (fits : fs.Fits) : ∃! w, ofWord w fs.format = fs := by
  refine ⟨fs.pack, ofWord_pack fits, ?_⟩
  intro w sliced
  rw [← pack_ofWord w fs.format, sliced]

end Fields

/-- **Slicing is a bijection in every format.** The values of the fields, written in binary in their
widths one after the other, are the 32 digits of the word, which an instruction shows for its word;
and fields that fit their widths are those of exactly one word, the packed one. -/
theorem fields_tile_word (F : Format) :
    (∀ w : Word,
      String.join (List.zipWith Text.binary F.widths ((Fields.ofWord w F).entries.map Prod.snd)) =
          Text.binary 32 w.toNat ∧
        (Text.binary 32 w.toNat).length = 32 ∧
        (∀ i, decode w = .ok i → i.word.binary = Text.binary 32 w.toNat) ∧
        (Fields.ofWord w F).pack = w) ∧
    ∀ fs : Fields, fs.format = F →
      List.Forall₂ (fun width e => e.2 < 2 ^ width) F.widths fs.entries →
        Fields.ofWord fs.pack F = fs ∧ ∃! w, Fields.ofWord w F = fs := by
  constructor
  · intro w
    refine ⟨Fields.join_binary_ofWord w F, w.length_binary, ?_, Fields.pack_ofWord w F⟩
    intro i decoded
    rw [(decode_eq_ok_iff.mp decoded).word]
    rfl
  · rintro fs rfl widths
    have fits := fs.fits_iff_widths.mpr widths
    exact ⟨Fields.ofWord_pack fits, Fields.existsUnique_word fits⟩

/-- The fields of `addi $s0, $s1, 5`. -/
theorem fields_tile_word_addi :
    (decode 0x22300005 = .ok ⟨0x22300005, .immediate ⟨8, 17, 16, 5⟩, .addi, "addi $s0, $s1, 5"⟩ ∧
      Word.binary 0x22300005 = Text.binary 32 (0x22300005 : Word).toNat) ∧
    (Fields.immediate ⟨8, 17, 16, 5⟩).format = .immediate ∧
      List.Forall₂ (fun width e => e.2 < 2 ^ width) Format.immediate.widths
        (Fields.immediate ⟨8, 17, 16, 5⟩).entries ∧
      Fields.ofWord (Fields.immediate ⟨8, 17, 16, 5⟩).pack .immediate = .immediate ⟨8, 17, 16, 5⟩ ∧
      ∃! w, Fields.ofWord w .immediate = .immediate ⟨8, 17, 16, 5⟩ :=
  have decoded : decode 0x22300005 =
      .ok ⟨0x22300005, .immediate ⟨8, 17, 16, 5⟩, .addi, "addi $s0, $s1, 5"⟩ := rfl
  have fits : List.Forall₂ (fun width e => e.2 < 2 ^ width) Format.immediate.widths
      (Fields.immediate ⟨8, 17, 16, 5⟩).entries := by
    simp [Format.widths, Fields.entries]
  have shown := ((fields_tile_word .immediate).1 0x22300005).2.2.1 _ decoded
  ⟨⟨decoded, shown⟩,
    rfl, fits, (fields_tile_word .immediate).2 _ rfl fits⟩

end Mips32
