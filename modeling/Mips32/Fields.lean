/-! Instruction words, the three formats they are encoded in, and the field sets of the
formats. Bit positions count from the least significant bit. A field set holds whole machine
bytes, so a set made by hand may exceed the widths of the encoding; `Fields.Fits` says
that it does not, and `Fields.pack` is then the inverse of `Fields.ofWord`. -/
namespace Mips32

/-! ### Words -/

/-- A number in binary, with zeros in front up to a width. -/
def Text.binary (width n : Nat) : String := .ofList (List.leftpad width '0' (Nat.toDigits 2 n))

/-- An instruction of 32 bits. -/
abbrev Word := UInt32

namespace Word

/-- The number written in `width` bits above `low`. -/
def slice (w : Word) (low width : Nat) : Nat := (w.toNat >>> low) % (1 <<< width)

def opcode (w : Word) : UInt8 := .ofNat (w.slice 26 6)
def rs (w : Word) : UInt8 := .ofNat (w.slice 21 5)
def rt (w : Word) : UInt8 := .ofNat (w.slice 16 5)
def rd (w : Word) : UInt8 := .ofNat (w.slice 11 5)
def shamt (w : Word) : UInt8 := .ofNat (w.slice 6 5)
def funct (w : Word) : UInt8 := .ofNat (w.slice 0 6)
def imm (w : Word) : UInt16 := .ofNat (w.slice 0 16)
def target (w : Word) : UInt32 := .ofNat (w.slice 0 26)

/-- The 32 binary digits of a word, most significant first. -/
def binary (w : Word) : String := Text.binary 32 w.toNat

theorem slice_lt (w : Word) (low width : Nat) : w.slice low width < 1 <<< width :=
  Nat.mod_lt _ (by rw [Nat.one_shiftLeft]; exact Nat.two_pow_pos width)

end Word

/-! ### Formats and fields -/

/-- Register, immediate and jump encodings, written `R`, `I` and `J`. -/
inductive Format where
  | register | immediate | jump
  deriving DecidableEq, Repr

def Format.letter : Format → String
  | .register => "R"
  | .immediate => "I"
  | .jump => "J"

/-- The format of every opcode, assigned or not. -/
def Format.ofOpcode (opcode : UInt8) : Format :=
  if opcode = 0 then .register else if opcode = 2 ∨ opcode = 3 then .jump else .immediate

inductive Field where
  | opcode | rs | rt | rd | shamt | funct | imm | label
  deriving DecidableEq, Repr

namespace Field

def name : Field → String
  | opcode => "opcode"
  | rs => "rs"
  | rt => "rt"
  | rd => "rd"
  | shamt => "shamt"
  | funct => "funct"
  | imm => "imm"
  | label => "label"

/-- The number of bits a field takes in a word. -/
def width : Field → Nat
  | opcode | funct => 6
  | rs | rt | rd | shamt => 5
  | imm => 16
  | label => 26

/-- The number of values of a field in a word. -/
def size (f : Field) : Nat := 1 <<< f.width

end Field

structure RegisterFields where
  opcode : UInt8
  rs : UInt8
  rt : UInt8
  rd : UInt8
  shamt : UInt8
  funct : UInt8
  deriving DecidableEq, Repr

structure ImmediateFields where
  opcode : UInt8
  rs : UInt8
  rt : UInt8
  imm : UInt16
  deriving DecidableEq, Repr

structure JumpFields where
  opcode : UInt8
  label : UInt32
  deriving DecidableEq, Repr

inductive Fields where
  | register (f : RegisterFields)
  | immediate (f : ImmediateFields)
  | jump (f : JumpFields)
  deriving DecidableEq, Repr

namespace Fields

def format : Fields → Format
  | register _ => .register
  | immediate _ => .immediate
  | jump _ => .jump

def opcode : Fields → UInt8
  | register f => f.opcode
  | immediate f => f.opcode
  | jump f => f.opcode

/-- The fields in encoding order, most significant first, with their values. -/
def entries : Fields → List (Field × Nat)
  | register f => [(.opcode, f.opcode.toNat), (.rs, f.rs.toNat), (.rt, f.rt.toNat),
      (.rd, f.rd.toNat), (.shamt, f.shamt.toNat), (.funct, f.funct.toNat)]
  | immediate f => [(.opcode, f.opcode.toNat), (.rs, f.rs.toNat), (.rt, f.rt.toNat),
      (.imm, f.imm.toNat)]
  | jump f => [(.opcode, f.opcode.toNat), (.label, f.label.toNat)]

def get? (fs : Fields) (f : Field) : Option Nat := fs.entries.lookup f

/-- Slices a word into the fields of a format, which need not be the format of its opcode. -/
def ofWord (w : Word) : Format → Fields
  | .register => register ⟨w.opcode, w.rs, w.rt, w.rd, w.shamt, w.funct⟩
  | .immediate => immediate ⟨w.opcode, w.rs, w.rt, w.imm⟩
  | .jump => jump ⟨w.opcode, w.target⟩

/-- Every value fits the width of its field. -/
def Fits (fs : Fields) : Prop := ∀ e ∈ fs.entries, e.2 < e.1.size

instance (fs : Fields) : Decidable fs.Fits :=
  inferInstanceAs (Decidable (∀ e ∈ fs.entries, e.2 < e.1.size))

/-- Writes the fields one after the other into a word. -/
def pack (fs : Fields) : Word :=
  .ofNat (fs.entries.foldl (fun acc e => acc * e.1.size + e.2) 0)

@[simp] theorem format_ofWord (w : Word) (f : Format) : (ofWord w f).format = f := by
  cases f <;> rfl

@[simp] theorem opcode_ofWord (w : Word) (f : Format) : (ofWord w f).opcode = w.opcode := by
  cases f <;> rfl

end Fields

end Mips32
