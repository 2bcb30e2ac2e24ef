import Mips32.Config
import Mips32.Json.Value
import Mips32.Signals

/-! Reports of decoded words and of failures, as lines of text or as one JSON object on a line
of its own. -/
namespace Mips32

/-! ### JSON values

The members of an object are named and ordered by the structure that is written, apart from the names
and the order of the lines of text. -/

def Operation.toJson (op : Operation) : Json := .ofString op.name

def Format.toJson : Format → Json
  | .register => .ofString "R"
  | .immediate => .ofString "I"
  | .jump => .ofString "J"

def RegisterFields.toJson (f : RegisterFields) : Json :=
  .ofMembers
    [("opcode", .ofNat f.opcode.toNat), ("rs", .ofNat f.rs.toNat), ("rt", .ofNat f.rt.toNat),
     ("rd", .ofNat f.rd.toNat), ("shamt", .ofNat f.shamt.toNat), ("funct", .ofNat f.funct.toNat)]

def ImmediateFields.toJson (f : ImmediateFields) : Json :=
  .ofMembers
    [("opcode", .ofNat f.opcode.toNat), ("rs", .ofNat f.rs.toNat), ("rt", .ofNat f.rt.toNat),
     ("imm", .ofNat f.imm.toNat)]

def JumpFields.toJson (f : JumpFields) : Json :=
  .ofMembers [("opcode", .ofNat f.opcode.toNat), ("label", .ofNat f.label.toNat)]

/-- The fields themselves; nothing in the object says which format they are of. -/
def Fields.toJson : Fields → Json
  | .register f => f.toJson
  | .immediate f => f.toJson
  | .jump f => f.toJson

/-- Underscores are dropped, and the letter behind each one is a capital. -/
def capitalized : Bool → List Char → List Char
  | _, [] => []
  | initial, c :: cs =>
    if c = '_' then capitalized true cs
    else (if initial then c.toUpper else c) :: capitalized false cs

/-- A name in snake case as one word with capitals inside. -/
def pascalCase (name : String) : String := .ofList (capitalized true name.toList)

/-- The bit of a signal, and null for a signal left open. -/
def Signal.toJson (s : Signal) : Json :=
  match s.bit? with
  | some bit => .ofNat bit
  | none => .null

/-- The signals by their names in Pascal case, with the acronym in capitals. -/
def Signals.toJson (s : Signals) : Json :=
  .ofMembers
    [("ALUSrc", s.aluSrc.toJson), (pascalCase "branch", s.branch.toJson),
     (pascalCase "mem_read", s.memRead.toJson), (pascalCase "mem_to_reg", s.memToReg.toJson),
     (pascalCase "mem_write", s.memWrite.toJson), (pascalCase "reg_dst", s.regDst.toJson),
     (pascalCase "reg_write", s.regWrite.toJson)]

def Instruction.toJson (i : Instruction) : Json :=
  .ofMembers
    [("raw", .ofNat i.word.toNat), ("opcode", .ofNat i.fields.opcode.toNat),
     ("format", i.fields.format.toJson), ("fields", i.fields.toJson),
     ("operation", i.operation.toJson), ("mnemonic", .ofString i.mnemonic)]

namespace Report

def toJson (i : Instruction) (s : Signals) : Json :=
  .ofMembers
    [("raw", .ofNat i.word.toNat), ("bits", .ofString i.word.binary),
     ("format", i.fields.format.toJson), ("operation", i.operation.toJson),
     ("mnemonic", .ofString i.mnemonic), ("fields", i.fields.toJson), ("signals", s.toJson)]

def failureToJson (input : String) (e : DecodeError) : Json :=
  .ofMembers [("input", .ofString input), ("error", .ofString e.message)]

/-! ### Text -/

/-- The name that the value of a field stands for. The code that selects the operation stands
for the operation, and `rt` is no register when it is that code. -/
def note? (i : Instruction) (field : Field) (value : Nat) : Option String :=
  match field with
  | .opcode => if i.fields.format = .register then none else some i.operation.name
  | .funct => some i.operation.name
  | .rt => if i.fields.opcode = regimmOpcode then none else Register.name? value
  | .rs | .rd => Register.name? value
  | .shamt | .imm | .label => none

def noteText : Option String → String
  | some note => " (" ++ note ++ ")"
  | none => ""

def fieldLine (annotate : Bool) (i : Instruction) (e : Field × Nat) : String :=
  "\t" ++ e.1.name ++ ": " ++ Nat.repr e.2 ++ noteText (if annotate then note? i e.1 e.2 else none)

def signalLine (e : String × Signal) : String := "\t" ++ e.1 ++ ": " ++ e.2.letter

def lines (c : ReportConfig) (i : Instruction) (s : Signals) : List String :=
  ["Instruction: " ++ i.operation.name, "- Format: " ++ i.fields.format.letter] ++
    (if c.showBits then ["- Bits: " ++ i.word.binary] else []) ++
    ["- Mnemonic: " ++ i.mnemonic, "- Fields:"] ++ i.fields.entries.map (fieldLine c.annotateFields i) ++
    ["- Control signals:"] ++ s.entries.map signalLine

/-! ### Reports -/

/-- The report of a decoded word, whose signals need not be its own. -/
def text (c : ReportConfig) (i : Instruction) (s : Signals) : String :=
  match c.style with
  | .text => String.join ((lines c i s).map (· ++ "\n"))
  | .json => (toJson i s).compact ++ "\n"

/-- The report of an input that was refused. -/
def failureText (c : ReportConfig) (input : String) (e : DecodeError) : String :=
  match c.style with
  | .text => "error: " ++ input ++ ": " ++ e.message ++ "\n"
  | .json => (failureToJson input e).compact ++ "\n"

end Report

end Mips32
