import SmallScheme.Error

/-!
# Instructions

The moves of the target machine, and how they are written: the mnemonic, the source, the target. A
move with a number that is too long is not written at all.
-/

namespace SmallScheme.Assembly

/-- The registers that code may name. -/
inductive Register where
  | rax
  | rbx
  | rcx
  | rdx
  | rsi
  | rdi
  | rsp
  | rbp
  | rip
  | xmm0
  deriving DecidableEq, Repr

namespace Register

/-- All registers. -/
def all : List Register :=
  [rax, rbx, rcx, rdx, rsi, rdi, rsp, rbp, rip, xmm0]

/-- The name of a register. -/
def name : Register → String
  | rax => "rax"
  | rbx => "rbx"
  | rcx => "rcx"
  | rdx => "rdx"
  | rsi => "rsi"
  | rdi => "rdi"
  | rsp => "rsp"
  | rbp => "rbp"
  | rip => "rip"
  | xmm0 => "xmm0"

/-- The register of a name. -/
def ofName (name : String) : Except Fault Register :=
  match all.find? (·.name == name) with
  | some register => .ok register
  | none => .error (.unknownRegister name)

/-- Every register is found by its name. -/
@[simp] theorem ofName_name (register : Register) : ofName register.name = .ok register := by
  cases register <;> rfl

/-- A register in an instruction. -/
def text (register : Register) : String :=
  "%" ++ register.name

/-- Where a function leaves an integer result. -/
def result : Register :=
  rax

end Register

/-- A place in memory. -/
inductive Memory where
  | absolute (address : Int)
  /-- The place at a distance in bytes from the address that a register holds. -/
  | displaced (distance : Int) (base : Register)
  /-- The place of a label, reached from a register. -/
  | labelled (label : String) (base : Register)
  deriving DecidableEq, Repr

/-- A number in hexadecimal. -/
def hexadecimal (n : Nat) : String :=
  "0x" ++ String.ofList (Nat.toDigits 16 n)

/-- The number of addresses. -/
def addressCount : Nat :=
  Numeral.twoTo 64

/-- An operand that is reached from a register. -/
def dereference (front : String) (base : Register) : String :=
  front ++ "(" ++ base.text ++ ")"

/-- A place in an instruction. An absolute address stands for its remainder modulo the number of
addresses. -/
def Memory.text : Memory → Except Fault String
  | .absolute address => return hexadecimal (address % addressCount).toNat
  | .displaced distance base => return dereference (← Numeral.decimal distance) base
  | .labelled label base => return dereference label base

/-- A move of one quantity. -/
inductive Move where
  | registerToRegister (source target : Register)
  | immediateToRegister (value : Int) (target : Register)
  | registerToMemory (source : Register) (target : Memory)
  | immediateToMemory (value : Int) (target : Memory)
  | memoryToRegister (source : Memory) (target : Register)
  /-- Moves a double. -/
  | doubleToRegister (source : Memory) (target : Register)
  deriving DecidableEq, Repr

/-- An instruction from its parts. -/
def instruction (mnemonic source target : String) : String :=
  mnemonic ++ " " ++ source ++ ", " ++ target

/-- A number in an instruction. -/
def immediate (value : Int) : Except Fault String :=
  return "$" ++ (← Numeral.decimal value)

/-- A move as an instruction. -/
def Move.text : Move → Except Fault String
  | .registerToRegister source target => return instruction "movq" source.text target.text
  | .immediateToRegister value target => return instruction "movq" (← immediate value) target.text
  | .registerToMemory source target => return instruction "movq" source.text (← target.text)
  | .immediateToMemory value target =>
    return instruction "movq" (← immediate value) (← target.text)
  | .memoryToRegister source target => return instruction "movq" (← source.text) target.text
  | .doubleToRegister source target => return instruction "movsd" (← source.text) target.text

end SmallScheme.Assembly
