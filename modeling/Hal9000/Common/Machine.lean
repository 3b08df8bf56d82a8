import Mathlib

/-!
# Machine words, pages and addresses

Addresses and sizes are 64-bit words, kept as naturals below `qwordModulus`; the pointer
macros wrap where the machine does. The macros come from the common library headers, and
follow the meaning their callers rely on.
-/

namespace Hal9000

def qwordModulus : Nat := 2 ^ 64
def maxDword : Nat := 2 ^ 32 - 1
def pageSize : Nat := 4096

/-- A failed `ASSERT` halts every processor: the model of a function that can fail one
returns `none` there. -/
def assert (condition : Bool) : Option Unit := if condition then some () else none

@[simp] theorem assert_eq_some {condition : Bool} {u : Unit} :
    assert condition = some u ↔ condition = true := by
  cases condition <;> simp [assert]

@[simp] theorem assert_true : assert true = some () := rfl

def ptrOffset (pointer offset : Nat) : Nat := (pointer + offset) % qwordModulus
def ptrDiff (pointer offset : Nat) : Nat := (pointer + qwordModulus - offset) % qwordModulus

def isAddressAligned (address alignment : Nat) : Bool := address % alignment == 0
def addressOffset (address alignment : Nat) : Nat := address % alignment
def alignAddressLower (address alignment : Nat) : Nat := address / alignment * alignment
def alignAddressUpper (address alignment : Nat) : Nat :=
  alignAddressLower ((address + (alignment - 1)) % qwordModulus) alignment

/-- `CHECK_BOUNDS` for ranges that end below 2 ^ 64: the first is contained in the second. -/
def checkBounds (address size boundAddress boundSize : Nat) : Bool :=
  decide (boundAddress ≤ address) && decide (address + size ≤ boundAddress + boundSize)

/-- Percentages are given in hundreds: `10000` is the whole. -/
def calculatePercentage (value percentageInHundreds : Nat) : Nat :=
  value * percentageInHundreds / 10000

@[simp] theorem checkBounds_eq_true {address size boundAddress boundSize : Nat} :
    checkBounds address size boundAddress boundSize = true ↔
      boundAddress ≤ address ∧ address + size ≤ boundAddress + boundSize := by
  simp [checkBounds]

/-! Literals of the index types that page tables and concrete runs use. -/

instance neZero_one : NeZero 1 := ⟨by decide⟩
instance neZero_two : NeZero 2 := ⟨by decide⟩
instance neZero_three : NeZero 3 := ⟨by decide⟩
instance neZero_four : NeZero 4 := ⟨by decide⟩
instance neZero_entries : NeZero 512 := ⟨by decide⟩

inductive ThreadState
  | running
  | ready
  | blocked
  | dying
  deriving DecidableEq

end Hal9000
