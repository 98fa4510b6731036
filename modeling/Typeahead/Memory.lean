import Typeahead.Fault

/-!
# Memory and sizes

Which reservations of memory succeed is not up to this library. So the memory is a parameter of
everything that reserves some: a rule by which a reservation is granted or not, according to its
number of bytes. All that is known of it is that no reservation can have 2 ^ 63 bytes or more.

Sizes are numbers of 64 bits. Where a computation of a size has a larger result, the program does
not go on with a wrong one; it ends with the fault `Fault.overflow`.
-/

namespace Typeahead

/-- **Memory**, of which nobody can reserve more than the greatest signed number of 64 bits. -/
class Memory where
  /-- Whether a reservation of so many bytes succeeds. -/
  grants : Nat → Bool
  /-- One of 2 ^ 63 bytes or more does not. -/
  limited : ∀ bytes, 0x8000000000000000 ≤ bytes → grants bytes = false

namespace Memory

/-- There is memory for every table, arena and list of shards that an index can come to need: every
reservation of up to 2 ^ 40 bytes succeeds. -/
class Ample [Memory] : Prop where
  granted : ∀ bytes ≤ 0x10000000000, Memory.grants bytes = true

theorem lt_of_grants [Memory] {bytes : Nat} (h : Memory.grants bytes = true) :
    bytes < 0x8000000000000000 := by
  refine Nat.lt_of_not_le fun hlarge => ?_
  rw [Memory.limited bytes hlarge] at h
  exact Bool.false_ne_true h

namespace AddressSpace

/-- The memory of a process whose addresses have 47 bits and that has pages for all of them. -/
scoped instance addressSpace : Memory where
  grants bytes := bytes < 0x800000000000
  limited bytes h := decide_eq_false (by omega)

scoped instance : Ample where
  granted bytes h := decide_eq_true (by omega)

end AddressSpace

end Memory

namespace Size

/-- The result of a computation of a size, which overflows if it has more than 64 bits. -/
def checked (n : Nat) : Except Fault Nat :=
  if n < UInt64.size then .ok n else .error .overflow

theorem checked_of_lt {n : Nat} (h : n < UInt64.size) : checked n = .ok n := if_pos h

theorem checked_of_le {n : Nat} (h : UInt64.size ≤ n) : checked n = .error .overflow :=
  if_neg (Nat.not_lt.mpr h)

end Size

end Typeahead
