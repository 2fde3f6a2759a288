/-!
# Sizes of what is kept in memory

The number of elements of a list is a word of the machine, and the bytes that
they take together are at most half of the address space. What is larger is not
refused with an error that a caller could go on with: the program breaks off, and
nothing that it was asked for afterwards is done.

So there are three endings where memory is taken, and `Ending` keeps them apart.
An error is a result like any other, while a breakdown is none. The two kinds of
breakdown come one after the other, since the bytes are reckoned only once the
number of elements is a word (`multiply`).
-/

namespace Meshwork

/-- **Why a program breaks off** instead of giving a result. No caller is given this as a value:
nothing that comes after it is done. -/
inductive Breakdown where
  /-- A number of elements is a product of two words and no word itself. -/
  | overflow
  /-- A list would take more bytes than can be addressed within one piece of memory. -/
  | capacity
deriving DecidableEq, Repr

/-- **How something ends** for which memory is taken. The third way is kept apart from the second,
because a caller can handle an error and not a breakdown. -/
inductive Ending (ε α : Type) where
  /-- There is a result. -/
  | done (result : α)
  /-- There is an error, which the caller is given as a value. -/
  | refused (error : ε)
  /-- There is neither: the program broke off. -/
  | broken (breakdown : Breakdown)
deriving DecidableEq, Repr

/-- The most bytes that one list may take. The distance of any two of its bytes is then a signed
word. -/
def maxBytes : Nat := UInt64.size / 2 - 1

/-- **The product of two sizes.** The program breaks off if it is no word; it does not go on with
what remains of the product in a word. -/
def multiply (a b : UInt64) : Except Breakdown UInt64 :=
  if a.toNat * b.toNat < UInt64.size then .ok (a * b) else .error .overflow

/-- A product that is given is the product of the numbers. -/
theorem multiply_eq_ok_iff {a b c : UInt64} :
    multiply a b = .ok c ↔ c.toNat = a.toNat * b.toNat := by
  rw [multiply]
  split <;> rename_i hword
  · have hproduct : (a * b).toNat = a.toNat * b.toNat := by
      rw [UInt64.toNat_mul]
      exact Nat.mod_eq_of_lt hword
    rw [Except.ok.injEq, ← UInt64.toNat_inj, hproduct, eq_comm]
  · exact iff_of_false nofun fun h => hword (h ▸ c.toNat_lt)

/-- **There is no product** exactly if the numbers have one that is no word. So a product is never
wrapped around and then used as if it were right. -/
theorem multiply_eq_error_iff {a b : UInt64} {breakdown : Breakdown} :
    multiply a b = .error breakdown
      ↔ breakdown = .overflow ∧ UInt64.size ≤ a.toNat * b.toNat := by
  rw [multiply]
  split <;> rename_i hword
  · exact iff_of_false nofun fun h => absurd hword (Nat.not_lt.2 h.2)
  · rw [Except.error.injEq, eq_comm, and_iff_left (Nat.not_lt.1 hword)]

end Meshwork
