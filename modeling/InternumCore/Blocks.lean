import Mathlib.Data.List.Range
import Mathlib.Tactic.Ring

/-!
# Cutting a list into blocks

A list cut into blocks of `k` elements, the last of them possibly shorter: the
block starts are the multiples of `k` below its length, and the blocks put
together again are the list (`flatMap_block`).
-/

namespace Blocks

variable {α : Type*}

/-- `range(0, n, k)`: the starts of the blocks of a list of `n` elements. -/
def starts (n k : Nat) : List Nat := List.range' 0 ((n + k - 1) / k) k

/-- The block at `start`. -/
def block (l : List α) (k start : Nat) : List α := (l.drop start).take k

@[simp] theorem length_starts (n k : Nat) : (starts n k).length = (n + k - 1) / k := by
  simp [starts]

@[simp] theorem getElem_starts {n k i : Nat} (h : i < (starts n k).length) :
    (starts n k)[i] = i * k := by
  simp [starts, Nat.mul_comm]

variable {k : Nat}

theorem lt_length_starts_iff (hk : 0 < k) {n i : Nat} : i < (starts n k).length ↔ i * k < n := by
  rw [length_starts, Nat.lt_iff_add_one_le, Nat.le_div_iff_mul_le hk, Nat.add_mul]
  omega

theorem starts_ne_nil (hk : 0 < k) {n : Nat} (hn : 0 < n) : starts n k ≠ [] := by
  rw [← List.length_pos_iff, lt_length_starts_iff hk]
  omega

@[simp] theorem length_block (l : List α) (k start : Nat) :
    (block l k start).length = min k (l.length - start) := by
  simp [block]

/-- The blocks of `m` consecutive starts are a stretch of `m * k` elements. -/
theorem flatMap_block_range' (l : List α) (k m start : Nat) :
    (List.range' start m k).flatMap (block l k) = (l.drop start).take (m * k) := by
  induction m generalizing start with
  | zero => simp
  | succ m ih =>
    rw [List.range'_succ, List.flatMap_cons, ih, block, Nat.succ_mul, Nat.add_comm (m * k) k,
      List.take_add, List.drop_drop]

/-- **The blocks of a list are the list.** -/
theorem flatMap_block (hk : 0 < k) (l : List α) :
    (starts l.length k).flatMap (block l k) = l := by
  rw [starts, flatMap_block_range', List.drop_zero]
  refine List.take_of_length_le ?_
  have h := Nat.div_add_mod (l.length + k - 1) k
  have hm := Nat.mod_lt (l.length + k - 1) hk
  rw [Nat.mul_comm] at h
  omega

/-- No block is empty, and only the last may be short. -/
theorem length_block_of_lt (hk : 0 < k) {l : List α} {i : Nat}
    (h : i < (starts l.length k).length) :
    0 < (block l k (i * k)).length ∧ (block l k (i * k)).length ≤ k ∧
      (i + 1 < (starts l.length k).length → (block l k (i * k)).length = k) := by
  rw [lt_length_starts_iff hk] at h
  rw [lt_length_starts_iff hk, length_block, Nat.add_mul]
  omega

/-- A block ends where the next one starts. -/
theorem end_block_of_lt (hk : 0 < k) {l : List α} {i : Nat}
    (h : i + 1 < (starts l.length k).length) :
    i * k + (block l k (i * k)).length = (i + 1) * k := by
  rw [lt_length_starts_iff hk, Nat.add_mul] at h
  rw [length_block, Nat.add_mul]
  omega

/-- The last block ends where the list ends. -/
theorem end_block_last (hk : 0 < k) {l : List α} {i : Nat}
    (h : i + 1 = (starts l.length k).length) :
    i * k + (block l k (i * k)).length = l.length := by
  have hi : i * k < l.length := (lt_length_starts_iff hk).mp (by omega)
  have hlast : ¬ (i + 1) * k < l.length := by
    rw [← lt_length_starts_iff hk]
    omega
  rw [Nat.add_mul] at hlast
  rw [length_block]
  omega

end Blocks
