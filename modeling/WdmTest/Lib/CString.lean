import Mathlib.Data.List.TakeWhile

/-!
Terminated strings in buffers of a fixed size. A buffer always holds a
terminator, so the string in it is shorter than the buffer, and every store has
to show that its text and the terminator fit.

The bounded print, append and length operations truncate as the checked string
routines of C libraries do: at most `limit` cells are used, the last of them for
the terminator. The element type and its terminator are parameters.
-/
namespace CString

universe u
variable {α : Type u} [DecidableEq α]

structure Buffer (nul : α) (cap : Nat) where
  cells : List α
  size : cells.length = cap
  terminated : nul ∈ cells

namespace Buffer
variable {nul : α} {cap : Nat}

def zeroed (nul : α) (cap : Nat) (h : 0 < cap) : Buffer nul cap where
  cells := List.replicate cap nul
  size := List.length_replicate
  terminated := List.mem_replicate.mpr ⟨by omega, rfl⟩

/-- The string in the buffer: the cells before the first terminator. -/
def contents (b : Buffer nul cap) : List α := b.cells.takeWhile (· ≠ nul)

/-- Write a text and its terminator from a given cell on. -/
def store (b : Buffer nul cap) (pos : Nat) (text : List α)
    (fits : pos + text.length < cap) : Buffer nul cap where
  cells := b.cells.take pos ++ (text ++ nul :: b.cells.drop (pos + text.length + 1))
  size := by
    simp only [List.length_append, List.length_take, List.length_cons, List.length_drop, b.size]
    omega
  terminated := by simp

def clear (b : Buffer nul cap) (count : Nat) : Buffer nul cap where
  cells := List.replicate (min count cap) nul ++ b.cells.drop count
  size := by simp [b.size]; omega
  terminated := by
    have h := b.terminated
    by_cases hc : count = 0
    · simpa [hc] using h
    · have hcap : cap ≠ 0 := by
        rintro rfl
        simp [List.length_eq_zero_iff.mp b.size] at h
      exact List.mem_append_left _ (List.mem_replicate.mpr ⟨by omega, rfl⟩)

/-- The string in the first `limit` cells. -/
def within (b : Buffer nul cap) (limit : Nat) : List α :=
  (b.cells.take limit).takeWhile (· ≠ nul)

/-- The length of the string, or 0 when the first `limit` cells hold no terminator. -/
def lengthWithin (b : Buffer nul cap) (limit : Nat) : Nat :=
  if (b.within limit).length < limit then (b.within limit).length else 0

/-- Replace the string, truncated to `limit - 1` cells. -/
def print (b : Buffer nul cap) (limit : Nat) (hl : limit ≤ cap) (text : List α) :
    Buffer nul cap :=
  if h : 0 < limit then
    b.store 0 (text.take (limit - 1)) (by simp only [List.length_take]; omega)
  else b

/-- Append to the string, truncated to `limit - 1` cells in all. Nothing is
written when the first `limit` cells hold no terminator. -/
def append (b : Buffer nul cap) (limit : Nat) (hl : limit ≤ cap) (text : List α) :
    Buffer nul cap :=
  if h : (b.within limit).length < limit then
    b.store (b.within limit).length (text.take (limit - 1 - (b.within limit).length))
      (by simp only [List.length_take]; omega)
  else b

theorem nul_notMem_contents (b : Buffer nul cap) : nul ∉ b.contents := by
  intro h
  have hne := List.mem_takeWhile_imp h
  simp at hne

theorem contents_eq_take (b : Buffer nul cap) :
    b.contents = b.cells.take b.contents.length :=
  List.prefix_iff_eq_take.mp (List.takeWhile_prefix _)

theorem contents_length_lt (b : Buffer nul cap) : b.contents.length < cap := by
  have hle : b.contents.length ≤ b.cells.length := (List.takeWhile_prefix _).length_le
  cases Nat.lt_or_ge b.contents.length cap with
  | inl h => exact h
  | inr h =>
      have hall : b.contents = b.cells := by
        rw [contents_eq_take, List.take_of_length_le (by rw [b.size]; exact h)]
      exact absurd (hall ▸ b.terminated) b.nul_notMem_contents

theorem take_contents_succ (b : Buffer nul cap) :
    b.cells.take (b.contents.length + 1) = b.contents ++ [nul] := by
  have hsplit : b.contents ++ b.cells.dropWhile (· ≠ nul) = b.cells := List.takeWhile_append_dropWhile
  have hhead := List.head?_dropWhile_not (· ≠ nul) b.cells
  cases hrest : b.cells.dropWhile (· ≠ nul) with
  | nil =>
      rw [hrest, List.append_nil] at hsplit
      exact absurd (hsplit ▸ b.terminated) b.nul_notMem_contents
  | cons c rest =>
      rw [hrest] at hhead
      have hc : c = nul := by simpa using hhead
      rw [hrest, hc, List.append_cons] at hsplit
      rw [← hsplit, List.take_left' (by simp)]

theorem takeWhile_terminated {pre text post : List α}
    (hpre : nul ∉ pre) (htext : nul ∉ text) :
    (pre ++ (text ++ nul :: post)).takeWhile (· ≠ nul) = pre ++ text := by
  rw [List.takeWhile_append_of_pos, List.takeWhile_append_of_pos]
  · simp
  · intro x hx
    simpa using ne_of_mem_of_not_mem hx htext
  · intro x hx
    simpa using ne_of_mem_of_not_mem hx hpre

/-- A store at or before the terminator keeps the string up to that cell. -/
theorem contents_store (b : Buffer nul cap) {pos : Nat} {text : List α}
    (fits : pos + text.length < cap) (hpos : pos ≤ b.contents.length) (htext : nul ∉ text) :
    (b.store pos text fits).contents = b.contents.take pos ++ text := by
  have htake : b.cells.take pos = b.contents.take pos := by
    rw [b.contents_eq_take, List.take_take, Nat.min_eq_left hpos]
  have hpre : nul ∉ b.contents.take pos := fun h =>
    b.nul_notMem_contents (List.mem_of_mem_take h)
  simp only [contents, store]
  rw [takeWhile_terminated (by rw [htake]; exact hpre) htext, htake]
  rfl

theorem contents_zeroed (h : 0 < cap) : (zeroed nul cap h).contents = [] := by
  obtain ⟨n, rfl⟩ := Nat.exists_eq_succ_of_ne_zero (Nat.ne_of_gt h)
  simp [contents, zeroed, List.replicate_succ]

theorem within_eq (b : Buffer nul cap) {limit : Nat} (h : b.contents.length < limit) :
    b.within limit = b.contents := by
  rw [within, ← List.take_takeWhile]
  exact List.take_of_length_le (Nat.le_of_lt h)

theorem lengthWithin_eq (b : Buffer nul cap) {limit : Nat} (h : b.contents.length < limit) :
    b.lengthWithin limit = b.contents.length := by
  simp only [lengthWithin, b.within_eq h, h, if_true]

theorem contents_print (b : Buffer nul cap) {limit : Nat} (hl : limit ≤ cap) {text : List α}
    (hpos : 0 < limit) (htext : nul ∉ text) :
    (b.print limit hl text).contents = text.take (limit - 1) := by
  rw [print, dif_pos hpos, contents_store _ _ (Nat.zero_le _)]
  · simp
  · exact fun h => htext (List.mem_of_mem_take h)

theorem contents_append (b : Buffer nul cap) {limit : Nat} (hl : limit ≤ cap) {text : List α}
    (h : b.contents.length < limit) (htext : nul ∉ text) :
    (b.append limit hl text).contents =
      b.contents ++ text.take (limit - 1 - b.contents.length) := by
  have hw := b.within_eq h
  rw [append, dif_pos (by rw [hw]; exact h), contents_store _ _ (by rw [hw])]
  · rw [hw, List.take_length]
  · exact fun hmem => htext (List.mem_of_mem_take hmem)

theorem contents_append_of_fits (b : Buffer nul cap) {limit : Nat} (hl : limit ≤ cap)
    {text : List α} (h : b.contents.length + text.length < limit) (htext : nul ∉ text) :
    (b.append limit hl text).contents = b.contents ++ text := by
  rw [contents_append b hl (by omega) htext, List.take_of_length_le (by omega)]

end Buffer
end CString
