import Mathlib.Algebra.Order.Ring.Nat

/-!
Ranges of paged memory and the frames behind them. A range that starts at some
offset into a page spans a number of pages that depends on the offset and the
length; its frame list names the frame of each in order. Reading through a list
of frames, from the same offset on, sees the bytes of the range as long as the
list begins with the range's own.

The page size, the frames and the bytes are parameters.
-/
namespace Paging

universe u v
variable {φ : Type u} {β : Type v}

/-- The pages that some bytes from an offset on span. -/
def spanPages (pageSize offset count : Nat) : Nat := (offset + count + pageSize - 1) / pageSize

def frameList (pageSize : Nat) (frames : Nat → φ) (start count : Nat) : List φ :=
  (List.range (spanPages pageSize (start % pageSize) count)).map fun j =>
    frames (start / pageSize + j)

def byteAt (pageSize : Nat) (frames : Nat → φ) (memory : φ → Nat → β) (address : Nat) : β :=
  memory (frames (address / pageSize)) (address % pageSize)

/-- The byte seen through a list of frames mapped one page after the other. -/
def viaFrames (pageSize : Nat) (memory : φ → Nat → β) (l : List φ) (position : Nat) : Option β :=
  l[position / pageSize]?.map fun frame => memory frame (position % pageSize)

section
variable {pageSize : Nat} {frames : Nat → φ} {memory : φ → Nat → β} {l : List φ}

theorem frameList_length (pageSize : Nat) (frames : Nat → φ) (start count : Nat) :
    (frameList pageSize frames start count).length =
      spanPages pageSize (start % pageSize) count := by
  rw [frameList, List.length_map, List.length_range]

theorem page_lt_spanPages (h : 0 < pageSize) (offset : Nat) {count k : Nat} (hk : k < count) :
    (offset + k) / pageSize < spanPages pageSize offset count := by
  have hnext : (offset + k + pageSize) / pageSize ≤ spanPages pageSize offset count :=
    Nat.div_le_div_right (by omega)
  rw [Nat.add_div_right _ h] at hnext
  exact hnext

theorem getElem_frameList {start count j : Nat}
    (hj : j < (frameList pageSize frames start count).length) :
    (frameList pageSize frames start count)[j] = frames (start / pageSize + j) := by
  simp only [frameList, List.getElem_map, List.getElem_range]

theorem viaFrames_of_begins (h : 0 < pageSize) {start count k : Nat}
    (hlist : frameList pageSize frames start count <+: l) (hk : k < count) :
    viaFrames pageSize memory l (start % pageSize + k) =
      some (byteAt pageSize frames memory (start + k)) := by
  have hpage := page_lt_spanPages h (start % pageSize) hk
  have hlen : (start % pageSize + k) / pageSize <
      (frameList pageSize frames start count).length := by
    rw [frameList_length]
    exact hpage
  have hsplit : start + k = start % pageSize + k + pageSize * (start / pageSize) := by
    have hdiv := Nat.mod_add_div start pageSize
    omega
  rw [viaFrames, List.prefix_iff_getElem?.mp hlist _ hlen, getElem_frameList, byteAt, hsplit,
    Nat.add_mul_div_left _ _ h, Nat.add_mul_mod_self_left, Nat.add_comm (start / pageSize)]
  rfl

end
end Paging
