import GraphServer.Buffer.Allocator
import Mathlib.Tactic

/-!
What a pool of segments keeps true: every idle segment has the size of the pool and holds zeros only, and
no more of them are kept than allowed.

* `Pool.Sound.make`, `Pool.Sound.acquire`, `Pool.Sound.recycle`: a new pool is sound and stays so;
* `Pool.Sound.acquire_fst`: a sound pool hands out zeros, as many as a segment holds or as were asked for,
  whichever is more.
-/

namespace GraphServer

@[simp] lemma length_zeros (n : Nat) : (zeros n).length = n :=
  List.length_replicate

namespace Pool

/-- The idle segments are whole, blank and not too many. -/
structure Sound (p : Pool) : Prop where
  segmentSize_pos : 0 < p.segmentSize
  idle_eq : ∀ s ∈ p.idle, s = zeros p.segmentSize
  idle_le : p.idle.length ≤ p.maxIdle

lemma Sound.make (segmentSize maxIdle : Nat) (direct : Bool) : (make segmentSize maxIdle direct).Sound where
  segmentSize_pos := Nat.lt_of_lt_of_le Nat.zero_lt_one (Nat.le_max_right segmentSize 1)
  idle_eq := by simp [Pool.make]
  idle_le := by simp [Pool.make]

variable {p : Pool}

@[simp] lemma acquire_segmentSize (p : Pool) (least : Nat) :
    (p.acquire least).2.segmentSize = p.segmentSize := by
  rw [acquire]
  split
  · rfl
  · split <;> rfl

/-- A sound pool hands out zeros, whether the segment is new, idle or of its own size. -/
lemma Sound.acquire_fst (h : p.Sound) (least : Nat) :
    (p.acquire least).1 = zeros (max p.segmentSize least) := by
  rw [Pool.acquire]
  split
  next large => rw [max_eq_right large.le]
  next small =>
    rw [max_eq_left (not_lt.mp small)]
    split
    next => rfl
    next s rest hidle => exact h.idle_eq s (by simp [hidle])

lemma Sound.acquire (h : p.Sound) (least : Nat) : (p.acquire least).2.Sound := by
  rw [Pool.acquire]
  split
  · exact h
  · split
    · exact h
    next s rest hidle =>
      have hle := h.idle_le
      rw [hidle, List.length_cons] at hle
      exact ⟨h.segmentSize_pos, fun t ht => h.idle_eq t (by simp [hidle, ht]), by simp only; omega⟩

/-- Taking back one more segment that fits, blanked. -/
lemma Sound.push (h : p.Sound) (room : p.idle.length < p.maxIdle) :
    { p with idle := zeros p.segmentSize :: p.idle }.Sound where
  segmentSize_pos := h.segmentSize_pos
  idle_eq s hs := by
    rcases List.mem_cons.mp hs with rfl | hs
    · rfl
    · exact h.idle_eq s hs
  idle_le := room

lemma Sound.recycle (h : p.Sound) (segments : List Bytes) :
    (p.recycle segments).Sound ∧ (p.recycle segments).segmentSize = p.segmentSize := by
  induction segments generalizing p with
  | nil => exact ⟨h, rfl⟩
  | cons s rest ih =>
    rw [Pool.recycle]
    split
    · exact ⟨h, rfl⟩
    · split
      · exact ih h
      next full _ => exact ih (h.push (not_le.mp full))

end Pool

end GraphServer
