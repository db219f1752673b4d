/-!
Sets of characters, given as ranges of code points that ascend with gaps between them.

* `CodeRange.covers_iff`: one look tells whether a code point is in any of the ranges.
-/

namespace GraphServer

/-- The code points from one to another, both included. -/
structure CodeRange where
  first : Nat
  last : Nat
  deriving DecidableEq, Repr

namespace CodeRange

/-- Whether ranges ascend with gaps between them. -/
def ascending : List CodeRange → Bool
  | [] => true
  | [r] => r.first ≤ r.last
  | r :: s :: rest => r.first ≤ r.last && r.last + 1 < s.first && ascending (s :: rest)

/-- Whether a code point is in one of some ascending ranges: the first range that does not end before
it decides. -/
def covers (n : Nat) : List CodeRange → Bool
  | [] => false
  | r :: rest => if n ≤ r.last then r.first ≤ n else covers n rest

/-- The ranges after an ascending one begin after it. -/
theorem last_lt_first {r : CodeRange} {rest : List CodeRange} (h : ascending (r :: rest) = true) :
    ∀ s ∈ rest, r.last < s.first := by
  induction rest generalizing r with
  | nil => simp
  | cons s rest ih =>
    simp only [ascending, Bool.and_eq_true, decide_eq_true_eq] at h
    obtain ⟨⟨_, hrs⟩, hs⟩ := h
    have hle : s.first ≤ s.last := by
      cases rest <;> simp_all [ascending]
    intro x hx
    rcases List.mem_cons.1 hx with rfl | hx
    · omega
    · have := ih hs x hx
      omega

/-- What follows an ascending range ascends. -/
theorem ascending_tail {r : CodeRange} {rest : List CodeRange} (h : ascending (r :: rest) = true) :
    ascending rest = true := by
  cases rest with
  | nil => rfl
  | cons s rest =>
    simp only [ascending, Bool.and_eq_true] at h
    exact h.2

/-- Looking at one range only is enough. -/
theorem covers_iff {n : Nat} {ranges : List CodeRange} (h : ascending ranges = true) :
    covers n ranges = true ↔ ∃ r ∈ ranges, r.first ≤ n ∧ n ≤ r.last := by
  induction ranges with
  | nil => simp [covers]
  | cons r rest ih =>
    have later := last_lt_first h
    by_cases hn : n ≤ r.last
    · simp only [covers, hn, if_true, decide_eq_true_eq, List.mem_cons, exists_eq_or_imp, and_true]
      constructor
      · exact Or.inl
      · rintro (h' | ⟨s, hs, hfirst, _⟩)
        · exact h'
        · have := later s hs
          omega
    · simp [covers, hn, ih (ascending_tail h)]

end CodeRange

end GraphServer
