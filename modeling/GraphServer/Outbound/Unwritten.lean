import GraphServer.Outbound.Frame

/-!
What is left to be written of some frames: their prefixes and bodies in order, without the empty ones.

A transport takes as many bytes as it likes, which may end inside any prefix or body. What it took is
dropped piece by piece.
-/

namespace GraphServer

/-- The pieces that are left to be written, none of them empty. -/
structure Unwritten where
  pieces : List Bytes
  filled : ∀ piece ∈ pieces, piece ≠ []

namespace Unwritten

/-- All prefixes and bodies of some frames. -/
def ofFrames (frames : List OutboundFrame) : Unwritten where
  pieces := (frames.flatMap fun f => [f.lengthPrefix, f.body]).filter (· ≠ [])
  filled piece h := by simpa using (List.mem_filter.mp h).2

/-- The bytes of all pieces. -/
def bytes (u : Unwritten) : Bytes :=
  u.pieces.flatten

/-- Whether nothing is left. -/
def isEmpty (u : Unwritten) : Bool :=
  u.pieces.isEmpty

/-- Drops pieces as long as the bytes to be dropped make up a whole one, and the rest of them from the
next piece. -/
def dropPieces : List Bytes → (written : Nat) → List Bytes
  | [], _ => []
  | piece :: rest, written =>
    if written < piece.length then piece.drop written :: rest
    else dropPieces rest (written - piece.length)

theorem dropPieces_filled {pieces : List Bytes} (written : Nat) (h : ∀ piece ∈ pieces, piece ≠ []) :
    ∀ piece ∈ dropPieces pieces written, piece ≠ [] := by
  induction pieces generalizing written with
  | nil => exact h
  | cons piece rest ih =>
    have hrest : ∀ piece ∈ rest, piece ≠ [] := fun x hx => h x (List.mem_cons_of_mem _ hx)
    rw [dropPieces]
    split
    next hlt =>
      refine List.forall_mem_cons.mpr ⟨fun hnil => ?_, hrest⟩
      rw [List.drop_eq_nil_iff] at hnil
      omega
    next => exact ih _ hrest

/-- Drops the first bytes, which were written. -/
def advance (u : Unwritten) (written : Nat) : Unwritten where
  pieces := dropPieces u.pieces written
  filled := dropPieces_filled written u.filled

@[simp] theorem bytes_ofFrames (frames : List OutboundFrame) :
    (ofFrames frames).bytes = frames.flatMap OutboundFrame.bytes := by
  have hempty (pieces : List Bytes) : (pieces.filter (· ≠ [])).flatten = pieces.flatten := by
    induction pieces with
    | nil => rfl
    | cons piece rest ih => cases piece <;> simp [← ih]
  rw [bytes, ofFrames, hempty]
  induction frames with
  | nil => rfl
  | cons f frames ih => simp [← ih, OutboundFrame.bytes]

theorem flatten_dropPieces (pieces : List Bytes) (written : Nat) :
    (dropPieces pieces written).flatten = pieces.flatten.drop written := by
  induction pieces generalizing written with
  | nil => simp [dropPieces]
  | cons piece rest ih =>
    rw [dropPieces, List.flatten_cons, List.drop_append]
    split
    next hlt => rw [List.flatten_cons, Nat.sub_eq_zero_of_le (Nat.le_of_lt hlt), List.drop_zero]
    next hle => rw [ih, List.drop_eq_nil_of_le (Nat.le_of_not_lt hle), List.nil_append]

@[simp] theorem bytes_advance (u : Unwritten) (written : Nat) : (u.advance written).bytes = u.bytes.drop written :=
  flatten_dropPieces u.pieces written

theorem bytes_eq_nil_of_isEmpty {u : Unwritten} (h : u.isEmpty = true) : u.bytes = [] := by
  rw [bytes, List.isEmpty_iff.mp h, List.flatten_nil]

theorem bytes_ne_nil {u : Unwritten} (h : ¬ u.isEmpty = true) : u.bytes ≠ [] := by
  cases hpieces : u.pieces with
  | nil => exact absurd (List.isEmpty_iff.mpr hpieces) h
  | cons piece rest =>
    intro hnil
    rw [bytes, hpieces, List.flatten_cons] at hnil
    exact u.filled piece (hpieces ▸ List.mem_cons_self) (List.append_eq_nil_iff.mp hnil).1

end Unwritten

end GraphServer
