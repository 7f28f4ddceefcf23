/-
  AvMesh.Lib.Chunks
  ─────────────────
  **CUTTING A STREAM OF PIECES INTO CHUNKS.**

  A chunker is fed pieces (lists), keeps the elements it has not given out yet
  and now and then gives all of them out as one chunk.  `Chunked` is what such
  a history leaves: the pieces fall into consecutive groups, each chunk is a
  group joined, and the elements kept are the pieces since the last cut.

  A chunk may pass the limit with its last piece only: a chunker that holds
  less than `limit` elements between two operations overruns by less than the
  piece that made it cut.

  Main results:
    • `Chunked.feed`, `Chunked.feed_cut`, `Chunked.cut` — the operations,
    • `Chunked.flatten_append` — nothing is lost, doubled or reordered.
-/
import Mathlib.Data.List.Induction

namespace AvMesh.Lib

variable {α : Type*}

/-- The group ends in a piece that the limit does not count. -/
def EndsWithin (limit : Nat) (group : List (List α)) : Prop :=
  ∃ last, group.getLast? = some last ∧ group.flatten.length < limit + last.length

/-- What feeding `pieces` leaves: the chunks given out and the elements kept. -/
def Chunked (limit : Nat) (pieces chunks : List (List α)) (kept : List α) : Prop :=
  ∃ (groups : List (List (List α))) (tail : List (List α)),
    pieces = groups.flatten ++ tail ∧ chunks = groups.map List.flatten ∧ kept = tail.flatten ∧
    ∀ group ∈ groups, group.flatten ≠ [] ∧ EndsWithin limit group

namespace Chunked

variable {limit : Nat} {pieces chunks : List (List α)} {kept piece : List α}

theorem nil (limit : Nat) : Chunked limit ([] : List (List α)) [] [] :=
  ⟨[], [], rfl, rfl, rfl, fun _ => nofun⟩

/-! ## §1. The operations. -/

/-- A piece is kept. -/
theorem feed (h : Chunked limit pieces chunks kept) (piece : List α) :
    Chunked limit (pieces ++ [piece]) chunks (kept ++ piece) := by
  obtain ⟨groups, tail, hpieces, hchunks, hkept, hgroups⟩ := h
  refine ⟨groups, tail ++ [piece], ?_, hchunks, ?_, hgroups⟩
  · rw [hpieces, List.append_assoc]
  · rw [hkept, List.flatten_append, List.flatten_singleton]

/-- What is kept has come in some last piece. -/
theorem exists_getLast {tail : List (List α)} (hkept : tail.flatten ≠ []) :
    ∃ last, tail.getLast? = some last := by
  cases tail using List.reverseRecOn with
  | nil => exact absurd rfl hkept
  | append_singleton before last => exact ⟨last, List.getLast?_concat⟩

/-- Closing the group that is open: the elements kept become a chunk. -/
theorem close {groups : List (List (List α))} {tail : List (List α)}
    (hpieces : pieces = groups.flatten ++ tail) (hchunks : chunks = groups.map List.flatten)
    (hgroups : ∀ group ∈ groups, group.flatten ≠ [] ∧ EndsWithin limit group)
    (hne : tail.flatten ≠ []) (hends : EndsWithin limit tail) :
    Chunked limit pieces (chunks ++ [tail.flatten]) [] := by
  refine ⟨groups ++ [tail], [], ?_, ?_, rfl, ?_⟩
  · rw [hpieces, List.flatten_append, List.flatten_singleton, List.append_nil]
  · rw [hchunks, List.map_append, List.map_singleton]
  · intro group hgroup
    rcases List.mem_append.mp hgroup with hold | hnew
    · exact hgroups group hold
    · rw [List.mem_singleton.mp hnew]
      exact ⟨hne, hends⟩

/-- What is kept is given out. -/
theorem cut (h : Chunked limit pieces chunks kept) (hne : kept ≠ [])
    (hlt : kept.length < limit) : Chunked limit pieces (chunks ++ [kept]) [] := by
  obtain ⟨groups, tail, hpieces, hchunks, hkept, hgroups⟩ := h
  subst hkept
  obtain ⟨last, hlast⟩ := exists_getLast hne
  -- what is kept is below the limit, whichever piece came last
  exact close hpieces hchunks hgroups hne ⟨last, hlast, by omega⟩

/-- A piece is fed, and then everything is given out. -/
theorem feed_cut (h : Chunked limit pieces chunks kept) (hne : kept ++ piece ≠ [])
    (hlt : kept.length < limit) :
    Chunked limit (pieces ++ [piece]) (chunks ++ [kept ++ piece]) [] := by
  obtain ⟨groups, tail, hpieces, hchunks, hkept, hgroups⟩ := h
  have hopen : kept ++ piece = (tail ++ [piece]).flatten := by
    rw [hkept, List.flatten_append, List.flatten_singleton]
  rw [hopen] at hne ⊢
  -- the piece that is fed is the last of its group, so the limit does not count it
  refine close (by rw [hpieces, List.append_assoc]) hchunks hgroups hne
    ⟨piece, List.getLast?_concat, ?_⟩
  rw [← hopen, List.length_append]
  omega

/-! ## §2. What a history keeps. -/

theorem flatten_append (h : Chunked limit pieces chunks kept) :
    chunks.flatten ++ kept = pieces.flatten := by
  obtain ⟨groups, tail, hpieces, hchunks, hkept, -⟩ := h
  rw [hpieces, hchunks, hkept, List.flatten_append, List.flatten_flatten]

theorem ne_nil (h : Chunked limit pieces chunks kept) {chunk : List α} (hchunk : chunk ∈ chunks) :
    chunk ≠ [] := by
  obtain ⟨groups, tail, -, hchunks, -, hgroups⟩ := h
  rw [hchunks] at hchunk
  obtain ⟨group, hgroup, rfl⟩ := List.mem_map.mp hchunk
  exact (hgroups group hgroup).1

end Chunked

end AvMesh.Lib
