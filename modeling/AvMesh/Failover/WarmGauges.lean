/-
  AvMesh.Failover.WarmGauges
  ──────────────────────────
  **THE WARM SOURCE BUFFERS AND THEIR GAUGES** (`buffer_warm_source`,
  `replay_warm_sources`, src/main.rs).

  Every push and every drain reports what it added and removed.  The
  forwarder adds these reports into two gauges, the datagrams and the bytes
  buffered over all paths.

    • `Intact`          — all a buffer promises: bounds, bytes, the order of objects,
    • `push_intact`     — a push keeps it, with its three kinds of removal,
    • `push_accounting` — and reports exactly the difference it made,
    • `WarmForwarder`   — the buffers, the counters, and the atomic operations
                          that calls in flight have yet to do.

  A call reports after it has released the lock of its path.  A replay that
  drains what a push has appended but not yet added subtracts from a gauge
  that is too small; the subtraction stops at zero, and the gauge stays too
  high (`replay_before_add`).
-/
import AvMesh.Failover.WarmSources
import AvMesh.Lib.Counters
import AvMesh.Lib.StepSystem
import Mathlib.Algebra.Order.BigOperators.Group.List
import Mathlib.Algebra.Order.Ring.Nat
import Mathlib.Data.List.Nodup

namespace AvMesh.Failover

open AvMesh.Lib

namespace WarmSourceReplayBuffer

variable {κ : Type} [DecidableEq κ] {b : WarmSourceReplayBuffer κ}

/-! ## §1. The order of the objects. -/

/-- The order lists each key that owns a datagram once, and no other key. -/
structure ListsKeys (order : List κ) (datagrams : List (WarmSourceDatagram κ)) : Prop where
  nodup : order.Nodup
  mem_iff : ∀ key, key ∈ order ↔ ∃ datagram ∈ datagrams, datagram.objectKey = key

/-- All that holds of a buffer between two calls. -/
structure Intact (b : WarmSourceReplayBuffer κ) : Prop where
  wellFormed : WellFormed b
  datagrams_le : b.datagrams.length ≤ relayWarmSourceReplayMaxDatagramsPerChild
  keys : ListsKeys b.objectOrder b.datagrams

omit [DecidableEq κ] in
theorem empty_intact : Intact ({} : WarmSourceReplayBuffer κ) where
  wellFormed := ⟨rfl, Nat.zero_le _, Nat.zero_le _⟩
  datagrams_le := Nat.zero_le _
  keys := by
    refine ⟨List.nodup_nil, ?_⟩
    intro key
    constructor
    · nofun
    · rintro ⟨datagram, hmem, -⟩
      cases hmem

theorem removeExpired_keys (nowUs : Nat) (mutation : WarmSourceBufferMutation)
    (h : ListsKeys b.objectOrder b.datagrams)
    (hsub : ∀ datagram ∈ (b.removeExpired nowUs mutation).1.datagrams, datagram ∈ b.datagrams) :
    ListsKeys (b.removeExpired nowUs mutation).1.objectOrder
      (b.removeExpired nowUs mutation).1.datagrams where
  nodup := List.Nodup.sublist List.filter_sublist h.nodup
  mem_iff := by
    intro key
    show key ∈ List.filter (fun key => (b.removeExpired nowUs mutation).1.datagrams.any
      fun datagram => datagram.objectKey == key) b.objectOrder ↔ _
    rw [List.mem_filter, List.any_eq_true]
    simp only [beq_iff_eq]
    constructor
    · rintro ⟨-, hown⟩
      exact hown
    · rintro ⟨datagram, hmem, hkey⟩
      exact ⟨(h.mem_iff key).mpr ⟨datagram, hsub datagram hmem, hkey⟩, datagram, hmem, hkey⟩

theorem append_keys (datagram : WarmSourceDatagram κ) (h : ListsKeys b.objectOrder b.datagrams) :
    ListsKeys (b.append datagram).objectOrder (b.append datagram).datagrams := by
  have howner : ∀ key, (∃ entry ∈ b.datagrams ++ [datagram], entry.objectKey = key) ↔
      (∃ entry ∈ b.datagrams, entry.objectKey = key) ∨ datagram.objectKey = key := by
    intro key
    constructor
    · rintro ⟨entry, hmem, hkey⟩
      rcases List.mem_append.mp hmem with hmem | hmem
      · exact .inl ⟨entry, hmem, hkey⟩
      · rw [List.mem_singleton.mp hmem] at hkey
        exact .inr hkey
    · rintro (⟨entry, hmem, hkey⟩ | hkey)
      · exact ⟨entry, List.mem_append_left _ hmem, hkey⟩
      · exact ⟨datagram, by simp, hkey⟩
  by_cases hknown : b.objectOrder.contains datagram.objectKey = true
  · have horder : (b.append datagram).objectOrder = b.objectOrder := if_pos hknown
    rw [horder]
    refine ⟨h.nodup, ?_⟩
    intro key
    show _ ↔ ∃ entry ∈ b.datagrams ++ [datagram], entry.objectKey = key
    rw [howner, h.mem_iff]
    constructor
    · exact .inl
    · rintro (hown | hkey)
      · exact hown
      · rw [← h.mem_iff, ← hkey]
        exact List.contains_iff_mem.mp hknown
  · have horder : (b.append datagram).objectOrder = b.objectOrder ++ [datagram.objectKey] :=
      if_neg hknown
    rw [horder]
    refine ⟨?_, ?_⟩
    · rw [List.nodup_append]
      refine ⟨h.nodup, List.nodup_singleton _, ?_⟩
      intro key hkey other hother hsame
      rw [List.mem_singleton.mp hother] at hsame
      rw [hsame] at hkey
      exact hknown (List.contains_iff_mem.mpr hkey)
    · intro key
      show _ ↔ ∃ entry ∈ b.datagrams ++ [datagram], entry.objectKey = key
      rw [howner, List.mem_append, h.mem_iff, List.mem_singleton, eq_comm (a := key)]

/-- Retired objects leave the order together with their datagrams. -/
theorem retireObjects_keys (mutation : WarmSourceBufferMutation)
    (hbytes : b.bytes = wireBytes b.datagrams) (h : ListsKeys b.objectOrder b.datagrams) :
    ListsKeys (retireObjects b.objectOrder b mutation).1.objectOrder
      (retireObjects b.objectOrder b mutation).1.datagrams := by
  obtain ⟨gone, horder, -, hdatagrams, -⟩ := retireObjects_spec b.objectOrder mutation hbytes
  have hnodup := h.nodup
  rw [horder, List.nodup_append] at hnodup
  obtain ⟨-, hkept, hdisjoint⟩ := hnodup
  refine ⟨hkept, ?_⟩
  intro key
  have hmem : key ∈ b.objectOrder ↔
      key ∈ gone ∨ key ∈ (retireObjects b.objectOrder b mutation).1.objectOrder := by
    conv_lhs => rw [horder]
    exact List.mem_append
  rw [hdatagrams]
  constructor
  · intro hkey
    obtain ⟨datagram, hin, hown⟩ := (h.mem_iff key).mp (hmem.mpr (.inr hkey))
    refine ⟨datagram, List.mem_filter.mpr ⟨hin, ?_⟩, hown⟩
    rw [hown, Bool.not_eq_true', ← Bool.not_eq_true, List.contains_iff_mem]
    intro hgone
    exact hdisjoint key hgone key hkey rfl
  · rintro ⟨datagram, hin, hown⟩
    obtain ⟨hin, hlive⟩ := List.mem_filter.mp hin
    rw [hown, Bool.not_eq_true', ← Bool.not_eq_true, List.contains_iff_mem] at hlive
    rcases hmem.mp ((h.mem_iff key).mpr ⟨datagram, hin, hown⟩) with hgone | hkey
    · exact absurd hgone hlive
    · exact hkey

/-- An evicted datagram takes its key along when it was the last of its object. -/
theorem evictDatagrams_keys (datagrams : List (WarmSourceDatagram κ))
    (mutation : WarmSourceBufferMutation) (h : ListsKeys b.objectOrder datagrams) :
    ListsKeys (evictDatagrams datagrams b mutation).1.objectOrder
      (evictDatagrams datagrams b mutation).1.datagrams ∧
    (evictDatagrams datagrams b mutation).1.datagrams.length ≤
      relayWarmSourceReplayMaxDatagramsPerChild := by
  induction datagrams generalizing b mutation with
  | nil => exact ⟨h, Nat.zero_le _⟩
  | cons evicted rest ih =>
      unfold evictDatagrams
      split
      · refine ih _ ?_
        dsimp only
        by_cases hlast : (rest.any fun entry => entry.objectKey == evicted.objectKey) = true
        · -- another datagram of the object stays
          rw [if_pos hlast]
          obtain ⟨other, hother, hsame⟩ := List.any_eq_true.mp hlast
          refine ⟨h.nodup, ?_⟩
          intro key
          rw [h.mem_iff]
          constructor
          · rintro ⟨datagram, hmem, hkey⟩
            rcases List.mem_cons.mp hmem with rfl | hmem
            · exact ⟨other, hother, (beq_iff_eq.mp hsame).trans hkey⟩
            · exact ⟨datagram, hmem, hkey⟩
          · rintro ⟨datagram, hmem, hkey⟩
            exact ⟨datagram, List.mem_cons_of_mem _ hmem, hkey⟩
        · rw [if_neg hlast]
          have hgone : ∀ datagram ∈ rest, datagram.objectKey ≠ evicted.objectKey := by
            intro datagram hmem hsame
            exact hlast (List.any_eq_true.mpr ⟨datagram, hmem, beq_iff_eq.mpr hsame⟩)
          refine ⟨List.Nodup.sublist List.filter_sublist h.nodup, ?_⟩
          intro key
          rw [List.mem_filter, h.mem_iff, bne_iff_ne]
          constructor
          · rintro ⟨⟨datagram, hmem, hkey⟩, hne⟩
            rcases List.mem_cons.mp hmem with rfl | hmem
            · exact absurd hkey.symm hne
            · exact ⟨datagram, hmem, hkey⟩
          · rintro ⟨datagram, hmem, hkey⟩
            refine ⟨⟨datagram, List.mem_cons_of_mem _ hmem, hkey⟩, ?_⟩
            rw [← hkey]
            exact hgone datagram hmem
      · next hfits =>
          simp only [Bool.or_eq_true, decide_eq_true_eq, not_or] at hfits
          refine ⟨h, ?_⟩
          show (evicted :: rest).length ≤ _
          omega

/-- **A push keeps the buffer intact**, whichever of its removals it does. -/
theorem push_intact (datagram : WarmSourceDatagram κ) (nowUs : Nat) (h : Intact b) :
    Intact (b.push datagram nowUs).1 := by
  obtain ⟨hunexpired, hwell⟩ := removeExpired_spec nowUs {} h.wellFormed
  have hkeys : ListsKeys (b.removeExpired nowUs {}).1.objectOrder
      (b.removeExpired nowUs {}).1.datagrams := by
    refine removeExpired_keys nowUs {} h.keys ?_
    intro entry hmem
    rw [hunexpired] at hmem
    exact (List.mem_filter.mp hmem).1
  suffices hrest : (b.push datagram nowUs).1.datagrams.length ≤
      relayWarmSourceReplayMaxDatagramsPerChild ∧
      ListsKeys (b.push datagram nowUs).1.objectOrder (b.push datagram nowUs).1.datagrams from
    ⟨(push_shape datagram nowUs h.wellFormed).1, hrest.1, hrest.2⟩
  by_cases hdrop : datagram.expiresAtUs ≤ nowUs ∨
      relayWarmSourceReplayMaxBytesPerChild < datagram.wire.length
  · rw [push_of_dropped hdrop]
    refine ⟨?_, hkeys⟩
    have hle : (b.removeExpired nowUs {}).1.datagrams.length ≤ b.datagrams.length := by
      rw [hunexpired]
      exact List.length_filter_le _ _
    exact Nat.le_trans hle h.datagrams_le
  · have hsize : datagram.wire.length ≤ relayWarmSourceReplayMaxBytesPerChild := by omega
    have hretired := retireObjects_keys (b := (b.removeExpired nowUs {}).1.append datagram)
      { (b.removeExpired nowUs {}).2 with addedDatagrams := 1, addedBytes := datagram.wire.length }
      (append_bytes hwell hsize) (append_keys datagram hkeys)
    have hevicted := evictDatagrams_keys _ (retireObjects
      ((b.removeExpired nowUs {}).1.append datagram).objectOrder
      ((b.removeExpired nowUs {}).1.append datagram)
      { (b.removeExpired nowUs {}).2 with
        addedDatagrams := 1, addedBytes := datagram.wire.length }).2 hretired
    unfold push
    dsimp only
    rw [if_neg]
    · exact ⟨hevicted.2, hevicted.1⟩
    · simp only [Bool.or_eq_true, decide_eq_true_eq, not_or]
      omega

/-! ## §2. The two gauges of a buffer. -/

end WarmSourceReplayBuffer

/-- What is counted over the buffers. -/
inductive Gauge where
  | datagrams
  | bytes
  deriving Repr, DecidableEq

namespace Gauge

open WarmSourceReplayBuffer

variable {κ : Type}

def weight (datagram : WarmSourceDatagram κ) : Gauge → Nat
  | datagrams => 1
  | bytes => datagram.wire.length

/-- The gauge of a list of datagrams. -/
def of (entries : List (WarmSourceDatagram κ)) : Gauge → Nat
  | datagrams => entries.length
  | bytes => wireBytes entries

/-- What a mutation reports as added. -/
def added (mutation : WarmSourceBufferMutation) : Gauge → Nat
  | datagrams => mutation.addedDatagrams
  | bytes => mutation.addedBytes

/-- What it reports as removed, for whatever reason. -/
def removed (mutation : WarmSourceBufferMutation) : Gauge → Nat
  | datagrams => mutation.expiredDatagrams + mutation.retiredDatagrams + mutation.evictedDatagrams
  | bytes => mutation.expiredBytes + mutation.retiredBytes + mutation.evictedBytes

@[simp] theorem of_nil (g : Gauge) : g.of ([] : List (WarmSourceDatagram κ)) = 0 := by
  cases g <;> rfl

theorem of_cons (g : Gauge) (entry : WarmSourceDatagram κ) (entries : List (WarmSourceDatagram κ)) :
    g.of (entry :: entries) = g.weight entry + g.of entries := by
  cases g with
  | datagrams =>
      show entries.length + 1 = 1 + entries.length
      omega
  | bytes => exact wireBytes_cons entry entries

theorem of_append (g : Gauge) (entries entries' : List (WarmSourceDatagram κ)) :
    g.of (entries ++ entries') = g.of entries + g.of entries' := by
  cases g with
  | datagrams => exact List.length_append
  | bytes => exact wireBytes_append entries entries'

theorem of_singleton (g : Gauge) (entry : WarmSourceDatagram κ) : g.of [entry] = g.weight entry := by
  rw [of_cons, of_nil, Nat.add_zero]

/-- A note of one removal counts the datagram once, under one of the three reasons. -/
def Tallies (note : WarmSourceBufferMutation → Nat → WarmSourceBufferMutation) : Prop :=
  ∀ (mutation : WarmSourceBufferMutation) (len : Nat),
    (note mutation len).addedDatagrams = mutation.addedDatagrams ∧
    (note mutation len).addedBytes = mutation.addedBytes ∧
    (datagrams.removed mutation + 1 ≤ u64Max →
      datagrams.removed (note mutation len) = datagrams.removed mutation + 1) ∧
    (bytes.removed mutation + len ≤ u64Max →
      bytes.removed (note mutation len) = bytes.removed mutation + len)

theorem expired_tallies : Tallies WarmSourceBufferMutation.expired := by
  intro mutation len
  refine ⟨rfl, rfl, ?_, ?_⟩
  · intro hroom
    simp only [removed, WarmSourceBufferMutation.expired] at hroom ⊢
    rw [satAdd_of_le (by omega)]
    omega
  · intro hroom
    simp only [removed, WarmSourceBufferMutation.expired] at hroom ⊢
    rw [satAdd_of_le (by omega)]
    omega

theorem retired_tallies : Tallies WarmSourceBufferMutation.retired := by
  intro mutation len
  refine ⟨rfl, rfl, ?_, ?_⟩
  · intro hroom
    simp only [removed, WarmSourceBufferMutation.retired] at hroom ⊢
    rw [satAdd_of_le (by omega)]
    omega
  · intro hroom
    simp only [removed, WarmSourceBufferMutation.retired] at hroom ⊢
    rw [satAdd_of_le (by omega)]
    omega

theorem evicted_tallies : Tallies WarmSourceBufferMutation.evicted := by
  intro mutation len
  refine ⟨rfl, rfl, ?_, ?_⟩
  · intro hroom
    simp only [removed, WarmSourceBufferMutation.evicted] at hroom ⊢
    rw [satAdd_of_le (by omega)]
    omega
  · intro hroom
    simp only [removed, WarmSourceBufferMutation.evicted] at hroom ⊢
    rw [satAdd_of_le (by omega)]
    omega

theorem Tallies.added {note : WarmSourceBufferMutation → Nat → WarmSourceBufferMutation}
    (h : Tallies note) (g : Gauge) (mutation : WarmSourceBufferMutation) (len : Nat) :
    g.added (note mutation len) = g.added mutation := by
  cases g with
  | datagrams => exact (h mutation len).1
  | bytes => exact (h mutation len).2.1

theorem Tallies.removed {note : WarmSourceBufferMutation → Nat → WarmSourceBufferMutation}
    (h : Tallies note) (g : Gauge) {mutation : WarmSourceBufferMutation}
    {entry : WarmSourceDatagram κ} (hroom : g.removed mutation + g.weight entry ≤ u64Max) :
    g.removed (note mutation entry.wire.length) = g.removed mutation + g.weight entry := by
  cases g with
  | datagrams => exact (h mutation entry.wire.length).2.2.1 hroom
  | bytes => exact (h mutation entry.wire.length).2.2.2 hroom

end Gauge

/-! ## §3. What a push reports. -/

/-- A loop that moves datagrams from the buffer into the report: nothing is lost or counted
twice, and nothing is reported as added. -/
structure Moves {κ : Type} (g : Gauge) (before after : List (WarmSourceDatagram κ))
    (mutation mutation' : WarmSourceBufferMutation) : Prop where
  total : g.removed mutation' + g.of after = g.removed mutation + g.of before
  added : g.added mutation' = g.added mutation

namespace WarmSourceReplayBuffer

variable {κ : Type} [DecidableEq κ] {b : WarmSourceReplayBuffer κ}

omit [DecidableEq κ] in
theorem discard_moves (g : Gauge) (gone : WarmSourceDatagram κ → Bool)
    {note : WarmSourceBufferMutation → Nat → WarmSourceBufferMutation} (hnote : Gauge.Tallies note)
    (datagrams : List (WarmSourceDatagram κ)) (bytes : Nat) (mutation : WarmSourceBufferMutation)
    (hroom : g.removed mutation + g.of datagrams ≤ u64Max) :
    Moves g datagrams (discard gone note datagrams bytes mutation).1 mutation
      (discard gone note datagrams bytes mutation).2.2 := by
  -- on the datagrams, for every report: each one goes to the report or stays in the list
  induction datagrams generalizing bytes mutation with
  | nil => exact ⟨rfl, rfl⟩
  | cons entry rest ih =>
      rw [g.of_cons] at hroom
      unfold discard
      split
      · have hremoved := @Gauge.Tallies.removed κ note hnote g mutation entry (by omega)
        have hrest := ih (bytes - entry.wire.length) (note mutation entry.wire.length) (by omega)
        refine ⟨?_, hrest.added.trans (hnote.added g mutation entry.wire.length)⟩
        rw [hrest.total, hremoved, g.of_cons]
        omega
      · have hrest := ih bytes mutation (by omega)
        refine ⟨?_, hrest.added⟩
        show g.removed (discard gone note rest bytes mutation).2.2 +
          g.of (entry :: (discard gone note rest bytes mutation).1) = _
        rw [g.of_cons, g.of_cons]
        have htotal := hrest.total
        omega

theorem retireObjects_moves (g : Gauge) (order : List κ) (mutation : WarmSourceBufferMutation)
    (hroom : g.removed mutation + g.of b.datagrams ≤ u64Max) :
    Moves g b.datagrams (retireObjects order b mutation).1.datagrams mutation
      (retireObjects order b mutation).2 := by
  induction order generalizing b mutation with
  | nil => exact ⟨rfl, rfl⟩
  | cons oldest order ih =>
      unfold retireObjects
      split
      · have hfirst : Moves g b.datagrams (b.removeObject oldest mutation).1.datagrams mutation
            (b.removeObject oldest mutation).2 :=
          discard_moves g _ Gauge.retired_tallies b.datagrams b.bytes mutation hroom
        have htotal := hfirst.total
        have hrest := @ih (b.removeObject oldest mutation).1 (b.removeObject oldest mutation).2
          (by omega)
        exact ⟨hrest.total.trans htotal, hrest.added.trans hfirst.added⟩
      · exact ⟨rfl, rfl⟩

theorem evictDatagrams_moves (g : Gauge) (datagrams : List (WarmSourceDatagram κ))
    (mutation : WarmSourceBufferMutation)
    (hroom : g.removed mutation + g.of datagrams ≤ u64Max) :
    Moves g datagrams (evictDatagrams datagrams b mutation).1.datagrams mutation
      (evictDatagrams datagrams b mutation).2 := by
  induction datagrams generalizing b mutation with
  | nil => exact ⟨rfl, rfl⟩
  | cons evicted rest ih =>
      rw [g.of_cons] at hroom
      unfold evictDatagrams
      split
      · have hremoved := @Gauge.Tallies.removed κ _ Gauge.evicted_tallies g mutation evicted
          (by omega)
        have hrest := @ih { b with
          objectOrder := if rest.any fun entry => entry.objectKey == evicted.objectKey then
              b.objectOrder
            else b.objectOrder.filter fun key => key != evicted.objectKey
          bytes := b.bytes - evicted.wire.length } (mutation.evicted evicted.wire.length) (by omega)
        refine ⟨?_, hrest.added.trans
          (Gauge.evicted_tallies.added g mutation evicted.wire.length)⟩
        rw [hrest.total, hremoved, g.of_cons]
        omega
      · exact ⟨rfl, rfl⟩

/-- Both loops of `push`, after the append. -/
theorem enforce_moves (g : Gauge) (b : WarmSourceReplayBuffer κ)
    (mutation : WarmSourceBufferMutation)
    (hroom : g.removed mutation + g.of b.datagrams ≤ u64Max) :
    let retired := retireObjects b.objectOrder b mutation
    Moves g b.datagrams (evictDatagrams retired.1.datagrams retired.1 retired.2).1.datagrams mutation
      (evictDatagrams retired.1.datagrams retired.1 retired.2).2 := by
  intro retired
  have hretired : Moves g b.datagrams retired.1.datagrams mutation retired.2 :=
    retireObjects_moves g b.objectOrder mutation hroom
  have htotal := hretired.total
  have hevicted := @evictDatagrams_moves κ _ retired.1 g retired.1.datagrams retired.2 (by omega)
  exact ⟨hevicted.total.trans htotal, hevicted.added.trans hretired.added⟩

/-- A push that appends, with what it reports before the two loops. -/
theorem push_of_kept {datagram : WarmSourceDatagram κ} {nowUs : Nat}
    (hlive : nowUs < datagram.expiresAtUs)
    (hsize : datagram.wire.length ≤ relayWarmSourceReplayMaxBytesPerChild) :
    ∃ mutation : WarmSourceBufferMutation, mutation.addedDatagrams = 1 ∧
      mutation.addedBytes = datagram.wire.length ∧
      (∀ g : Gauge, g.removed mutation = g.removed (b.removeExpired nowUs {}).2) ∧
      b.push datagram nowUs =
        let c := (b.removeExpired nowUs {}).1.append datagram
        let retired := retireObjects c.objectOrder c mutation
        evictDatagrams retired.1.datagrams retired.1 retired.2 := by
  refine ⟨{ (b.removeExpired nowUs {}).2 with
    addedDatagrams := 1, addedBytes := datagram.wire.length }, rfl, rfl, ?_, ?_⟩
  · intro g
    cases g <;> rfl
  · unfold push
    dsimp only
    rw [if_neg]
    simp only [Bool.or_eq_true, decide_eq_true_eq, not_or]
    omega

omit [DecidableEq κ] in
/-- A buffer and one more datagram are far below the largest count. -/
theorem Intact.room (h : Intact b) (g : Gauge) : g.of b.datagrams ≤ 4194304 := by
  have hbytes := h.wellFormed.bytes
  have hbound := h.wellFormed.bytes_le
  have hcount := h.datagrams_le
  unfold relayWarmSourceReplayMaxBytesPerChild at hbound
  unfold relayWarmSourceReplayMaxDatagramsPerChild at hcount
  cases g with
  | datagrams =>
      show b.datagrams.length ≤ _
      omega
  | bytes =>
      show wireBytes b.datagrams ≤ _
      omega

/-- **The report of a push** is the difference it made: what is in the buffer and what was
removed is what was in the buffer and what was added. -/
theorem push_accounting (g : Gauge) (datagram : WarmSourceDatagram κ) (nowUs : Nat)
    (h : Intact b) :
    g.of (b.push datagram nowUs).1.datagrams + g.removed (b.push datagram nowUs).2 =
      g.of b.datagrams + g.added (b.push datagram nowUs).2 ∧
    g.added (b.push datagram nowUs).2 ≤ 4194304 := by
  have hroom := h.room g
  have hzero : g.removed {} = 0 := by cases g <;> rfl
  have hnone : g.added {} = 0 := by cases g <;> rfl
  have hexpired : Moves g b.datagrams (b.removeExpired nowUs {}).1.datagrams {}
      (b.removeExpired nowUs {}).2 :=
    discard_moves g _ Gauge.expired_tallies b.datagrams b.bytes {} (by unfold u64Max; omega)
  have htotal := hexpired.total
  by_cases hdrop : datagram.expiresAtUs ≤ nowUs ∨
      relayWarmSourceReplayMaxBytesPerChild < datagram.wire.length
  · have hsame : b.push datagram nowUs = b.removeExpired nowUs {} := by
      unfold push
      dsimp only
      rw [if_pos (by simpa using hdrop)]
    rw [hsame, hexpired.added]
    omega
  · have hsize : datagram.wire.length ≤ relayWarmSourceReplayMaxBytesPerChild := by omega
    unfold relayWarmSourceReplayMaxBytesPerChild at hsize
    have hweight : g.weight datagram ≤ 4194304 := by
      cases g with
      | datagrams =>
          show 1 ≤ 4194304
          omega
      | bytes => exact hsize
    -- the datagram is appended and reported, then the two loops remove what is too much
    obtain ⟨mutation, haddedDatagrams, haddedBytes, hkeep, hpush⟩ :=
      @push_of_kept κ _ b datagram nowUs (by omega) hsize
    have happended : g.of ((b.removeExpired nowUs {}).1.append datagram).datagrams =
        g.of (b.removeExpired nowUs {}).1.datagrams + g.weight datagram := by
      show g.of ((b.removeExpired nowUs {}).1.datagrams ++ [datagram]) = _
      rw [g.of_append, g.of_singleton]
    have hadd : g.added mutation = g.weight datagram := by
      cases g with
      | datagrams => exact haddedDatagrams
      | bytes => exact haddedBytes
    have hkept := hkeep g
    have henforced := enforce_moves g ((b.removeExpired nowUs {}).1.append datagram) mutation
      (by unfold u64Max; omega)
    dsimp only at hpush henforced
    have hafter := henforced.total
    rw [hpush, henforced.added, hadd]
    omega

end WarmSourceReplayBuffer

/-! ## §4. What a drain reports. -/

/-- `removed_datagrams` and `removed_bytes` of `replay_warm_sources`. -/
def Gauge.drained {κ : Type} (batch : WarmSourceReplayBatch κ) : Gauge → Nat
  | .datagrams => satAdd batch.datagrams.length batch.expiredDatagrams
  | .bytes => satAdd batch.bytes batch.expiredBytes

namespace WarmSourceReplayBuffer

variable {κ : Type} {b : WarmSourceReplayBuffer κ}

/-- The loop of `take_live`, over any datagrams: each one is counted once, live or expired. -/
theorem foldl_takeLive (nowUs : Nat) (datagrams : List (WarmSourceDatagram κ))
    (batch : WarmSourceReplayBatch κ)
    (hcount : batch.datagrams.length + batch.expiredDatagrams + datagrams.length ≤ u64Max)
    (hbytes : batch.bytes + batch.expiredBytes + wireBytes datagrams ≤ u64Max) :
    let after := datagrams.foldl (fun batch datagram =>
      if datagram.expiresAtUs ≤ nowUs then
        { batch with
          expiredDatagrams := satAdd batch.expiredDatagrams 1
          expiredBytes := satAdd batch.expiredBytes datagram.wire.length }
      else
        { batch with
          bytes := satAdd batch.bytes datagram.wire.length
          datagrams := batch.datagrams ++ [datagram] }) batch
    after.datagrams.length + after.expiredDatagrams =
      batch.datagrams.length + batch.expiredDatagrams + datagrams.length ∧
    after.bytes + after.expiredBytes = batch.bytes + batch.expiredBytes + wireBytes datagrams := by
  -- on the datagrams, for every batch: the bounds are on the batch and what is left
  induction datagrams generalizing batch with
  | nil => exact ⟨rfl, rfl⟩
  | cons datagram rest ih =>
      rw [List.length_cons] at hcount
      rw [wireBytes_cons] at hbytes
      intro after
      by_cases hexpired : datagram.expiresAtUs ≤ nowUs
      · have hone : satAdd batch.expiredDatagrams 1 = batch.expiredDatagrams + 1 :=
          satAdd_of_le (by omega)
        have hlen : satAdd batch.expiredBytes datagram.wire.length =
            batch.expiredBytes + datagram.wire.length := satAdd_of_le (by omega)
        obtain ⟨hcount', hbytes'⟩ := ih { batch with
          expiredDatagrams := satAdd batch.expiredDatagrams 1
          expiredBytes := satAdd batch.expiredBytes datagram.wire.length }
          (by dsimp only; omega) (by dsimp only; omega)
        dsimp only at hcount' hbytes'
        simp only [after, List.foldl_cons, if_pos hexpired, List.length_cons]
        rw [wireBytes_cons]
        exact ⟨by omega, by omega⟩
      · have hlen : satAdd batch.bytes datagram.wire.length =
            batch.bytes + datagram.wire.length := satAdd_of_le (by omega)
        have hgrown : (batch.datagrams ++ [datagram]).length = batch.datagrams.length + 1 := by
          rw [List.length_append, List.length_singleton]
        obtain ⟨hcount', hbytes'⟩ := ih { batch with
          bytes := satAdd batch.bytes datagram.wire.length
          datagrams := batch.datagrams ++ [datagram] }
          (by dsimp only; omega) (by dsimp only; omega)
        dsimp only at hcount' hbytes'
        simp only [after, List.foldl_cons, if_neg hexpired, List.length_cons]
        rw [wireBytes_cons]
        exact ⟨by omega, by omega⟩

/-- **The report of a drain** is all that was in the buffer. -/
theorem drained_takeLive (g : Gauge) (nowUs : Nat) (h : Intact b) :
    g.drained (b.takeLive nowUs).1 = g.of b.datagrams := by
  have hcount : b.datagrams.length ≤ 4194304 := h.room .datagrams
  have hbytes : wireBytes b.datagrams ≤ 4194304 := h.room .bytes
  have hempty : ({} : WarmSourceReplayBatch κ).datagrams.length +
      ({} : WarmSourceReplayBatch κ).expiredDatagrams = 0 := rfl
  obtain ⟨hdatagrams, hsize⟩ := foldl_takeLive nowUs b.datagrams {}
    (by rw [hempty]; unfold u64Max; omega)
    (by
      show 0 + 0 + wireBytes b.datagrams ≤ u64Max
      unfold u64Max
      omega)
  rw [hempty, Nat.zero_add] at hdatagrams
  have hsize' : (b.takeLive nowUs).1.bytes + (b.takeLive nowUs).1.expiredBytes =
      wireBytes b.datagrams := by
    refine Eq.trans hsize ?_
    show 0 + 0 + wireBytes b.datagrams = _
    omega
  have hdatagrams' : (b.takeLive nowUs).1.datagrams.length +
      (b.takeLive nowUs).1.expiredDatagrams = b.datagrams.length := hdatagrams
  cases g with
  | datagrams =>
      show satAdd _ _ = b.datagrams.length
      rw [satAdd_of_le (by unfold u64Max; omega), hdatagrams']
  | bytes =>
      show satAdd _ _ = wireBytes b.datagrams
      rw [satAdd_of_le (by unfold u64Max; omega), hsize']

theorem takeLive_live (nowUs : Nat) :
    (b.takeLive nowUs).1.datagrams =
      b.datagrams.filter fun datagram => decide (nowUs < datagram.expiresAtUs) := by
  rw [takeLive_datagrams]
  refine List.filter_congr ?_
  intro datagram _
  rw [← decide_not]
  exact decide_eq_decide.mpr Nat.not_le

end WarmSourceReplayBuffer

/-! ## §5. The forwarder. -/

/-- The counters that pushes and replays write. -/
inductive WarmCounter where
  | warmSourceBuffered (gauge : Gauge)
  | warmSourceExpiredDatagrams
  | warmSourceRetiredDatagrams
  | warmSourceEvictedDatagrams
  deriving Repr, DecidableEq

/-- The atomic operations of `buffer_warm_source`, after the lock is released. -/
def bufferUpdates (mutation : WarmSourceBufferMutation) : List (Update WarmCounter) :=
  [.add (.warmSourceBuffered .datagrams) mutation.addedDatagrams,
    .add (.warmSourceBuffered .bytes) mutation.addedBytes,
    .sub (.warmSourceBuffered .datagrams)
      (satAdd (satAdd mutation.expiredDatagrams mutation.retiredDatagrams)
        mutation.evictedDatagrams),
    .sub (.warmSourceBuffered .bytes)
      (satAdd (satAdd mutation.expiredBytes mutation.retiredBytes) mutation.evictedBytes),
    .add .warmSourceExpiredDatagrams mutation.expiredDatagrams,
    .add .warmSourceRetiredDatagrams mutation.retiredDatagrams,
    .add .warmSourceEvictedDatagrams mutation.evictedDatagrams]

/-- The atomic operations of `replay_warm_sources`, after the lock is released. -/
def replayUpdates {κ : Type} (batch : WarmSourceReplayBatch κ) : List (Update WarmCounter) :=
  [.sub (.warmSourceBuffered .datagrams) (Gauge.datagrams.drained batch),
    .sub (.warmSourceBuffered .bytes) (Gauge.bytes.drained batch),
    .add .warmSourceExpiredDatagrams batch.expiredDatagrams]

structure WarmForwarder (κ : Type) where
  paths : List (WarmSourceReplayBuffer κ)
  counters : WarmCounter → Nat := fun _ => 0
  calls : InFlight WarmCounter := []

/-- What a thread can do next: take the lock of a path and push or drain, or do the next atomic
operation of a call that has released its lock. -/
inductive WarmOp (κ : Type) where
  | bufferWarmSource (path : Nat) (datagram : WarmSourceDatagram κ) (nowUs : Nat)
  | replayWarmSources (path : Nat) (nowUs : Nat)
  | update (call : Nat)

namespace WarmForwarder

variable {κ : Type} [DecidableEq κ]

def step (f : WarmForwarder κ) : WarmOp κ → Option (WarmSourceReplayBatch κ) × WarmForwarder κ
  | .bufferWarmSource path datagram nowUs =>
      match f.paths[path]? with
      | none => (none, f)
      | some b =>
          let (b, mutation) := b.push datagram nowUs
          (none, { f with paths := f.paths.set path b, calls := f.calls ++ [bufferUpdates mutation] })
  | .replayWarmSources path nowUs =>
      match f.paths[path]? with
      | none => (none, f)
      | some b =>
          let (batch, b) := b.takeLive nowUs
          (some batch,
            { f with paths := f.paths.set path b, calls := f.calls ++ [replayUpdates batch] })
  | .update call =>
      match f.calls[call]? with
      | some (u :: updates) =>
          (none, { f with counters := u.apply f.counters, calls := f.calls.set call updates })
      | _ => (none, f)

omit [DecidableEq κ] in
/-- Empty buffers on `n` paths. -/
def start (n : Nat) : WarmForwarder κ := { paths := List.replicate n {} }

omit [DecidableEq κ] in
/-- The sum over all paths. -/
def buffered (f : WarmForwarder κ) (g : Gauge) : Nat :=
  (f.paths.map fun b => g.of b.datagrams).sum

/-- What the operations of a push add to and subtract from a gauge. -/
theorem bufferUpdates_sums (g : Gauge) (mutation : WarmSourceBufferMutation)
    (hroom : g.removed mutation ≤ u64Max) :
    ((bufferUpdates mutation).map (Update.adds (.warmSourceBuffered g))).sum = g.added mutation ∧
    ((bufferUpdates mutation).map (Update.subs (.warmSourceBuffered g))).sum =
      g.removed mutation := by
  cases g with
  | datagrams =>
      simp only [Gauge.removed] at hroom
      refine ⟨by simp [bufferUpdates, Update.adds, Gauge.added], ?_⟩
      simp only [bufferUpdates, Update.subs, List.map_cons, List.map_nil, List.sum_cons,
        List.sum_nil, if_true, Gauge.removed, WarmCounter.warmSourceBuffered.injEq, reduceCtorEq,
        if_false, Nat.zero_add, Nat.add_zero]
      rw [satAdd_of_le (a := mutation.expiredDatagrams) (by omega), satAdd_of_le (by omega)]
  | bytes =>
      simp only [Gauge.removed] at hroom
      refine ⟨by simp [bufferUpdates, Update.adds, Gauge.added], ?_⟩
      simp only [bufferUpdates, Update.subs, List.map_cons, List.map_nil, List.sum_cons,
        List.sum_nil, if_true, Gauge.removed, WarmCounter.warmSourceBuffered.injEq, reduceCtorEq,
        if_false, Nat.zero_add, Nat.add_zero]
      rw [satAdd_of_le (a := mutation.expiredBytes) (by omega), satAdd_of_le (by omega)]

omit [DecidableEq κ] in
theorem replayUpdates_sums (g : Gauge) (batch : WarmSourceReplayBatch κ) :
    ((replayUpdates batch).map (Update.adds (.warmSourceBuffered g))).sum = 0 ∧
    ((replayUpdates batch).map (Update.subs (.warmSourceBuffered g))).sum = g.drained batch := by
  cases g <;> simp [replayUpdates, Update.adds, Update.subs]

/-! ## §6. One step. -/

open WarmSourceReplayBuffer

/-- The operation about to be done on a gauge neither wraps nor stops at zero. -/
def ExactOp (f : WarmForwarder κ) : WarmOp κ → Prop
  | .update call => ∀ u updates, f.calls[call]? = some (u :: updates) →
      ∀ g, u.counter = .warmSourceBuffered g → u.Exact f.counters
  | _ => True

omit [DecidableEq κ] in
theorem start_intact (n : Nat) : ∀ b ∈ (start n : WarmForwarder κ).paths, Intact b := by
  intro b hb
  rw [(List.mem_replicate.mp hb).2]
  exact empty_intact

omit [DecidableEq κ] in
theorem mem_paths_set {f : WarmForwarder κ} {path : Nat} {b c : WarmSourceReplayBuffer κ}
    (h : c ∈ f.paths.set path b) : c = b ∨ c ∈ f.paths :=
  (List.mem_or_eq_of_mem_set h).symm

/-- What a step can do: nothing, a push, a drain, or one atomic operation. -/
theorem step_cases (f : WarmForwarder κ) (op : WarmOp κ) :
    (f.step op).2 = f ∨
    (∃ path datagram nowUs b, op = .bufferWarmSource path datagram nowUs ∧
      f.paths[path]? = some b ∧
      (f.step op).2 = { f with
        paths := f.paths.set path (b.push datagram nowUs).1
        calls := f.calls ++ [bufferUpdates (b.push datagram nowUs).2] }) ∨
    (∃ path nowUs b, op = .replayWarmSources path nowUs ∧ f.paths[path]? = some b ∧
      (f.step op).2 = { f with
        paths := f.paths.set path (b.takeLive nowUs).2
        calls := f.calls ++ [replayUpdates (b.takeLive nowUs).1] }) ∨
    (∃ call u updates, op = .update call ∧ f.calls[call]? = some (u :: updates) ∧
      (f.step op).2 = { f with
        counters := u.apply f.counters, calls := f.calls.set call updates }) := by
  cases op with
  | bufferWarmSource path datagram nowUs =>
      cases hpath : f.paths[path]? with
      | none => exact .inl (by simp only [step, hpath])
      | some b => exact .inr (.inl ⟨path, datagram, nowUs, b, rfl, hpath, by simp only [step, hpath]⟩)
  | replayWarmSources path nowUs =>
      cases hpath : f.paths[path]? with
      | none => exact .inl (by simp only [step, hpath])
      | some b => exact .inr (.inr (.inl ⟨path, nowUs, b, rfl, hpath, by simp only [step, hpath]⟩))
  | update call =>
      rcases hcall : f.calls[call]? with _ | _ | ⟨u, updates⟩
      · exact .inl (by simp only [step, hcall])
      · exact .inl (by simp only [step, hcall])
      · exact .inr (.inr (.inr ⟨call, u, updates, rfl, hcall, by simp only [step, hcall]⟩))

/-- Every step keeps every buffer intact. -/
theorem step_intact (f : WarmForwarder κ) (op : WarmOp κ) (h : ∀ b ∈ f.paths, Intact b) :
    ∀ b ∈ (f.step op).2.paths, Intact b := by
  rcases step_cases f op with hstep | ⟨path, datagram, nowUs, b, -, hpath, hstep⟩ |
    ⟨path, nowUs, b, -, hpath, hstep⟩ | ⟨call, u, updates, -, -, hstep⟩
  · rw [hstep]
    exact h
  · rw [hstep]
    intro c hc
    rcases mem_paths_set hc with rfl | hc
    · exact push_intact datagram nowUs (h b (List.mem_of_getElem? hpath))
    · exact h c hc
  · rw [hstep]
    intro c hc
    rcases mem_paths_set hc with rfl | hc
    · exact empty_intact
    · exact h c hc
  · rw [hstep]
    exact h

/-- **One step keeps the balance** of both gauges, when its operation is exact. -/
theorem step_balanced (f : WarmForwarder κ) (op : WarmOp κ) (hexact : ExactOp f op)
    (hintact : ∀ b ∈ f.paths, Intact b) (g : Gauge)
    (h : Lib.Balanced f.counters f.calls (.warmSourceBuffered g) (f.buffered g)) :
    Lib.Balanced (f.step op).2.counters (f.step op).2.calls (.warmSourceBuffered g)
      ((f.step op).2.buffered g) := by
  rcases step_cases f op with hstep | ⟨path, datagram, nowUs, b, -, hpath, hstep⟩ |
    ⟨path, nowUs, b, -, hpath, hstep⟩ | ⟨call, u, updates, rfl, hcall, hstep⟩
  · rw [hstep]
    exact h
  · -- a push: the call will add what it appended and subtract what it removed
    rw [hstep]
    have hb : Intact b := hintact b (List.mem_of_getElem? hpath)
    obtain ⟨hreport, hadded⟩ := push_accounting g datagram nowUs hb
    have hroom := hb.room g
    obtain ⟨hadds, hsubs⟩ := bufferUpdates_sums g (b.push datagram nowUs).2
      (by unfold u64Max; omega)
    have hpaths := sum_map_set (fun b : WarmSourceReplayBuffer κ => g.of b.datagrams)
      (b.push datagram nowUs).1 hpath
    refine h.start (bufferUpdates (b.push datagram nowUs).2) ?_
    rw [hadds, hsubs]
    unfold buffered
    dsimp only at hpaths ⊢
    omega
  · -- a drain: the call will subtract all that was buffered
    rw [hstep]
    have hb : Intact b := hintact b (List.mem_of_getElem? hpath)
    obtain ⟨hadds, hsubs⟩ := replayUpdates_sums g (b.takeLive nowUs).1
    have hpaths := sum_map_set (fun b : WarmSourceReplayBuffer κ => g.of b.datagrams)
      (b.takeLive nowUs).2 hpath
    have hempty : g.of (b.takeLive nowUs).2.datagrams = 0 := g.of_nil
    refine h.start (replayUpdates (b.takeLive nowUs).1) ?_
    rw [hadds, hsubs, drained_takeLive g nowUs hb]
    unfold buffered
    dsimp only at hpaths ⊢
    omega
  · rw [hstep]
    exact h.apply hcall (hexact u updates hcall g)

/-! ## §7. Calls that do not overlap. -/

/-- The call takes a lock only when no other call is in flight. -/
def StartsAlone (f : WarmForwarder κ) : WarmOp κ → Prop
  | .update _ => True
  | _ => f.calls.Settled

/-- The operations on a gauge: additions before subtractions, of small amounts. -/
structure AddsFirst (updates : List (Update WarmCounter)) : Prop where
  ordered : ∀ g, updates.Pairwise fun u v =>
    u.subs (.warmSourceBuffered g) ≠ 0 → v.adds (.warmSourceBuffered g) = 0
  small : ∀ g, (updates.map (Update.subs (.warmSourceBuffered g))).sum ≤ 8388608

/-- At most one call is in flight. -/
structure Alone (calls : InFlight WarmCounter) : Prop where
  one : ∀ i updates, calls[i]? = some updates → updates ≠ [] → InFlight.Settled (calls.set i [])
  ordered : ∀ updates ∈ calls, AddsFirst updates

theorem AddsFirst.tail {u : Update WarmCounter} {updates : List (Update WarmCounter)}
    (h : AddsFirst (u :: updates)) : AddsFirst updates where
  ordered := fun g => (List.pairwise_cons.mp (h.ordered g)).2
  small := by
    intro g
    have hsmall := h.small g
    rw [List.map_cons, List.sum_cons] at hsmall
    omega

theorem bufferUpdates_addsFirst {mutation : WarmSourceBufferMutation}
    (hsmall : ∀ g : Gauge, g.removed mutation ≤ 8388608) :
    AddsFirst (bufferUpdates mutation) where
  ordered := by
    intro g
    cases g <;> simp [bufferUpdates, Update.adds, Update.subs]
  small := by
    intro g
    have hle := hsmall g
    rw [(bufferUpdates_sums g mutation (by unfold u64Max; omega)).2]
    exact hle

omit [DecidableEq κ] in
theorem replayUpdates_addsFirst {batch : WarmSourceReplayBatch κ}
    (hsmall : ∀ g : Gauge, g.drained batch ≤ 8388608) : AddsFirst (replayUpdates batch) where
  ordered := by
    intro g
    cases g <;> simp [replayUpdates, Update.adds, Update.subs]
  small := by
    intro g
    rw [(replayUpdates_sums g batch).2]
    exact hsmall g

/-- A call that starts when the others are done is alone. -/
theorem Alone.start {calls : InFlight WarmCounter} {updates : List (Update WarmCounter)}
    (h : Alone calls) (hsettled : calls.Settled) (hupdates : AddsFirst updates) :
    Alone (calls ++ [updates]) where
  one := by
    intro i entry hentry hne other hother
    rcases Nat.lt_trichotomy i calls.length with hlt | heq | hgt
    · -- an earlier call has nothing left to do
      rw [List.getElem?_append_left hlt] at hentry
      exact absurd (hsettled entry (List.mem_of_getElem? hentry)) hne
    · rw [heq, List.set_append_right _ _ (Nat.le_refl _), Nat.sub_self, List.set_cons_zero] at hother
      rcases List.mem_append.mp hother with hother | hother
      · exact hsettled other hother
      · exact List.mem_singleton.mp hother
    · rw [List.getElem?_eq_none (by rw [List.length_append, List.length_singleton]; omega)] at hentry
      cases hentry
  ordered := by
    intro entry hentry
    rcases List.mem_append.mp hentry with hentry | hentry
    · exact h.ordered entry hentry
    · rw [List.mem_singleton.mp hentry]
      exact hupdates

theorem Alone.advance {calls : InFlight WarmCounter} {call : Nat} {u : Update WarmCounter}
    {updates : List (Update WarmCounter)} (h : Alone calls)
    (hcall : calls[call]? = some (u :: updates)) : Alone (calls.set call updates) where
  one := by
    intro i entry hentry hne
    have hsettled := h.one call (u :: updates) hcall (by nofun)
    by_cases hi : i = call
    · rw [hi, List.set_set]
      exact hsettled
    · -- another call cannot have anything left
      rw [List.getElem?_set_ne (Ne.symm hi)] at hentry
      have hother : (calls.set call [])[i]? = some entry := by
        rw [List.getElem?_set_ne (Ne.symm hi)]
        exact hentry
      exact absurd (hsettled entry (List.mem_of_getElem? hother)) hne
  ordered := by
    intro entry hentry
    rcases List.mem_or_eq_of_mem_set hentry with hentry | rfl
    · exact h.ordered entry hentry
    · exact (h.ordered _ (List.mem_of_getElem? hcall)).tail

/-- The only call in flight has all that is pending. -/
theorem Alone.pending {calls : InFlight WarmCounter} {call : Nat}
    {updates : List (Update WarmCounter)} (h : Alone calls) (hcall : calls[call]? = some updates)
    (hne : updates ≠ []) (k : WarmCounter) :
    calls.adds k = (updates.map (Update.adds k)).sum ∧
    calls.subs k = (updates.map (Update.subs k)).sum := by
  have hsettled := h.one call updates hcall hne
  have hadds := sum_map_set (fun updates : List (Update WarmCounter) =>
    (updates.map (Update.adds k)).sum) [] hcall
  have hsubs := sum_map_set (fun updates : List (Update WarmCounter) =>
    (updates.map (Update.subs k)).sum) [] hcall
  have hnoadds := hsettled.adds k
  have hnosubs := hsettled.subs k
  unfold InFlight.adds at hnoadds ⊢
  unfold InFlight.subs at hnosubs ⊢
  simp only [List.map_nil, List.sum_nil, Nat.add_zero] at hadds hsubs
  exact ⟨by omega, by omega⟩

/-- What holds in a run of calls that do not overlap, on `n` paths. -/
structure Sequential (n : Nat) (f : WarmForwarder κ) : Prop where
  paths : f.paths.length = n
  intact : ∀ b ∈ f.paths, Intact b
  balanced : ∀ g, Lib.Balanced f.counters f.calls (.warmSourceBuffered g) (f.buffered g)
  alone : Alone f.calls

omit [DecidableEq κ] in
theorem Sequential.buffered_le {n : Nat} {f : WarmForwarder κ} (h : Sequential n f) (g : Gauge) :
    f.buffered g ≤ n * 4194304 := by
  have hsum := List.sum_le_card_nsmul (f.paths.map fun b => g.of b.datagrams) 4194304 (by
    intro size hsize
    obtain ⟨b, hb, rfl⟩ := List.mem_map.mp hsize
    exact (h.intact b hb).room g)
  rw [List.length_map, h.paths, nsmul_eq_mul] at hsum
  exact hsum

omit [DecidableEq κ] in
/-- **The operations of a call that is alone are exact**: its additions are done before it
subtracts, and the gauges stay far below 2^64. -/
theorem Sequential.exactOp {n : Nat} {f : WarmForwarder κ} (h : Sequential n f)
    (hn : n ≤ 2147483648) (op : WarmOp κ) : ExactOp f op := by
  cases op with
  | update call =>
      intro u updates hcall g hcounter
      have hbalance := h.balanced g
      have hbound := h.buffered_le g
      have hfirst := h.alone.ordered _ (List.mem_of_getElem? hcall)
      obtain ⟨hadds, hsubs⟩ := h.alone.pending hcall (by nofun) (.warmSourceBuffered g)
      have hsmall := hfirst.small g
      unfold Lib.Balanced at hbalance
      rw [hadds, hsubs] at hbalance
      rw [List.map_cons, List.sum_cons] at hbalance hsmall
      rw [List.map_cons, List.sum_cons] at hbalance
      cases u with
      | add counter amount =>
          have hadd : (Update.add counter amount).adds (.warmSourceBuffered g) = amount :=
            if_pos hcounter
          show f.counters counter + amount < 2 ^ 64
          change counter = _ at hcounter
          rw [hcounter]
          omega
      | sub counter amount =>
          have hsub : (Update.sub counter amount).subs (.warmSourceBuffered g) = amount :=
            if_pos hcounter
          have hnone : (Update.sub counter amount).adds (.warmSourceBuffered g) = 0 := rfl
          show amount ≤ f.counters counter
          change counter = _ at hcounter
          rw [hcounter]
          by_cases hzero : amount = 0
          · omega
          · -- after a subtraction the call has nothing more to add
            have hlater := (List.pairwise_cons.mp (hfirst.ordered g)).1
            have hrest : (updates.map (Update.adds (.warmSourceBuffered g))).sum = 0 := by
              refine List.sum_eq_zero ?_
              intro added hadded
              obtain ⟨v, hv, rfl⟩ := List.mem_map.mp hadded
              exact hlater v hv (by rw [hsub]; exact hzero)
            omega
  | bufferWarmSource path datagram nowUs => exact trivial
  | replayWarmSources path nowUs => exact trivial

theorem Sequential.step {n : Nat} {f : WarmForwarder κ} (h : Sequential n f)
    (hn : n ≤ 2147483648) (op : WarmOp κ) (halone : StartsAlone f op) :
    Sequential n (f.step op).2 where
  paths := by
    rcases step_cases f op with hstep | ⟨path, datagram, nowUs, b, -, hpath, hstep⟩ |
      ⟨path, nowUs, b, -, hpath, hstep⟩ | ⟨call, u, updates, -, -, hstep⟩
    · rw [hstep]
      exact h.paths
    · rw [hstep]
      exact List.length_set.trans h.paths
    · rw [hstep]
      exact List.length_set.trans h.paths
    · rw [hstep]
      exact h.paths
  intact := step_intact f op h.intact
  balanced := fun g => step_balanced f op (h.exactOp hn op) h.intact g (h.balanced g)
  alone := by
    rcases step_cases f op with hstep | ⟨path, datagram, nowUs, b, rfl, hpath, hstep⟩ |
      ⟨path, nowUs, b, rfl, hpath, hstep⟩ | ⟨call, u, updates, -, hcall, hstep⟩
    · rw [hstep]
      exact h.alone
    · rw [hstep]
      have hb : Intact b := h.intact b (List.mem_of_getElem? hpath)
      refine h.alone.start halone (bufferUpdates_addsFirst ?_)
      intro g
      obtain ⟨hreport, hadded⟩ := push_accounting g datagram nowUs hb
      have hroom := hb.room g
      omega
    · rw [hstep]
      have hb : Intact b := h.intact b (List.mem_of_getElem? hpath)
      refine h.alone.start halone (replayUpdates_addsFirst ?_)
      intro g
      rw [drained_takeLive g nowUs hb]
      have hroom := hb.room g
      omega
    · rw [hstep]
      exact h.alone.advance hcall

/-! ## §8. Runs. -/

omit [DecidableEq κ] in
theorem start_balanced (n : Nat) (g : Gauge) :
    Lib.Balanced (start n : WarmForwarder κ).counters (start n : WarmForwarder κ).calls
      (.warmSourceBuffered g) ((start n : WarmForwarder κ).buffered g) := by
  unfold Lib.Balanced start buffered InFlight.adds InFlight.subs
  simp

omit [DecidableEq κ] in
theorem start_sequential (n : Nat) : Sequential n (start n : WarmForwarder κ) where
  paths := List.length_replicate
  intact := start_intact n
  balanced := start_balanced n
  alone := ⟨by simp [start], nofun⟩

/-- The datagrams pushed to a path, in order. -/
def pushes (path : Nat) (ops : List (WarmOp κ)) : List (WarmSourceDatagram κ) :=
  ops.filterMap fun
    | .bufferWarmSource target datagram _ => if target = path then some datagram else none
    | _ => none

omit [DecidableEq κ] in
theorem pushes_append (path : Nat) (ops : List (WarmOp κ)) (op : WarmOp κ) :
    pushes path (ops ++ [op]) = pushes path ops ++ pushes path [op] := List.filterMap_append

/-- What is buffered on a path was pushed to it, and is in the order it came. -/
theorem buffered_in_order (n : Nat) (ops : List (WarmOp κ)) :
    ∀ path (b : WarmSourceReplayBuffer κ), (exec step (start n) ops).paths[path]? = some b →
      b.datagrams.Sublist (pushes path ops) := by
  refine (exec_history step (fun ops (f : WarmForwarder κ) => (∀ b ∈ f.paths, Intact b) ∧
      ∀ path (b : WarmSourceReplayBuffer κ), f.paths[path]? = some b →
        b.datagrams.Sublist (pushes path ops)) (start n) ⟨start_intact n, ?_⟩ ?_ ops).2
  · intro path b hpath
    have hempty : b = {} := (List.mem_replicate.mp (List.mem_of_getElem? hpath)).2
    rw [hempty]
    exact List.nil_sublist _
  · rintro ops op ⟨hintact, ih⟩
    refine ⟨step_intact _ op hintact, ?_⟩
    intro path b hpath
    rw [pushes_append]
    have hgrown : (pushes path ops).Sublist (pushes path ops ++ pushes path [op]) :=
      List.sublist_append_left _ _
    rcases step_cases (exec step (start n) ops) op with hstep |
      ⟨target, datagram, nowUs, before, rfl, hbefore, hstep⟩ |
      ⟨target, nowUs, before, -, hbefore, hstep⟩ | ⟨call, u, updates, -, -, hstep⟩
    · rw [hstep] at hpath
      exact (ih path b hpath).trans hgrown
    · rw [hstep] at hpath
      dsimp only at hpath
      by_cases hsame : target = path
      · -- the path that was pushed to: the new datagram is the last one, if it is kept
        rw [hsame, List.getElem?_set_self (by
          rw [← hsame]
          exact (List.getElem?_eq_some_iff.mp hbefore).1)] at hpath
        cases hpath
        rw [hsame] at hbefore
        have hold := ih path before hbefore
        have hpushed : pushes path [WarmOp.bufferWarmSource target datagram nowUs] = [datagram] := by
          simp [pushes, hsame]
        rw [hpushed]
        obtain ⟨-, kept, hkept, hshape | hshape⟩ := push_shape datagram nowUs
          (hintact before (List.mem_of_getElem? hbefore)).wellFormed
        · rw [hshape]
          exact (hkept.trans hold).append (List.Sublist.refl _)
        · rw [hshape]
          exact (hkept.trans hold).trans (List.sublist_append_left _ _)
      · rw [List.getElem?_set_ne hsame] at hpath
        exact (ih path b hpath).trans hgrown
    · rw [hstep] at hpath
      dsimp only at hpath
      by_cases hsame : target = path
      · rw [hsame, List.getElem?_set_self (by
          rw [← hsame]
          exact (List.getElem?_eq_some_iff.mp hbefore).1)] at hpath
        cases hpath
        exact List.nil_sublist _
      · rw [List.getElem?_set_ne hsame] at hpath
        exact (ih path b hpath).trans hgrown
    · rw [hstep] at hpath
      exact (ih path b hpath).trans hgrown

/-- Calls that do not overlap do nothing but exact operations. -/
theorem exact_of_alone {n : Nat} (hn : n ≤ 2147483648) {ops : List (WarmOp κ)}
    (halone : ∀ e ∈ trace step (start n) ops, StartsAlone e.1 e.2) :
    ∀ e ∈ trace step (start n) ops, ExactOp e.1 e.2 := by
  intro e he
  obtain ⟨before, after, hops, hstate⟩ := exists_exec_of_mem_trace step he
  rw [hops, trace_append] at halone
  have hsequential : Sequential n (exec step (start n) before) := by
    refine exec_invariant_along step (Sequential n) StartsAlone
      (fun f op halone hf => hf.step hn op halone) before (start n) ?_ (start_sequential n)
    intro e' he'
    exact halone e' (List.mem_append_left _ he')
  rw [hstate]
  exact hsequential.exactOp hn e.2

/-- **Warm source buffers and gauges**, over every run of pushes, drains and the atomic operations
they leave behind.  Every buffer keeps its bounds, its byte count and its list of objects, holds
datagrams in the order they came, reports each push exactly and is drained whole.  The gauges are
the sums over all paths whenever no call is in flight, if every operation on them was exact; and
calls that do not overlap do only such operations. -/
theorem warm_buffers_and_gauges (n : Nat) (ops : List (WarmOp κ)) :
    let f := exec step (start n) ops
    (∀ path (b : WarmSourceReplayBuffer κ), f.paths[path]? = some b →
      Intact b ∧ b.datagrams.Sublist (pushes path ops) ∧
      (∀ datagram nowUs, ∀ g : Gauge,
        g.of (b.push datagram nowUs).1.datagrams + g.removed (b.push datagram nowUs).2 =
          g.of b.datagrams + g.added (b.push datagram nowUs).2) ∧
      ∀ nowUs, (b.takeLive nowUs).1.datagrams =
          b.datagrams.filter (fun datagram => decide (nowUs < datagram.expiresAtUs)) ∧
        (b.takeLive nowUs).2 = {}) ∧
    ((∀ e ∈ trace step (start n) ops, ExactOp e.1 e.2) → f.calls.Settled →
      ∀ g, f.counters (.warmSourceBuffered g) = f.buffered g) ∧
    (n ≤ 2147483648 → (∀ e ∈ trace step (start n) ops, StartsAlone e.1 e.2) →
      ∀ e ∈ trace step (start n) ops, ExactOp e.1 e.2) := by
  intro f
  have hintact : ∀ b ∈ f.paths, Intact b :=
    exec_invariant step (fun f : WarmForwarder κ => ∀ b ∈ f.paths, Intact b) step_intact ops
      (start_intact n)
  refine ⟨?_, ?_, fun hn halone => exact_of_alone hn halone⟩
  · intro path b hpath
    have hb : Intact b := hintact b (List.mem_of_getElem? hpath)
    refine ⟨hb, buffered_in_order n ops path b hpath, ?_, ?_⟩
    · intro datagram nowUs g
      exact (push_accounting g datagram nowUs hb).1
    · intro nowUs
      exact ⟨takeLive_live nowUs, rfl⟩
  · intro hexact hsettled g
    have hrun := exec_invariant_along step
      (fun f : WarmForwarder κ => (∀ b ∈ f.paths, Intact b) ∧
        ∀ g, Lib.Balanced f.counters f.calls (.warmSourceBuffered g) (f.buffered g)) ExactOp
      (fun f op hop hf => ⟨step_intact f op hf.1, fun g => step_balanced f op hop hf.1 g (hf.2 g)⟩)
      ops (start n) hexact ⟨start_intact n, start_balanced n⟩
    exact (hrun.2 g).settled hsettled

/-- A push appends a datagram; a replay drains it and subtracts before the push has added. -/
def overlapping : List (WarmOp Nat) :=
  [.bufferWarmSource 0 ⟨1, 1000000, [7], 0⟩ 0, .replayWarmSources 0 5,
    .update 1, .update 1, .update 1,
    .update 0, .update 0, .update 0, .update 0, .update 0, .update 0, .update 0]

/-- All calls are done and nothing is buffered, but the gauges say one datagram of one byte. -/
theorem replay_before_add :
    (exec step (start 1) overlapping).calls.Settled ∧
    (exec step (start 1) overlapping).buffered .datagrams = 0 ∧
    (exec step (start 1) overlapping).buffered .bytes = 0 ∧
    (exec step (start 1) overlapping).counters (.warmSourceBuffered .datagrams) = 1 ∧
    (exec step (start 1) overlapping).counters (.warmSourceBuffered .bytes) = 1 := by
  decide

end WarmForwarder

end AvMesh.Failover
