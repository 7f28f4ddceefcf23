/-
  AvMesh.Telemetry.Aggregator
  ───────────────────────────
  **THE SNAPSHOTS A COLLECTOR HOLDS** (`TelemetryAggregator`, src/main.rs).

  A node sends its snapshot on two lanes: as JSON on the TCP changes feed, and
  in a binary envelope through the FEC decoder.  Both lanes end in
  `ingest_snapshot`, which writes the snapshot under its node id WHATEVER is
  there; only the FEC decoder looks at the order of what it lets through, and
  only at that of its own lane.  So the snapshot that is held, and listed, is
  the last one written (`lookup_exec`), and it is the newest one exactly when
  the last one written is (`newest_listed_iff`).

  `ingest_snapshot` takes two locks one after the other, so it is two steps;
  `snapshots_with_local` holds the first of them from its first read to its
  last, so it is one.
-/
import AvMesh.Lib.StepSystem
import AvMesh.Lib.Table
import AvMesh.Telemetry.Envelope
import Mathlib.Data.List.Sort
import Mathlib.Data.String.Basic

namespace AvMesh.Telemetry

open AvMesh.Lib

/-! ## §1. Snapshots and the two lanes. -/

/-- `TELEMETRY_TAG`. -/
def telemetryTag : List UInt8 := [65, 86, 77, 84]

/-- A snapshot: what the aggregator reads of it, and the rest. -/
structure MeshSnapshot (Content : Type) where
  nodeId : String
  region : String
  updatedUnixMs : Nat
  content : Content

/-- The two decoders of a snapshot. -/
structure SnapshotCodecs where
  Content : Type
  /-- `serde_json::from_slice`. -/
  decodeJson : List UInt8 → Option (MeshSnapshot Content)
  /-- `decode_mesh_telemetry_binary`. -/
  decodeBinary : List UInt8 → Option (MeshSnapshot Content)

variable {C : SnapshotCodecs}

/-- What `ingest_payload` takes for a payload of the changes feed. -/
def payloadSnapshot (C : SnapshotCodecs) (tag val : List UInt8) :
    Except Unit (Option (MeshSnapshot C.Content)) :=
  if tag ≠ telemetryTag then .ok none
  else match C.decodeJson val with
    | none => .error ()
    | some snapshot => .ok (some snapshot)

/-- What the FEC collector takes for an envelope its decoder completed: the
payload must name the node of the envelope. -/
def envelopeSnapshot (C : SnapshotCodecs) (envelope : TelemetryEnvelope) :
    Option (MeshSnapshot C.Content) :=
  match C.decodeBinary envelope.payload with
  | none => none
  | some snapshot => if snapshot.nodeId = envelope.nodeId then some snapshot else none

/-! ## §2. The aggregator. -/

structure TelemetryNodeHealth where
  nodeId : String
  region : String
  updatedUnixMs : Nat
  ageMs : Nat
  deriving DecidableEq

structure TelemetryHealthSnapshot where
  staleAfterMs : Nat
  freshRemoteCount : Nat
  staleRemoteCount : Nat
  staleNodes : List TelemetryNodeHealth

def TelemetryNodeHealth.fromSnapshot (snapshot : MeshSnapshot C.Content) (nowMs : Nat) :
    TelemetryNodeHealth where
  nodeId := snapshot.nodeId
  region := snapshot.region
  updatedUnixMs := snapshot.updatedUnixMs
  ageMs := nowMs - snapshot.updatedUnixMs

/-- The oldest first, and by node id among those of one age. -/
def healthLe (left right : TelemetryNodeHealth) : Prop :=
  right.ageMs < left.ageMs ∨ (right.ageMs = left.ageMs ∧ left.nodeId ≤ right.nodeId)

instance : DecidableRel healthLe := fun _ _ => inferInstanceAs (Decidable (_ ∨ _))

/-- One turn of the loop of `remember_stale_nodes`. -/
def rememberStaleNode (remembered : List TelemetryNodeHealth) (node : TelemetryNodeHealth) :
    List TelemetryNodeHealth :=
  match remembered.findIdx? fun existing => existing.nodeId = node.nodeId with
  | some index => remembered.set index node
  | none => remembered ++ [node]

def rememberStaleNodes (remembered staleNodes : List TelemetryNodeHealth) :
    List TelemetryNodeHealth :=
  ((staleNodes.foldl rememberStaleNode remembered).insertionSort healthLe).take 32

structure TelemetryAggregator (C : SnapshotCodecs) where
  snapshots : Table String (MeshSnapshot C.Content)
  staleNodes : List TelemetryNodeHealth
  staleAfterMs : Nat

namespace TelemetryAggregator

def new (C : SnapshotCodecs) (staleAfterMs : Nat) : TelemetryAggregator C := ⟨∅, [], staleAfterMs⟩

def isStale (staleAfterMs : Nat) (snapshot : MeshSnapshot C.Content) (nowMs : Nat) : Bool :=
  decide (0 < staleAfterMs) && decide (staleAfterMs < nowMs - snapshot.updatedUnixMs)

/-- The first write of `ingest_snapshot`. -/
def insertSnapshot (a : TelemetryAggregator C) (snapshot : MeshSnapshot C.Content) :
    TelemetryAggregator C :=
  { a with snapshots := a.snapshots.insert snapshot.nodeId snapshot }

/-- The second write of `ingest_snapshot`. -/
def forgetStale (a : TelemetryAggregator C) (nodeId : String) : TelemetryAggregator C :=
  { a with staleNodes := a.staleNodes.filter fun node => node.nodeId ≠ nodeId }

/-- The values of a map, in the order in which it is walked. -/
def values (snapshots : Table String (MeshSnapshot C.Content)) : List (MeshSnapshot C.Content) :=
  snapshots.entries.map fun entry => entry.2

def snapshotsWithLocal (a : TelemetryAggregator C) (localSnapshot : MeshSnapshot C.Content)
    (nowMs : Nat) :
    (List (MeshSnapshot C.Content) × TelemetryHealthSnapshot) × TelemetryAggregator C :=
  let staleNodes := ((values a.snapshots).filter fun snapshot =>
    isStale a.staleAfterMs snapshot nowMs).map fun snapshot => .fromSnapshot snapshot nowMs
  let snapshots := a.snapshots.retain fun _ snapshot => !isStale a.staleAfterMs snapshot nowMs
  let remembered :=
    if staleNodes = [] then a.staleNodes else rememberStaleNodes a.staleNodes staleNodes
  let withLocal := snapshots.insert localSnapshot.nodeId localSnapshot
  (((values withLocal).insertionSort fun left right => left.nodeId ≤ right.nodeId,
      { staleAfterMs := a.staleAfterMs
        freshRemoteCount := snapshots.size
        staleRemoteCount := remembered.length
        staleNodes := remembered }),
    { a with snapshots := snapshots, staleNodes := remembered })

/-! ## §3. The aggregator as a step system. -/

inductive Op (C : SnapshotCodecs) where
  | payload (tag val : List UInt8)
  | envelope (envelope : TelemetryEnvelope)
  | forgetStale (nodeId : String)
  | list (localSnapshot : MeshSnapshot C.Content) (nowMs : Nat)

inductive Reply (C : SnapshotCodecs) where
  | payload (result : Except Unit Bool)
  | envelope (decoded : Bool)
  | forgotten
  | listed (snapshots : List (MeshSnapshot C.Content)) (telemetry : TelemetryHealthSnapshot)

def step (a : TelemetryAggregator C) : Op C → Reply C × TelemetryAggregator C
  | .payload tag val =>
      match payloadSnapshot C tag val with
      | .error error => (.payload (.error error), a)
      | .ok none => (.payload (.ok false), a)
      | .ok (some snapshot) => (.payload (.ok true), a.insertSnapshot snapshot)
  | .envelope envelope =>
      match envelopeSnapshot C envelope with
      | none => (.envelope false, a)
      | some snapshot => (.envelope true, a.insertSnapshot snapshot)
  | .forgetStale nodeId => (.forgotten, a.forgetStale nodeId)
  | .list localSnapshot nowMs =>
      let listing := a.snapshotsWithLocal localSnapshot nowMs
      (.listed listing.1.1 listing.1.2, listing.2)

/-- The snapshot an operation delivers. -/
def Op.snapshot : Op C → Option (MeshSnapshot C.Content)
  | .payload tag val =>
      match payloadSnapshot C tag val with
      | .ok (some snapshot) => some snapshot
      | _ => none
  | .envelope completed => envelopeSnapshot C completed
  | _ => none

/-- The time of a listing. -/
def Op.listedAt : Op C → Option Nat
  | .list _ nowMs => some nowMs
  | _ => none

def ofNode (nodeId : String) (snapshots : List (MeshSnapshot C.Content)) :
    List (MeshSnapshot C.Content) :=
  snapshots.filter fun snapshot => snapshot.nodeId = nodeId

/-- The snapshots of a node that a run delivers, on either lane, in the order
in which they are written. -/
def delivered (nodeId : String) (ops : List (Op C)) : List (MeshSnapshot C.Content) :=
  ofNode nodeId (ops.filterMap Op.snapshot)

/-- None of the node's snapshots is stale when the run lists. -/
def FreshAt (staleAfterMs : Nat) (nodeId : String) (ops : List (Op C)) (times : List Nat) : Prop :=
  ∀ snapshot ∈ delivered nodeId ops, ∀ nowMs ∈ times, isStale staleAfterMs snapshot nowMs = false

/-- One of the snapshots, and none of them is newer. -/
def Newest (snapshots : List (MeshSnapshot C.Content)) (snapshot : MeshSnapshot C.Content) : Prop :=
  snapshot ∈ snapshots ∧ ∀ other ∈ snapshots, other.updatedUnixMs ≤ snapshot.updatedUnixMs

/-- The snapshot a listing gives for a node. -/
def listedFor (a : TelemetryAggregator C) (localSnapshot : MeshSnapshot C.Content) (nowMs : Nat)
    (nodeId : String) : Option (MeshSnapshot C.Content) :=
  (a.snapshotsWithLocal localSnapshot nowMs).1.1.find? fun snapshot => snapshot.nodeId = nodeId

/-! ## §4. What one step does to the snapshots. -/

variable {a : TelemetryAggregator C} {op : Op C} {ops : List (Op C)} {staleAfterMs : Nat}
variable {nodeId : String} {snapshot : MeshSnapshot C.Content}

theorem step_of_snapshot (h : op.snapshot = some snapshot) :
    (step a op).2 = a.insertSnapshot snapshot := by
  cases op with
  | payload tag val =>
      simp only [Op.snapshot] at h
      simp only [step]
      cases hpayload : payloadSnapshot C tag val with
      | error error =>
          rw [hpayload] at h
          cases h
      | ok found =>
          cases found with
          | none =>
              rw [hpayload] at h
              cases h
          | some found =>
              rw [hpayload] at h
              cases h
              rfl
  | envelope completed =>
      change envelopeSnapshot C completed = some snapshot at h
      simp only [step, h]
  | forgetStale nodeId => cases h
  | list localSnapshot nowMs => cases h

/-- Without a snapshot a step writes none; a listing may drop some. -/
theorem lookup_step_of_none (h : op.snapshot = none) :
    (step a op).2.snapshots.lookup nodeId =
      (a.snapshots.lookup nodeId).filter fun snapshot =>
        op.listedAt.all fun nowMs => !isStale a.staleAfterMs snapshot nowMs := by
  have hkept : a.snapshots.lookup nodeId =
      (a.snapshots.lookup nodeId).filter fun _ => true := by
    cases a.snapshots.lookup nodeId <;> rfl
  cases op with
  | payload tag val =>
      simp only [Op.snapshot] at h
      simp only [step]
      cases hpayload : payloadSnapshot C tag val with
      | error error => exact hkept
      | ok found =>
          cases found with
          | none => exact hkept
          | some found =>
              rw [hpayload] at h
              cases h
  | envelope completed =>
      change envelopeSnapshot C completed = none at h
      simp only [step, h]
      exact hkept
  | forgetStale nodeId' => exact hkept
  | list localSnapshot nowMs =>
      refine Option.ext fun found => ?_
      show (a.snapshots.retain _).lookup nodeId = some found ↔ _
      rw [AList.lookup_retain_iff, Option.filter_eq_some_iff]
      rfl

theorem staleAfterMs_step (op : Op C) : (step a op).2.staleAfterMs = a.staleAfterMs := by
  cases op with
  | payload tag val =>
      simp only [step]
      split <;> rfl
  | envelope completed =>
      simp only [step]
      split <;> rfl
  | forgetStale nodeId => rfl
  | list localSnapshot nowMs => rfl

/-- Every snapshot is held under its node id. -/
def Keyed (a : TelemetryAggregator C) : Prop :=
  ∀ nodeId snapshot, a.snapshots.lookup nodeId = some snapshot → snapshot.nodeId = nodeId

theorem Keyed.step (h : Keyed a) (op : Op C) : Keyed (step a op).2 := by
  intro nodeId found hfound
  cases hsnapshot : op.snapshot with
  | none =>
      rw [lookup_step_of_none hsnapshot] at hfound
      exact h nodeId found (Option.filter_eq_some_iff.1 hfound).1
  | some snapshot =>
      rw [step_of_snapshot hsnapshot] at hfound
      rcases AList.lookup_of_insert hfound with ⟨hnode, hnew⟩ | ⟨-, hold⟩
      · rw [hnew, hnode]
      · exact h nodeId found hold

theorem exec_keyed (staleAfterMs : Nat) (ops : List (Op C)) :
    Keyed (exec step (new C staleAfterMs) ops) :=
  exec_invariant step Keyed (fun _ op h => h.step op) ops fun _ _ h => nomatch h

theorem staleAfterMs_exec (staleAfterMs : Nat) (ops : List (Op C)) :
    (exec step (new C staleAfterMs) ops).staleAfterMs = staleAfterMs :=
  exec_invariant step (fun a => a.staleAfterMs = staleAfterMs)
    (fun _ op h => (staleAfterMs_step op).trans h) ops rfl

/-! ## §5. What a run holds. -/

theorem delivered_append_singleton :
    delivered nodeId (ops ++ [op]) = delivered nodeId ops ++ ofNode nodeId op.snapshot.toList := by
  unfold delivered ofNode
  rw [List.filterMap_append, List.filter_append]
  cases hsnapshot : op.snapshot with
  | none => rw [List.filterMap_cons_none hsnapshot]; rfl
  | some snapshot => rw [List.filterMap_cons_some hsnapshot]; rfl

theorem FreshAt.of_append_singleton
    (h : FreshAt staleAfterMs nodeId (ops ++ [op]) ((ops ++ [op]).filterMap Op.listedAt)) :
    FreshAt staleAfterMs nodeId ops (ops.filterMap Op.listedAt) := by
  intro snapshot hsnapshot nowMs hnow
  refine h snapshot ?_ nowMs ?_
  · rw [delivered_append_singleton]
    exact List.mem_append_left _ hsnapshot
  · rw [List.filterMap_append]
    exact List.mem_append_left _ hnow

/-- **A node's snapshot is the last one written**, while none of them is
stale. -/
theorem lookup_exec (staleAfterMs : Nat) (nodeId : String) (ops : List (Op C)) :
    FreshAt staleAfterMs nodeId ops (ops.filterMap Op.listedAt) →
      (exec step (new C staleAfterMs) ops).snapshots.lookup nodeId =
        (delivered nodeId ops).getLast? := by
  refine exec_history step
    (fun ops a => FreshAt staleAfterMs nodeId ops (ops.filterMap Op.listedAt) →
      a.snapshots.lookup nodeId = (delivered nodeId ops).getLast?)
    (new C staleAfterMs) (fun _ => rfl) (fun ops op ih hfresh => ?_) ops
  have hbefore := ih hfresh.of_append_singleton
  rw [delivered_append_singleton]
  cases hsnapshot : op.snapshot with
  | some snapshot =>
      rw [step_of_snapshot hsnapshot]
      show ((exec step (new C staleAfterMs) ops).snapshots.insert snapshot.nodeId snapshot).lookup
        nodeId = _
      by_cases hnode : snapshot.nodeId = nodeId
      · have hof : ofNode nodeId (some snapshot).toList = [snapshot] := by
          simp [ofNode, hnode]
        rw [hof, List.getLast?_concat, hnode, AList.lookup_insert]
      · have hof : ofNode nodeId (some snapshot).toList = [] := by
          simp [ofNode, hnode]
        rw [hof, List.append_nil, AList.lookup_insert_ne (Ne.symm hnode), hbefore]
  | none =>
      rw [lookup_step_of_none hsnapshot, hbefore, staleAfterMs_exec]
      show _ = (delivered nodeId ops ++ []).getLast?
      rw [List.append_nil]
      -- the listing keeps the snapshot, which is not stale
      cases hlast : (delivered nodeId ops).getLast? with
      | none => rfl
      | some last =>
          rw [Option.filter_eq_some_iff]
          refine ⟨rfl, ?_⟩
          cases hnow : op.listedAt with
          | none => rfl
          | some nowMs =>
              have hmem : last ∈ delivered nodeId (ops ++ [op]) := by
                rw [delivered_append_singleton]
                exact List.mem_append_left _ (List.mem_of_getLast? hlast)
              have htime : nowMs ∈ (ops ++ [op]).filterMap Op.listedAt :=
                List.mem_filterMap.2 ⟨op, List.mem_append_right _ List.mem_cons_self, hnow⟩
              show (!isStale staleAfterMs last nowMs) = true
              rw [hfresh last hmem nowMs htime]
              rfl

/-! ## §6. What a listing gives. -/

variable {localSnapshot : MeshSnapshot C.Content} {nowMs : Nat}

theorem mem_values_iff {snapshots : Table String (MeshSnapshot C.Content)} :
    snapshot ∈ values snapshots ↔ ∃ nodeId, snapshots.lookup nodeId = some snapshot := by
  unfold values
  rw [List.mem_map]
  constructor
  · rintro ⟨entry, hentry, rfl⟩
    exact ⟨entry.1, AList.lookup_eq_some_iff.2 hentry⟩
  · rintro ⟨nodeId, hlookup⟩
    exact ⟨⟨nodeId, snapshot⟩, AList.lookup_eq_some_iff.1 hlookup, rfl⟩

/-- A search that only one element can end finds it. -/
theorem find?_eq_some_of_unique {α : Type} {p : α → Bool} {xs : List α} {x : α} (hx : x ∈ xs)
    (hp : p x = true) (hunique : ∀ y ∈ xs, p y = true → y = x) : xs.find? p = some x := by
  cases hfind : xs.find? p with
  | none => exact absurd hp (List.find?_eq_none.1 hfind x hx)
  | some y => rw [hunique y (List.mem_of_find?_eq_some hfind) (List.find?_some hfind)]

/-- **A listing gives the local snapshot for its node, and for every other node
the one that is held**, unless it is stale. -/
theorem listedFor_eq (h : Keyed a) :
    a.listedFor localSnapshot nowMs nodeId =
      if localSnapshot.nodeId = nodeId then some localSnapshot
      else (a.snapshots.lookup nodeId).filter fun snapshot =>
        !isStale a.staleAfterMs snapshot nowMs := by
  have hretain : ∀ {key : String} {found : MeshSnapshot C.Content},
      (a.snapshots.retain fun _ snapshot => !isStale a.staleAfterMs snapshot nowMs).lookup key
          = some found ↔
        a.snapshots.lookup key = some found ∧ (!isStale a.staleAfterMs found nowMs) = true :=
    AList.lookup_retain_iff
  have hlisted : ∀ found, found ∈ (a.snapshotsWithLocal localSnapshot nowMs).1.1 ↔
      found = localSnapshot ∨ (found.nodeId ≠ localSnapshot.nodeId
        ∧ a.snapshots.lookup found.nodeId = some found
        ∧ (!isStale a.staleAfterMs found nowMs) = true) := by
    intro found
    unfold snapshotsWithLocal
    dsimp only
    rw [List.mem_insertionSort, mem_values_iff]
    constructor
    · rintro ⟨key, hkey⟩
      rcases AList.lookup_of_insert hkey with ⟨-, hnew⟩ | ⟨hne, hold⟩
      · exact Or.inl hnew
      · have hheld := hretain.1 hold
        have hnode := h key found hheld.1
        subst hnode
        exact Or.inr ⟨hne, hheld⟩
    · rintro (rfl | ⟨hne, hheld⟩)
      · exact ⟨found.nodeId, AList.lookup_insert _⟩
      · refine ⟨found.nodeId, ?_⟩
        rw [AList.lookup_insert_ne hne]
        exact hretain.2 hheld
  unfold listedFor
  by_cases hlocal : localSnapshot.nodeId = nodeId
  · rw [if_pos hlocal]
    refine find?_eq_some_of_unique ((hlisted _).2 (Or.inl rfl)) (decide_eq_true hlocal) ?_
    intro found hfound hnode
    rcases (hlisted found).1 hfound with heq | ⟨hne, -⟩
    · exact heq
    · exact absurd ((of_decide_eq_true hnode).trans hlocal.symm) hne
  · rw [if_neg hlocal]
    -- an element with the node id is the one that is held for it
    have hheld : ∀ found ∈ (a.snapshotsWithLocal localSnapshot nowMs).1.1,
        found.nodeId = nodeId → a.snapshots.lookup nodeId = some found
          ∧ (!isStale a.staleAfterMs found nowMs) = true := by
      intro found hfound hnode
      rcases (hlisted found).1 hfound with heq | ⟨-, hheld⟩
      · exact absurd (heq ▸ hnode) hlocal
      · rwa [hnode] at hheld
    cases hfilter : (a.snapshots.lookup nodeId).filter fun snapshot =>
        !isStale a.staleAfterMs snapshot nowMs with
    | none =>
        refine List.find?_eq_none.2 fun found hfound hnode => ?_
        have hfilter' := Option.filter_eq_some_iff
          (p := fun snapshot => !isStale a.staleAfterMs snapshot nowMs).2
          (hheld found hfound (of_decide_eq_true hnode))
        rw [hfilter] at hfilter'
        cases hfilter'
    | some found =>
        obtain ⟨hlookup, hfresh⟩ := Option.filter_eq_some_iff.1 hfilter
        have hnode := h nodeId found hlookup
        refine find?_eq_some_of_unique ?_ (decide_eq_true hnode) ?_
        · refine (hlisted found).2 (Or.inr ⟨?_, ?_, hfresh⟩)
          · rw [hnode]
            exact Ne.symm hlocal
          · rw [hnode]
            exact hlookup
        · intro other hother hnode'
          have hother := (hheld other hother (of_decide_eq_true hnode')).1
          rw [hlookup] at hother
          exact (Option.some.inj hother).symm

/-- The snapshots of a node in the order in which they are written, the local
one of the listing last. -/
def written (nodeId : String) (ops : List (Op C)) (localSnapshot : MeshSnapshot C.Content) :
    List (MeshSnapshot C.Content) :=
  ofNode nodeId (ops.filterMap Op.snapshot ++ [localSnapshot])

/-- While nothing is stale a listing gives what was written last. -/
theorem listedFor_exec (hfresh : FreshAt staleAfterMs nodeId ops (nowMs :: ops.filterMap Op.listedAt)) :
    (exec step (new C staleAfterMs) ops).listedFor localSnapshot nowMs nodeId =
      (written nodeId ops localSnapshot).getLast? := by
  have hheld := lookup_exec staleAfterMs nodeId ops
    fun snapshot hsnapshot now hnow => hfresh snapshot hsnapshot now (List.mem_cons_of_mem _ hnow)
  have hwritten : written nodeId ops localSnapshot =
      delivered nodeId ops ++ ofNode nodeId [localSnapshot] :=
    List.filter_append _ _
  rw [listedFor_eq (exec_keyed staleAfterMs ops), hheld, staleAfterMs_exec, hwritten]
  by_cases hlocal : localSnapshot.nodeId = nodeId
  · have hof : ofNode nodeId [localSnapshot] = [localSnapshot] := by
      simp [ofNode, hlocal]
    rw [if_pos hlocal, hof, List.getLast?_concat]
  · have hof : ofNode nodeId [localSnapshot] = [] := by
      simp [ofNode, hlocal]
    rw [if_neg hlocal, hof, List.append_nil]
    cases hlast : (delivered nodeId ops).getLast? with
    | none => rfl
    | some last =>
        rw [Option.filter_eq_some_iff]
        refine ⟨rfl, ?_⟩
        rw [hfresh last (List.mem_of_getLast? hlast) nowMs List.mem_cons_self]
        rfl

/-- **A listing gives the newest snapshot of a node exactly when the last one
written is the newest.** -/
theorem newest_listed_iff (staleAfterMs : Nat) (ops : List (Op C))
    (localSnapshot : MeshSnapshot C.Content) (nowMs : Nat) (nodeId : String)
    (hfresh : FreshAt staleAfterMs nodeId ops (nowMs :: ops.filterMap Op.listedAt)) :
    (∃ snapshot,
        (exec step (new C staleAfterMs) ops).listedFor localSnapshot nowMs nodeId = some snapshot
          ∧ Newest (delivered nodeId ops) snapshot) ↔
      ∃ last, (written nodeId ops localSnapshot).getLast? = some last
        ∧ Newest (delivered nodeId ops) last := by
  rw [listedFor_exec hfresh]

/-! ## §7. Two lanes. -/

/-- Payloads of one digit: a snapshot of `node-1` at that second. -/
def sampleDecode : List UInt8 → Option (MeshSnapshot Unit)
  | [byte] => some ⟨"node-1", "eu", 1000 * (byte.toNat - 48), ()⟩
  | _ => none

def sampleCodecs : SnapshotCodecs := ⟨Unit, sampleDecode, sampleDecode⟩

/-- The snapshot of second `digit` on the changes feed. -/
def samplePayload (digit : UInt8) : Op sampleCodecs := .payload telemetryTag [48 + digit]

/-- The snapshot of second `digit` on the FEC lane. -/
def sampleEnvelope (digit : UInt8) : Op sampleCodecs :=
  .envelope (.meshSnapshot 1 digit.toUInt64 (1000 * digit.toUInt64) 5000 "node-1" [48 + digit])

def sampleSnapshot (digit : Nat) : MeshSnapshot sampleCodecs.Content :=
  ⟨"node-1", "eu", 1000 * digit, ()⟩

def sampleLocal : MeshSnapshot sampleCodecs.Content := ⟨"node-2", "us", 9000, ()⟩

/-- Snapshots of one node, as the two lanes bring them in their order. -/
theorem newest_listed_iff_in_order :
    ∃ snapshot, (exec step (new sampleCodecs 15000)
        [samplePayload 1, sampleEnvelope 1, .forgetStale "node-1", sampleEnvelope 2,
          .forgetStale "node-1"]).listedFor sampleLocal 9000 "node-1" = some snapshot
      ∧ Newest (delivered "node-1"
          [samplePayload 1, sampleEnvelope 1, .forgetStale "node-1", sampleEnvelope 2,
            .forgetStale "node-1"]) snapshot := by
  refine (newest_listed_iff 15000 _ sampleLocal 9000 "node-1" ?_).2
    ⟨sampleSnapshot 2, rfl, ?_, ?_⟩
  · show ∀ snapshot ∈ [sampleSnapshot 1, sampleSnapshot 1, sampleSnapshot 2],
      ∀ nowMs ∈ [9000], isStale 15000 snapshot nowMs = false
    simp [isStale, sampleSnapshot]
  · exact List.mem_of_getLast? rfl
  · show ∀ other ∈ [sampleSnapshot 1, sampleSnapshot 1, sampleSnapshot 2],
      other.updatedUnixMs ≤ 2000
    simp [sampleSnapshot]

/-- The FEC lane is ahead of the changes feed. -/
def heldUp : List (Op sampleCodecs) :=
  [sampleEnvelope 2, .forgetStale "node-1", samplePayload 1, .forgetStale "node-1"]

/-- **An older snapshot replaces a newer one.**  The FEC lane delivers the
snapshot of second 2; that of second 1, held up on the changes feed, comes
after it and is the one a listing gives. -/
theorem older_snapshot_listed :
    FreshAt 15000 "node-1" heldUp (9000 :: heldUp.filterMap Op.listedAt) ∧
    (exec step (new sampleCodecs 15000) heldUp).listedFor sampleLocal 9000 "node-1" =
      some (sampleSnapshot 1) ∧
    sampleSnapshot 2 ∈ delivered "node-1" heldUp ∧
    ¬ Newest (delivered "node-1" heldUp) (sampleSnapshot 1) := by
  have hnewer : sampleSnapshot 2 ∈ delivered "node-1" heldUp := List.mem_of_mem_head? rfl
  refine ⟨?_, rfl, hnewer, ?_⟩
  · show ∀ snapshot ∈ [sampleSnapshot 2, sampleSnapshot 1],
      ∀ nowMs ∈ [9000], isStale 15000 snapshot nowMs = false
    simp [isStale, sampleSnapshot]
  · rintro ⟨-, hnewest⟩
    have hle : 2000 ≤ 1000 := hnewest (sampleSnapshot 2) hnewer
    omega

end TelemetryAggregator

end AvMesh.Telemetry
