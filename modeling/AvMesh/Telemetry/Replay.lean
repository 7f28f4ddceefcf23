/-
  AvMesh.Telemetry.Replay
  ───────────────────────
  **WHICH SNAPSHOTS A COLLECTOR ACCEPTS TWICE.**

  A peer keeps one accepted pair.  Within a boot the sequence of what is
  accepted grows; an envelope of another boot is accepted whatever its
  sequence, so a block of the previous boot that arrives late is accepted
  again, and takes the place of the newer pair.

    • `exec_no_replay` — a peer that returns to a boot only with sequences
      above those it completed there completes no pair twice, under one node
      id,
    • `tables_bounded` — peers and blocks in flight are bounded in every run,
    • `late_boot_replayed` — a run that returns to a boot it had left.
-/
import AvMesh.Telemetry.FecDecoder

namespace AvMesh.Telemetry

open AvMesh.Lib

variable {C : TelemetryFecCrates}

/-! ## §1. One peer. -/

namespace PeerDecoder

variable {state : PeerDecoder C} {envelope : TelemetryEnvelope} {blockTtl now : Nat}
  {blockId favoured : UInt32} {datagram : Bytes}

/-- What the acceptance of envelopes reads of a peer. -/
def identity (state : PeerDecoder C) : Option String × Option AcceptedSequence :=
  (state.nodeId, state.acceptedSequence)

theorem identity_receive :
    (state.receive blockTtl blockId datagram now favoured).2.identity = state.identity := by
  have hroom : ∀ state : PeerDecoder C, (state.makeRoom blockId favoured).identity = state.identity := by
    intro state
    unfold makeRoom
    split
    · split
      · rfl
      · rfl
    · rfl
  have hbegin : ∀ state : PeerDecoder C, (state.beginBlock blockId now).identity = state.identity := by
    intro state
    unfold beginBlock
    split
    · rfl
    · rfl
  have hentered := (hbegin ((state.expireBlocks blockTtl now).makeRoom blockId favoured)).trans
    (hroom (state.expireBlocks blockTtl now))
  unfold receive
  dsimp only
  split
  · exact hentered
  · exact hentered

/-- A full map gives up a block for the one that begins. -/
theorem size_makeRoom (h : state.blocks.size ≤ maxInFlightBlocksPerPeer) :
    (state.makeRoom blockId favoured).blocks.size ≤ maxInFlightBlocksPerPeer ∧
      (blockId ∉ (state.makeRoom blockId favoured).blocks →
        (state.makeRoom blockId favoured).blocks.size < maxInFlightBlocksPerPeer) := by
  unfold makeRoom
  split
  next hfull =>
    obtain ⟨oldest, holdest⟩ := AList.exists_oldest favoured
      (show 0 < state.blocks.size from Nat.lt_of_lt_of_le (by decide) hfull.2)
    obtain ⟨started, hlookup, -⟩ := AList.lookup_oldest holdest
    have hsize := AList.size_erase hlookup
    rw [holdest]
    show (state.blocks.erase oldest).size ≤ _ ∧ (_ → (state.blocks.erase oldest).size < _)
    constructor
    · omega
    · intro _
      omega
  next hroom =>
    refine ⟨h, ?_⟩
    intro hnew
    by_contra hfull
    exact hroom ⟨hnew, Nat.not_lt.mp hfull⟩

theorem size_beginBlock (h : state.blocks.size ≤ maxInFlightBlocksPerPeer)
    (hroom : blockId ∉ state.blocks → state.blocks.size < maxInFlightBlocksPerPeer) :
    (state.beginBlock blockId now).blocks.size ≤ maxInFlightBlocksPerPeer := by
  unfold beginBlock
  split
  · exact h
  next hnew =>
    show (state.blocks.insert blockId now).size ≤ _
    rw [AList.size_insert_of_notMem now hnew]
    exact hroom hnew

theorem size_receive (h : state.blocks.size ≤ maxInFlightBlocksPerPeer) :
    (state.receive blockTtl blockId datagram now favoured).2.blocks.size
      ≤ maxInFlightBlocksPerPeer := by
  have hexpired : (state.expireBlocks blockTtl now).blocks.size ≤ maxInFlightBlocksPerPeer :=
    (AList.size_retain_le _ _).trans h
  obtain ⟨hsize, hroom⟩ := @size_makeRoom C _ blockId favoured hexpired
  have hbegun := @size_beginBlock C _ now blockId hsize hroom
  unfold receive
  dsimp only
  split
  · exact (AList.size_erase_le _ _).trans hbegun
  · exact hbegun

theorem isReplay_eq_false {accepted : AcceptedSequence} {sequence : AcceptedSequence} :
    isReplay (some accepted) sequence = false ↔
      (accepted.bootId = sequence.bootId → accepted.sequence < sequence.sequence) := by
  show (accepted.bootId == sequence.bootId && decide _) = false ↔ _
  rw [Bool.and_eq_false_iff, beq_eq_false_iff_ne, decide_eq_false_iff_not, UInt64.not_le]
  constructor
  · rintro (hne | hlt) heq
    · exact absurd heq hne
    · exact hlt
  · intro h
    by_cases heq : accepted.bootId = sequence.bootId
    · exact .inr (h heq)
    · exact .inl heq

/-- The pair of an envelope. -/
def pairOf (envelope : TelemetryEnvelope) : AcceptedSequence :=
  ⟨envelope.bootId, envelope.sequence⟩

/-- **What becomes of an answer of the decoder**: the envelope is complete, and its pair is now the
accepted one; or nothing is complete and the accepted pair stays. -/
theorem finish_cases (state : PeerDecoder C)
    (result : Except C.DatagramFecError (Option Bytes)) :
    (state.finish result).2.blocks = state.blocks ∧
    ((∃ decoded envelope, result = .ok (some decoded) ∧
        TelemetryEnvelope.decode C.hash decoded = .ok envelope ∧
        (state.finish result).1 = .ok (.complete envelope) ∧
        isReplay state.acceptedSequence (pairOf envelope) = false ∧
        (∀ nodeId, state.nodeId = some nodeId → nodeId = envelope.nodeId) ∧
        (state.finish result).2.nodeId = some envelope.nodeId ∧
        (state.finish result).2.acceptedSequence = some (pairOf envelope)) ∨
      ((∀ envelope, (state.finish result).1 ≠ .ok (.complete envelope)) ∧
        (∀ nodeId, state.nodeId = some nodeId → (state.finish result).2.nodeId = some nodeId) ∧
        (state.finish result).2.acceptedSequence = state.acceptedSequence)) := by
  unfold finish
  split
  · exact ⟨rfl, .inr ⟨nofun, fun _ h => h, rfl⟩⟩
  · exact ⟨rfl, .inr ⟨nofun, fun _ h => h, rfl⟩⟩
  next decoded =>
    split
    · exact ⟨rfl, .inr ⟨nofun, fun _ h => h, rfl⟩⟩
    · exact ⟨rfl, .inr ⟨nofun, fun _ h => h, rfl⟩⟩
    next envelope henvelope =>
      unfold accept
      split
      · exact ⟨rfl, .inr ⟨nofun, fun _ h => h, rfl⟩⟩
      · split
        · exact ⟨rfl, .inr ⟨nofun, fun _ h => h, rfl⟩⟩
        next hnode =>
          -- the node id is the one of the peer, or becomes it
          have hsame : ∀ nodeId, state.nodeId = some nodeId → nodeId = envelope.nodeId := by
            intro nodeId hid
            by_contra hne
            exact hnode (by rw [hid]; simpa using hne)
          have hget : state.nodeId.getD envelope.nodeId = envelope.nodeId := by
            cases hid : state.nodeId with
            | none => rfl
            | some nodeId => exact hsame nodeId hid
          dsimp only
          split
          · refine ⟨rfl, .inr ⟨nofun, ?_, rfl⟩⟩
            intro nodeId hid
            show some (state.nodeId.getD envelope.nodeId) = some nodeId
            rw [hget, hsame nodeId hid]
          next hnew =>
            refine ⟨rfl, .inl ⟨decoded, envelope, rfl, henvelope, rfl, ?_, hsame, ?_, rfl⟩⟩
            · exact Bool.not_eq_true _ ▸ hnew
            · show some (state.nodeId.getD envelope.nodeId) = some envelope.nodeId
              rw [hget]

end PeerDecoder

/-! ## §2. One datagram. -/

namespace TelemetryFecDecoder

open PeerDecoder

variable {d : TelemetryFecDecoder C} {push : Push} {peer : SocketAddr}

/-- The entry of the sender after its datagram, with the reply. -/
def pushed (d : TelemetryFecDecoder C) (push : Push) (profile : C.RaptorQBlockProfile)
    (state : PeerDecoder C) : PushResult C × PeerDecoder C :=
  let (decoded, state) :=
    state.receive d.blockTtl (C.blockId profile) push.datagram push.now push.favoured
  state.finish decoded

/-- **The three ways of a datagram**: refused, over the peer limit, or pushed. -/
theorem step_cases (d : TelemetryFecDecoder C) (push : Push) :
    (∃ error, checkProfile C push.datagram = .error error ∧
      step d push = (.error (.err error), d)) ∨
    (∃ profile, checkProfile C push.datagram = .ok profile ∧
      (d.pruneIdlePeers push.now).enterPeer push.peer push.now = none ∧
      step d push = (.error (.err (.peerLimitExceeded d.maxPeers)), d.pruneIdlePeers push.now)) ∨
    (∃ profile state peers, checkProfile C push.datagram = .ok profile ∧
      (d.pruneIdlePeers push.now).enterPeer push.peer push.now = some (state, peers) ∧
      step d push = ((pushed d push profile state).1, { d.pruneIdlePeers push.now with
        peers := peers.replace push.peer (pushed d push profile state).2 })) := by
  unfold step pushDatagramAt
  cases hprofile : checkProfile C push.datagram with
  | error error => exact .inl ⟨error, rfl, rfl⟩
  | ok profile =>
      dsimp only
      cases henter : (d.pruneIdlePeers push.now).enterPeer push.peer push.now with
      | none => exact .inr (.inl ⟨profile, rfl, rfl, rfl⟩)
      | some entered =>
          obtain ⟨state, peers⟩ := entered
          exact .inr (.inr ⟨profile, state, peers, rfl, rfl, rfl⟩)

/-- The envelope that the sender's FEC decoder completes with the datagram. -/
def decodedBy (d : TelemetryFecDecoder C) (push : Push) : Option TelemetryEnvelope :=
  match checkProfile C push.datagram with
  | .error _ => none
  | .ok profile =>
      match (d.pruneIdlePeers push.now).enterPeer push.peer push.now with
      | none => none
      | some (state, _) =>
          match (state.receive d.blockTtl (C.blockId profile) push.datagram push.now
              push.favoured).1 with
          | .ok (some decoded) => (TelemetryEnvelope.decode C.hash decoded).toOption
          | _ => none

/-- The entry a peer is pushed into: its own, or a fresh one. -/
theorem enterPeer_eq_some {state : PeerDecoder C} {peers : Table SocketAddr (PeerDecoder C)}
    {now : Nat} (h : d.enterPeer peer now = some (state, peers)) :
    (∃ old, d.peers.lookup peer = some old ∧ state = { old with lastSeen := now } ∧
      peers = d.peers) ∨
    (d.peers.lookup peer = none ∧ d.peers.size < d.maxPeers ∧ state = PeerDecoder.new now ∧
      peers = d.peers.insert peer (PeerDecoder.new now)) := by
  unfold enterPeer at h
  split at h
  next old hold =>
    cases h
    exact .inl ⟨old, hold, rfl, rfl⟩
  next hnone =>
    split at h
    · cases h
    next hroom =>
      cases h
      exact .inr ⟨hnone, Nat.not_le.mp hroom, rfl, rfl⟩

theorem lookup_pruneIdlePeers {now : Nat} {state : PeerDecoder C}
    (h : (d.pruneIdlePeers now).peers.lookup peer = some state) :
    d.peers.lookup peer = some state :=
  (AList.lookup_retain_iff.mp h).1

/-! ## §3. The bounds. -/

/-- The tables stay within their bounds. -/
structure Bounded (d : TelemetryFecDecoder C) : Prop where
  peers : d.peers.size ≤ d.maxPeers
  blocks : ∀ peer state, d.peers.lookup peer = some state →
    state.blocks.size ≤ maxInFlightBlocksPerPeer

theorem Bounded.prune (h : Bounded d) (now : Nat) : Bounded (d.pruneIdlePeers now) where
  peers := (AList.size_retain_le _ _).trans h.peers
  blocks peer state hlookup := h.blocks peer state (lookup_pruneIdlePeers hlookup)

theorem size_blocks_pushed {profile : C.RaptorQBlockProfile} {state : PeerDecoder C}
    (h : state.blocks.size ≤ maxInFlightBlocksPerPeer) :
    (pushed d push profile state).2.blocks.size ≤ maxInFlightBlocksPerPeer := by
  show (PeerDecoder.finish _ _).2.blocks.size ≤ _
  rw [(finish_cases _ _).1]
  exact size_receive h

theorem Bounded.step (h : Bounded d) (push : Push) : Bounded (step d push).2 := by
  have hpruned := h.prune push.now
  rcases step_cases d push with
    ⟨error, -, hstep⟩ | ⟨profile, -, -, hstep⟩ | ⟨profile, state, peers, -, henter, hstep⟩
  · rw [hstep]
    exact h
  · rw [hstep]
    exact hpruned
  · -- the entry pushed into is bounded, and its table too
    have hentered : peers.size ≤ d.maxPeers ∧
        (∀ peer state, peers.lookup peer = some state →
          state.blocks.size ≤ maxInFlightBlocksPerPeer) ∧
        state.blocks.size ≤ maxInFlightBlocksPerPeer ∧ ∃ old, peers.lookup push.peer = some old := by
      rcases enterPeer_eq_some henter with ⟨old, hold, rfl, rfl⟩ | ⟨hnone, hroom, rfl, rfl⟩
      · exact ⟨hpruned.peers, hpruned.blocks, hpruned.blocks _ old hold, old, hold⟩
      · have hnew : push.peer ∉ (d.pruneIdlePeers push.now).peers := by
          intro hmem
          obtain ⟨old, hold⟩ := AList.exists_lookup_of_mem hmem
          rw [hnone] at hold
          cases hold
        refine ⟨?_, ?_, Nat.zero_le _, _, AList.lookup_insert _⟩
        · rw [AList.size_insert_of_notMem _ hnew]
          exact hroom
        · intro peer state hlookup
          rcases AList.lookup_of_insert hlookup with ⟨-, rfl⟩ | ⟨-, hold⟩
          · exact Nat.zero_le _
          · exact hpruned.blocks peer state hold
    obtain ⟨hsize, hblocks, hstate, old, hold⟩ := hentered
    rw [hstep]
    refine ⟨?_, ?_⟩
    · show (peers.replace push.peer _).size ≤ d.maxPeers
      rw [AList.size_replace]
      exact hsize
    · intro peer state' hlookup
      rcases AList.lookup_of_replace hold hlookup with ⟨-, rfl⟩ | ⟨-, hother⟩
      · exact size_blocks_pushed hstate
      · exact hblocks peer state' hother

/-! ## §4. What a peer has completed. -/

/-- The envelope a datagram of the peer completes. -/
def completedBy (peer : SocketAddr) (entry : TelemetryFecDecoder C × Push) :
    Option TelemetryEnvelope :=
  if entry.2.peer = peer then
    match (step entry.1 entry.2).1 with
    | .ok (.complete envelope) => some envelope
    | _ => none
  else none

/-- The envelopes of the peer that a run completes, in order. -/
def completes (d : TelemetryFecDecoder C) (ops : List Push) (peer : SocketAddr) :
    List TelemetryEnvelope :=
  (trace step d ops).filterMap (completedBy peer)

/-- No datagram of the run prunes the peer. -/
def NeverPruned (d : TelemetryFecDecoder C) (ops : List Push) (peer : SocketAddr) : Prop :=
  ∀ entry ∈ trace step d ops, ∀ profile, checkProfile C entry.2.datagram = .ok profile →
    peer ∈ entry.1.peers → peer ∈ (entry.1.pruneIdlePeers entry.2.now).peers

/-- An envelope of another boot than the accepted one has a sequence above those the peer has
completed in that boot; so it has when the boot is new. -/
def BootsFresh (d : TelemetryFecDecoder C) (ops : List Push) (peer : SocketAddr) : Prop :=
  ∀ before push after, ops = before ++ push :: after → push.peer = peer →
    ∀ envelope, decodedBy (exec step d before) push = some envelope →
    ∀ state accepted, (exec step d before).peers.lookup peer = some state →
      state.acceptedSequence = some accepted → accepted.bootId ≠ envelope.bootId →
    ∀ earlier ∈ completes d before peer, earlier.bootId = envelope.bootId →
      earlier.sequence < envelope.sequence

/-- What the entry of a peer says about the envelopes it has completed. -/
structure Accepts (completed : List TelemetryEnvelope) (entry : Option (PeerDecoder C)) : Prop where
  pairs : (completed.map pairOf).Nodup
  absent : entry = none → completed = []
  nodes : ∀ state, entry = some state → ∀ envelope ∈ completed,
    state.nodeId = some envelope.nodeId
  unaccepted : ∀ state, entry = some state → state.acceptedSequence = none → completed = []
  newest : ∀ state accepted, entry = some state → state.acceptedSequence = some accepted →
    ∀ envelope ∈ completed, envelope.bootId = accepted.bootId →
      envelope.sequence ≤ accepted.sequence

/-- An entry that only forgets nothing keeps the account. -/
theorem Accepts.congr {completed : List TelemetryEnvelope} {state state' : PeerDecoder C}
    (h : Accepts completed (some state))
    (hnode : ∀ nodeId, state.nodeId = some nodeId → state'.nodeId = some nodeId)
    (haccepted : state'.acceptedSequence = state.acceptedSequence) :
    Accepts completed (some state') where
  pairs := h.pairs
  absent := nofun
  nodes := by
    rintro _ ⟨⟩ envelope hmem
    exact hnode _ (h.nodes state rfl envelope hmem)
  unaccepted := by
    rintro _ ⟨⟩ hnone
    exact h.unaccepted state rfl (haccepted ▸ hnone)
  newest := by
    rintro _ accepted ⟨⟩ hsome
    exact h.newest state accepted rfl (haccepted ▸ hsome)

/-- A peer without an entry has completed nothing. -/
theorem Accepts.fresh {completed : List TelemetryEnvelope}
    (h : Accepts completed (none : Option (PeerDecoder C))) (state : PeerDecoder C) :
    Accepts completed (some state) := by
  have hnone := h.absent rfl
  subst hnone
  exact ⟨List.nodup_nil, nofun, nofun, fun _ _ _ => rfl, nofun⟩

/-- One more envelope, above all those of its boot. -/
theorem Accepts.complete {completed : List TelemetryEnvelope} {state state' : PeerDecoder C}
    {envelope : TelemetryEnvelope} (h : Accepts completed (some state))
    (hsame : ∀ nodeId, state.nodeId = some nodeId → nodeId = envelope.nodeId)
    (hnode : state'.nodeId = some envelope.nodeId)
    (haccepted : state'.acceptedSequence = some (pairOf envelope))
    (habove : ∀ earlier ∈ completed, earlier.bootId = envelope.bootId →
      earlier.sequence < envelope.sequence) :
    Accepts (completed ++ [envelope]) (some state') where
  pairs := by
    rw [List.map_append, List.map_singleton]
    refine List.nodup_append.mpr ⟨h.pairs, List.nodup_singleton _, ?_⟩
    rintro _ hearlier _ hnew rfl
    obtain ⟨earlier, hmem, hpair⟩ := List.mem_map.mp hearlier
    rw [List.mem_singleton] at hnew
    rw [hnew] at hpair
    obtain ⟨hboot, hsequence⟩ := AcceptedSequence.mk.inj hpair
    have hlt := habove earlier hmem hboot
    rw [hsequence] at hlt
    exact absurd hlt (UInt64.lt_irrefl _)
  absent := nofun
  nodes := by
    rintro _ ⟨⟩ other hmem
    rcases List.mem_append.mp hmem with hmem | hmem
    · rw [hnode, hsame _ (h.nodes state rfl other hmem)]
    · rw [List.mem_singleton.mp hmem]
      exact hnode
  unaccepted := by
    rintro _ ⟨⟩ hnone
    rw [haccepted] at hnone
    cases hnone
  newest := by
    rintro _ accepted ⟨⟩ hsome other hmem hboot
    rw [haccepted] at hsome
    cases hsome
    rcases List.mem_append.mp hmem with hmem | hmem
    · exact UInt64.le_of_lt (habove other hmem hboot)
    · rw [List.mem_singleton.mp hmem]
      exact UInt64.le_refl _

/-! ## §5. Whole runs. -/

theorem lookup_prune_of_mem {now : Nat}
    (h : peer ∈ d.peers → peer ∈ (d.pruneIdlePeers now).peers) :
    (d.pruneIdlePeers now).peers.lookup peer = d.peers.lookup peer := by
  cases hlookup : d.peers.lookup peer with
  | none =>
      cases hpruned : (d.pruneIdlePeers now).peers.lookup peer with
      | none => rfl
      | some state =>
          rw [lookup_pruneIdlePeers hpruned] at hlookup
          cases hlookup
  | some state =>
      obtain ⟨kept, hkept⟩ := AList.exists_lookup_of_mem (h (AList.mem_of_lookup hlookup))
      rw [hkept, ← hlookup, lookup_pruneIdlePeers hkept]

/-- The entry of the sender as it is entered. -/
theorem Accepts.enter {completed : List TelemetryEnvelope} {state : PeerDecoder C}
    {peers : Table SocketAddr (PeerDecoder C)} {now : Nat}
    (h : Accepts completed (d.peers.lookup peer))
    (henter : d.enterPeer peer now = some (state, peers)) : Accepts completed (some state) := by
  rcases enterPeer_eq_some henter with ⟨old, hold, rfl, -⟩ | ⟨hnone, -, rfl, -⟩
  · rw [hold] at h
    exact h.congr (fun _ hid => hid) rfl
  · rw [hnone] at h
    exact h.fresh _

/-- The accepted pair of the entered state is the one the peer had. -/
theorem accepted_of_enter {state : PeerDecoder C} {peers : Table SocketAddr (PeerDecoder C)}
    {now : Nat} {accepted : AcceptedSequence}
    (henter : d.enterPeer peer now = some (state, peers))
    (haccepted : state.acceptedSequence = some accepted) :
    ∃ old, d.peers.lookup peer = some old ∧ old.acceptedSequence = some accepted := by
  rcases enterPeer_eq_some henter with ⟨old, hold, rfl, -⟩ | ⟨-, -, rfl, -⟩
  · exact ⟨old, hold, haccepted⟩
  · cases haccepted

/-- **A datagram of the peer itself.** -/
theorem Accepts.pushed {completed : List TelemetryEnvelope} {state : PeerDecoder C}
    {profile : C.RaptorQBlockProfile} (h : Accepts completed (some state))
    (hfresh : ∀ decoded envelope accepted,
      (state.receive d.blockTtl (C.blockId profile) push.datagram push.now push.favoured).1 =
        .ok (some decoded) →
      TelemetryEnvelope.decode C.hash decoded = .ok envelope →
      state.acceptedSequence = some accepted → accepted.bootId ≠ envelope.bootId →
      ∀ earlier ∈ completed, earlier.bootId = envelope.bootId →
        earlier.sequence < envelope.sequence) :
    (∃ envelope, (pushed d push profile state).1 = .ok (.complete envelope) ∧
      Accepts (completed ++ [envelope]) (some (pushed d push profile state).2)) ∨
    ((∀ envelope, (pushed d push profile state).1 ≠ .ok (.complete envelope)) ∧
      Accepts completed (some (pushed d push profile state).2)) := by
  obtain ⟨hnode, haccepted⟩ := Prod.mk.inj (@identity_receive C state d.blockTtl push.now
    (C.blockId profile) push.favoured push.datagram)
  have hreceived := h.congr (fun _ hid => hnode.trans hid) haccepted
  rcases (finish_cases (state.receive d.blockTtl (C.blockId profile) push.datagram push.now
      push.favoured).2 (state.receive d.blockTtl (C.blockId profile) push.datagram push.now
        push.favoured).1).2 with
    ⟨decoded, envelope, hdecoded, henvelope, hreply, hnew, hsame, hnode', haccepted'⟩ |
      ⟨hreply, hnode', haccepted'⟩
  · refine .inl ⟨envelope, hreply, hreceived.complete hsame hnode' haccepted' ?_⟩
    intro earlier hmem hboot
    cases hpair : state.acceptedSequence with
    | none =>
        rw [h.unaccepted state rfl hpair] at hmem
        cases hmem
    | some accepted =>
        rw [haccepted, hpair, isReplay_eq_false] at hnew
        by_cases hsameBoot : accepted.bootId = envelope.bootId
        · -- the same boot: the accepted sequence is the largest so far
          have hle := h.newest state accepted rfl hpair earlier hmem (hboot.trans hsameBoot.symm)
          exact UInt64.lt_of_le_of_lt hle (hnew hsameBoot)
        · exact hfresh decoded envelope accepted hdecoded henvelope hpair hsameBoot earlier hmem hboot
  · exact .inr ⟨hreply, hreceived.congr hnode' haccepted'⟩

theorem completes_append (d₀ : TelemetryFecDecoder C) (ops : List Push) (push : Push)
    (peer : SocketAddr) :
    completes d₀ (ops ++ [push]) peer = completes d₀ ops peer ++
      (completedBy peer (exec step d₀ ops, push)).toList :=
  filterMap_trace_append_singleton _ _ _ _ _

theorem completedBy_eq_none (h : ∀ envelope, (step d push).1 ≠ .ok (.complete envelope)) :
    completedBy peer (d, push) = none := by
  unfold completedBy
  split
  · split
    next hreply => exact absurd hreply (h _)
    next => rfl
  · rfl

/-- **One datagram keeps the account of the peer.** -/
theorem Accepts.step {d₀ : TelemetryFecDecoder C} {ops : List Push}
    (h : Accepts (completes d₀ ops peer) ((exec step d₀ ops).peers.lookup peer))
    (hpruned : NeverPruned d₀ (ops ++ [push]) peer) (hfresh : BootsFresh d₀ (ops ++ [push]) peer) :
    Accepts (completes d₀ (ops ++ [push]) peer)
      ((TelemetryFecDecoder.step (exec step d₀ ops) push).2.peers.lookup peer) := by
  have hentry : (exec TelemetryFecDecoder.step d₀ ops, push) ∈
      trace TelemetryFecDecoder.step d₀ (ops ++ [push]) := by
    rw [trace_append]
    exact List.mem_append_right _ List.mem_cons_self
  have hkeeps := hpruned _ hentry
  have hboots := hfresh ops push [] rfl
  rw [completes_append]
  generalize exec TelemetryFecDecoder.step d₀ ops = d at h hkeeps hboots ⊢
  rcases step_cases d push with
    ⟨error, -, hstep⟩ | ⟨profile, hprofile, -, hstep⟩ |
      ⟨profile, state, peers, hprofile, henter, hstep⟩
  · rw [completedBy_eq_none (by rw [hstep]; exact nofun), hstep]
    simpa using h
  · rw [completedBy_eq_none (by rw [hstep]; exact nofun), hstep,
      lookup_prune_of_mem (hkeeps profile hprofile)]
    simpa using h
  · have hlookup := lookup_prune_of_mem (hkeeps profile hprofile)
    rw [← hlookup] at h
    have hpeers : ∃ old, peers.lookup push.peer = some old := by
      rcases enterPeer_eq_some henter with ⟨old, hold, -, rfl⟩ | ⟨-, -, -, rfl⟩
      · exact ⟨old, hold⟩
      · exact ⟨_, AList.lookup_insert _⟩
    obtain ⟨old, hold⟩ := hpeers
    by_cases hpeer : push.peer = peer
    · subst hpeer
      have hpushed := @Accepts.pushed C d push _ state profile (h.enter henter) (by
        intro decoded envelope accepted hdecoded henvelope haccepted hne
        obtain ⟨before, hbefore, hpair⟩ := accepted_of_enter henter haccepted
        refine hboots rfl envelope ?_ before accepted (hlookup ▸ hbefore) hpair hne
        unfold decodedBy
        simp only [hprofile, henter, hdecoded, henvelope]
        rfl)
      have hnow : (TelemetryFecDecoder.step d push).2.peers.lookup push.peer =
          some (TelemetryFecDecoder.pushed d push profile state).2 := by
        rw [hstep]
        exact AList.lookup_replace_self _ hold
      rw [hnow]
      rcases hpushed with ⟨envelope, hreply, haccepts⟩ | ⟨hreply, haccepts⟩
      · have hcompleted : completedBy push.peer (d, push) = some envelope := by
          unfold completedBy
          rw [if_pos rfl]
          simp only [hstep, hreply]
        rw [hcompleted]
        exact haccepts
      · rw [completedBy_eq_none (by rw [hstep]; exact hreply)]
        simpa using haccepts
    · -- a datagram of another peer leaves the entry alone
      have hcompleted : completedBy peer (d, push) = none := if_neg hpeer
      have hsame : (TelemetryFecDecoder.step d push).2.peers.lookup peer =
          (d.pruneIdlePeers push.now).peers.lookup peer := by
        rw [hstep]
        show (peers.replace push.peer _).lookup peer = _
        rw [AList.lookup_replace_ne _ _ (Ne.symm hpeer)]
        rcases enterPeer_eq_some henter with ⟨-, -, -, rfl⟩ | ⟨-, -, -, rfl⟩
        · rfl
        · exact AList.lookup_insert_ne (Ne.symm hpeer)
      rw [hcompleted, hsame]
      simpa using h

theorem NeverPruned.left {d₀ : TelemetryFecDecoder C} {ops rest : List Push}
    (h : NeverPruned d₀ (ops ++ rest) peer) : NeverPruned d₀ ops peer := by
  intro entry hentry
  refine h entry ?_
  rw [trace_append]
  exact List.mem_append_left _ hentry

theorem BootsFresh.left {d₀ : TelemetryFecDecoder C} {ops rest : List Push}
    (h : BootsFresh d₀ (ops ++ rest) peer) : BootsFresh d₀ ops peer := by
  intro before push after hops
  refine h before push (after ++ rest) ?_
  rw [hops, List.append_assoc, List.cons_append]

theorem maxPeers_exec (maxPeers blockTtl : Nat) (ops : List Push) :
    (exec step (new C maxPeers blockTtl) ops).maxPeers = max maxPeers 1 := by
  refine exec_invariant step (fun d => d.maxPeers = max maxPeers 1) ?_ ops rfl
  intro d push h
  rcases step_cases d push with ⟨_, -, hstep⟩ | ⟨_, -, -, hstep⟩ | ⟨_, _, _, -, -, hstep⟩
  · rw [hstep]
    exact h
  · rw [hstep]
    exact h
  · rw [hstep]
    exact h

/-- **The tables of the decoder are bounded** in every run. -/
theorem tables_bounded (maxPeers blockTtl : Nat) (ops : List Push) :
    (exec step (new C maxPeers blockTtl) ops).peers.size ≤ max maxPeers 1 ∧
    ∀ address state, (exec step (new C maxPeers blockTtl) ops).peers.lookup address = some state →
      state.blocks.size ≤ maxInFlightBlocksPerPeer := by
  have hbounded : Bounded (exec step (new C maxPeers blockTtl) ops) := by
    refine exec_invariant step Bounded (fun d push h => h.step push) ops ⟨Nat.zero_le _, ?_⟩
    intro address state hlookup
    change (∅ : Table SocketAddr (PeerDecoder C)).lookup address = some state at hlookup
    rw [AList.lookup_empty] at hlookup
    cases hlookup
  refine ⟨?_, hbounded.blocks⟩
  rw [← maxPeers_exec maxPeers blockTtl ops]
  exact hbounded.peers

/-- **No snapshot is accepted twice** in a run in which the peer stays and returns to a boot only
with newer sequences; and the tables of the decoder are bounded. -/
theorem exec_no_replay (C : TelemetryFecCrates) (maxPeers blockTtl : Nat) (ops : List Push)
    (peer : SocketAddr) (hpruned : NeverPruned (new C maxPeers blockTtl) ops peer)
    (hfresh : BootsFresh (new C maxPeers blockTtl) ops peer) :
    ((completes (new C maxPeers blockTtl) ops peer).map fun envelope =>
      (envelope.bootId, envelope.sequence)).Nodup ∧
    (∀ envelope ∈ completes (new C maxPeers blockTtl) ops peer,
      ∀ other ∈ completes (new C maxPeers blockTtl) ops peer,
        envelope.nodeId = other.nodeId) ∧
    (exec step (new C maxPeers blockTtl) ops).peers.size ≤ max maxPeers 1 ∧
    ∀ address state, (exec step (new C maxPeers blockTtl) ops).peers.lookup address = some state →
      state.blocks.size ≤ maxInFlightBlocksPerPeer := by
  have haccepts : Accepts (completes (new C maxPeers blockTtl) ops peer)
      ((exec step (new C maxPeers blockTtl) ops).peers.lookup peer) := by
    refine exec_history step (fun ops d => NeverPruned (new C maxPeers blockTtl) ops peer →
      BootsFresh (new C maxPeers blockTtl) ops peer →
        Accepts (completes (new C maxPeers blockTtl) ops peer) (d.peers.lookup peer))
      (new C maxPeers blockTtl) ?_ ?_ ops hpruned hfresh
    · intro _ _
      show Accepts [] ((∅ : Table SocketAddr (PeerDecoder C)).lookup peer)
      rw [AList.lookup_empty]
      exact ⟨List.nodup_nil, fun _ => rfl, nofun, nofun, nofun⟩
    · intro ops push ih hpruned hfresh
      exact (ih hpruned.left hfresh.left).step hpruned hfresh
  refine ⟨?_, ?_, tables_bounded maxPeers blockTtl ops⟩
  · have hpairs : (completes (new C maxPeers blockTtl) ops peer).map (fun envelope =>
        (envelope.bootId, envelope.sequence)) =
          ((completes (new C maxPeers blockTtl) ops peer).map pairOf).map
            fun pair => (pair.bootId, pair.sequence) := by
      rw [List.map_map]
      rfl
    rw [hpairs]
    refine haccepts.pairs.map ?_
    rintro ⟨a, b⟩ ⟨a', b'⟩ heq
    cases heq
    rfl
  · intro envelope hmem other hmem'
    cases hentry : (exec step (new C maxPeers blockTtl) ops).peers.lookup peer with
    | none =>
        rw [haccepts.absent hentry] at hmem
        cases hmem
    | some state =>
        have hfirst := haccepts.nodes state hentry envelope hmem
        have hsecond := haccepts.nodes state hentry other hmem'
        exact Option.some.inj (hfirst.symm.trans hsecond)

/-! ## §6. Two runs. -/

section Samples

/-- Blocks of one source symbol: a datagram is a block id and the object, complete at once. -/
def oneSymbolCrates : TelemetryFecCrates where
  DatagramFecError := String
  RaptorQBlockProfile := Nat × UInt32
  DatagramFecDecoder := Unit
  fromDatagram datagram :=
    if datagram.length ≤ 4 then .error "datagram too short"
    else .ok (datagram.length - 4, UInt32.ofNat (fromBeBytes (datagram.take 4)))
  transferLength profile := profile.1
  symbolSize _ := 1152
  blockId profile := profile.2
  newDecoder := ()
  pushDatagram _ datagram := (.ok (some (datagram.drop 4)), ())
  expireBlock _ _ := ()
  hash _ := 0

def snapshot (bootId sequence : UInt64) : TelemetryEnvelope :=
  .meshSnapshot bootId sequence 0 5000 "node-a" [1]

/-- A snapshot in a block of its own. -/
def snapshotPush (blockId : UInt8) (bootId sequence : UInt64) (now : Nat) : Push where
  peer := ⟨"127.0.0.1", 7300⟩
  datagram := [0, 0, 0, blockId] ++ TelemetryEnvelope.wireBytes (fun _ => 0) (snapshot bootId sequence)
  now := now
  favoured := 0

/-- A snapshot of the first boot, then one of the second. -/
def restart : List Push := [snapshotPush 1 7 9 0, snapshotPush 2 8 1 5000000000]

theorem exec_no_replay_restart :
    (completes (new oneSymbolCrates 256 15000000000) restart ⟨"127.0.0.1", 7300⟩).length = 2 ∧
    ((completes (new oneSymbolCrates 256 15000000000) restart ⟨"127.0.0.1", 7300⟩).map fun envelope =>
      (envelope.bootId, envelope.sequence)).Nodup := by
  refine ⟨by decide +kernel, (exec_no_replay oneSymbolCrates 256 15000000000 restart
    ⟨"127.0.0.1", 7300⟩ ?_ ?_).1⟩
  · intro entry hentry profile _ hmem
    simp only [restart, trace_cons, trace_nil, List.mem_cons, List.not_mem_nil, or_false] at hentry
    rcases hentry with rfl | rfl
    · exact absurd hmem (by decide +kernel)
    · decide +kernel
  · intro before push after hops _ envelope hdecoded _ _ _ _ _ earlier hmem hboot
    cases before with
    | nil => cases hmem
    | cons first before =>
        cases before with
        | nil =>
            -- the second boot is new: nothing of it is complete yet
            cases hops
            have henvelope : envelope = snapshot 8 1 := by
              have hnow : decodedBy (exec step (new oneSymbolCrates 256 15000000000)
                  [snapshotPush 1 7 9 0]) (snapshotPush 2 8 1 5000000000)
                    = some (snapshot 8 1) := by
                decide +kernel
              exact Option.some.inj (hdecoded.symm.trans hnow)
            have hearlier : completes (new oneSymbolCrates 256 15000000000)
                [snapshotPush 1 7 9 0] ⟨"127.0.0.1", 7300⟩ = [snapshot 7 9] := by
              decide +kernel
            rw [hearlier, List.mem_singleton] at hmem
            rw [hmem, henvelope] at hboot
            exact absurd hboot (by decide)
        | cons second before => simp [restart] at hops

/-- The last block of the first boot, a block of the second, and the first one again. -/
def lateBoot : List Push :=
  [snapshotPush 1 7 9 0, snapshotPush 2 8 1 5000000000, snapshotPush 3 7 9 10000000000]

theorem late_boot_replayed :
    (lateBoot.map Push.now).Pairwise (· ≤ ·) ∧
    NeverPruned (new oneSymbolCrates 256 15000000000) lateBoot ⟨"127.0.0.1", 7300⟩ ∧
    completes (new oneSymbolCrates 256 15000000000) lateBoot ⟨"127.0.0.1", 7300⟩ =
      [snapshot 7 9, snapshot 8 1, snapshot 7 9] ∧
    ¬ ((completes (new oneSymbolCrates 256 15000000000) lateBoot ⟨"127.0.0.1", 7300⟩).map
      fun envelope => (envelope.bootId, envelope.sequence)).Nodup := by
  refine ⟨by decide, ?_, by decide +kernel, by decide +kernel⟩
  intro entry hentry profile _ hmem
  simp only [lateBoot, trace_cons, trace_nil, List.mem_cons, List.not_mem_nil, or_false] at hentry
  rcases hentry with rfl | rfl | rfl
  · exact absurd hmem (by decide +kernel)
  · decide +kernel
  · decide +kernel

end Samples

end TelemetryFecDecoder

end AvMesh.Telemetry
