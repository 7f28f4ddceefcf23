/-
  AvMesh.Relay.AudioEpochs
  ────────────────────────
  **THE AEP1 LANE**: multichannel audio datagrams and who they are sent to.

  A datagram is of a block, and the block of one session; but only some
  datagrams of a block name the session.  For the others an ingress remembers
  which session was named last, for fifteen seconds:

      `process_relay_audio_epoch_datagram`   by the block id
      `run_udp_media_fec_ingest`             by the peer and the block id

  Native subscribers and WebTransport subscribers may ask for a session.  They
  are sent what is attributed to that session, which is what is of that
  session exactly when no block that somebody else remembers is asked for
  (`session_confined_iff`).
-/
import AvMesh.Lib.Bytes
import AvMesh.Lib.Machine
import AvMesh.Lib.StepSystem
import AvMesh.Lib.Table

namespace AvMesh.Relay

open AvMesh.Lib

/-! ## §1. Native subscriptions. -/

def nativeAudioSubscribe : Bytes := asBytes "WAVEY-DAW-SUBSCRIBE/1"
def nativeAudioSubscribeAck : Bytes := asBytes "WAVEY-DAW-SUBSCRIBED/1"
def nativeAudioSubscribeV2 : Bytes := asBytes "WAVEY-DAW-SUBSCRIBE/2 "
def nativeAudioSubscribeAckV2 : Bytes := asBytes "WAVEY-DAW-SUBSCRIBED/2 "
def nativeAudioUnsubscribe : Bytes := asBytes "WAVEY-DAW-UNSUBSCRIBE/1"
def nativeAudioUnsubscribeV2 : Bytes := asBytes "WAVEY-DAW-UNSUBSCRIBE/2 "
def multichannelAudioTransportMagic : Bytes := asBytes "AEP1"

/-- Both the TTL of a subscription and that of a remembered block, in nanoseconds. -/
def nativeAudioSubscriptionTtl : Nat := 15000000000

/-- `str::parse::<u64>`, of ASCII digits only. -/
def parseDigits (digits : Bytes) : Option UInt64 :=
  if digits.isEmpty ∨ ¬ digits.all (fun byte => 48 ≤ byte.toNat ∧ byte.toNat ≤ 57) then none
  else
    let value := digits.foldl (fun value byte => value * 10 + (byte.toNat - 48)) 0
    if value < 2 ^ 64 then some (UInt64.ofNat value) else none

def parseNativeAudioSessionMessage (payload head : Bytes) : Option UInt64 :=
  if head <+: payload then parseDigits (payload.drop head.length) else none

structure NativeAudioSubscription where
  sessionId : Option UInt64
  expiresAt : Nat
  deriving Repr, DecidableEq

/-- The subscriptions, by the address of the subscriber. -/
abbrev NativeAudioRelay := Table SocketAddr NativeAudioSubscription

namespace NativeAudioRelay

def expire (relay : NativeAudioRelay) (now : Nat) : NativeAudioRelay :=
  relay.retain fun _ subscription => now < subscription.expiresAt

/-- Whether the payload is a control message, with the acknowledgement and the subscriptions. -/
def handleControl (relay : NativeAudioRelay) (now : Nat) (peer : SocketAddr) (payload : Bytes) :
    Bool × Option Bytes × NativeAudioRelay :=
  if payload = nativeAudioSubscribe then
    (true, some nativeAudioSubscribeAck,
      relay.insert peer ⟨none, now + nativeAudioSubscriptionTtl⟩)
  else
    match parseNativeAudioSessionMessage payload nativeAudioSubscribeV2 with
    | some sessionId =>
        (true, some (nativeAudioSubscribeAckV2 ++ asBytes (toString sessionId.toNat)),
          relay.insert peer ⟨some sessionId, now + nativeAudioSubscriptionTtl⟩)
    | none =>
        -- a malformed subscription is ignored
        if nativeAudioSubscribeV2 <+: payload then (true, none, relay)
        else if payload = nativeAudioUnsubscribe then (true, none, relay.erase peer)
        else
          match parseNativeAudioSessionMessage payload nativeAudioUnsubscribeV2 with
          | some sessionId =>
              (true, none,
                if (relay.lookup peer).any fun subscription =>
                    subscription.sessionId = some sessionId then relay.erase peer
                else relay)
          | none => (decide (nativeAudioUnsubscribeV2 <+: payload), none, relay)

/-- The targets a datagram is sent to that is attributed to this session. -/
def forward (relay : NativeAudioRelay) (sessionId : Option UInt64) :
    List (SocketAddr × Option UInt64) :=
  (relay.entries.map fun entry => (entry.1, entry.2.sessionId)).filter fun target =>
    ¬ (target.2.isSome ∧ target.2 ≠ sessionId)

end NativeAudioRelay

/-! ## §2. The two ingress paths. -/

/-- What `inspect_multichannel_audio_datagram` reports. -/
structure AudioIdentity where
  blockId : UInt32
  sessionId : Option UInt64
  sourceIndex : Option Nat
  deriving Repr, DecidableEq

/-- A packet.  The publisher is that of its block; no ingress sees it. -/
structure AudioPacket where
  bytes : Bytes
  publisher : Nat
  deriving Repr, DecidableEq

/-- The blocks whose session is remembered, with the moment until which it is. -/
abbrev BlockSessions (K : Type) [DecidableEq K] := Table K (UInt64 × Nat)

namespace BlockSessions

variable {K : Type} [DecidableEq K]

/-- Blocks that have expired are forgotten. -/
def live (blocks : BlockSessions K) (now : Nat) : BlockSessions K :=
  blocks.retain fun _ entry => now < entry.2

/-- The session a datagram is attributed to: the one it names, which is remembered, or the one that
is remembered for its key. -/
def blockSession (blocks : BlockSessions K) (now : Nat) (key : K) (named : Option UInt64) :
    Option UInt64 × BlockSessions K :=
  match named with
  | some sessionId =>
      (some sessionId, blocks.insert key (sessionId, now + nativeAudioSubscriptionTtl))
  | none => ((blocks.lookup key).map (·.1), blocks)

end BlockSessions

inductive AudioReceiver where
  | native (target : SocketAddr)
  | webTransport (session : Nat)
  deriving Repr, DecidableEq

/-- A packet that was sent to a subscriber, and the session the subscriber had asked for. -/
structure AudioDelivery where
  receiver : AudioReceiver
  asked : Option UInt64
  packet : AudioPacket
  deriving Repr, DecidableEq

/-- An edge with both ingress paths.  `forwards` and `broadcasts` say whether the relay path has
downstream relays and the broadcast channel; the WebTransport subscribers read the latter. -/
structure AudioLane where
  forwards : Bool
  broadcasts : Bool
  relayBlocks : BlockSessions UInt32
  relayNative : NativeAudioRelay
  ingestBlocks : BlockSessions (SocketAddr × UInt32)
  ingestNative : NativeAudioRelay
  webTransport : Table Nat (Option UInt64)
  sent : List AudioDelivery

inductive AudioEvent where
  | relay (now : Nat) (secondary : Bool) (peer : SocketAddr) (packet : AudioPacket)
  | relayExpire (now : Nat)
  | ingest (now : Nat) (peer : SocketAddr) (packet : AudioPacket)
  | join (session : Nat) (asked : Option UInt64)
  | leave (session : Nat)

namespace AudioLane

section Step

variable (inspect : Bytes → Option AudioIdentity)

def isMultichannelAudioTransportDatagram (datagram : Bytes) : Bool :=
  decide (multichannelAudioTransportMagic <+: datagram)

/-- The identity of a packet, behind the magic. -/
def identity (packet : AudioPacket) : Option AudioIdentity :=
  inspect (packet.bytes.drop multichannelAudioTransportMagic.length)

/-- A packet that is attributed to this session goes to the native subscribers of a path and, over
the broadcast channel, to the WebTransport subscribers. -/
def deliver (native : NativeAudioRelay) (webTransport : Table Nat (Option UInt64))
    (sessionId : Option UInt64) (packet : AudioPacket) : List AudioDelivery :=
  (native.forward sessionId).map (fun target => ⟨.native target.1, target.2, packet⟩) ++
    ((webTransport.entries.map fun entry => (entry.1, entry.2)).filter fun session =>
      ¬ (session.2.isSome ∧ sessionId ≠ session.2)).map fun session =>
        ⟨.webTransport session.1, session.2, packet⟩

/-- Nobody listens on the relay path, so nothing is parsed or remembered. -/
def idle (lane : AudioLane) : Bool :=
  !lane.forwards && !(lane.broadcasts && decide (0 < lane.webTransport.size)) &&
    lane.relayNative.entries.isEmpty

def processRelayAudioEpochDatagram (lane : AudioLane) (now : Nat) (packet : AudioPacket) :
    AudioLane :=
  if ¬ isMultichannelAudioTransportDatagram packet.bytes ∨ lane.idle then lane
  else
    let blocks := lane.relayBlocks.live now
    match identity inspect packet with
    | none => { lane with relayBlocks := blocks }
    | some identity =>
        let (sessionId, blocks) := blocks.blockSession now identity.blockId identity.sessionId
        { lane with
          relayBlocks := blocks
          sent := deliver lane.relayNative (if lane.broadcasts then lane.webTransport else ∅)
            sessionId packet ++ lane.sent }

/-- The AEP1 branch of `run_udp_media_fec_ingest`. -/
def ingestAudioEpochDatagram (lane : AudioLane) (now : Nat) (peer : SocketAddr)
    (packet : AudioPacket) : AudioLane :=
  if ¬ isMultichannelAudioTransportDatagram packet.bytes then lane
  else
    let blocks := lane.ingestBlocks.live now
    let (sessionId, blocks) := match identity inspect packet with
      | none => (none, blocks)
      | some identity => blocks.blockSession now (peer, identity.blockId) identity.sessionId
    { lane with
      ingestBlocks := blocks
      sent := deliver lane.ingestNative lane.webTransport sessionId packet ++ lane.sent }

def audioStep (lane : AudioLane) : AudioEvent → Unit × AudioLane
  | .relay now secondary peer packet =>
      -- control messages come over the primary socket
      if secondary then ((), lane.processRelayAudioEpochDatagram inspect now packet)
      else
        match lane.relayNative.handleControl now peer packet.bytes with
        | (true, _, native) => ((), { lane with relayNative := native })
        | (false, _, native) =>
            ((), { lane with relayNative := native }.processRelayAudioEpochDatagram inspect now
              packet)
  | .relayExpire now => ((), { lane with relayNative := lane.relayNative.expire now })
  | .ingest now peer packet =>
      match (lane.ingestNative.expire now).handleControl now peer packet.bytes with
      | (true, _, native) => ((), { lane with ingestNative := native })
      | (false, _, native) =>
          ((), { lane with ingestNative := native }.ingestAudioEpochDatagram inspect now peer
            packet)
  | .join session asked => ((), { lane with webTransport := lane.webTransport.insert session asked })
  | .leave session => ((), { lane with webTransport := lane.webTransport.erase session })

end Step

/-! ## §3. Confinement. -/

section Confined

variable (inspect : Bytes → Option AudioIdentity) (sessions : Nat → UInt32 → UInt64)

/-- The block of the packet is of this session. -/
def BelongsTo (packet : AudioPacket) (session : UInt64) : Prop :=
  ∃ block, identity inspect packet = some block ∧
    sessions packet.publisher block.blockId = session

/-- Who asked for a session is sent what is of that session. -/
def Confined (delivery : AudioDelivery) : Prop :=
  ∀ session, delivery.asked = some session → BelongsTo inspect sessions delivery.packet session

/-- A datagram that names a session names that of its block. -/
def Faithful : AudioEvent → Prop
  | .relay _ _ _ packet | .ingest _ _ packet => ∀ block session,
      identity inspect packet = some block → block.sessionId = some session →
      session = sessions packet.publisher block.blockId
  | _ => True

/-- A subscriber has asked for the session. -/
def AskedFor (native : NativeAudioRelay) (webTransport : Table Nat (Option UInt64))
    (session : UInt64) : Prop :=
  (∃ target subscription, native.lookup target = some subscription ∧
    subscription.sessionId = some session) ∨
  ∃ id, webTransport.lookup id = some (some session)

/-- The packet names no session and is of another one than the one remembered for its key. -/
def Strays {K : Type} [DecidableEq K] (blocks : BlockSessions K) (now : Nat) (key : UInt32 → K)
    (packet : AudioPacket) (session : UInt64) : Prop :=
  isMultichannelAudioTransportDatagram packet.bytes = true ∧
  ∃ block, identity inspect packet = some block ∧ block.sessionId = none ∧
    sessions packet.publisher block.blockId ≠ session ∧
    ∃ expiresAt, blocks.lookup (key block.blockId) = some (session, expiresAt) ∧ now < expiresAt

/-- A packet strays to a session that a subscriber of the path has asked for. -/
def Leaks (lane : AudioLane) : AudioEvent → UInt64 → Prop
  | .relay now _ _ packet, session =>
      Strays inspect sessions lane.relayBlocks now id packet session ∧
        AskedFor lane.relayNative (if lane.broadcasts then lane.webTransport else ∅) session
  | .ingest now peer packet, session =>
      Strays inspect sessions lane.ingestBlocks now (fun blockId => (peer, blockId)) packet
          session ∧
        AskedFor (lane.ingestNative.expire now) lane.webTransport session
  | _, _ => False

end Confined

section Steps

variable {inspect : Bytes → Option AudioIdentity} {sessions : Nat → UInt32 → UInt64}
  {packet : AudioPacket}

/-- An AEP1 datagram is no control message. -/
theorem handleControl_of_transport {relay : NativeAudioRelay} {now : Nat} {peer : SocketAddr}
    {payload : Bytes} (h : isMultichannelAudioTransportDatagram payload = true) :
    relay.handleControl now peer payload = (false, none, relay) := by
  obtain ⟨rest, rfl⟩ := of_decide_eq_true h
  have hno (head : Bytes) (hhead : head.head? = some 87) :
      ¬ head <+: multichannelAudioTransportMagic ++ rest := by
    rintro ⟨tail, htail⟩
    cases head with
    | nil => cases hhead
    | cons byte head =>
        cases hhead
        cases htail
  have hne (head : Bytes) (hhead : head.head? = some 87) :
      multichannelAudioTransportMagic ++ rest ≠ head := by
    rintro rfl
    cases hhead
  have hparse (head : Bytes) (hhead : head.head? = some 87) :
      parseNativeAudioSessionMessage (multichannelAudioTransportMagic ++ rest) head = none :=
    if_neg (hno head hhead)
  rw [NativeAudioRelay.handleControl, if_neg (hne _ rfl), hparse _ rfl, hparse _ rfl]
  simp only [if_neg (hno nativeAudioSubscribeV2 rfl), if_neg (hne nativeAudioUnsubscribe rfl),
    decide_eq_false (hno nativeAudioUnsubscribeV2 rfl)]

/-- **One delivery**: it is confined when the session it is attributed to is that of the block, or
nobody asked for it. -/
theorem deliver_confined_iff {native : NativeAudioRelay}
    {webTransport : Table Nat (Option UInt64)} {attributed : Option UInt64} :
    (∀ delivery ∈ deliver native webTransport attributed packet,
        Confined inspect sessions delivery) ↔
      ∀ session, attributed = some session → AskedFor native webTransport session →
        BelongsTo inspect sessions packet session := by
  constructor
  · rintro hconfined session rfl (⟨target, subscription, hlookup, hasked⟩ | ⟨id, hlookup⟩)
    · refine hconfined ⟨.native target, some session, packet⟩ ?_ session rfl
      refine List.mem_append_left _ (List.mem_map.2 ⟨(target, some session), ?_, rfl⟩)
      refine List.mem_filter.2 ⟨List.mem_map.2 ⟨⟨target, subscription⟩, ?_, ?_⟩, by simp⟩
      · exact AList.mem_lookup_iff.1 hlookup
      · rw [hasked]
    · refine hconfined ⟨.webTransport id, some session, packet⟩ ?_ session rfl
      refine List.mem_append_right _ (List.mem_map.2 ⟨(id, some session), ?_, rfl⟩)
      exact List.mem_filter.2 ⟨List.mem_map.2 ⟨⟨id, some session⟩,
        AList.mem_lookup_iff.1 hlookup, rfl⟩, by simp⟩
  · intro hbelongs delivery hdelivery session hasked
    rcases List.mem_append.1 hdelivery with hnative | hweb
    · obtain ⟨⟨target, asked⟩, htarget, rfl⟩ := List.mem_map.1 hnative
      obtain ⟨hentry, hpass⟩ := List.mem_filter.1 htarget
      obtain ⟨⟨target', subscription⟩, hmem, hpair⟩ := List.mem_map.1 hentry
      cases hpair
      have hsession : subscription.sessionId = some session := hasked
      simp only [hsession] at hpass
      refine hbelongs session ?_ (Or.inl ⟨target', subscription,
        AList.mem_lookup_iff.2 hmem, hsession⟩)
      simpa using Eq.symm (by simpa using hpass)
    · obtain ⟨⟨id, asked⟩, htarget, rfl⟩ := List.mem_map.1 hweb
      obtain ⟨hentry, hpass⟩ := List.mem_filter.1 htarget
      obtain ⟨⟨id', asked'⟩, hmem, hpair⟩ := List.mem_map.1 hentry
      cases hpair
      have hsession : asked' = some session := hasked
      subst hsession
      exact hbelongs session (by simpa using hpass) (Or.inr ⟨id', AList.mem_lookup_iff.2 hmem⟩)

/-- The session that memory attributes a packet to, for a packet that is faithful. -/
theorem blockSession_belongs {K : Type} [DecidableEq K] {blocks : BlockSessions K} {now : Nat}
    {key : UInt32 → K} {block : AudioIdentity} (hblock : identity inspect packet = some block)
    (htransport : isMultichannelAudioTransportDatagram packet.bytes = true)
    (hfaithful : ∀ session, block.sessionId = some session →
      session = sessions packet.publisher block.blockId)
    {asked : UInt64 → Prop} :
    (∀ session, ((blocks.live now).blockSession now (key block.blockId) block.sessionId).1 =
        some session → asked session → BelongsTo inspect sessions packet session) ↔
      ∀ session, ¬ (Strays inspect sessions blocks now key packet session ∧ asked session) := by
  have hlive {session : UInt64} :
      ((blocks.live now).lookup (key block.blockId)).map (·.1) = some session ↔
        ∃ expiresAt, blocks.lookup (key block.blockId) = some (session, expiresAt) ∧
          now < expiresAt := by
    rw [Option.map_eq_some_iff]
    constructor
    · rintro ⟨⟨session', expiresAt⟩, hlookup, rfl⟩
      obtain ⟨hlookup, hexpires⟩ := AList.lookup_retain_iff.1 hlookup
      exact ⟨expiresAt, hlookup, by simpa using hexpires⟩
    · rintro ⟨expiresAt, hlookup, hexpires⟩
      exact ⟨(session, expiresAt), AList.lookup_retain_iff.2 ⟨hlookup, by simpa using hexpires⟩, rfl⟩
  cases hnamed : block.sessionId with
  | some named =>
      -- the packet names the session of its block
      constructor
      · rintro _ session ⟨⟨_, block', hblock', hnone, _⟩, _⟩
        rw [hblock] at hblock'
        cases hblock'
        rw [hnamed] at hnone
        cases hnone
      · intro _ session hsession _
        cases hsession
        exact ⟨block, hblock, (hfaithful named hnamed).symm⟩
  | none =>
      constructor
      · rintro hbelongs session ⟨⟨_, block', hblock', _, hother, hremembered⟩, hasked⟩
        rw [hblock] at hblock'
        cases hblock'
        obtain ⟨block', hblock', hsession⟩ := hbelongs session (hlive.2 hremembered) hasked
        rw [hblock] at hblock'
        cases hblock'
        exact hother hsession
      · intro hnone session hsession hasked
        refine ⟨block, hblock, ?_⟩
        by_contra hother
        exact hnone session ⟨⟨htransport, block, hblock, hnamed, hother, hlive.1 hsession⟩, hasked⟩

/-- Nothing strays that has no identity, or is no AEP1 datagram. -/
theorem not_strays {K : Type} [DecidableEq K] {blocks : BlockSessions K} {now : Nat}
    {key : UInt32 → K} {session : UInt64}
    (h : isMultichannelAudioTransportDatagram packet.bytes = false ∨
      identity inspect packet = none) :
    ¬ Strays inspect sessions blocks now key packet session := by
  rintro ⟨htransport, block, hblock, _⟩
  rcases h with hother | hnone
  · rw [htransport] at hother
    cases hother
  · rw [hblock] at hnone
    cases hnone

/-- An idle relay path has no subscriber. -/
theorem not_askedFor_of_idle {lane : AudioLane} (h : lane.idle = true) (session : UInt64) :
    ¬ AskedFor lane.relayNative (if lane.broadcasts then lane.webTransport else ∅) session := by
  simp only [idle, Bool.and_eq_true, Bool.not_eq_true', List.isEmpty_iff] at h
  rintro (⟨target, subscription, hlookup, _⟩ | ⟨id, hlookup⟩)
  · have hmem := AList.mem_lookup_iff.1 hlookup
    rw [h.2] at hmem
    cases hmem
  · cases hbroadcasts : lane.broadcasts with
    | false =>
        rw [hbroadcasts] at hlookup
        cases hlookup
    | true =>
        rw [hbroadcasts, if_pos rfl] at hlookup
        rw [hbroadcasts] at h
        have hsize : ¬ 0 < lane.webTransport.size := by simpa using h.1.2
        have hpos := AList.size_erase hlookup
        omega

/-- **One step**: what is sent is confined unless it leaks. -/
theorem sent_audioStep (lane : AudioLane) {event : AudioEvent}
    (hfaithful : Faithful inspect sessions event) :
    (∀ delivery ∈ (audioStep inspect lane event).2.sent, Confined inspect sessions delivery) ↔
      (∀ delivery ∈ lane.sent, Confined inspect sessions delivery) ∧
        ∀ session, ¬ Leaks inspect sessions lane event session := by
  -- a step that sends nothing, for a packet that does not stray
  have hquiet (hsent : (audioStep inspect lane event).2.sent = lane.sent)
      (hleaks : ∀ session, ¬ Leaks inspect sessions lane event session) :
      (∀ delivery ∈ (audioStep inspect lane event).2.sent, Confined inspect sessions delivery) ↔
        (∀ delivery ∈ lane.sent, Confined inspect sessions delivery) ∧
          ∀ session, ¬ Leaks inspect sessions lane event session := by
    rw [hsent]
    exact ⟨fun h => ⟨h, hleaks⟩, fun h => h.1⟩
  -- a step that sends one packet
  have hsends {deliveries : List AudioDelivery}
      (hsent : (audioStep inspect lane event).2.sent = deliveries ++ lane.sent)
      (hleaks : (∀ delivery ∈ deliveries, Confined inspect sessions delivery) ↔
        ∀ session, ¬ Leaks inspect sessions lane event session) :
      (∀ delivery ∈ (audioStep inspect lane event).2.sent, Confined inspect sessions delivery) ↔
        (∀ delivery ∈ lane.sent, Confined inspect sessions delivery) ∧
          ∀ session, ¬ Leaks inspect sessions lane event session := by
    rw [hsent, List.forall_mem_append, hleaks]
    exact And.comm
  cases event with
  | relayExpire now => exact hquiet rfl fun _ => id
  | join session asked => exact hquiet rfl fun _ => id
  | leave session => exact hquiet rfl fun _ => id
  | relay now secondary peer packet =>
      cases htransport : isMultichannelAudioTransportDatagram packet.bytes with
      | false =>
          refine hquiet ?_ fun session hleaks => not_strays (Or.inl htransport) hleaks.1
          have hsame (native : NativeAudioRelay) :
              ({ lane with relayNative := native }.processRelayAudioEpochDatagram inspect now
                packet).sent = lane.sent := by
            rw [processRelayAudioEpochDatagram, htransport, if_pos (by simp)]
          rw [audioStep]
          cases secondary with
          | true => exact hsame lane.relayNative
          | false =>
              simp only [Bool.false_eq_true, if_false]
              split
              · rfl
              · exact hsame _
      | true =>
          have hstep : (audioStep inspect lane (.relay now secondary peer packet)).2 =
              lane.processRelayAudioEpochDatagram inspect now packet := by
            rw [audioStep, handleControl_of_transport htransport]
            cases secondary <;> rfl
          by_cases hidle : lane.idle = true
          · refine hquiet ?_ fun session hleaks => not_askedFor_of_idle hidle session hleaks.2
            rw [hstep, processRelayAudioEpochDatagram, if_pos (Or.inr hidle)]
          · cases hblock : identity inspect packet with
            | none =>
                refine hquiet ?_ fun session hleaks => not_strays (Or.inr hblock) hleaks.1
                rw [hstep, processRelayAudioEpochDatagram, if_neg (by simp [htransport, hidle]),
                  hblock]
            | some block =>
                refine hsends ?_ (deliver_confined_iff.trans (@blockSession_belongs inspect sessions
                  packet UInt32 _ lane.relayBlocks now id block hblock htransport
                  (fun session => hfaithful block session hblock) _))
                rw [hstep, processRelayAudioEpochDatagram, if_neg (by simp [htransport, hidle]),
                  hblock]
                rfl
  | ingest now peer packet =>
      cases htransport : isMultichannelAudioTransportDatagram packet.bytes with
      | false =>
          refine hquiet ?_ fun session hleaks => not_strays (Or.inl htransport) hleaks.1
          rw [audioStep]
          split
          · rfl
          · rw [ingestAudioEpochDatagram, htransport, if_pos (by simp)]
      | true =>
          have hstep : (audioStep inspect lane (.ingest now peer packet)).2 =
              { lane with ingestNative := lane.ingestNative.expire now }.ingestAudioEpochDatagram
                inspect now peer packet := by
            rw [audioStep, handleControl_of_transport htransport]
          cases hblock : identity inspect packet with
          | none =>
              refine @hsends (deliver (lane.ingestNative.expire now) lane.webTransport none packet)
                ?_ ?_
              · rw [hstep, ingestAudioEpochDatagram, htransport, if_neg (by simp), hblock]
              · refine deliver_confined_iff.trans ⟨fun _ session hleaks => ?_, nofun⟩
                exact not_strays (Or.inr hblock) hleaks.1
          | some block =>
              refine hsends ?_ (deliver_confined_iff.trans (@blockSession_belongs inspect sessions
                packet (SocketAddr × UInt32) _ lane.ingestBlocks now (fun blockId => (peer, blockId))
                block hblock htransport (fun session => hfaithful block session hblock) _))
              rw [hstep, ingestAudioEpochDatagram, htransport, if_neg (by simp), hblock]

/-- **Sessions are confined** in a run exactly when no packet of it leaks: when none that names no
session comes while another session is remembered for its key and asked for. -/
theorem session_confined_iff {start : AudioLane} (hsent : start.sent = [])
    (events : List AudioEvent) (hfaithful : ∀ event ∈ events, Faithful inspect sessions event) :
    (∀ delivery ∈ (exec (audioStep inspect) start events).sent,
        Confined inspect sessions delivery) ↔
      ∀ visit ∈ trace (audioStep inspect) start events, ∀ session,
        ¬ Leaks inspect sessions visit.1 visit.2 session := by
  have hrun : ∀ (events : List AudioEvent) (lane : AudioLane),
      (∀ event ∈ events, Faithful inspect sessions event) →
      ((∀ delivery ∈ (exec (audioStep inspect) lane events).sent,
          Confined inspect sessions delivery) ↔
        (∀ delivery ∈ lane.sent, Confined inspect sessions delivery) ∧
          ∀ visit ∈ trace (audioStep inspect) lane events, ∀ session,
            ¬ Leaks inspect sessions visit.1 visit.2 session) := by
    intro events
    induction events with
    | nil => intro lane _; simp
    | cons event events ih =>
        intro lane hall
        rw [exec_cons, ih _ fun later hlater => hall later (List.mem_cons_of_mem _ hlater),
          sent_audioStep lane (hall event List.mem_cons_self), trace_cons, List.forall_mem_cons,
          and_assoc]
  rw [hrun events start hfaithful, hsent]
  simp

end Steps

/-! ## §4. Two publishers. -/

/-- Datagrams of two bytes: the block, and the session if it is named. -/
def sampleInspect : Bytes → Option AudioIdentity
  | [block, named] =>
      some ⟨block.toUInt32, if named = 0 then none else some named.toUInt64, none⟩
  | _ => none

/-- The blocks of a publisher are all of one session, which has its number. -/
def sampleSessions (publisher : Nat) (_ : UInt32) : UInt64 := UInt64.ofNat publisher

def samplePacket (publisher : Nat) (block named : UInt8) : AudioPacket :=
  ⟨multichannelAudioTransportMagic ++ [block, named], publisher⟩

def sampleLane : AudioLane where
  forwards := false
  broadcasts := true
  relayBlocks := ∅
  relayNative := ∅
  ingestBlocks := ∅
  ingestNative := ∅
  webTransport := ∅
  sent := []

/-- A subscriber asks for session 1, whose publisher names it for block 7; then somebody sends a
datagram of block 7 that names no session. -/
def blockRun (publisher : Nat) : List AudioEvent :=
  [.join 0 (some 1), .relay 0 false ⟨"10.0.0.1", 4000⟩ (samplePacket 1 7 1),
    .relay 1 false ⟨"10.0.0.2", 4000⟩ (samplePacket publisher 7 0)]

/-- When it is the same publisher, the subscriber is sent what is of its session. -/
theorem session_confined_same_publisher :
    (exec (audioStep sampleInspect) sampleLane (blockRun 1)).sent.length = 2 ∧
      ∀ delivery ∈ (exec (audioStep sampleInspect) sampleLane (blockRun 1)).sent,
        Confined sampleInspect sampleSessions delivery := by
  refine ⟨rfl, (session_confined_iff rfl (blockRun 1) ?_).2 ?_⟩
  · intro event hevent
    simp only [blockRun, List.mem_cons, List.not_mem_nil, or_false] at hevent
    rcases hevent with rfl | rfl | rfl
    · trivial
    · intro block session hblock hsession
      cases hblock
      cases hsession
      rfl
    · intro block session hblock hsession
      cases hblock
      cases hsession
  · intro visit hvisit session
    simp only [blockRun, trace_cons, trace_nil, List.mem_cons, List.not_mem_nil, or_false] at hvisit
    rcases hvisit with rfl | rfl | rfl
    · exact id
    · rintro ⟨⟨_, block, hblock, hnone, _⟩, _⟩
      cases hblock
      cases hnone
    · rintro ⟨⟨_, block, hblock, _, hother, expiresAt, hlookup, _⟩, _⟩
      cases hblock
      cases hlookup
      exact hother rfl

/-- When it is another publisher, whose block 7 is of session 2, the subscriber of session 1 is sent
that datagram too. -/
theorem other_session_sent :
    let sent := (exec (audioStep sampleInspect) sampleLane (blockRun 2)).sent
    ⟨.webTransport 0, some 1, samplePacket 2 7 0⟩ ∈ sent ∧
      ¬ ∀ delivery ∈ sent, Confined sampleInspect sampleSessions delivery := by
  have hsent : (⟨.webTransport 0, some 1, samplePacket 2 7 0⟩ : AudioDelivery) ∈
      (exec (audioStep sampleInspect) sampleLane (blockRun 2)).sent := List.mem_cons_self
  refine ⟨hsent, fun hconfined => ?_⟩
  obtain ⟨block, hblock, hsession⟩ := hconfined _ hsent 1 rfl
  cases hblock
  exact absurd hsession (by decide)

end AudioLane

end AvMesh.Relay
