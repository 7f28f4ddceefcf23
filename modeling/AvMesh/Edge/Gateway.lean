/-
  AvMesh.Edge.Gateway
  ───────────────────
  **THE HTTP FRONT OF AN EDGE** (`route`, `route_stream`, `EdgeLoad` and
  `EdgeReadGuard`, src/main.rs).

  Any number of requests are under way.  A handler stops at each `await`, and
  it is dropped there when its client goes away:

      arrived ─▶ admitting ─▶ session ─▶ dispatch ─▶ reading ─▶ retain ─▶ finished
                                 └──▶ rejected         └──▶ stream, stream, …

  Between two stops it does atomic operations on the counters of `EdgeLoad` and
  on the egress window, one at a time, and the operations of two handlers
  interleave.  What the cache answers is an input of the run.  A stage says
  what has happened (`EdgeEvent`), and an event has its operations.
-/
import AvMesh.Edge.Admission
import AvMesh.Edge.LivePaths
import AvMesh.Lib.Tasks
import AvMesh.Lib.Wrapping
import AvMesh.LiveCache.Tail
import AvMesh.Telemetry.Percentile

namespace AvMesh.Edge

open AvMesh.Lib AvMesh.LiveCache
open AvMesh.Telemetry (BucketIndex bound)

/-! ## §1. Requests and responses. -/

inductive RequestMethod where
  | get
  | head
  | options
  | other (name : String)
  deriving Repr, DecidableEq

/-- `Method::as_str`. -/
def RequestMethod.asStr : RequestMethod → String
  | .get => "GET"
  | .head => "HEAD"
  | .options => "OPTIONS"
  | .other name => name

structure EdgeRequest where
  method : RequestMethod
  path : List Char
  query : Option String
  headers : PlaybackHeaders

structure HandlerResponse where
  status : Nat
  body : Option Bytes
  contentType : Option String
  deriving Repr, DecidableEq

def isPlaybackMediaPath (path : List Char) : Bool :=
  decide (path = "/live/stream.m3u8".toList) || (stripPrefix "/live/".toList path).isSome

namespace EdgeRequest

variable (r : EdgeRequest)

def sessionId : Option String := playbackSessionId r.headers r.query

/-- The requests that `route` and `route_stream` send through the admission. -/
def gated : Bool := isPlaybackMediaPath r.path && (hlsFailoverMediaPath r.path).isNone

/-- `is_streaming` sends the request to `route_stream`. -/
def streams : Bool := decide (routeLive r.path = some .tailBundleStream)

end EdgeRequest

/-! ## §2. The queries of the tail. -/

/-- The loop of `parse_llhls_tail_stream_ids`. -/
def collectStreamIds (maxEntries : Nat) : List (List Char) → List UInt64 → Option (List UInt64)
  | [], ids => some ids
  | text :: texts, ids =>
      if text = [] ∨ ids.length = maxEntries then none
      else
        match parseU64 text with
        | none => none
        | some id => if id ∈ ids then none else collectStreamIds maxEntries texts (ids ++ [id])

def parseLlhlsTailStreamIds (maxEntries : Nat) (query : Option String) : Option (List UInt64) :=
  (queryValue query "streams").bind fun value =>
    match collectStreamIds maxEntries (value.toList.splitOn ',') [] with
    | none => none
    | some [] => none
    | some ids => some ids

def parseLlhlsTailStartSequence (query : Option String) : Option Nat :=
  match queryValue query "from", queryValue query "after" with
  | some start, none => (parseU64 start.toList).map UInt64.toNat
  | none, some after => (parseU64 after.toList).bind fun n => checkedAdd n.toNat 1
  | _, _ => none

def parseLlhlsTailPartCount (query : Option String) (default retainedCacheParts : Nat) :
    Option Nat :=
  let maximum := min retainedCacheParts maxLlhlsTailParts
  match queryValue query "parts" with
  | none => if 1 ≤ default ∧ default ≤ maximum then some default else none
  | some value =>
      (parseU64 value.toList).bind fun count =>
        if 1 ≤ count.toNat ∧ count.toNat ≤ maximum then some count.toNat else none

/-- The settings of the router that the handlers read. -/
structure RouterConfig where
  /-- `MAX_TAIL_BUNDLE_ENTRIES`. -/
  maxTailBundleEntries : Nat
  llhlsDefaultTailParts : Nat
  windowParts : Nat

def RouterConfig.tailPartCount (config : RouterConfig) (query : Option String) : Option Nat :=
  parseLlhlsTailPartCount query config.llhlsDefaultTailParts (max (satMul config.windowParts 4) 32)

/-! ## §3. What is kept of a response. -/

/-- A part of a query, without what a `CMCD` parameter says. -/
def redactedPart (part : List Char) : List Char :=
  let key := ((splitOnce '=' part).getD (part, [])).1
  if key.map Char.toLower = "cmcd".toList then "CMCD=[redacted]".toList else part

def sanitizedResponseQuery (query : Option String) : Option String :=
  query.map fun query =>
    String.ofList (['&'].intercalate ((query.toList.splitOn '&').map redactedPart))

structure EdgeResponseSnapshot where
  unixMs : Nat
  method : String
  path : List Char
  query : Option String
  status : Nat
  bytes : Nat
  durationUs : Nat
  contentType : Option String
  deriving Repr, DecidableEq

def edgeRecentResponseLimit : Nat := 32
def edgeRecentSuccessIntervalMs : Nat := 100

/-! ## §4. Counters, operations, events. -/

/-- The counters of `EdgeLoadInner` and of its histogram. -/
inductive EdgeCounter where
  | activeReaders
  | requestsServed
  | bytesServed
  | llhlsTailRequests
  | responsesTotal
  | responseErrors
  | responseNotFound
  | durationCount
  | durationSumUs
  | durationBucket (index : BucketIndex)
  deriving DecidableEq

/-- One atomic operation. -/
inductive EdgeOp where
  | count (update : Update EdgeCounter)
  | recordBytes (second bytes : Nat)
  | recordRejection
  | maxDuration (us : Nat)
  | storeLastResponse (unixMs : Nat)
  | pushRecent (snapshot : EdgeResponseSnapshot)

/-- `fetch_sub(1)`, which wraps. -/
def fetchSubOne (counter : EdgeCounter) : Update EdgeCounter := .add counter (2 ^ 64 - 1)

/-- A request with the number it came in with. -/
structure Handler where
  id : Nat
  request : EdgeRequest

/-- What a call of `record_response` reads of its environment. -/
structure ResponseClock where
  unixMs : Nat
  second : Nat
  durationUs : Nat

def responseBytes (response : HandlerResponse) : Nat := (response.body.map List.length).getD 0

def isError (status : Nat) : Bool := decide (400 ≤ status) && decide (status < 600)

/-- `record_response`, up to the choice whether the details are kept. -/
def recordResponse (request : EdgeRequest) (response : HandlerResponse) (clock : ResponseClock) :
    List EdgeOp :=
  let us := min clock.durationUs u64Max
  (if request.method = .head then [] else [.recordBytes clock.second (responseBytes response)])
    ++ [.count (.add .durationCount 1), .count (.add .durationSumUs us), .maxDuration us]
    -- above every bound: in no bucket
    ++ ((cell bound us).map fun index => EdgeOp.count (.add (.durationBucket index) 1)).toList
    ++ [.count (.add .responsesTotal 1)]
    ++ (if isError response.status then [.count (.add .responseErrors 1)] else [])
    ++ (if response.status = 404 then [.count (.add .responseNotFound 1)] else [])
    ++ [.storeLastResponse clock.unixMs]

def responseSnapshot (request : EdgeRequest) (response : HandlerResponse) (clock : ResponseClock) :
    EdgeResponseSnapshot where
  unixMs := clock.unixMs
  method := request.method.asStr
  path := request.path
  query := sanitizedResponseQuery request.query
  status := response.status
  bytes := responseBytes response
  durationUs := min clock.durationUs u64Max
  contentType := response.contentType

/-- One decision of the admission: what it had observed, the sessions it knew, what it said. -/
structure AdmissionRecord where
  handler : Handler
  observed : EdgeAdmissionSnapshot
  before : EdgeAdmission
  elapsedMs : Nat
  admission : PlaybackAdmission

inductive EdgeEvent where
  | admission (entry : AdmissionRecord)
  /-- `record_rejection`. -/
  | refused
  /-- `begin_read(true)`. -/
  | readBegan
  /-- `finish` with the bytes that were not recorded before; then the guard is dropped. -/
  | readFinished (remaining : Nat)
  /-- The guard is dropped with its handler. -/
  | readDropped
  /-- `record_bytes` of a guard. -/
  | frame (second bytes : Nat)
  /-- The answer of `route_stream` to a query it cannot read, which is not recorded. -/
  | streamRefused (handler : Handler) (response : HandlerResponse)
  /-- The response is on its way; one of a path that is not live is not recorded. -/
  | responded (handler : Handler) (response : HandlerResponse) (clock : ResponseClock)
  | retained (snapshot : EdgeResponseSnapshot)

/-- The operations of an event, in order. -/
def EdgeEvent.ops : EdgeEvent → List EdgeOp
  | .admission _ => []
  | .refused => [.recordRejection]
  | .readBegan =>
      [.count (.add .activeReaders 1), .count (.add .requestsServed 1),
        .count (.add .llhlsTailRequests 1)]
  | .streamRefused _ _ => []
  | .readFinished remaining =>
      [.count (.add .bytesServed remaining), .count (fetchSubOne .activeReaders)]
  | .readDropped => [.count (fetchSubOne .activeReaders), .count (.add .bytesServed 0)]
  | .frame second bytes => [.count (.add .bytesServed bytes), .recordBytes second bytes]
  | .responded handler response clock =>
      if isPlaybackMediaPath handler.request.path then
        recordResponse handler.request response clock
      else []
  | .retained snapshot => [.pushRecent snapshot]

/-! ## §5. The gateway. -/

structure EdgeGateway where
  counters : EdgeCounter → Nat
  maxUs : Nat
  lastResponseUnixMs : Nat
  lastRecentSuccessUnixMs : Nat
  /-- Newest first. -/
  recentResponses : List EdgeResponseSnapshot
  egress : EdgeAdmission
  /-- How many requests have come in, and what has happened. -/
  arrivals : Nat
  events : List EdgeEvent

/-- Where a handler is. -/
inductive HandlerStage where
  | arrived (h : Handler)
  | admitting (h : Handler)
  | session (h : Handler) (observed : EdgeAdmissionSnapshot)
  | rejected (h : Handler)
  | dispatch (h : Handler)
  /-- Holds a guard and waits for the next part. -/
  | reading (h : Handler)
  /-- Holds a guard for as long as the stream lasts. -/
  | stream (h : Handler) (bytesServed bytesRecorded nextSequence partCount : Nat)
  /-- A response was recorded; `opens` is the stream that begins after it. -/
  | retain (snapshot : EdgeResponseSnapshot) (opens : Option (Handler × Nat × Nat))
  | finished

/-- How a turn of the loop of `route_stream` ends. -/
inductive FrameResult where
  /-- The bundle is not there yet. -/
  | pending
  /-- The frame cannot be encoded, or the client does not take it. -/
  | failed
  | sent (bytes : Nat)
  deriving Repr, DecidableEq

/-- What a stage reads of its environment. -/
structure HandlerEnv where
  /-- The client has gone: the handler is dropped where it waits. -/
  dropped : Bool
  clock : ResponseClock
  elapsedMs : Nat
  /-- What the order of a hash map prefers. -/
  favoured : String
  /-- A snapshot of the mesh is taken on the way. -/
  observes : Bool
  /-- What the cache gives, and what its content type is. -/
  body : Option Bytes
  contentType : String
  /-- Renditions are configured for the stream. -/
  renditions : Bool
  /-- The answer of a path that is not live. -/
  otherwise : HandlerResponse
  frame : FrameResult

namespace EdgeGateway

def new (config : EdgeAdmissionConfig) : EdgeGateway where
  counters := fun _ => 0
  maxUs := 0
  lastResponseUnixMs := 0
  lastRecentSuccessUnixMs := 0
  recentResponses := []
  egress := .new config
  arrivals := 0
  events := []

def apply (s : EdgeGateway) : EdgeOp → EdgeGateway
  | .count update => { s with counters := update.apply s.counters }
  | .recordBytes second bytes => { s with egress := s.egress.recordBytes second bytes }
  | .recordRejection => { s with egress := s.egress.recordRejection }
  | .maxDuration us => { s with maxUs := max s.maxUs us }
  | .storeLastResponse unixMs => { s with lastResponseUnixMs := unixMs }
  | .pushRecent snapshot =>
      { s with recentResponses := (snapshot :: s.recentResponses).take edgeRecentResponseLimit }

/-- A snapshot of the mesh asks the admission for one, and so does a failover playlist. -/
def observe (s : EdgeGateway) (h : Handler) (env : HandlerEnv) : EdgeGateway :=
  if env.observes || (hlsFailoverMediaPath h.request.path).isSome then
    { s with egress := (s.egress.snapshotAt env.clock.second env.elapsedMs).2 }
  else s

def textResponse (status : Nat) (text : String) : HandlerResponse :=
  ⟨status, some text.toUTF8.toList, some "text/plain; charset=utf-8"⟩

def emptyResponse (status : Nat) : HandlerResponse := ⟨status, none, none⟩

def edgeOverloadedResponse : HandlerResponse :=
  textResponse 429 "This edge is busy. Try another edge listed in the response headers.\n"

def hlsRenditionsUnavailableResponse : HandlerResponse :=
  textResponse 503 "No configured HLS rendition is currently fresh. Retry after the source or rendition worker starts publishing.\n"

def playlistType : String := "application/vnd.apple.mpegurl"

/-- A response leaves: a live one is recorded, and then its details may be kept. -/
def respond (h : Handler) (response : HandlerResponse) (clock : ResponseClock) :
    List EdgeEvent × HandlerStage :=
  ([.responded h response clock],
    if isPlaybackMediaPath h.request.path then .retain (responseSnapshot h.request response clock) none
    else .finished)

/-- The branches that give what the cache has, or 404. -/
def fileResponse (env : HandlerEnv) : HandlerResponse :=
  match env.body with
  | some body => ⟨200, some body, some env.contentType⟩
  | none => emptyResponse 404

/-- `hls_failover_playlist_response`. -/
def failoverResponse (h : Handler) (env : HandlerEnv) : List EdgeEvent × HandlerStage :=
  match env.body with
  | some body => respond h ⟨200, some body, some playlistType⟩ env.clock
  | none =>
      let response :=
        if env.renditions then hlsRenditionsUnavailableResponse else edgeOverloadedResponse
      let (events, stage) := respond h response env.clock
      (.refused :: events, stage)

/-- The branch of the tail of several streams. -/
def tailBundle (config : RouterConfig) (h : Handler) (env : HandlerEnv) :
    List EdgeEvent × HandlerStage :=
  match parseLlhlsTailStreamIds config.maxTailBundleEntries h.request.query with
  | none =>
      respond h (textResponse 400 "streams must contain 1 to 128 unique numeric stream ids\n") env.clock
  | some _ =>
      match config.tailPartCount h.request.query with
      | none => respond h (textResponse 400 "parts must fit the retained cache window\n") env.clock
      | some _ =>
          match parseLlhlsTailStartSequence h.request.query with
          | none =>
              respond h (textResponse 400 "supply exactly one numeric from or after cursor\n") env.clock
          | some _ => ([.readBegan], .reading h)

/-- The branch of the tail of one stream: the guard comes before the check. -/
def tail (config : RouterConfig) (h : Handler) (env : HandlerEnv) :
    List EdgeEvent × HandlerStage :=
  match config.tailPartCount h.request.query with
  | none =>
      let (events, stage) :=
        respond h (textResponse 400 "parts must fit the retained cache window\n") env.clock
      (.readBegan :: .readFinished 0 :: events, stage)
  | some _ => ([.readBegan], .reading h)

/-- `route_stream`, up to its loop. -/
def openStream (config : RouterConfig) (h : Handler) (env : HandlerEnv) :
    List EdgeEvent × HandlerStage :=
  match parseLlhlsTailStreamIds config.maxTailBundleEntries h.request.query,
    config.tailPartCount h.request.query, parseLlhlsTailStartSequence h.request.query with
  | some _, some partCount, some start =>
      let response : HandlerResponse := ⟨200, none, some env.contentType⟩
      ([.responded h response env.clock],
        .retain (responseSnapshot h.request response env.clock) (some (h, start, partCount)))
  | _, _, _ =>
      ([.streamRefused h (textResponse 400 "supply valid streams, from cursor, and parts count\n")],
        .finished)

/-- The branch of `route` and `route_stream` for a path. -/
def dispatch (config : RouterConfig) (h : Handler) (env : HandlerEnv) :
    List EdgeEvent × HandlerStage :=
  match routeLive h.request.path with
  | some (.failover _) => failoverResponse h env
  | some .defaultPlaylist =>
      respond h ⟨200, some (env.body.getD []), some playlistType⟩ env.clock
  | some (.playlist _) => respond h ⟨200, some (env.body.getD []), some playlistType⟩ env.clock
  | some .tailBundle => tailBundle config h env
  | some .tailBundleStream => openStream config h env
  | some (.tail _) => tail config h env
  | some _ => respond h (fileResponse env) env.clock
  | none =>
      if isPlaybackMediaPath h.request.path then respond h (emptyResponse 404) env.clock
      else respond h env.otherwise env.clock

/-- The wait for the next parts is over: 204 when there are none. -/
def finishRead (h : Handler) (env : HandlerEnv) : List EdgeEvent × HandlerStage :=
  let response : HandlerResponse :=
    match env.body with
    | some body => ⟨200, some body, some env.contentType⟩
    | none => emptyResponse 204
  let (events, stage) := respond h response env.clock
  (.readFinished (responseBytes response) :: events, stage)

/-- A turn of the loop of `route_stream`. -/
def streamTurn (h : Handler) (bytesServed bytesRecorded nextSequence partCount : Nat)
    (env : HandlerEnv) : List EdgeEvent × HandlerStage :=
  match env.frame with
  | .pending => ([], .stream h bytesServed bytesRecorded nextSequence partCount)
  | .failed => ([.readFinished (bytesServed - bytesRecorded)], .finished)
  | .sent bytes =>
      let served := satAdd bytesServed bytes
      let recorded := satAdd bytesRecorded bytes
      match checkedAdd nextSequence partCount with
      | some next => ([.frame env.clock.second bytes], .stream h served recorded next partCount)
      | none => ([.frame env.clock.second bytes, .readFinished (served - recorded)], .finished)

/-- The handler after its method was looked at. -/
def gate (h : Handler) : List EdgeEvent × HandlerStage :=
  ([], if h.request.gated then .admitting h else .dispatch h)

/-- What follows the record of a response. -/
def afterRecord : Option (Handler × Nat × Nat) → List EdgeEvent × HandlerStage
  | none => ([], .finished)
  | some (h, start, partCount) => ([.readBegan], .stream h 0 0 start partCount)

/-- A stage: what happens, and where the handler is then. -/
def react (config : RouterConfig) (s : EdgeGateway) (stage : HandlerStage) (env : HandlerEnv) :
    (List EdgeEvent × HandlerStage) × EdgeGateway :=
  match stage with
  | .arrived h =>
      if h.request.streams then (gate h, s)
      else
        match h.request.method with
        | .get => (gate h, s)
        | .head => (gate h, s)
        | .options => (respond h (emptyResponse 204) env.clock, s)
        | .other _ => (respond h (emptyResponse 405) env.clock, s)
  | .admitting h =>
      let (observed, egress) := s.egress.snapshotAt env.clock.second env.elapsedMs
      (([], .session h observed), { s with egress })
  | .session h observed =>
      let (admission, egress) :=
        s.egress.admitPlaybackAt h.request.sessionId observed.overloaded env.elapsedMs env.favoured
      (([.admission ⟨h, observed, s.egress, env.elapsedMs, admission⟩],
        if admission = .rejected then .rejected h else .dispatch h), { s with egress })
  | .rejected h =>
      if env.dropped then (([], .finished), s)
      else
        -- the alternatives are looked up in a snapshot of the mesh
        let clock := if h.request.streams then { env.clock with durationUs := 0 } else env.clock
        let (events, stage) := respond h edgeOverloadedResponse clock
        ((.refused :: events, stage), s.observe h env)
  | .dispatch h =>
      if env.dropped then (([], .finished), s) else (dispatch config h env, s.observe h env)
  | .reading h =>
      if env.dropped then (([.readDropped], .finished), s) else (finishRead h env, s)
  | .stream h bytesServed bytesRecorded nextSequence partCount =>
      if env.dropped then (([.readDropped], .finished), s)
      else (streamTurn h bytesServed bytesRecorded nextSequence partCount env, s)
  | .retain snapshot opens =>
      let (begun, next) := afterRecord opens
      if isError snapshot.status then ((.retained snapshot :: begun, next), s)
      else if s.lastRecentSuccessUnixMs = 0 ∨
          edgeRecentSuccessIntervalMs ≤ snapshot.unixMs - s.lastRecentSuccessUnixMs then
        ((.retained snapshot :: begun, next),
          { s with lastRecentSuccessUnixMs := snapshot.unixMs })
      else ((begun, next), s)
  | .finished => (([], .finished), s)

/-- The program of the handlers. -/
def program (config : RouterConfig) :
    TaskProgram EdgeGateway HandlerStage EdgeOp EdgeRequest HandlerEnv where
  enter s request := (.arrived ⟨s.arrivals, request⟩, { s with arrivals := s.arrivals + 1 })
  apply := apply
  advance s stage env :=
    let ((events, stage), s) := react config s stage env
    (events.flatMap EdgeEvent.ops, stage, { s with events := s.events ++ events })

/-- The gateway and its handlers after a run. -/
abbrev after (config : RouterConfig) (admission : EdgeAdmissionConfig)
    (ops : List (TaskOp EdgeRequest HandlerEnv)) : Tasks EdgeGateway HandlerStage EdgeOp :=
  exec (program config).step ⟨new admission, []⟩ ops

end EdgeGateway

end AvMesh.Edge
