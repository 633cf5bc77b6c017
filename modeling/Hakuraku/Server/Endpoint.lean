import Hakuraku.Core.Replay

/-!
# The authentication of the gRPC endpoint

Reference: `pulse-server/src/main.rs`, the `auth_interceptor` closure; `pulse-server/src/grpc.rs`,
the head of `stream_telemetry`.

The closure given to `MonitoringServiceServer::with_interceptor` builds a new `AuthInterceptor`, and
with it a new nonce tracker, for every request. The verdict on a request is therefore a function of
the request and of the clock alone (`authInterceptor_isOk_iff`), and the replay check of the
interceptor never sees a second request.
-/

namespace Hakuraku.Server

open Auth

variable (hmac : List UInt8 → List UInt8 → List UInt8)

/-- A request presented to the endpoint, with the readings of the clock by `NonceTracker::new`,
`verify_request` and `check_and_insert`. -/
structure Arrival where
  request : Request
  createdAt : Int64
  verifiedAt : Int64
  insertedAt : Int64

/-- The `auth_interceptor` closure of `main`. It also counts the refused requests in
`AUTH_FAILURES`, which nothing reads back. -/
def authInterceptor (authSecret : List UInt8) (a : Arrival) : Except Status Request :=
  let interceptor := AuthInterceptor.new authSecret a.createdAt
  (interceptor.call hmac a.request a.verifiedAt a.insertedAt).1

/-- The node id that `stream_telemetry` takes from the headers of a request. -/
def authenticatedNodeId (request : Request) : Except Status String :=
  match request.get "x-pulse-node-id" with
  | some value =>
    match toStr value with
    | some s => .ok s
    | none => .error (.unauthenticated "invalid x-pulse-node-id header")
  | none => .error (.unauthenticated "missing x-pulse-node-id header")

/-- The readings of the clock over a run of the endpoint are non-decreasing. -/
def ClockNondecreasing (arrivals : List Arrival) : Prop :=
  (arrivals.flatMap fun a => [a.createdAt, a.verifiedAt, a.insertedAt]).Pairwise (· ≤ ·)

instance (arrivals : List Arrival) : Decidable (ClockNondecreasing arrivals) :=
  inferInstanceAs (Decidable (List.Pairwise _ _))

/-- The headers that authenticate a request. -/
def authHeaders : List String :=
  ["x-pulse-node-id", "x-pulse-timestamp", "x-pulse-nonce", "x-pulse-signature"]

/-- Two requests carry the same values in the authentication headers. -/
def SameHeaders (r r' : Request) : Prop := ∀ key ∈ authHeaders, r.get key = r'.get key

instance (r r' : Request) : Decidable (SameHeaders r r') :=
  inferInstanceAs (Decidable (∀ key ∈ authHeaders, r.get key = r'.get key))

/-- The endpoint never accepts two requests with the same authentication headers. -/
def ReplayFree (authSecret : List UInt8) (arrivals : List Arrival) : Prop :=
  arrivals.Pairwise fun a b => SameHeaders a.request b.request →
    ¬ ((authInterceptor hmac authSecret a).isOk ∧ (authInterceptor hmac authSecret b).isOk)

instance (authSecret : List UInt8) (arrivals : List Arrival) :
    Decidable (ReplayFree hmac authSecret arrivals) :=
  inferInstanceAs (Decidable (List.Pairwise _ _))

/-- No correctly signed request is presented twice while its timestamp is fresh. -/
def NoFreshCopy (authSecret : List UInt8) (arrivals : List Arrival) : Prop :=
  arrivals.Pairwise fun a b => SameHeaders a.request b.request →
    ∀ c, readCredentials a.request = .ok c →
      checkSignature hmac authSecret c.nodeId c.timestamp c.nonce c.signature = .ok () →
      ¬ (checkTimestamp a.verifiedAt c.timestamp = .ok () ∧
        checkTimestamp b.verifiedAt c.timestamp = .ok ())

/-- `readCredentials` looks at nothing but the authentication headers. -/
theorem readCredentials_congr {r r' : Request} (h : SameHeaders r r') :
    readCredentials r = readCredentials r' := by
  have hextract : ∀ key ∈ authHeaders, extractHeader r key = extractHeader r' key :=
    fun key hkey => by rw [extractHeader, extractHeader, h key hkey]
  simp only [readCredentials, hextract "x-pulse-node-id" (by simp [authHeaders]),
    hextract "x-pulse-timestamp" (by simp [authHeaders]),
    hextract "x-pulse-nonce" (by simp [authHeaders]),
    hextract "x-pulse-signature" (by simp [authHeaders])]

/-- **The verdict of the endpoint.** A new tracker holds no nonce, so only the headers, the
signature and the timestamp decide. -/
theorem authInterceptor_isOk_iff {authSecret : List UInt8} {a : Arrival} :
    (authInterceptor hmac authSecret a).isOk = true ↔
      ∃ c, readCredentials a.request = .ok c ∧
        checkSignature hmac authSecret c.nodeId c.timestamp c.nonce c.signature = .ok () ∧
        checkTimestamp a.verifiedAt c.timestamp = .ok () := by
  rw [authInterceptor, AuthInterceptor.call_isOk_iff]
  refine exists_congr fun c => ?_
  rw [AuthInterceptor.authenticate_eq_ok_iff, Credentials.verify, verifyRequest_eq_ok_iff]
  have hnew : c.nonce ∉ (AuthInterceptor.new authSecret a.createdAt).seenNonces.nonces :=
    Finset.notMem_empty _
  constructor
  · rintro ⟨⟨hread, hts, hsig⟩, -⟩
    exact ⟨hread, hsig, hts⟩
  · rintro ⟨hread, hsig, hts⟩
    exact ⟨⟨hread, hts, hsig⟩, .inr hnew⟩

/-- **When the endpoint is free of replays.** Exactly when the network never presents a copy of a
correctly signed request while both are fresh: the endpoint itself refuses no copy. -/
theorem replayFree_iff_noFreshCopy (authSecret : List UInt8) (arrivals : List Arrival) :
    ReplayFree hmac authSecret arrivals ↔ NoFreshCopy hmac authSecret arrivals := by
  refine List.Pairwise.iff fun a b => forall_congr' fun hsame => ?_
  rw [authInterceptor_isOk_iff, authInterceptor_isOk_iff, ← readCredentials_congr hsame]
  constructor
  · rintro hnot c hread hsig ⟨ha, hb⟩
    exact hnot ⟨⟨c, hread, hsig, ha⟩, ⟨c, hread, hsig, hb⟩⟩
  · rintro hnot ⟨⟨c, hread, hsig, ha⟩, ⟨c', hread', -, hb⟩⟩
    obtain rfl : c' = c := by
      rw [hread] at hread'
      exact (Except.ok.inj hread').symm
    exact hnot c' hread hsig ⟨ha, hb⟩

/-- A verbatim copy one second later is accepted again. -/
theorem endpoint_accepts_copy :
    ClockNondecreasing [⟨sampleRequest, 1000100, 1000100, 1000100⟩,
        ⟨sampleRequest, 1000101, 1000101, 1000101⟩] ∧
      ¬ ReplayFree sampleHmac sampleSecret
        [⟨sampleRequest, 1000100, 1000100, 1000100⟩,
          ⟨sampleRequest, 1000101, 1000101, 1000101⟩] := by
  decide

end Hakuraku.Server
