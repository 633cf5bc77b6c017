import Hakuraku.Core.Auth

/-!
# Replay protection of one interceptor

Reference: `pulse-core/src/auth.rs`, the module documentation's check 3 and
`NonceTracker::check_and_insert`.

A request stays fresh while the clock is within `MAX_CLOCK_SKEW` of its own timestamp. The tracker
forgets its nonces on another schedule: all at once, whenever more than twice the skew has passed
since the last purge. `transcript` runs one interceptor over a sequence of calls. Every signed
request is accepted at most once as long as no call purges while an accepted request may still
become fresh again. Without that condition the protection fails: a request accepted late in the
tracker's epoch is accepted again right after the purge.
-/

namespace Hakuraku.Auth

open Text (asBytes)

variable (hmac : List UInt8 → List UInt8 → List UInt8)

/-- One invocation of `call`, with the readings of the clock by `verify_request` and by
`check_and_insert`. -/
structure Call where
  request : Request
  verifiedAt : Int64
  insertedAt : Int64

/-- All readings of the clock by a sequence of calls are non-decreasing. -/
def Chronological (calls : List Call) : Prop :=
  (calls.flatMap fun c => [c.verifiedAt, c.insertedAt]).Pairwise (· ≤ ·)

instance (calls : List Call) : Decidable (Chronological calls) :=
  inferInstanceAs (Decidable (List.Pairwise _ _))

theorem Chronological.tail {c : Call} {calls : List Call} (h : Chronological (c :: calls)) :
    Chronological calls := by
  rw [Chronological, List.flatMap_cons, List.pairwise_append] at h
  exact h.2.1

theorem Chronological.verifiedAt_le {c d : Call} {calls : List Call}
    (h : Chronological (c :: calls)) (hd : d ∈ calls) : c.verifiedAt ≤ d.verifiedAt := by
  rw [Chronological, List.flatMap_cons, List.pairwise_append] at h
  refine h.2.2 c.verifiedAt (by simp) d.verifiedAt ?_
  exact List.mem_flatMap.mpr ⟨d, hd, by simp⟩

/-- `call` on one invocation. -/
def AuthInterceptor.serve (self : AuthInterceptor) (c : Call) :
    Except Status Request × AuthInterceptor :=
  self.call hmac c.request c.verifiedAt c.insertedAt

/-- A call of a sequence with the interceptor it met and the answer it got. -/
structure Entry where
  before : AuthInterceptor
  call : Call
  verdict : Except Status Request

/-- The entry of the call `c` when it meets `self`. -/
def AuthInterceptor.entry (self : AuthInterceptor) (c : Call) : Entry :=
  ⟨self, c, (self.serve hmac c).1⟩

/-- One interceptor takes the calls one after the other. -/
def transcript : AuthInterceptor → List Call → List Entry
  | _, [] => []
  | self, c :: calls => self.entry hmac c :: transcript (self.serve hmac c).2 calls

theorem call_mem_of_mem_transcript {self : AuthInterceptor} {calls : List Call} {e : Entry}
    (h : e ∈ transcript hmac self calls) : e.call ∈ calls := by
  induction calls generalizing self with
  | nil => simp [transcript] at h
  | cons c calls ih =>
    rcases List.mem_cons.mp h with rfl | h
    · exact List.mem_cons_self
    · exact List.mem_cons_of_mem _ (ih h)

namespace Entry

/-- The call was accepted. -/
def Accepted (e : Entry) : Prop := e.verdict.isOk = true

/-- The tuple `(node_id, timestamp, nonce, signature)` the call presented. -/
def credentials (e : Entry) : Option Credentials := (readCredentials e.call.request).toOption

/-- The call reached `check_and_insert` and found the tracker due for a purge. -/
def Purges (e : Entry) : Prop :=
  (∃ c, e.before.authenticate hmac e.call.request e.call.verifiedAt = .ok c) ∧
    e.before.seenNonces.purges e.call.insertedAt = true

instance (e : Entry) : Decidable e.Accepted := inferInstanceAs (Decidable (_ = true))

end Entry

/-- A timestamp that no reading of the clock from `now` on finds fresh. -/
def Expired (timestamp now : Int64) : Prop :=
  ∀ later, now ≤ later → checkTimestamp later timestamp ≠ .ok ()

/-- A timestamp from the epoch on has expired once the clock is past it by more than the skew. -/
theorem expired_of_lt {timestamp now : Int64} (hts : 0 ≤ timestamp)
    (h : timestamp.toInt + 60 < now.toInt) : Expired timestamp now := by
  intro later hle hok
  have ht : 0 ≤ timestamp.toInt := Int64.le_iff_toInt_le.mp hts
  have hlater : now.toInt ≤ later.toInt := Int64.le_iff_toInt_le.mp hle
  have hpos : 0 ≤ later := Int64.le_iff_toInt_le.mpr (by
    show (0 : ℤ) ≤ later.toInt
    omega)
  have hdist := (abs_le.mp ((checkTimestamp_eq_ok_iff hpos hts).mp hok)).2
  omega

/-- No signed request is accepted twice. -/
def AcceptedOnce (entries : List Entry) : Prop :=
  entries.Pairwise fun a b => a.Accepted → b.Accepted → a.credentials ≠ b.credentials

instance (entries : List Entry) : Decidable (AcceptedOnce entries) :=
  inferInstanceAs (Decidable (List.Pairwise _ _))

/-- Whenever a call purges, the requests accepted before it have expired for good. -/
def PurgesOnlyExpired (entries : List Entry) : Prop :=
  entries.Pairwise fun a b => a.Accepted → b.Purges hmac →
    ∀ c, a.credentials = some c → Expired c.timestamp b.call.verifiedAt

/-! ## The tracker between two acceptances -/

variable {hmac}

/-- An accepted call carried credentials that verified and a nonce the tracker did not hold. -/
theorem exists_of_entry_accepted {self : AuthInterceptor} {c : Call}
    (h : (self.entry hmac c).Accepted) :
    ∃ cred, (self.entry hmac c).credentials = some cred ∧
      checkTimestamp c.verifiedAt cred.timestamp = .ok () ∧
      self.authenticate hmac c.request c.verifiedAt = .ok cred ∧
      (self.seenNonces.purges c.insertedAt = true ∨ cred.nonce ∉ self.seenNonces.nonces) := by
  obtain ⟨cred, hauth, hnew⟩ := (AuthInterceptor.call_isOk_iff hmac).mp h
  obtain ⟨hread, hverify⟩ := (AuthInterceptor.authenticate_eq_ok_iff hmac).mp hauth
  refine ⟨cred, ?_, ((verifyRequest_eq_ok_iff hmac).mp hverify).1, hauth, hnew⟩
  show (readCredentials c.request).toOption = some cred
  rw [hread]
  rfl

/-- Whatever was accepted anywhere in a transcript had a fresh timestamp at that moment. -/
theorem fresh_of_mem_transcript {self : AuthInterceptor} {calls : List Call} {e : Entry}
    {cred : Credentials} (he : e ∈ transcript hmac self calls) (hacc : e.Accepted)
    (hcred : e.credentials = some cred) :
    checkTimestamp e.call.verifiedAt cred.timestamp = .ok () := by
  induction calls generalizing self with
  | nil => simp [transcript] at he
  | cons c calls ih =>
    rcases List.mem_cons.mp he with rfl | he
    · obtain ⟨cred', hcred', hfresh, -, -⟩ := exists_of_entry_accepted hacc
      rw [hcred, Option.some.injEq] at hcred'
      exact hcred' ▸ hfresh
    · exact ih he

/-- A nonce survives a call that does not purge. -/
theorem mem_nonces_serve {self : AuthInterceptor} {c : Call} {nonce : String}
    (hmem : nonce ∈ self.seenNonces.nonces) (hkeep : ¬ (self.entry hmac c).Purges hmac) :
    nonce ∈ (self.serve hmac c).2.seenNonces.nonces := by
  rw [AuthInterceptor.serve]
  cases h : self.authenticate hmac c.request c.verifiedAt with
  | error e => rwa [AuthInterceptor.call_of_error h]
  | ok cred =>
    rw [AuthInterceptor.call_of_ok h]
    refine (NonceTracker.mem_checkAndInsert _ _ _ _).mpr (.inr ⟨?_, hmem⟩)
    rw [← Bool.not_eq_true]
    exact fun hp => hkeep ⟨⟨cred, h⟩, hp⟩

/-- **A nonce in the tracker blocks its request.** While purges come only after `timestamp` has
expired, no call presenting `nonce` with `timestamp` is accepted. -/
theorem not_accepted_of_mem_nonces {self : AuthInterceptor} {calls : List Call} {nonce : String}
    {timestamp : Int64} (hclock : Chronological calls) (hmem : nonce ∈ self.seenNonces.nonces)
    (hpurge : ∀ e ∈ transcript hmac self calls, e.Purges hmac → Expired timestamp e.call.verifiedAt)
    {e : Entry} (he : e ∈ transcript hmac self calls) (hacc : e.Accepted) {cred : Credentials}
    (hcred : e.credentials = some cred) (hnonce : cred.nonce = nonce) :
    cred.timestamp ≠ timestamp := by
  induction calls generalizing self with
  | nil => simp [transcript] at he
  | cons c calls ih =>
    rintro rfl
    have hfresh := fresh_of_mem_transcript he hacc hcred
    by_cases hp : (self.entry hmac c).Purges hmac
    · -- the first call purges: the timestamp has expired for it and for all later calls
      have hexp : Expired cred.timestamp c.verifiedAt :=
        hpurge (self.entry hmac c) List.mem_cons_self hp
      rcases List.mem_cons.mp he with rfl | he
      · exact hexp _ (Int64.le_refl _) hfresh
      · exact hexp _ (hclock.verifiedAt_le (call_mem_of_mem_transcript hmac he)) hfresh
    · rcases List.mem_cons.mp he with rfl | he
      · -- no purge: the tracker still holds the nonce and refuses it
        obtain ⟨cred', hcred', -, hauth, hnew⟩ := exists_of_entry_accepted hacc
        rw [hcred, Option.some.injEq] at hcred'
        subst hcred'
        rcases hnew with hnew | hnew
        · exact hp ⟨⟨cred, hauth⟩, hnew⟩
        · exact hnew (hnonce ▸ hmem)
      · exact ih hclock.tail (mem_nonces_serve hmem hp)
          (fun e he => hpurge e (List.mem_cons_of_mem _ he)) he rfl

/-- **Replay protection of a long-lived interceptor.** If no call purges the tracker while a request
accepted before it can still become fresh, every signed request is accepted at most once. -/
theorem acceptedOnce_of_purgesOnlyExpired (self : AuthInterceptor) (calls : List Call)
    (hclock : Chronological calls) (hpurge : PurgesOnlyExpired hmac (transcript hmac self calls)) :
    AcceptedOnce (transcript hmac self calls) := by
  induction calls generalizing self with
  | nil => exact .nil
  | cons c calls ih =>
    obtain ⟨hhead, htail⟩ := List.pairwise_cons.mp hpurge
    refine List.pairwise_cons.mpr ⟨?_, ih _ hclock.tail htail⟩
    intro e he hacc hacc' heq
    obtain ⟨cred, hcred, -, hauth, -⟩ := exists_of_entry_accepted hacc
    have hmem : cred.nonce ∈ (self.serve hmac c).2.seenNonces.nonces := by
      rw [AuthInterceptor.serve, AuthInterceptor.call_of_ok hauth]
      exact (NonceTracker.mem_checkAndInsert _ _ _ _).mpr (.inl rfl)
    exact not_accepted_of_mem_nonces hclock.tail hmem
      (fun e he hp => hhead e he hacc hp cred hcred) he hacc' (heq ▸ hcred) rfl rfl

/-! ### A concrete interceptor

The tags below are the HMAC-SHA256 values of `node-01:1000100:00112233445566778899aabbccddeeff` and
`node-01:1000300:ffeeddccbbaa99887766554433221100` under the key `test-secret-key`. -/

def sampleSecret : List UInt8 := asBytes "test-secret-key"

/-- A tag function with the values of HMAC-SHA256 on the two sample messages. -/
def sampleHmac (key message : List UInt8) : List UInt8 :=
  if key = sampleSecret ∧
      message = asBytes "node-01:1000100:00112233445566778899aabbccddeeff" then
    [129, 46, 149, 47, 214, 218, 221, 67, 96, 23, 33, 73, 85, 183, 155, 157, 71, 240, 212, 80, 209,
      51, 80, 178, 188, 13, 40, 254, 201, 52, 91, 107]
  else if key = sampleSecret ∧
      message = asBytes "node-01:1000300:ffeeddccbbaa99887766554433221100" then
    [114, 33, 107, 100, 132, 114, 231, 113, 143, 227, 84, 88, 76, 182, 85, 55, 45, 83, 108, 135, 189, 52,
      114, 81, 39, 231, 219, 20, 151, 164, 78, 42]
  else []

/-- A request signed at second 1000100. -/
def sampleRequest : Request :=
  ⟨[("x-pulse-node-id", asBytes "node-01"), ("x-pulse-timestamp", asBytes "1000100"),
    ("x-pulse-nonce", asBytes "00112233445566778899aabbccddeeff"),
    ("x-pulse-signature",
      asBytes "812e952fd6dadd436017214955b79b9d47f0d450d13350b2bc0d28fec9345b6b")]⟩

/-- A request of the same node signed at second 1000300. -/
def laterRequest : Request :=
  ⟨[("x-pulse-node-id", asBytes "node-01"), ("x-pulse-timestamp", asBytes "1000300"),
    ("x-pulse-nonce", asBytes "ffeeddccbbaa99887766554433221100"),
    ("x-pulse-signature",
      asBytes "72216b648472e7718fe354584cb655372d536c87bd34725127e7db1497a44e2a")]⟩

/-- Two acceptances around a purge that comes after the first request has expired, and a late copy
of that request. -/
def sampleCalls : List Call :=
  [⟨sampleRequest, 1000100, 1000100⟩, ⟨laterRequest, 1000300, 1000300⟩,
    ⟨sampleRequest, 1000301, 1000301⟩]

/-- A check of the timestamps shows that purges forget only expired requests. -/
theorem purgesOnlyExpired_of_check {entries : List Entry}
    (hcheck : entries.Pairwise fun a b => a.Accepted →
      b.before.seenNonces.purges b.call.insertedAt = true → a.credentials.all (fun c =>
        decide (0 ≤ c.timestamp ∧ c.timestamp.toInt + 60 < b.call.verifiedAt.toInt)) = true) :
    PurgesOnlyExpired hmac entries := by
  refine hcheck.imp fun {a b} h hacc hpurge c hc => ?_
  have hall := h hacc hpurge.2
  rw [hc, Option.all_some, decide_eq_true_eq] at hall
  exact expired_of_lt hall.1 hall.2

/-- The purge at second 1000300 forgets only the nonce of an expired request. -/
theorem purgesOnlyExpired_sampleCalls :
    PurgesOnlyExpired sampleHmac
      (transcript sampleHmac (.new sampleSecret 1000000) sampleCalls) :=
  purgesOnlyExpired_of_check (by decide)

theorem acceptedOnce_sampleCalls :
    Chronological sampleCalls ∧
      AcceptedOnce (transcript sampleHmac (.new sampleSecret 1000000) sampleCalls) :=
  ⟨by decide, acceptedOnce_of_purgesOnlyExpired _ _ (by decide) purgesOnlyExpired_sampleCalls⟩

/-- An interceptor created at second 1000000 accepts the sample request at second 1000100 and again
at second 1000121, when the call itself finds the tracker due for a purge. -/
theorem not_acceptedOnce_of_purge :
    Chronological [⟨sampleRequest, 1000100, 1000100⟩, ⟨sampleRequest, 1000121, 1000121⟩] ∧
      ¬ AcceptedOnce (transcript sampleHmac (.new sampleSecret 1000000)
        [⟨sampleRequest, 1000100, 1000100⟩, ⟨sampleRequest, 1000121, 1000121⟩]) := by
  decide

end Hakuraku.Auth
