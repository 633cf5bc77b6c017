import Hakuraku.Core.Replay

/-!
# Requests that do not verify

Reference: `pulse-core/src/auth.rs`, `AuthInterceptor::call`.

`call` reaches the tracker, which is all the state that calls share, only with a request whose
headers were read, whose timestamp was parsed and which `verify_request` passed. Whoever does not
know the secret can therefore neither spend somebody else's nonce nor bring a purge forward:
a sequence of calls and the same sequence without the requests that do not verify cannot be told
apart by the others.
-/

namespace Hakuraku.Auth

open Text (asBytes)

variable (hmac : List UInt8 → List UInt8 → List UInt8)

/-- The call gets past the headers, the timestamp and `verify_request` under `secret`. -/
def Call.verified (secret : List UInt8) (c : Call) : Bool :=
  match readCredentials c.request with
  | .error _ => false
  | .ok cred => (cred.verify hmac secret c.verifiedAt).isOk

/-- The interceptor after a sequence of calls. -/
def AuthInterceptor.after : AuthInterceptor → List Call → AuthInterceptor
  | self, [] => self
  | self, c :: calls => (self.serve hmac c).2.after calls

variable {hmac} {self : AuthInterceptor} {c : Call} {calls : List Call}

/-- What `verified` says is that `authenticate` succeeds, which depends on the secret alone. -/
theorem Call.verified_iff :
    c.verified hmac self.secret = true ↔
      ∃ cred, self.authenticate hmac c.request c.verifiedAt = .ok cred := by
  rw [Call.verified, AuthInterceptor.authenticate]
  cases readCredentials c.request with
  | error e => simp
  | ok cred =>
    cases h : cred.verify hmac self.secret c.verifiedAt <;> simp [h, Except.isOk, Except.toBool]

/-- No call changes the secret. -/
theorem AuthInterceptor.secret_serve : (self.serve hmac c).2.secret = self.secret := by
  rw [serve]
  cases h : self.authenticate hmac c.request c.verifiedAt with
  | error e => rw [call_of_error h]
  | ok cred => rw [call_of_ok h]

/-- A request that does not verify leaves the interceptor alone. -/
theorem AuthInterceptor.serve_of_not_verified (h : c.verified hmac self.secret ≠ true) :
    (self.serve hmac c).2 = self := by
  rw [serve]
  cases hauth : self.authenticate hmac c.request c.verifiedAt with
  | error e => rw [call_of_error hauth]
  | ok cred => exact absurd (Call.verified_iff.mpr ⟨cred, hauth⟩) h

/-- What the calls that do not verify leave of a transcript. -/
theorem transcript_filter_verified (hmac : List UInt8 → List UInt8 → List UInt8)
    (self : AuthInterceptor) (calls : List Call) :
    transcript hmac self (calls.filter (·.verified hmac self.secret)) =
        (transcript hmac self calls).filter (·.call.verified hmac self.secret) ∧
      self.after hmac (calls.filter (·.verified hmac self.secret)) = self.after hmac calls := by
  induction calls generalizing self with
  | nil => exact ⟨rfl, rfl⟩
  | cons c calls ih =>
    have htail := ih (self.serve hmac c).2
    rw [AuthInterceptor.secret_serve] at htail
    by_cases hc : c.verified hmac self.secret = true
    · rw [List.filter_cons_of_pos hc, transcript, transcript,
        List.filter_cons_of_pos (p := fun e : Entry => e.call.verified hmac self.secret) hc, htail.1]
      exact ⟨rfl, htail.2⟩
    · -- the call is gone on the left and has changed nothing on the right
      rw [AuthInterceptor.serve_of_not_verified hc] at htail
      rw [List.filter_cons_of_neg hc, transcript,
        List.filter_cons_of_neg (p := fun e : Entry => e.call.verified hmac self.secret) hc,
        AuthInterceptor.after, AuthInterceptor.serve_of_not_verified hc]
      exact htail

/-- The tracker holds only what it held before and the nonces of calls that verified. -/
theorem mem_nonces_after {nonce : String} (h : nonce ∈ (self.after hmac calls).seenNonces.nonces) :
    nonce ∈ self.seenNonces.nonces ∨ ∃ d ∈ calls, d.verified hmac self.secret = true ∧
      ∃ cred, readCredentials d.request = .ok cred ∧ cred.nonce = nonce := by
  induction calls generalizing self with
  | nil => exact .inl h
  | cons c calls ih =>
    rcases ih h with hmem | ⟨d, hd, hver, hnonce⟩
    · rw [AuthInterceptor.serve] at hmem
      cases hauth : self.authenticate hmac c.request c.verifiedAt with
      | error e =>
        rw [AuthInterceptor.call_of_error hauth] at hmem
        exact .inl hmem
      | ok cred =>
        rw [AuthInterceptor.call_of_ok hauth] at hmem
        rcases (NonceTracker.mem_checkAndInsert _ _ _ _).mp hmem with heq | ⟨-, hmem⟩
        · have hread := ((AuthInterceptor.authenticate_eq_ok_iff hmac).mp hauth).1
          exact .inr ⟨c, List.mem_cons_self, Call.verified_iff.mpr ⟨cred, hauth⟩, cred, hread,
            heq.symm⟩
        · exact .inl hmem
    · rw [AuthInterceptor.secret_serve] at hver
      exact .inr ⟨d, List.mem_cons_of_mem _ hd, hver, hnonce⟩

/-- A request that verifies and whose nonce the tracker does not hold is passed on unchanged. -/
theorem AuthInterceptor.serve_eq_ok {cred : Credentials}
    (hauth : self.authenticate hmac c.request c.verifiedAt = .ok cred)
    (hnew : cred.nonce ∉ self.seenNonces.nonces) : (self.serve hmac c).1 = .ok c.request := by
  have hfresh : (self.seenNonces.checkAndInsert cred.nonce c.insertedAt).1 = true :=
    (NonceTracker.checkAndInsert_fst _ _ _).mpr (.inr hnew)
  rw [serve, call_of_ok hauth, if_pos hfresh]

theorem AuthInterceptor.secret_after : (self.after hmac calls).secret = self.secret := by
  induction calls generalizing self with
  | nil => rfl
  | cons c calls ih => exact ih.trans secret_serve

/-- A request that verifies is accepted if no earlier request that verified had its nonce. -/
theorem serve_after_eq_ok {cred : Credentials} (hver : c.verified hmac self.secret = true)
    (hread : readCredentials c.request = .ok cred) (hnew : cred.nonce ∉ self.seenNonces.nonces)
    (hearlier : ∀ d ∈ calls, d.verified hmac self.secret = true →
      ∀ cred', readCredentials d.request = .ok cred' → cred'.nonce ≠ cred.nonce) :
    ((self.after hmac calls).serve hmac c).1 = .ok c.request := by
  have hsecret : (self.after hmac calls).secret = self.secret := AuthInterceptor.secret_after
  rw [← hsecret] at hver
  obtain ⟨cred', hauth⟩ := Call.verified_iff.mp hver
  have hread' := ((AuthInterceptor.authenticate_eq_ok_iff hmac).mp hauth).1
  rw [hread, Except.ok.injEq] at hread'
  subst hread'
  refine AuthInterceptor.serve_eq_ok hauth fun hmem => ?_
  rcases mem_nonces_after hmem with hmem | ⟨d, hd, hver', cred', hd', heq⟩
  · exact hnew hmem
  · exact hearlier d hd hver' cred' hd' heq

/-- **Requests that do not verify influence nobody.** For every interceptor and every sequence of
calls, deleting the calls that fail the header extraction, the timestamp parse or `verify_request`
leaves every other entry of the transcript and the interceptor at the end unchanged. And after any
calls, a request that verifies is accepted unless the tracker held its nonce from the start or an
earlier call that verified had it. -/
theorem unverified_do_not_interfere (hmac : List UInt8 → List UInt8 → List UInt8)
    (self : AuthInterceptor) (calls : List Call) :
    transcript hmac self (calls.filter (·.verified hmac self.secret)) =
        (transcript hmac self calls).filter (·.call.verified hmac self.secret) ∧
      self.after hmac (calls.filter (·.verified hmac self.secret)) = self.after hmac calls ∧
      ∀ (c : Call) (cred : Credentials), c.verified hmac self.secret = true →
        readCredentials c.request = .ok cred → cred.nonce ∉ self.seenNonces.nonces →
        (∀ d ∈ calls, d.verified hmac self.secret = true →
          ∀ cred', readCredentials d.request = .ok cred' → cred'.nonce ≠ cred.nonce) →
        ((self.after hmac calls).serve hmac c).1 = .ok c.request := by
  obtain ⟨htranscript, hafter⟩ := transcript_filter_verified hmac self calls
  exact ⟨htranscript, hafter, fun c cred hver hread hnew hearlier =>
    serve_after_eq_ok hver hread hnew hearlier⟩

/-- A request that carries the nonce of the sample request and another signature. -/
def forgedRequest : Request :=
  ⟨[("x-pulse-node-id", asBytes "node-01"), ("x-pulse-timestamp", asBytes "1000100"),
    ("x-pulse-nonce", asBytes "00112233445566778899aabbccddeeff"),
    ("x-pulse-signature", asBytes "00")]⟩

/-- A forged request does not spend the nonce of the sample request. -/
theorem sampleRequest_accepted_after_forged :
    (((AuthInterceptor.new sampleSecret 1000000).after sampleHmac
      [⟨forgedRequest, 1000100, 1000100⟩]).serve sampleHmac
        ⟨sampleRequest, 1000100, 1000100⟩).1 = .ok sampleRequest := by
  refine (unverified_do_not_interfere sampleHmac (.new sampleSecret 1000000)
    [⟨forgedRequest, 1000100, 1000100⟩]).2.2 ⟨sampleRequest, 1000100, 1000100⟩
      ⟨"node-01", 1000100, "00112233445566778899aabbccddeeff",
        "812e952fd6dadd436017214955b79b9d47f0d450d13350b2bc0d28fec9345b6b"⟩
      (by decide) (by decide) (by decide) ?_
  intro d hd hver
  rw [List.mem_singleton.mp hd] at hver
  exact absurd hver (by decide)

end Hakuraku.Auth
