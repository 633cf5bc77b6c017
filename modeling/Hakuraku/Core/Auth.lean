import Hakuraku.Lib.Text
import Hakuraku.Lib.Wrapping
import Mathlib.Data.Finset.Insert

/-!
# HMAC authentication of gRPC requests

Reference: `pulse-core/src/auth.rs` and `pulse-core/src/error.rs`.

Every request carries four metadata headers: the node id, a timestamp in seconds, a nonce and the
hexadecimal HMAC of `"{node_id}:{timestamp}:{nonce}"`. `AuthInterceptor.call` reads them, checks the
timestamp and the signature (`verifyRequest`), and finally consults the set of nonces it has seen
(`NonceTracker.checkAndInsert`).

* HMAC-SHA256 is the parameter `hmac`, from a key and a message to a tag. Keys of any length are
  accepted, so the source's `InvalidKey` path is never taken.
* `i64` is `Int64`, whose arithmetic wraps as the release profile's does.
* Each function that reads the clock takes the reading as an argument: the seconds of
  `SystemTime::now()`, negative before the epoch.
* The mutex around the tracker is poisoned only by a panic while it is held. `checkAndInsert` does
  not panic, so the lock always succeeds.
-/

namespace Hakuraku.Auth

open Text (asBytes)

/-- `MAX_CLOCK_SKEW`: the maximum clock skew between agent and server, in seconds. -/
def maxClockSkew : Int64 := 60

/-- `AuthError`. -/
inductive AuthError where
  | missingHeader (name : String)
  | invalidSignature
  | expiredTimestamp (drift max : Int64)
  | invalidKey
  | clockError
deriving DecidableEq

/-- The `Display` text of an `AuthError`. -/
def AuthError.display : AuthError → String
  | .missingHeader name => "missing required header: " ++ name
  | .invalidSignature => "invalid HMAC signature"
  | .expiredTimestamp drift max =>
    "timestamp drift " ++ toString drift ++ "s exceeds maximum " ++ toString max ++ "s"
  | .invalidKey => "invalid HMAC key"
  | .clockError => "system clock error"

/-- The `tonic::Code`s the interceptors answer with. -/
inductive Code where
  | unauthenticated
  | internal
deriving DecidableEq

/-- `tonic::Status`. -/
structure Status where
  code : Code
  message : String
deriving DecidableEq

def Status.unauthenticated (message : String) : Status := ⟨.unauthenticated, message⟩

def Status.internal (message : String) : Status := ⟨.internal, message⟩

/-! ## Metadata -/

/-- `tonic::Request<()>`: the header fields in order. A name may occur more than once. -/
structure Request where
  metadata : List (String × List UInt8)
deriving DecidableEq

/-- `metadata().get(key)`: the first value of the field. -/
def Request.get (request : Request) (key : String) : Option (List UInt8) :=
  (request.metadata.find? fun field => field.1 = key).map (·.2)

/-- A byte that `HeaderValue::to_str` admits: visible ASCII, a space or a tab. -/
def isVisibleAscii (b : UInt8) : Bool := (32 ≤ b && b < 127) || b = 9

/-- `HeaderValue::to_str`. -/
def toStr (value : List UInt8) : Option String :=
  if value.all isVisibleAscii then
    some (String.ofList (value.map fun b => Char.ofNat b.toNat))
  else none

/-- `AuthInterceptor::extract_header`. -/
def extractHeader (request : Request) (key : String) : Except AuthError String :=
  match request.get key with
  | none => .error (.missingHeader key)
  | some value =>
    match toStr value with
    | none => .error (.missingHeader key)
    | some s => .ok s

/-! ## Signing and verifying -/

/-- `duration_since(UNIX_EPOCH)` in whole seconds; an error before the epoch. -/
def unixSecs (now : Int64) : Option Int64 := if 0 ≤ now then some now else none

/-- The signed text `"{node_id}:{timestamp}:{nonce}"`. -/
def signedMessage (nodeId : String) (timestamp : Int64) (nonce : String) : String :=
  nodeId ++ ":" ++ toString timestamp ++ ":" ++ nonce

variable (hmac : List UInt8 → List UInt8 → List UInt8)

/-- `sign_request`. -/
def signRequest (secret : List UInt8) (nodeId : String) (timestamp : Int64) (nonce : String) :
    String :=
  Hex.encode (hmac secret (asBytes (signedMessage nodeId timestamp nonce)))

/-- The timestamp check of `verify_request`: the drift, or the error if it is too large. -/
def checkTimestamp (now timestamp : Int64) : Except AuthError Unit :=
  match unixSecs now with
  | none => .error .clockError
  | some now =>
    let drift := (now - timestamp).abs
    if drift > maxClockSkew then .error (.expiredTimestamp drift maxClockSkew) else .ok ()

/-- The signature check of `verify_request`. `verify_slice` compares whole tags. -/
def checkSignature (secret : List UInt8) (nodeId : String) (timestamp : Int64)
    (nonce signature : String) : Except AuthError Unit :=
  match Hex.decode signature with
  | none => .error .invalidSignature
  | some expected =>
    if hmac secret (asBytes (signedMessage nodeId timestamp nonce)) = expected then .ok ()
    else .error .invalidSignature

/-- `verify_request`: the timestamp first, then the signature. -/
def verifyRequest (secret : List UInt8) (nodeId : String) (timestamp : Int64)
    (nonce signature : String) (now : Int64) : Except AuthError Unit := do
  checkTimestamp now timestamp
  checkSignature hmac secret nodeId timestamp nonce signature

/-- The timestamp check compares the drift as it was computed. -/
theorem checkTimestamp_eq_ok_iff_drift {now timestamp : Int64} (hnow : 0 ≤ now) :
    checkTimestamp now timestamp = .ok () ↔ (now - timestamp).abs.toInt ≤ 60 := by
  have hmax : maxClockSkew.toInt = 60 := by decide
  have hiff : (now - timestamp).abs > maxClockSkew ↔ 60 < (now - timestamp).abs.toInt := by
    rw [gt_iff_lt, Int64.lt_iff_toInt_lt, hmax]
  rw [checkTimestamp, unixSecs, if_pos hnow]
  by_cases hlt : 60 < (now - timestamp).abs.toInt
  · simp [hiff.mpr hlt, not_le.mpr hlt]
  · simp [mt hiff.mp hlt, not_lt.mp hlt]

/-- For times from the epoch on, the timestamp check compares the true distance. -/
theorem checkTimestamp_eq_ok_iff {now timestamp : Int64} (hnow : 0 ≤ now) (hts : 0 ≤ timestamp) :
    checkTimestamp now timestamp = .ok () ↔ |now.toInt - timestamp.toInt| ≤ 60 := by
  have hn : 0 ≤ now.toInt := Int64.le_iff_toInt_le.mp hnow
  have ht : 0 ≤ timestamp.toInt := Int64.le_iff_toInt_le.mp hts
  have hn' := now.toInt_lt
  have ht' := timestamp.toInt_lt
  have hsub : (now - timestamp).toInt = now.toInt - timestamp.toInt :=
    Wrapping.toInt_sub (by omega) (by omega)
  rw [checkTimestamp_eq_ok_iff_drift hnow, Wrapping.toInt_abs (by omega), hsub]

/-- A request verifies exactly when its timestamp and its signature pass. -/
theorem verifyRequest_eq_ok_iff {secret : List UInt8} {nodeId : String} {timestamp : Int64}
    {nonce signature : String} {now : Int64} :
    verifyRequest hmac secret nodeId timestamp nonce signature now = .ok () ↔
      checkTimestamp now timestamp = .ok () ∧
        checkSignature hmac secret nodeId timestamp nonce signature = .ok () := by
  rw [verifyRequest]
  cases h : checkTimestamp now timestamp with
  | error e => simp [bind, Except.bind]
  | ok u => simp [bind, Except.bind]

/-- A signature passes exactly when it decodes to the tag of the signed text. -/
theorem checkSignature_eq_ok_iff {secret : List UInt8} {nodeId : String} {timestamp : Int64}
    {nonce signature : String} :
    checkSignature hmac secret nodeId timestamp nonce signature = .ok () ↔
      Hex.decode signature
        = some (hmac secret (asBytes (signedMessage nodeId timestamp nonce))) := by
  rw [checkSignature]
  cases h : Hex.decode signature with
  | none => simp
  | some expected =>
    simp only [Option.some.injEq]
    split
    next heq => simp [heq]
    next hne => simpa using fun heq => hne heq.symm

/-! ## The nonce tracker -/

/-- `NonceTracker`. -/
structure NonceTracker where
  nonces : Finset String
  lastPurge : Int64
deriving DecidableEq

/-- `NonceTracker::new`. -/
def NonceTracker.new (now : Int64) : NonceTracker := ⟨∅, (unixSecs now).getD 0⟩

/-- The purge condition: more than twice the skew since the last purge. -/
def NonceTracker.purges (self : NonceTracker) (now : Int64) : Bool :=
  (unixSecs now).getD 0 - self.lastPurge > maxClockSkew * 2

/-- `NonceTracker::check_and_insert`: whether the nonce is new, and the tracker after. -/
def NonceTracker.checkAndInsert (self : NonceTracker) (nonce : String) (now : Int64) :
    Bool × NonceTracker :=
  let self := if self.purges now then ⟨∅, (unixSecs now).getD 0⟩ else self
  (nonce ∉ self.nonces, ⟨insert nonce self.nonces, self.lastPurge⟩)

/-- The answer of `checkAndInsert`: a purge forgets every nonce. -/
theorem NonceTracker.checkAndInsert_fst (self : NonceTracker) (nonce : String) (now : Int64) :
    (self.checkAndInsert nonce now).1 = true ↔ self.purges now = true ∨ nonce ∉ self.nonces := by
  by_cases h : self.purges now = true <;> simp [checkAndInsert, h]

/-- The nonces after `checkAndInsert`. -/
theorem NonceTracker.mem_checkAndInsert (self : NonceTracker) (nonce m : String) (now : Int64) :
    m ∈ (self.checkAndInsert nonce now).2.nonces ↔
      m = nonce ∨ (self.purges now = false ∧ m ∈ self.nonces) := by
  by_cases h : self.purges now = true <;> simp [checkAndInsert, h]

/-! ## The interceptor -/

/-- What the four headers of a request say. -/
structure Credentials where
  nodeId : String
  timestamp : Int64
  nonce : String
  signature : String
deriving DecidableEq

/-- The four header reads and the timestamp parse of `AuthInterceptor::call`. -/
def readCredentials (request : Request) : Except Status Credentials := do
  let header := fun key =>
    (extractHeader request key).mapError fun e => Status.unauthenticated e.display
  let nodeId ← header "x-pulse-node-id"
  let timestampStr ← header "x-pulse-timestamp"
  let nonce ← header "x-pulse-nonce"
  let signature ← header "x-pulse-signature"
  match Decimal.parseI64 timestampStr with
  | none => .error (.unauthenticated "invalid timestamp format")
  | some timestamp => .ok ⟨nodeId, timestamp, nonce, signature⟩

/-- `verify_request` on what the headers say. -/
def Credentials.verify (secret : List UInt8) (c : Credentials) (now : Int64) :
    Except AuthError Unit :=
  verifyRequest hmac secret c.nodeId c.timestamp c.nonce c.signature now

/-- `AuthInterceptor`. Clones share the tracker, so one value stands for all of them. -/
structure AuthInterceptor where
  secret : List UInt8
  seenNonces : NonceTracker
deriving DecidableEq

/-- `AuthInterceptor::new`. -/
def AuthInterceptor.new (secret : List UInt8) (now : Int64) : AuthInterceptor :=
  ⟨secret, .new now⟩

/-- `AuthInterceptor::call` up to the replay check: the credentials of a request that verifies. -/
def AuthInterceptor.authenticate (self : AuthInterceptor) (request : Request) (now : Int64) :
    Except Status Credentials :=
  match readCredentials request with
  | .error status => .error status
  | .ok c =>
    match c.verify hmac self.secret now with
    | .error e => .error (.unauthenticated e.display)
    | .ok () => .ok c

/-- `AuthInterceptor::call`. The clock is read twice: by `verify_request` and, if that succeeds, by
`check_and_insert`. -/
def AuthInterceptor.call (self : AuthInterceptor) (request : Request)
    (verifiedAt insertedAt : Int64) : Except Status Request × AuthInterceptor :=
  match self.authenticate hmac request verifiedAt with
  | .error status => (.error status, self)
  | .ok c =>
    let (isNew, tracker) := self.seenNonces.checkAndInsert c.nonce insertedAt
    (if isNew then .ok request else .error (.unauthenticated "replayed nonce"),
      { self with seenNonces := tracker })

/-! ### What a call does -/

theorem AuthInterceptor.authenticate_eq_ok_iff {self : AuthInterceptor} {request : Request}
    {now : Int64} {c : Credentials} :
    self.authenticate hmac request now = .ok c ↔
      readCredentials request = .ok c ∧ c.verify hmac self.secret now = .ok () := by
  rw [authenticate]
  cases hread : readCredentials request with
  | error e => simp
  | ok c' =>
    cases hverify : c'.verify hmac self.secret now with
    | error e =>
      simp only [hverify, reduceCtorEq, Except.ok.injEq, false_iff, not_and]
      rintro rfl
      simp [hverify]
    | ok u =>
      simp only [hverify, Except.ok.injEq]
      constructor
      · rintro rfl
        exact ⟨rfl, hverify⟩
      · exact And.left

variable {hmac} in
theorem AuthInterceptor.call_of_error {self : AuthInterceptor} {request : Request} {e : Status}
    {verifiedAt : Int64} (h : self.authenticate hmac request verifiedAt = .error e)
    (insertedAt : Int64) :
    self.call hmac request verifiedAt insertedAt = (.error e, self) := by
  rw [call, h]

variable {hmac} in
theorem AuthInterceptor.call_of_ok {self : AuthInterceptor} {request : Request} {c : Credentials}
    {verifiedAt : Int64} (h : self.authenticate hmac request verifiedAt = .ok c)
    (insertedAt : Int64) :
    self.call hmac request verifiedAt insertedAt =
      (if (self.seenNonces.checkAndInsert c.nonce insertedAt).1 then .ok request
        else .error (.unauthenticated "replayed nonce"),
        { self with seenNonces := (self.seenNonces.checkAndInsert c.nonce insertedAt).2 }) := by
  rw [call, h]

/-- A call is accepted exactly when the request verifies and its nonce is new to the tracker. -/
theorem AuthInterceptor.call_isOk_iff {self : AuthInterceptor} {request : Request}
    {verifiedAt insertedAt : Int64} :
    (self.call hmac request verifiedAt insertedAt).1.isOk = true ↔
      ∃ c, self.authenticate hmac request verifiedAt = .ok c ∧
        (self.seenNonces.purges insertedAt = true ∨ c.nonce ∉ self.seenNonces.nonces) := by
  cases h : self.authenticate hmac request verifiedAt with
  | error e => simp [call_of_error h, Except.isOk, Except.toBool]
  | ok c =>
    simp only [call_of_ok h, Except.ok.injEq, exists_eq_left',
      ← NonceTracker.checkAndInsert_fst]
    split <;> simp_all [Except.isOk, Except.toBool]

end Hakuraku.Auth
