import Hakuraku.Core.Replay

/-!
# The signer and the verifier

Reference: `pulse-core/src/auth.rs`, `inject_auth_headers`, `verify_request` and
`AuthInterceptor::call`.

The agent signs every request with `inject_auth_headers`. The timestamp travels as decimal text and
the signature as hexadecimal text, in headers that admit visible ASCII only, and the server rebuilds
the signed message from the texts it reads. What the agent writes is what the server reads, so that
the clocks alone decide (`signed_request_verdict`).

The server's subtraction and absolute value wrap. `checkTimestamp_exact_iff` says where the check
and the distance of the two times part: at a single timestamp for every reading of the clock, whose
difference from it is the least `i64` value, which `abs` leaves negative.
-/

namespace Hakuraku.Auth

open Text (asBytes)

variable (hmac : List UInt8 → List UInt8 → List UInt8)

/-! ## The agent's side -/

/-- A byte that `HeaderValue::from_str` admits. -/
def isHeaderByte (b : UInt8) : Bool := (32 ≤ b && b ≠ 127) || b = 9

/-- `str::parse` to a metadata value. -/
def parseMetadata (text : String) : Option (List UInt8) :=
  if (asBytes text).all isHeaderByte then some (asBytes text) else none

/-- `metadata_mut().insert`: the value takes the place of all values of the field. -/
def Request.insert (request : Request) (key : String) (value : List UInt8) : Request :=
  ⟨request.metadata.filter (fun field => field.1 ≠ key) ++ [(key, value)]⟩

/-- Set a header to a text, or fail with an internal error if the text is no metadata value. -/
def setHeader (key text failure : String) (request : Request) : Except Status Request :=
  match parseMetadata text with
  | none => .error (.internal failure)
  | some value => .ok (request.insert key value)

/-- `generate_nonce` from the bytes in its buffer, which come from the system's random source or, if
that fails, from a hash. -/
def generateNonce (buf : Vector UInt8 16) : String := Hex.encode buf.toList

/-- `inject_auth_headers`, with its reading of the clock and the bytes of its nonce. -/
def injectAuthHeaders (secret : List UInt8) (nodeId : String) (request : Request) (now : Int64)
    (buf : Vector UInt8 16) : Except Status Request :=
  match unixSecs now with
  | none => .error (.internal "system clock error")
  | some timestamp => do
    let nonce := generateNonce buf
    let signature := signRequest hmac secret nodeId timestamp nonce
    let request ← setHeader "x-pulse-node-id" nodeId "invalid node id" request
    let request ← setHeader "x-pulse-timestamp" (toString timestamp) "timestamp format error" request
    let request ← setHeader "x-pulse-nonce" nonce "nonce format error" request
    setHeader "x-pulse-signature" signature "signature format error" request

/-! ## What is written is what is read -/

/-- A text of visible ASCII characters, spaces included. -/
def VisibleAscii (text : String) : Prop := ∀ c ∈ text.toList, 32 ≤ c.toNat ∧ c.toNat < 127

instance (text : String) : Decidable (VisibleAscii text) :=
  List.decidableBAll (fun c : Char => 32 ≤ c.toNat ∧ c.toNat < 127) text.toList

theorem visibleAscii_encode (bytes : List UInt8) : VisibleAscii (Hex.encode bytes) := by
  intro c hc
  obtain ⟨hlo, hhi⟩ := Hex.toNat_of_mem_encode hc
  exact ⟨by omega, hhi⟩

theorem visibleAscii_toString (t : Int64) : VisibleAscii (toString t) := by
  intro c hc
  rcases Decimal.isDigit_or_eq_of_mem_toString (z := t.toInt) hc with hd | rfl
  · rw [Char.isDigit, Bool.and_eq_true, decide_eq_true_eq, decide_eq_true_eq] at hd
    have hlo : 48 ≤ c.toNat := UInt32.le_iff_toNat_le.mp hd.1
    have hhi : c.toNat ≤ 57 := UInt32.le_iff_toNat_le.mp hd.2
    omega
  · decide

/-- The bytes of a visible text are its characters, and each is admitted in a header. -/
theorem VisibleAscii.mem_asBytes {text : String} (h : VisibleAscii text) {b : UInt8}
    (hb : b ∈ asBytes text) : 32 ≤ b.toNat ∧ b.toNat < 127 := by
  rw [Text.asBytes_of_ascii fun c hc => (h c hc).2.trans (by decide)] at hb
  obtain ⟨c, hc, rfl⟩ := List.mem_map.mp hb
  obtain ⟨hlo, hhi⟩ := h c hc
  rw [UInt8.toNat_ofNat']
  omega

/-- A visible text is a metadata value. -/
theorem VisibleAscii.parseMetadata {text : String} (h : VisibleAscii text) :
    parseMetadata text = some (asBytes text) := by
  refine if_pos (List.all_eq_true.mpr fun b hb => ?_)
  obtain ⟨hlo, hhi⟩ := h.mem_asBytes hb
  have hne : b ≠ 127 := by
    rintro rfl
    exact absurd hhi (by decide)
  have hle : 32 ≤ b := UInt8.le_iff_toNat_le.mpr hlo
  simp [isHeaderByte, hle, hne]

/-- And the server reads that value as the same text. -/
theorem VisibleAscii.toStr {text : String} (h : VisibleAscii text) :
    toStr (asBytes text) = some text := by
  have hall : (asBytes text).all isVisibleAscii = true := by
    refine List.all_eq_true.mpr fun b hb => ?_
    obtain ⟨hlo, hhi⟩ := h.mem_asBytes hb
    have hle : 32 ≤ b := UInt8.le_iff_toNat_le.mpr hlo
    have hlt : b < 127 := UInt8.lt_iff_toNat_lt.mpr hhi
    simp [isVisibleAscii, hle, hlt]
  have hchars : (asBytes text).map (fun b => Char.ofNat b.toNat) = text.toList := by
    rw [Text.asBytes_of_ascii fun c hc => (h c hc).2.trans (by decide), List.map_map]
    refine (List.map_congr_left fun c hc => ?_).trans (List.map_id _)
    show Char.ofNat (UInt8.ofNat c.toNat).toNat = c
    rw [UInt8.toNat_ofNat', Nat.mod_eq_of_lt ((h c hc).2.trans (by decide)), Char.ofNat_toNat]
  rw [Auth.toStr, if_pos hall, hchars, String.ofList_toList]

theorem VisibleAscii.setHeader {key text failure : String} {request : Request}
    (h : VisibleAscii text) :
    setHeader key text failure request = .ok (request.insert key (asBytes text)) := by
  rw [Auth.setHeader, h.parseMetadata]

@[simp] theorem Request.get_insert_self (request : Request) (key : String) (value : List UInt8) :
    (request.insert key value).get key = some value := by
  have hnone : (request.metadata.filter fun field => field.1 ≠ key).find?
      (fun field => field.1 = key) = none := by
    simp
  rw [get, insert, List.find?_append, hnone]
  simp

theorem Request.get_insert_of_ne (request : Request) {key key' : String} (value : List UInt8)
    (h : key ≠ key') : (request.insert key value).get key' = request.get key' := by
  have hfields : ((request.metadata.filter fun field => field.1 ≠ key).find?
      fun field => field.1 = key') = request.metadata.find? fun field => field.1 = key' := by
    rw [List.find?_filter]
    congr 1
    funext field
    by_cases hkey : field.1 = key'
    · simp [hkey, h.symm]
    · simp [hkey]
  rw [get, get, insert, List.find?_append, hfields]
  simp [h]

/-- A header that was set to a visible text is read as that text. -/
theorem extractHeader_insert_self {request : Request} {key text : String} (h : VisibleAscii text) :
    extractHeader (request.insert key (asBytes text)) key = .ok text := by
  simp only [extractHeader, Request.get_insert_self, h.toStr]

theorem extractHeader_insert_of_ne {request : Request} {key key' : String} {value : List UInt8}
    (h : key ≠ key') : extractHeader (request.insert key value) key' = extractHeader request key' := by
  simp only [extractHeader, Request.get_insert_of_ne request value h]

/-- **The server reads what the agent wrote.** -/
theorem readCredentials_injectAuthHeaders (secret : List UInt8) {nodeId : String}
    (request : Request) {now : Int64} (buf : Vector UInt8 16) (hid : VisibleAscii nodeId)
    (hnow : 0 ≤ now) :
    ∃ signed, injectAuthHeaders hmac secret nodeId request now buf = .ok signed ∧
      readCredentials signed = .ok ⟨nodeId, now, generateNonce buf,
        signRequest hmac secret nodeId now (generateNonce buf)⟩ := by
  have hts := visibleAscii_toString now
  have hnonce : VisibleAscii (generateNonce buf) := visibleAscii_encode _
  have hsig : VisibleAscii (signRequest hmac secret nodeId now (generateNonce buf)) :=
    visibleAscii_encode _
  have hclock : unixSecs now = some now := if_pos hnow
  refine ⟨(((request.insert "x-pulse-node-id" (asBytes nodeId)).insert
    "x-pulse-timestamp" (asBytes (toString now))).insert
    "x-pulse-nonce" (asBytes (generateNonce buf))).insert
    "x-pulse-signature" (asBytes (signRequest hmac secret nodeId now (generateNonce buf))), ?_, ?_⟩
  · simp only [injectAuthHeaders, hclock, hid.setHeader, hts.setHeader, hnonce.setHeader,
      hsig.setHeader, bind, Except.bind]
  · simp (disch := decide) only [readCredentials, extractHeader_insert_of_ne,
      extractHeader_insert_self hid, extractHeader_insert_self hts,
      extractHeader_insert_self hnonce, extractHeader_insert_self hsig, Except.mapError,
      Decimal.parseI64_toString, bind, Except.bind]

/-- What the agent signs passes the signature check. -/
theorem checkSignature_signRequest (secret : List UInt8) (nodeId : String) (timestamp : Int64)
    (nonce : String) :
    checkSignature hmac secret nodeId timestamp nonce
      (signRequest hmac secret nodeId timestamp nonce) = .ok () := by
  rw [checkSignature_eq_ok_iff, signRequest, Hex.decode_encode]

/-- **Agent and server agree.** Whatever the secret, the nonce and the request, a request that
`inject_auth_headers` has signed for a node id of visible ASCII characters is accepted unchanged by
an interceptor with the same secret whose clock differs by at most the skew and whose tracker does
not hold the nonce. If the clocks differ by more, it is rejected. -/
theorem signed_request_verdict (hmac : List UInt8 → List UInt8 → List UInt8)
    (self : AuthInterceptor) (nodeId : String) (request : Request) (buf : Vector UInt8 16)
    (signedAt verifiedAt insertedAt : Int64) (hid : VisibleAscii nodeId) (hsigned : 0 ≤ signedAt)
    (hverified : 0 ≤ verifiedAt) :
    ∃ signed, injectAuthHeaders hmac self.secret nodeId request signedAt buf = .ok signed ∧
      (|verifiedAt.toInt - signedAt.toInt| ≤ 60 →
        generateNonce buf ∉ self.seenNonces.nonces →
        (self.call hmac signed verifiedAt insertedAt).1 = .ok signed) ∧
      (60 < |verifiedAt.toInt - signedAt.toInt| →
        ∃ status, self.call hmac signed verifiedAt insertedAt = (.error status, self)) := by
  obtain ⟨signed, hinject, hread⟩ :=
    readCredentials_injectAuthHeaders hmac self.secret request buf hid hsigned
  have hverify : verifyRequest hmac self.secret nodeId signedAt (generateNonce buf)
      (signRequest hmac self.secret nodeId signedAt (generateNonce buf)) verifiedAt = .ok () ↔
        |verifiedAt.toInt - signedAt.toInt| ≤ 60 := by
    rw [verifyRequest_eq_ok_iff, and_iff_left (checkSignature_signRequest hmac _ _ _ _),
      checkTimestamp_eq_ok_iff hverified hsigned]
  refine ⟨signed, hinject, fun hskew hnew => ?_, fun hskew => ?_⟩
  · have hauth := (AuthInterceptor.authenticate_eq_ok_iff hmac).mpr ⟨hread, hverify.mpr hskew⟩
    have hfresh : (self.seenNonces.checkAndInsert (generateNonce buf) insertedAt).1 = true :=
      (NonceTracker.checkAndInsert_fst _ _ _).mpr (.inr hnew)
    rw [AuthInterceptor.call_of_ok hauth, if_pos hfresh]
  · cases hauth : self.authenticate hmac signed verifiedAt with
    | error e => exact ⟨e, AuthInterceptor.call_of_error hauth insertedAt⟩
    | ok c =>
      obtain ⟨hread', hpass⟩ := (AuthInterceptor.authenticate_eq_ok_iff hmac).mp hauth
      rw [hread, Except.ok.injEq] at hread'
      subst hread'
      exact absurd (hverify.mp hpass) (not_le.mpr hskew)

/-- The bytes of the sample request's nonce. -/
def sampleNonce : Vector UInt8 16 :=
  #v[0x00, 0x11, 0x22, 0x33, 0x44, 0x55, 0x66, 0x77, 0x88, 0x99, 0xaa, 0xbb, 0xcc, 0xdd, 0xee, 0xff]

/-- A request signed exactly one skew before the server's reading. -/
theorem signed_request_accepted_at_skew :
    ∃ signed, injectAuthHeaders sampleHmac sampleSecret "node-01" ⟨[]⟩ 1000100 sampleNonce =
        .ok signed ∧
      ((AuthInterceptor.new sampleSecret 1000000).call sampleHmac signed 1000160 1000160).1 =
        .ok signed := by
  obtain ⟨signed, hinject, hok, -⟩ := signed_request_verdict sampleHmac
    (.new sampleSecret 1000000) "node-01" ⟨[]⟩ sampleNonce 1000100 1000160 1000160 (by decide)
    (by decide) (by decide)
  exact ⟨signed, hinject, hok (by decide) (by decide)⟩

/-! ## The freshness check on all of `i64` -/

/-- **The freshness check misses one timestamp.** For a clock below `2 ^ 62` and every `i64`
timestamp, the check passes exactly the timestamps within the skew, unless the timestamp lies
`2 ^ 63` seconds before the clock, and then it does not. -/
theorem checkTimestamp_exact_iff (now timestamp : Int64) (hlo : 0 ≤ now.toInt)
    (hhi : now.toInt < 2 ^ 62) :
    (checkTimestamp now timestamp = .ok () ↔ |now.toInt - timestamp.toInt| ≤ 60) ↔
      timestamp.toInt ≠ now.toInt - 2 ^ 63 := by
  have hnow : 0 ≤ now := Int64.le_iff_toInt_le.mpr hlo
  have hts := timestamp.le_toInt
  have hts' := timestamp.toInt_lt
  rw [checkTimestamp_eq_ok_iff_drift hnow]
  by_cases hwrap : now.toInt - timestamp.toInt < 2 ^ 63
  · -- nothing overflows
    have hsub : (now - timestamp).toInt = now.toInt - timestamp.toInt :=
      Wrapping.toInt_sub (by omega) hwrap
    rw [Wrapping.toInt_abs (by omega), hsub]
    exact iff_of_true Iff.rfl (by omega)
  · have hsub : (now - timestamp).toInt = now.toInt - timestamp.toInt - 2 ^ 64 :=
      Wrapping.toInt_sub_of_le (by omega) (by omega)
    have hfar : ¬ |now.toInt - timestamp.toInt| ≤ 60 := by
      rw [abs_of_nonneg (by omega)]
      omega
    rw [iff_false_right hfar]
    by_cases hmin : now.toInt - timestamp.toInt = 2 ^ 63
    · -- the difference is the least value, and so is its absolute value
      have habs := Wrapping.toInt_abs_of_eq (hsub.trans (by omega))
      exact iff_of_false (by omega) (by omega)
    · rw [Wrapping.toInt_abs (by omega), hsub, abs_of_nonpos (by omega)]
      exact iff_of_true (by omega) (by omega)

theorem checkTimestamp_exact_at_skew :
    checkTimestamp 1000 940 = .ok () ↔ |(1000 : Int64).toInt - (940 : Int64).toInt| ≤ 60 :=
  (checkTimestamp_exact_iff 1000 940 (by decide) (by decide)).mpr (by decide)

/-- At second 1000 the check passes a timestamp that lies `2 ^ 63` seconds back. -/
theorem checkTimestamp_passes_distant :
    checkTimestamp 1000 (-9223372036854774808) = .ok () ∧
      ¬ |(1000 : Int64).toInt - (-9223372036854774808 : Int64).toInt| ≤ 60 := by
  decide

end Hakuraku.Auth
