import Hakuraku.Core.Agreement
import Hakuraku.Lib.Urlencoded

/-!
# Authentication of HTTP requests

Reference: `pulse-server/src/api.rs`, `Claims::from_request_parts` and `validate_token`;
`pulse-server/src/ws.rs`, `WsQuery`.

A request carries the secret in the field `Authorization`, in the field `x-pulse-auth-token` or as the
parameter `token` of its query. The three are tried in turn, and what is in one of them does not
matter to the others.

The query is split by hand: the token is what follows `token=` in the first part that begins so, as
it is written. The other parameter of `/ws`, `node_id`, goes through `Query`, which reads the query as
form-encoded text. The two readings of a token part where it is written with an escape or a plus sign,
and where a parameter before it is a token in another spelling (`ReadsAlike`).

The header map is a list of fields with names in lower case. The counter of failures is left out.
-/

namespace Hakuraku.Server

open Text (asBytes)

/-- `Parts`, as far as `Claims` reads them. -/
structure Parts where
  headers : List (String × List UInt8)
  /-- `uri.query()`. -/
  query : Option String

/-- The status codes of a rejection. -/
inductive Rejection where
  | internalServerError
  | unauthorized
deriving DecidableEq

/-- `headers.get(name)`: the first value of the field. -/
def Parts.get (parts : Parts) (name : String) : Option (List UInt8) :=
  (parts.headers.find? fun field => field.1 = name).map (·.2)

/-- `validate_token`. -/
def validateToken (token expected : String) : Bool :=
  if (asBytes token).length ≠ (asBytes expected).length then false
  else
    let equal := ((asBytes token).zip (asBytes expected)).foldl
      (fun equal (a, b) => equal ||| (a ^^^ b)) 0
    equal = 0

/-- The token of a query: the rest of the first part that begins with `token=`. -/
def queryToken (query : List Char) : Option (List Char) :=
  (query.splitOn '&').findSome? (Text.stripPrefix "token=".toList)

/-- Where a request may carry the secret. -/
inductive Carrier where
  | authorization
  | authToken
  | query

/-- The credential in a carrier. -/
def Parts.credential (parts : Parts) : Carrier → Option (List Char)
  | .authorization => do
    let value ← parts.get "authorization"
    let text ← Auth.toStr value
    Text.stripPrefix "Bearer ".toList text.toList
  | .authToken => do
    let value ← parts.get "x-pulse-auth-token"
    let text ← Auth.toStr value
    some text.toList
  | .query => queryToken (parts.query.getD "").toList

/-- A carrier holds a valid token. -/
def Parts.accepts (parts : Parts) (secret : String) (carrier : Carrier) : Bool :=
  (parts.credential carrier).any fun token =>
    validateToken (String.ofList (Text.trim token)) secret

/-- `Claims::from_request_parts`, with the value of `PULSE_AUTH_SECRET`. -/
def fromRequestParts (secret : Option String) (parts : Parts) : Except Rejection Unit :=
  match secret with
  | none => .error .internalServerError
  | some secret =>
    if parts.accepts secret .authorization then .ok ()
    else if parts.accepts secret .authToken then .ok ()
    else if parts.accepts secret .query then .ok ()
    else .error .unauthorized

/-! ## What is accepted -/

/-- Differences of bytes that are collected are all nothing only if the bytes agree. -/
theorem foldl_xor_eq_zero_iff {bytes bytes' : List UInt8} (h : bytes.length = bytes'.length)
    (acc : UInt8) :
    (bytes.zip bytes').foldl (fun equal (a, b) => equal ||| (a ^^^ b)) acc = 0 ↔
      acc = 0 ∧ bytes = bytes' := by
  induction bytes generalizing bytes' acc with
  | nil =>
    obtain rfl := List.eq_nil_of_length_eq_zero h.symm
    simp
  | cons a bytes ih =>
    cases bytes' with
    | nil => cases h
    | cons b bytes' =>
      rw [List.zip_cons_cons, List.foldl_cons, ih (Nat.succ.inj h), UInt8.or_eq_zero_iff,
        UInt8.xor_eq_zero_iff, List.cons.injEq, and_assoc]

/-- **`validate_token` accepts the secret and nothing else.** -/
theorem validateToken_iff {token expected : String} :
    validateToken token expected = true ↔ token = expected := by
  rw [validateToken]
  split
  · rename_i hlength
    refine iff_of_false Bool.false_ne_true ?_
    rintro rfl
    exact hlength rfl
  · rename_i hlength
    rw [decide_eq_true_eq, foldl_xor_eq_zero_iff (not_not.mp hlength), Text.asBytes_inj,
      eq_self_iff_true, true_and]

theorem accepts_iff {parts : Parts} {secret : String} {carrier : Carrier} :
    parts.accepts secret carrier = true ↔
      ∃ token, parts.credential carrier = some token ∧ Text.trim token = secret.toList := by
  rw [Parts.accepts, Option.any_eq_true]
  refine exists_congr fun token => and_congr_right fun _ => ?_
  rw [validateToken_iff, ← String.toList_inj, String.toList_ofList]

/-- **A request is accepted exactly if a carrier holds the secret**, up to whitespace around it. -/
theorem fromRequestParts_eq_ok_iff {secret : String} {parts : Parts} :
    fromRequestParts (some secret) parts = .ok () ↔
      ∃ carrier token, parts.credential carrier = some token ∧ Text.trim token = secret.toList := by
  have hcarriers : fromRequestParts (some secret) parts = .ok () ↔
      ∃ carrier, parts.accepts secret carrier = true := by
    rw [fromRequestParts]
    constructor
    · intro h
      split at h
      · exact ⟨_, ‹_›⟩
      · split at h
        · exact ⟨_, ‹_›⟩
        · split at h
          · exact ⟨_, ‹_›⟩
          · cases h
    · rintro ⟨carrier, h⟩
      cases carrier <;> simp [h]
  rw [hcarriers]
  exact exists_congr fun carrier => accepts_iff

/-! ## Independent carriers -/

/-- A carrier holds exactly the secret as its first value. -/
def Parts.Holds (parts : Parts) (secret : String) : Carrier → Prop
  | .authorization => parts.get "authorization" = some (asBytes ("Bearer " ++ secret))
  | .authToken => parts.get "x-pulse-auth-token" = some (asBytes secret)
  | .query => '&' ∉ secret.toList ∧ ∃ before after : List (List Char),
      (∀ pair ∈ before ++ after, '&' ∉ pair) ∧
      (∀ pair ∈ before, "token=".toList.isPrefixOf pair = false) ∧
      parts.query = some (String.ofList
        (['&'].intercalate (before ++ ("token=".toList ++ secret.toList) :: after)))

theorem stripPrefix_append (beginning rest : List Char) :
    Text.stripPrefix beginning (beginning ++ rest) = some rest := by
  rw [Text.stripPrefix, if_pos (List.isPrefixOf_iff_prefix.mpr (List.prefix_append _ _)),
    List.drop_left]

theorem queryToken_intercalate {before after : List (List Char)} {token : List Char}
    (htoken : '&' ∉ token) (hpairs : ∀ pair ∈ before ++ after, '&' ∉ pair)
    (hbefore : ∀ pair ∈ before, "token=".toList.isPrefixOf pair = false) :
    queryToken (['&'].intercalate (before ++ ("token=".toList ++ token) :: after)) = some token := by
  have hsplit : (['&'].intercalate (before ++ ("token=".toList ++ token) :: after)).splitOn '&' =
      before ++ ("token=".toList ++ token) :: after := by
    refine List.splitOn_intercalate '&' (fun pair hpair => ?_) (by simp)
    rcases List.mem_append.mp hpair with h | h
    · exact hpairs pair (List.mem_append_left _ h)
    · rcases List.mem_cons.mp h with rfl | h
      · rw [List.mem_append, not_or]
        exact ⟨by decide, htoken⟩
      · exact hpairs pair (List.mem_append_right _ h)
  have hnone : before.findSome? (Text.stripPrefix "token=".toList) = none := by
    refine List.findSome?_eq_none_iff.mpr fun pair hpair => ?_
    rw [Text.stripPrefix, hbefore pair hpair]
    rfl
  rw [queryToken, hsplit, List.findSome?_append, hnone, List.findSome?_cons, stripPrefix_append]
  rfl

theorem credential_of_holds {parts : Parts} {secret : String} {carrier : Carrier}
    (hvisible : Auth.VisibleAscii secret) (h : parts.Holds secret carrier) :
    parts.credential carrier = some secret.toList := by
  cases carrier with
  | authorization =>
    have hvisible' : Auth.VisibleAscii ("Bearer " ++ secret) := by
      intro c hc
      rw [String.toList_append, List.mem_append] at hc
      rcases hc with hc | hc
      · have hbearer : Auth.VisibleAscii "Bearer " := by decide
        exact hbearer c hc
      · exact hvisible c hc
    have hget : parts.get "authorization" = some (asBytes ("Bearer " ++ secret)) := h
    rw [Parts.credential, hget]
    simp only [Option.bind_eq_bind, Option.bind_some, hvisible'.toStr, String.toList_append]
    exact stripPrefix_append _ _
  | authToken =>
    have hget : parts.get "x-pulse-auth-token" = some (asBytes secret) := h
    rw [Parts.credential, hget]
    simp only [Option.bind_eq_bind, Option.bind_some, hvisible.toStr]
  | query =>
    obtain ⟨hand, before, after, hpairs, hbefore, hquery⟩ := h
    rw [Parts.credential, hquery, Option.getD_some, String.toList_ofList]
    exact queryToken_intercalate hand hpairs hbefore

/-- **Authentication is sound, and the carriers are independent.** A request is accepted only if the
trimmed credential of a carrier is the secret, byte for byte. If a carrier holds the secret itself,
the request is accepted, whatever the other two hold. -/
theorem claims_sound_and_independent (secret : String) (hvisible : Auth.VisibleAscii secret)
    (parts : Parts) :
    (fromRequestParts (some secret) parts = .ok () →
      ∃ carrier token, parts.credential carrier = some token ∧
        asBytes (String.ofList (Text.trim token)) = asBytes secret) ∧
    (Text.trim secret.toList = secret.toList →
      ∀ carrier, parts.Holds secret carrier → fromRequestParts (some secret) parts = .ok ()) := by
  constructor
  · intro h
    obtain ⟨carrier, token, htoken, htrim⟩ := fromRequestParts_eq_ok_iff.mp h
    exact ⟨carrier, token, htoken, by rw [htrim, String.ofList_toList]⟩
  · intro htrim carrier hholds
    exact fromRequestParts_eq_ok_iff.mpr
      ⟨carrier, secret.toList, credential_of_holds hvisible hholds, htrim⟩

/-- A wrong field and a token in the query. -/
theorem claims_sound_and_independent_of_query :
    let parts : Parts := ⟨[("authorization", [0xFF])], some "node_id=a&token=s3cret!&token=no"⟩
    Auth.VisibleAscii "s3cret!" ∧ fromRequestParts (some "s3cret!") parts = .ok () ∧
      ∃ carrier token, parts.credential carrier = some token ∧
        asBytes (String.ofList (Text.trim token)) = asBytes "s3cret!" := by
  intro parts
  have hvisible : Auth.VisibleAscii "s3cret!" := by decide
  have hboth := claims_sound_and_independent "s3cret!" hvisible parts
  have hholds : parts.Holds "s3cret!" .query :=
    ⟨by decide, ["node_id=a".toList], ["token=no".toList], by decide, by decide, by decide⟩
  have hok := hboth.2 (by decide) .query hholds
  exact ⟨hvisible, hok, hboth.1 hok⟩

/-! ## The token as form-encoded text -/

/-- The first parameter named `token` carries the secret, as `Query` would read it. -/
def CarriesSecret (secret : String) (query : List Char) : Prop :=
  ∃ parameter, Urlencoded.named "token".toList query = some parameter ∧
    Text.trim (Urlencoded.value parameter) = secret.toList

/-- A part of the query that is written `token=` is the secret as it stands. -/
def WritesSecret (secret : String) (query : List Char) : Prop :=
  ∃ part ∈ query.splitOn '&', ∃ token, Text.stripPrefix "token=".toList part = some token ∧
    Text.trim token = secret.toList

/-- When the two readings of a query agree about a secret: the first parameter named `token` is written
`token=` with a value that is read as it is written, or that is not the secret in either form; or it
is written otherwise, and neither its value nor a part written `token=` is the secret. -/
def ReadsAlike (secret : String) (query : List Char) : Prop :=
  match Urlencoded.named "token".toList query with
  | none => True
  | some parameter =>
    match Text.stripPrefix "token=".toList parameter with
    | some token => Urlencoded.decode token = token ∨
        Text.trim token ≠ secret.toList ∧ Text.trim (Urlencoded.decode token) ≠ secret.toList
    | none => Text.trim (Urlencoded.value parameter) ≠ secret.toList ∧ ¬ WritesSecret secret query

/-- The first parameter named `token` is written otherwise, and a part written `token=` is the secret:
what the server reads is not the first parameter. -/
def SecretBeside (secret : String) (query : List Char) : Prop :=
  WritesSecret secret query ∧ ∃ parameter, Urlencoded.named "token".toList query = some parameter ∧
    Text.stripPrefix "token=".toList parameter = none

/-- A part that begins with `token=` is a parameter of that name. -/
theorem nameValue_of_stripPrefix {pair token : List Char}
    (h : Text.stripPrefix "token=".toList pair = some token) :
    pair ≠ [] ∧ Urlencoded.nameValue pair = ("token".toList, token) := by
  rw [Text.stripPrefix, Option.ite_none_right_eq_some] at h
  obtain ⟨hpair, htoken⟩ := h
  obtain ⟨rest, rfl⟩ := List.isPrefixOf_iff_prefix.mp hpair
  rw [List.drop_left, Option.some.injEq] at htoken
  subst htoken
  exact ⟨by simp, rfl⟩

theorem decode_token : Urlencoded.decode "token".toList = "token".toList := by decide +kernel

/-- The first part that begins with `token=` is not before the first parameter named `token`. -/
theorem queryToken_of_named {query parameter token : List Char}
    (hnamed : Urlencoded.named "token".toList query = some parameter)
    (htoken : Text.stripPrefix "token=".toList parameter = some token) :
    queryToken query = some token := by
  rw [Urlencoded.named, Urlencoded.parameters] at hnamed
  rw [queryToken]
  generalize query.splitOn '&' = pairs at hnamed ⊢
  induction pairs with
  | nil => cases hnamed
  | cons pair pairs ih =>
    rw [List.findSome?_cons]
    cases hpair : Text.stripPrefix "token=".toList pair with
    | some token' =>
      -- then this part is the parameter
      obtain ⟨hne, hnameValue⟩ := nameValue_of_stripPrefix hpair
      rw [List.filter_cons_of_pos (by simpa using hne), List.find?_cons_of_pos] at hnamed
      · obtain rfl := Option.some.inj hnamed
        exact hpair.symm.trans htoken
      · rw [hnameValue, decode_token]
        rfl
    | none =>
      refine ih ?_
      by_cases hne : pair = []
      · rwa [List.filter_cons_of_neg (by simpa using hne)] at hnamed
      · rw [List.filter_cons_of_pos (by simpa using hne), List.find?_cons] at hnamed
        split at hnamed
        · obtain rfl := Option.some.inj hnamed
          rw [hpair] at htoken
          cases htoken
        · exact hnamed

theorem queryToken_of_named_eq_none {query : List Char}
    (hnamed : Urlencoded.named "token".toList query = none) : queryToken query = none := by
  refine List.findSome?_eq_none_iff.mpr fun pair hpair => ?_
  cases htoken : Text.stripPrefix "token=".toList pair with
  | none => rfl
  | some token =>
    obtain ⟨hne, hnameValue⟩ := nameValue_of_stripPrefix htoken
    have hmem : pair ∈ Urlencoded.parameters query :=
      List.mem_filter.mpr ⟨hpair, by simpa using hne⟩
    have hname := List.find?_eq_none.mp hnamed pair hmem
    rw [hnameValue, decode_token] at hname
    exact absurd (decide_eq_true rfl) hname

/-- What the server reads is written in the query. -/
theorem writesSecret_of_queryToken {secret : String} {query token : List Char}
    (h : queryToken query = some token) (htrim : Text.trim token = secret.toList) :
    WritesSecret secret query := by
  obtain ⟨part, hpart, htoken⟩ := List.exists_of_findSome?_eq_some h
  exact ⟨part, hpart, token, htoken, htrim⟩

/-- Where the first parameter named `token` is written `token=`, the two readings agree exactly if the
value is read as it is written or is not the secret in either form. -/
theorem readings_agree_iff {secret : String} {query parameter token : List Char}
    (hnamed : Urlencoded.named "token".toList query = some parameter)
    (htoken : Text.stripPrefix "token=".toList parameter = some token) :
    ((∃ token, queryToken query = some token ∧ Text.trim token = secret.toList) ↔
      Text.trim (Urlencoded.value parameter) = secret.toList) ↔
        Urlencoded.decode token = token ∨
          Text.trim token ≠ secret.toList ∧ Text.trim (Urlencoded.decode token) ≠ secret.toList := by
  have hvalue : Urlencoded.value parameter = Urlencoded.decode token := by
    rw [Urlencoded.value, (nameValue_of_stripPrefix htoken).2]
  rw [queryToken_of_named hnamed htoken, hvalue]
  simp only [Option.some.injEq, exists_eq_left']
  constructor
  · intro hiff
    by_cases hsecret : Text.trim token = secret.toList
    · -- both are the secret, so that the value is read as it is written
      exact .inl (Urlencoded.decode_eq_of_trim_eq ((hiff.mp hsecret).trans hsecret.symm))
    · exact .inr ⟨hsecret, fun h => hsecret (hiff.mpr h)⟩
  · rintro (hplain | ⟨hraw, hdecoded⟩)
    · rw [hplain]
    · exact iff_of_false hraw hdecoded

/-- The two readings of a query agree if `ReadsAlike` says so. -/
theorem ReadsAlike.agree {secret : String} {query : List Char} (h : ReadsAlike secret query) :
    (∃ token, queryToken query = some token ∧ Text.trim token = secret.toList) ↔
      CarriesSecret secret query := by
  rw [ReadsAlike] at h
  rw [CarriesSecret]
  cases hnamed : Urlencoded.named "token".toList query with
  | none =>
    rw [queryToken_of_named_eq_none hnamed]
    simp
  | some parameter =>
    simp only [Option.some.injEq, exists_eq_left']
    rw [hnamed] at h
    cases htoken : Text.stripPrefix "token=".toList parameter with
    | none =>
      simp only [htoken] at h
      refine iff_of_false ?_ h.1
      rintro ⟨token, hread, htrim⟩
      exact h.2 (writesSecret_of_queryToken hread htrim)
    | some token =>
      simp only [htoken] at h
      exact (readings_agree_iff hnamed htoken).mpr h

/-- If they agree otherwise, the secret stands beside the first parameter named `token`. -/
theorem readsAlike_or_secretBeside {secret : String} {query : List Char}
    (h : (∃ token, queryToken query = some token ∧ Text.trim token = secret.toList) ↔
      CarriesSecret secret query) : ReadsAlike secret query ∨ SecretBeside secret query := by
  rw [CarriesSecret] at h
  rw [ReadsAlike, SecretBeside]
  cases hnamed : Urlencoded.named "token".toList query with
  | none => exact .inl trivial
  | some parameter =>
    simp only [hnamed, Option.some.injEq, exists_eq_left'] at h ⊢
    cases htoken : Text.stripPrefix "token=".toList parameter with
    | none =>
      by_cases hwrites : WritesSecret secret query
      · exact .inr ⟨hwrites, rfl⟩
      · refine .inl ⟨fun hvalue => ?_, hwrites⟩
        obtain ⟨token, hread, htrim⟩ := h.mpr hvalue
        exact hwrites (writesSecret_of_queryToken hread htrim)
    | some token => exact .inl ((readings_agree_iff hnamed htoken).mp h)

/-- **When the token of a query is read like its other parameters.** Without credentials in the
header, a query that reads alike both ways is accepted exactly if its first parameter named `token` is
the secret under form decoding. Another one is treated so only if the secret stands beside the first
parameter named `token`. -/
theorem query_token_reads_alike (secret : String) (parts : Parts)
    (hauthorization : parts.get "authorization" = none)
    (hauthToken : parts.get "x-pulse-auth-token" = none) :
    (ReadsAlike secret (parts.query.getD "").toList →
      (fromRequestParts (some secret) parts = .ok () ↔
        CarriesSecret secret (parts.query.getD "").toList)) ∧
    ((fromRequestParts (some secret) parts = .ok () ↔
        CarriesSecret secret (parts.query.getD "").toList) →
      ReadsAlike secret (parts.query.getD "").toList ∨
        SecretBeside secret (parts.query.getD "").toList) := by
  have hreads : fromRequestParts (some secret) parts = .ok () ↔
      ∃ token, queryToken (parts.query.getD "").toList = some token ∧
        Text.trim token = secret.toList := by
    rw [fromRequestParts_eq_ok_iff]
    constructor
    · rintro ⟨carrier, token, htoken, htrim⟩
      cases carrier with
      | authorization => simp [Parts.credential, hauthorization] at htoken
      | authToken => simp [Parts.credential, hauthToken] at htoken
      | query => exact ⟨token, htoken, htrim⟩
    · rintro ⟨token, htoken, htrim⟩
      exact ⟨.query, token, htoken, htrim⟩
  rw [hreads]
  exact ⟨ReadsAlike.agree, readsAlike_or_secretBeside⟩

theorem query_token_reads_alike_of_plain :
    fromRequestParts (some "s3cret!") ⟨[], some "node_id=a%20b&token=s3cret!"⟩ = .ok () ↔
      CarriesSecret "s3cret!" "node_id=a%20b&token=s3cret!".toList := by
  refine (query_token_reads_alike "s3cret!" ⟨[], some "node_id=a%20b&token=s3cret!"⟩ rfl rfl).1 ?_
  have hnamed : Urlencoded.named "token".toList "node_id=a%20b&token=s3cret!".toList =
      some "token=s3cret!".toList := by
    decide +kernel
  show ReadsAlike "s3cret!" "node_id=a%20b&token=s3cret!".toList
  rw [ReadsAlike, hnamed]
  exact .inl (by decide +kernel)

/-- The secret `a+b` as a client escapes it is refused, although `Query` reads it as the secret. -/
theorem escaped_token_refused :
    Auth.VisibleAscii "a+b" ∧ Text.trim "a+b".toList = "a+b".toList ∧
      CarriesSecret "a+b" "token=a%2Bb".toList ∧
      fromRequestParts (some "a+b") ⟨[], some "token=a%2Bb"⟩ = .error .unauthorized :=
  ⟨by decide, by decide, ⟨"token=a%2Bb".toList, by decide +kernel, by decide +kernel⟩, by
    decide +kernel⟩

end Hakuraku.Server
