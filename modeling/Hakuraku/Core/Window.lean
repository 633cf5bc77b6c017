import Hakuraku.Core.Interference
import Mathlib.Data.Finset.Card
import Mathlib.Data.List.Induction

/-!
# How much the nonce tracker remembers

Reference: `pulse-core/src/auth.rs`, `NonceTracker::check_and_insert`.

The tracker forgets everything when a call finds more than twice the skew between its clock and the
last purge, so that its memory is bounded. What it holds after a call that verified are therefore
nonces of calls that verified within twice the skew before it (`tracker_remembers_window`), however
many calls there were before these, and whatever requests came that do not verify.
-/

namespace Hakuraku.Auth

open Text (asBytes)

variable {hmac : List UInt8 → List UInt8 → List UInt8} {self : AuthInterceptor} {c : Call}
  {calls : List Call}

theorem AuthInterceptor.after_concat (self : AuthInterceptor) (calls : List Call) (c : Call) :
    self.after hmac (calls ++ [c]) = ((self.after hmac calls).serve hmac c).2 := by
  induction calls generalizing self with
  | nil => rfl
  | cons d calls ih => exact ih (self.serve hmac d).2

theorem Chronological.of_concat (h : Chronological (calls ++ [c])) :
    Chronological calls ∧ ∀ d ∈ calls, d.insertedAt ≤ c.insertedAt := by
  rw [Chronological, List.flatMap_append, List.pairwise_append] at h
  refine ⟨h.1, fun d hd => ?_⟩
  exact h.2.2 d.insertedAt (List.mem_flatMap.mpr ⟨d, hd, by simp⟩) c.insertedAt (by simp)

/-- From the epoch on, the purge condition is about the exact distance. -/
theorem NonceTracker.purges_iff {tracker : NonceTracker} {now : Int64} (hnow : 0 ≤ now)
    (hpurge : 0 ≤ tracker.lastPurge) :
    tracker.purges now = true ↔ 120 < now.toInt - tracker.lastPurge.toInt := by
  have hmax : (maxClockSkew * 2).toInt = 120 := by decide
  have hn : 0 ≤ now.toInt := Int64.le_iff_toInt_le.mp hnow
  have hp : 0 ≤ tracker.lastPurge.toInt := Int64.le_iff_toInt_le.mp hpurge
  have hn' := now.toInt_lt
  have hp' := tracker.lastPurge.toInt_lt
  have hsub : (now - tracker.lastPurge).toInt = now.toInt - tracker.lastPurge.toInt :=
    Wrapping.toInt_sub (by omega) (by omega)
  rw [purges, unixSecs, if_pos hnow, Option.getD_some, decide_eq_true_eq, gt_iff_lt,
    Int64.lt_iff_toInt_lt, hmax, hsub]

/-- A call that verified and carried the nonce. -/
def Call.Carried (hmac : List UInt8 → List UInt8 → List UInt8) (secret : List UInt8) (nonce : String)
    (d : Call) : Prop :=
  d.verified hmac secret = true ∧
    ∃ cred, readCredentials d.request = .ok cred ∧ cred.nonce = nonce

/-- What holds of an interceptor built at `start` after the calls: its nonces came after the last
purge, and no call that verified is far behind the purge. -/
structure Remembers (hmac : List UInt8 → List UInt8 → List UInt8) (start : Int64)
    (calls : List Call) (i : AuthInterceptor) : Prop where
  purge : 0 ≤ i.seenNonces.lastPurge
  past : ∀ now : Int64, start ≤ now → (∀ d ∈ calls, d.insertedAt ≤ now) →
    i.seenNonces.lastPurge ≤ now
  nonces : ∀ nonce ∈ i.seenNonces.nonces, ∃ d ∈ calls, d.Carried hmac i.secret nonce ∧
    i.seenNonces.lastPurge.toInt ≤ d.insertedAt.toInt
  recent : ∀ d ∈ calls, d.verified hmac i.secret = true →
    d.insertedAt.toInt - i.seenNonces.lastPurge.toInt ≤ 120

theorem remembers_new (secret : List UInt8) {start : Int64} (hstart : 0 ≤ start) :
    Remembers hmac start [] (.new secret start) := by
  have hpurge : (AuthInterceptor.new secret start).seenNonces.lastPurge = start := by
    rw [AuthInterceptor.new, NonceTracker.new, unixSecs, if_pos hstart, Option.getD_some]
  refine ⟨?_, fun now hnow _ => ?_, fun nonce hnonce => ?_, fun d hd => ?_⟩
  · rw [hpurge]
    exact hstart
  · rw [hpurge]
    exact hnow
  · exact absurd hnonce (Finset.notMem_empty nonce)
  · exact absurd hd List.not_mem_nil

theorem Remembers.serve {start : Int64} (h : Remembers hmac start calls self)
    (hstart : start ≤ c.insertedAt) (hnow : 0 ≤ c.insertedAt)
    (horder : ∀ d ∈ calls, d.insertedAt ≤ c.insertedAt) :
    Remembers hmac start (calls ++ [c]) (self.serve hmac c).2 := by
  have hmem : c ∈ calls ++ [c] := List.mem_append_right _ (List.mem_singleton_self c)
  by_cases hver : c.verified hmac self.secret = true
  · obtain ⟨cred, hauth⟩ := Call.verified_iff.mp hver
    have hread := ((AuthInterceptor.authenticate_eq_ok_iff hmac).mp hauth).1
    have hcarried : c.Carried hmac self.secret cred.nonce := ⟨hver, cred, hread, rfl⟩
    rw [AuthInterceptor.serve, AuthInterceptor.call_of_ok hauth, NonceTracker.checkAndInsert]
    by_cases hpurges : self.seenNonces.purges c.insertedAt = true
    · -- the nonce is all that is left, and no call was later
      rw [if_pos hpurges, unixSecs, if_pos hnow]
      refine ⟨hnow, fun now _ hall => hall c hmem, fun nonce hnonce => ?_, fun d hd _ => ?_⟩
      · have heq : nonce = cred.nonce := by simpa using hnonce
        exact ⟨c, hmem, heq ▸ hcarried, le_rfl⟩
      · have hle : d.insertedAt.toInt ≤ c.insertedAt.toInt := by
          rcases List.mem_append.mp hd with hd | hd
          · exact Int64.le_iff_toInt_le.mp (horder d hd)
          · rw [List.mem_singleton.mp hd]
        dsimp only [Option.getD_some]
        omega
    · have hclose := mt (NonceTracker.purges_iff hnow h.purge).mpr hpurges
      have hpast := h.past c.insertedAt hstart horder
      rw [if_neg hpurges]
      refine ⟨h.purge, fun now hnow hall => h.past now hnow fun d hd =>
        hall d (List.mem_append_left _ hd), fun nonce hnonce => ?_, fun d hd hd' => ?_⟩
      · rcases Finset.mem_insert.mp hnonce with rfl | hnonce
        · exact ⟨c, hmem, hcarried, Int64.le_iff_toInt_le.mp hpast⟩
        · obtain ⟨d, hd, hd'⟩ := h.nonces nonce hnonce
          exact ⟨d, List.mem_append_left _ hd, hd'⟩
      · rcases List.mem_append.mp hd with hd | hd
        · exact h.recent d hd hd'
        · rw [List.mem_singleton.mp hd]
          exact not_lt.mp hclose
  · rw [AuthInterceptor.serve_of_not_verified hver]
    refine ⟨h.purge, fun now hnow hall => h.past now hnow fun d hd =>
      hall d (List.mem_append_left _ hd), fun nonce hnonce => ?_, fun d hd hd' => ?_⟩
    · obtain ⟨d, hd, hd'⟩ := h.nonces nonce hnonce
      exact ⟨d, List.mem_append_left _ hd, hd'⟩
    · rcases List.mem_append.mp hd with hd | hd
      · exact h.recent d hd hd'
      · exact absurd (List.mem_singleton.mp hd ▸ hd') hver

theorem remembers_after (secret : List UInt8) {start : Int64} (hstart : 0 ≤ start)
    (hchron : Chronological calls) (hlater : ∀ d ∈ calls, start ≤ d.insertedAt) :
    Remembers hmac start calls ((AuthInterceptor.new secret start).after hmac calls) := by
  induction calls using List.reverseRecOn with
  | nil => exact remembers_new secret hstart
  | append_singleton calls c ih =>
    obtain ⟨hcalls, horder⟩ := hchron.of_concat
    have hc := hlater c (by simp)
    rw [AuthInterceptor.after_concat]
    exact (ih hcalls fun d hd => hlater d (List.mem_append_left _ hd)).serve hc
      (Int64.le_trans hstart hc) horder

/-- The calls that verified within twice the skew before a call. -/
def window (hmac : List UInt8 → List UInt8 → List UInt8) (secret : List UInt8) (calls : List Call)
    (c : Call) : List Call :=
  calls.filter fun d =>
    d.verified hmac secret && decide (c.insertedAt.toInt - d.insertedAt.toInt ≤ 120)

/-- The nonce a call carried. -/
def nonceOf (d : Call) : String :=
  match readCredentials d.request with
  | .error _ => ""
  | .ok cred => cred.nonce

/-- **The tracker remembers a window.** For every sequence of calls of an interceptor, on clocks that
do not run backwards, that ends with a call that verified, the tracker then holds only nonces of calls
that verified at most 120 seconds before, and at most as many as there were such calls. -/
theorem tracker_remembers_window (hmac : List UInt8 → List UInt8 → List UInt8) (secret : List UInt8)
    (start : Int64) (calls : List Call) (c : Call) (hstart : 0 ≤ start)
    (hchron : Chronological (calls ++ [c])) (hlater : ∀ d ∈ calls ++ [c], start ≤ d.insertedAt)
    (hver : c.verified hmac secret = true) :
    let nonces := ((AuthInterceptor.new secret start).after hmac (calls ++ [c])).seenNonces.nonces
    (∀ nonce ∈ nonces, ∃ d ∈ window hmac secret (calls ++ [c]) c,
      ∃ cred, readCredentials d.request = .ok cred ∧ cred.nonce = nonce) ∧
      nonces.card ≤ (window hmac secret (calls ++ [c]) c).length := by
  intro nonces
  have hmem : ∀ nonce ∈ nonces, ∃ d ∈ window hmac secret (calls ++ [c]) c,
      ∃ cred, readCredentials d.request = .ok cred ∧ cred.nonce = nonce := by
    have h : Remembers hmac start (calls ++ [c])
        ((AuthInterceptor.new secret start).after hmac (calls ++ [c])) :=
      remembers_after secret hstart hchron hlater
    have hsecret : ((AuthInterceptor.new secret start).after hmac (calls ++ [c])).secret = secret :=
      AuthInterceptor.secret_after
    intro nonce hnonce
    obtain ⟨d, hd, ⟨hd', hcarried⟩, hpurge⟩ := h.nonces nonce hnonce
    have hlast := h.recent c (List.mem_append_right _ (List.mem_singleton_self c))
      (hsecret.symm ▸ hver)
    rw [hsecret] at hd'
    -- the purge lies before the nonce and at most 120 seconds before the last call
    refine ⟨d, List.mem_filter.mpr ⟨hd, ?_⟩, hcarried⟩
    rw [Bool.and_eq_true, decide_eq_true_eq]
    exact ⟨hd', by omega⟩
  refine ⟨hmem, ?_⟩
  have hsub : nonces ⊆ ((window hmac secret (calls ++ [c]) c).map nonceOf).toFinset := by
    intro nonce hnonce
    obtain ⟨d, hd, cred, hread, heq⟩ := hmem nonce hnonce
    refine List.mem_toFinset.mpr (List.mem_map.mpr ⟨d, hd, ?_⟩)
    rw [nonceOf, hread]
    exact heq
  calc nonces.card
      ≤ ((window hmac secret (calls ++ [c]) c).map nonceOf).toFinset.card :=
        Finset.card_le_card hsub
    _ ≤ ((window hmac secret (calls ++ [c]) c).map nonceOf).length := List.toFinset_card_le _
    _ = (window hmac secret (calls ++ [c]) c).length := List.length_map _

/-- The nonce of the sample request is forgotten when the later request comes 200 seconds after it. -/
theorem tracker_remembers_window_purged :
    let nonces := ((AuthInterceptor.new sampleSecret 1000000).after sampleHmac
      [⟨sampleRequest, 1000100, 1000100⟩, ⟨laterRequest, 1000300, 1000300⟩]).seenNonces.nonces
    nonces.card ≤ 1 ∧ nonces = {"ffeeddccbbaa99887766554433221100"} := by
  have h := tracker_remembers_window sampleHmac sampleSecret 1000000
    [⟨sampleRequest, 1000100, 1000100⟩] ⟨laterRequest, 1000300, 1000300⟩ (by decide) (by decide)
    (by decide) (by decide)
  refine ⟨h.2.trans ?_, by decide⟩
  decide

end Hakuraku.Auth
