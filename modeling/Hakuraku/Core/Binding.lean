import Hakuraku.Core.Auth
import Mathlib.Logic.Equiv.Basic

/-!
# What a signature binds

Reference: `pulse-core/src/auth.rs`, `sign_request` and `verify_request`.

The signed text joins the node id, the decimal timestamp and the nonce with colons. The timestamp
contains no colon, but nothing keeps one out of the node id or the nonce, so the text can be split in
more than one way. `signedMessage_eq_iff` says exactly when two triples give one text: when they are
equal or one is a re-split of the other, its node id having swallowed the other's timestamp.
-/

namespace Hakuraku.Auth

open Text (asBytes)

/-- The triple `(n', t', c')` reads the text signed for `(n, t, c)` with a longer node id: `n'` takes
in `n`, `t` and possibly more, and what follows stood in the nonce `c`. -/
def Resplit (n : String) (t : Int64) (c : String) (n' : String) (t' : Int64) (c' : String) : Prop :=
  (n' = n ++ ":" ++ toString t ∧ c = toString t' ++ ":" ++ c') ∨
    ∃ x : String, n' = n ++ ":" ++ toString t ++ ":" ++ x ∧
      c = x ++ ":" ++ toString t' ++ ":" ++ c'

theorem toList_signedMessage (n : String) (t : Int64) (c : String) :
    (signedMessage n t c).toList = Delimited.join ':' n.toList (toString t).toList c.toList := by
  simp [signedMessage, Delimited.join, String.toList_append]

theorem colon_not_mem_toString (t : Int64) : ':' ∉ (toString t).toList :=
  Decimal.not_mem_toString (by decide) (by decide)

theorem resplit_iff_toList {n : String} {t : Int64} {c n' : String} {t' : Int64} {c' : String} :
    Resplit n t c n' t' c' ↔
      Delimited.Resplit ':' n.toList (toString t).toList c.toList n'.toList
        (toString t').toList c'.toList := by
  refine or_congr ?_ ?_
  · rw [← String.toList_inj, ← String.toList_inj]
    simp [String.toList_append]
  · constructor
    · rintro ⟨x, rfl, rfl⟩
      exact ⟨x.toList, by simp [String.toList_append], by simp [String.toList_append]⟩
    · rintro ⟨x, hn, hc⟩
      refine ⟨String.ofList x, ?_, ?_⟩
      · rw [← String.toList_inj, hn]
        simp [String.toList_append]
      · rw [← String.toList_inj, hc]
        simp [String.toList_append]

/-- **When two triples are signed with one text.** -/
theorem signedMessage_eq_iff {n : String} {t : Int64} {c n' : String} {t' : Int64}
    {c' : String} :
    signedMessage n t c = signedMessage n' t' c' ↔
      (n = n' ∧ t = t' ∧ c = c') ∨ Resplit n t c n' t' c' ∨ Resplit n' t' c' n t c := by
  rw [← String.toList_inj, toList_signedMessage, toList_signedMessage,
    Delimited.join_eq_iff (colon_not_mem_toString t) (colon_not_mem_toString t'),
    resplit_iff_toList, resplit_iff_toList, String.toList_inj, String.toList_inj, String.toList_inj,
    Decimal.toString_injective.eq_iff]

/-- A re-split changes the node id. -/
theorem Resplit.ne {n : String} {t : Int64} {c n' : String} {t' : Int64} {c' : String}
    (h : Resplit n t c n' t' c') : n ≠ n' := by
  rintro rfl
  exact (resplit_iff_toList.mp h).ne rfl

/-! ## Verification of a signature issued for another triple -/

variable {hmac : List UInt8 → List UInt8 → List UInt8}

/-- With an injective tag, a signature verifies for exactly the triples with the signed text. -/
theorem verifyRequest_signRequest_iff {secret : List UInt8} (hinj : Function.Injective (hmac secret))
    {n : String} {t : Int64} {c n' : String} {t' : Int64} {c' : String} {now : Int64} :
    verifyRequest hmac secret n' t' c' (signRequest hmac secret n t c) now = .ok () ↔
      checkTimestamp now t' = .ok () ∧ signedMessage n t c = signedMessage n' t' c' := by
  rw [verifyRequest_eq_ok_iff, checkSignature_eq_ok_iff, signRequest, Hex.decode_encode,
    Option.some.injEq, hinj.eq_iff, Text.asBytes_inj]

/-- **What a signature binds.** A signature issued for `(n, t, c)` authenticates no other triple
`(n', t', c')` exactly when `t'` is stale or neither triple is a re-split of the other. -/
theorem signature_binds_iff {secret : List UInt8} (hinj : Function.Injective (hmac secret))
    (n : String) (t : Int64) (c : String) (n' : String) (t' : Int64) (c' : String) (now : Int64) :
    (verifyRequest hmac secret n' t' c' (signRequest hmac secret n t c) now = .ok () →
        n = n' ∧ t = t' ∧ c = c') ↔
      ¬ (checkTimestamp now t' = .ok () ∧ (Resplit n t c n' t' c' ∨ Resplit n' t' c' n t c)) := by
  rw [verifyRequest_signRequest_iff hinj, signedMessage_eq_iff]
  constructor
  · rintro hbinds ⟨hfresh, hsplit⟩
    have hn := (hbinds ⟨hfresh, .inr hsplit⟩).1
    rcases hsplit with h | h
    · exact h.ne hn
    · exact h.ne hn.symm
  · rintro hnot ⟨hfresh, heq | hsplit⟩
    · exact heq
    · exact absurd ⟨hfresh, hsplit⟩ hnot

/-! ### A signature that authenticates another node

The tag below is the HMAC-SHA256 of `node-01:1000100:1000130:cafe` under `test-secret-key`. -/

def resplitSecret : List UInt8 := asBytes "test-secret-key"

def resplitTag : List UInt8 :=
  [60, 95, 63, 245, 201, 22, 16, 154, 44, 107, 119, 51, 69, 255, 68, 185, 139, 113, 42, 57, 65,
    252, 10, 111, 172, 112, 30, 219, 141, 221, 126, 209]

/-- An injective tag function with the value of HMAC-SHA256 on the sample message. -/
def resplitHmac (_key message : List UInt8) : List UInt8 :=
  Equiv.swap (asBytes "node-01:1000100:1000130:cafe") resplitTag message

theorem resplitHmac_injective (secret : List UInt8) : Function.Injective (resplitHmac secret) :=
  (Equiv.swap _ _).injective

/-- `node-01` signs the nonce `1000130:cafe` at second 1000100. An honest nonce is bound; this one
hands the signature to the node `node-01:1000100`. -/
theorem signature_binds_iff_sample :
    Function.Injective (resplitHmac resplitSecret) ∧
      ((verifyRequest resplitHmac resplitSecret "node-01:1000100" 1000130 "cafe"
          (signRequest resplitHmac resplitSecret "node-01" 1000100 "1000130:cafe") 1000130 = .ok () →
          "node-01" = "node-01:1000100" ∧ (1000100 : Int64) = 1000130 ∧ "1000130:cafe" = "cafe") ↔
        ¬ (checkTimestamp 1000130 1000130 = .ok () ∧
          (Resplit "node-01" 1000100 "1000130:cafe" "node-01:1000100" 1000130 "cafe" ∨
            Resplit "node-01:1000100" 1000130 "cafe" "node-01" 1000100 "1000130:cafe"))) :=
  ⟨resplitHmac_injective _, signature_binds_iff (resplitHmac_injective _) _ _ _ _ _ _ _⟩

/-- A character that a metadata header carries. -/
def IsVisible (s : String) : Prop := (asBytes s).all isVisibleAscii = true

instance (s : String) : Decidable (IsVisible s) := inferInstanceAs (Decidable (_ = true))

/-- The signature of one node authenticates another node id, timestamp and nonce. -/
theorem signature_authenticates_other_node :
    ¬ ∀ hmac secret, Function.Injective (hmac secret) → ∀ (n : String) (t : Int64) (c n' : String)
      (t' : Int64) (c' : String) (now : Int64), IsVisible n → IsVisible c → IsVisible n' →
      IsVisible c' →
      verifyRequest hmac secret n' t' c' (signRequest hmac secret n t c) now = .ok () →
      n = n' ∧ t = t' ∧ c = c' := by
  intro h
  have hsame := h resplitHmac resplitSecret (resplitHmac_injective _) "node-01" 1000100 "1000130:cafe"
    "node-01:1000100" 1000130 "cafe" 1000130 (by decide) (by decide) (by decide) (by decide)
    (by decide)
  exact absurd hsame.1 (by decide)

end Hakuraku.Auth
