import Hakuraku.Lib.Text

/-!
# Form encoding

The reader of `application/x-www-form-urlencoded` text: the parameters stand between ampersands, each
with a name and, after an equals sign, a value. In both a plus sign is a space, an escape of a percent
sign and two hexadecimal digits is a byte, and the bytes are read as UTF-8 with `U+FFFD` in the place
of what is ill-formed.

Bytes that come from escapes never combine with a character beside them, since no character starts
with a continuation byte. Reading therefore leaves at most one character of an escape, and none of a
plus sign that is not whitespace: a text that reads like itself up to whitespace at the ends reads
like itself (`decode_eq_of_trim_eq`).
-/

namespace Urlencoded

/-! ## UTF-8 with replacement -/

/-- The character that the bytes begin with. -/
def decodeFirst (bytes : List UInt8) : Option Char := bytes.toByteArray.utf8DecodeChar? 0

/-- A continuation byte. -/
def isContinuation (b : UInt8) : Bool := 0x80 ≤ b && b ≤ 0xBF

/-- The second byte may follow the first in a character of three or four bytes. -/
def fitsSecond (b₀ b₁ : UInt8) : Bool :=
  if b₀ = 0xE0 then 0xA0 ≤ b₁ && b₁ ≤ 0xBF
  else if b₀ = 0xED then 0x80 ≤ b₁ && b₁ ≤ 0x9F
  else if b₀ = 0xF0 then 0x90 ≤ b₁ && b₁ ≤ 0xBF
  else if b₀ = 0xF4 then 0x80 ≤ b₁ && b₁ ≤ 0x8F
  else (0xE1 ≤ b₀ && b₀ ≤ 0xF3) && isContinuation b₁

/-- How many bytes behind the first belong to an ill-formed beginning: as many as could go on to a
character. -/
def illFormedRest : List UInt8 → ℕ
  | b₀ :: b₁ :: rest =>
    if fitsSecond b₀ b₁ then
      match rest with
      | b₂ :: _ => if 0xF0 ≤ b₀ && isContinuation b₂ then 2 else 1
      | [] => 1
    else 0
  | _ => 0

/-- Read at most the given number of characters. -/
def lossyFrom : ℕ → List UInt8 → List Char
  | 0, _ => []
  | _, [] => []
  | n + 1, b :: bytes =>
    match decodeFirst (b :: bytes) with
    | some c => c :: lossyFrom n (bytes.drop (c.utf8Size - 1))
    | none => '\uFFFD' :: lossyFrom n (bytes.drop (illFormedRest (b :: bytes)))

/-- Bytes as text, with replacements. -/
def fromUtf8Lossy (bytes : List UInt8) : List Char := lossyFrom bytes.length bytes

/-! ## Parameters -/

/-- A part of a text: a character, or the byte of an escape. -/
inductive Piece where
  | char (c : Char)
  | byte (b : UInt8)

/-- The bytes of a part. -/
def Piece.bytes : Piece → List UInt8
  | .char c => String.utf8EncodeChar c
  | .byte b => [b]

/-- The parts of a text. -/
def pieces : List Char → List Piece
  | [] => []
  | '%' :: hi :: lo :: cs =>
    match Hex.value hi, Hex.value lo with
    | some h, some l => .byte (UInt8.ofNat (16 * h + l)) :: pieces cs
    | _, _ => .char '%' :: pieces (hi :: lo :: cs)
  | '+' :: cs => .char ' ' :: pieces cs
  | c :: cs => .char c :: pieces cs

/-- A name or a value as it is read. -/
def decode (cs : List Char) : List Char := fromUtf8Lossy ((pieces cs).flatMap Piece.bytes)

/-- The parameters of a query as they are written. -/
def parameters (query : List Char) : List (List Char) := (query.splitOn '&').filter (· ≠ [])

/-- The name and the value of a parameter as they are written. -/
def nameValue (parameter : List Char) : List Char × List Char :=
  (Text.splitOnce '=' parameter).getD (parameter, [])

/-- The first parameter with a name, as it is written. -/
def named (name query : List Char) : Option (List Char) :=
  (parameters query).find? fun parameter => decode (nameValue parameter).1 = name

/-- The value of a parameter as it is read. -/
def value (parameter : List Char) : List Char := decode (nameValue parameter).2

/-! ## What is read of the parts -/

theorem decodeFirst_append (c : Char) (bytes : List UInt8) :
    decodeFirst (String.utf8EncodeChar c ++ bytes) = some c := by
  rw [decodeFirst, List.toByteArray_append]
  exact ByteArray.utf8DecodeChar?_utf8EncodeChar_append

/-- The encoding of a character is a first byte and others that are none. -/
theorem utf8EncodeChar_eq_cons (c : Char) :
    ∃ b ks, String.utf8EncodeChar c = b :: ks ∧ ks.length = c.utf8Size - 1 ∧ b.IsUTF8FirstByte ∧
      ∀ k ∈ ks, ¬ k.IsUTF8FirstByte := by
  have hlength := String.length_utf8EncodeChar c
  have hfirst : ∀ i (hi : i < (String.utf8EncodeChar c).length),
      (String.utf8EncodeChar c)[i].IsUTF8FirstByte ↔ i = 0 :=
    fun i hi => UInt8.isUTF8FirstByte_getElem_utf8EncodeChar
  cases hencode : String.utf8EncodeChar c with
  | nil =>
    rw [hencode, List.length_nil] at hlength
    exact absurd hlength c.utf8Size_pos.ne
  | cons b ks =>
    rw [hencode, List.length_cons] at hlength
    simp only [hencode] at hfirst
    refine ⟨b, ks, rfl, by omega, (hfirst 0 (by simp)).mpr rfl, fun k hk => ?_⟩
    obtain ⟨i, hi, rfl⟩ := List.mem_iff_getElem.mp hk
    exact fun h => absurd ((hfirst (i + 1) (by simpa using hi)).mp h) (Nat.succ_ne_zero i)

/-- Bytes that begin with a character begin with its encoding. -/
theorem eq_append_of_decodeFirst {bytes : List UInt8} {c : Char} (h : decodeFirst bytes = some c) :
    ∃ rest, bytes = String.utf8EncodeChar c ++ rest := by
  obtain ⟨rest, hrest⟩ := ByteArray.exists_of_utf8DecodeChar?_eq_some h
  refine ⟨rest.data.toList, ?_⟩
  have hdata := congrArg (fun b : ByteArray => b.data.toList) hrest
  simpa using hdata

theorem not_isUTF8FirstByte {b : UInt8} (h : isContinuation b = true) : ¬ b.IsUTF8FirstByte := by
  have hall : ∀ n < 256, isContinuation (UInt8.ofNat n) = true →
      ¬ (UInt8.ofNat n).IsUTF8FirstByte := by
    decide +kernel
  have hb := hall b.toNat b.toNat_lt
  rw [UInt8.ofNat_toNat] at hb
  exact hb h

theorem isContinuation_of_fitsSecond {b₀ b₁ : UInt8} (h : fitsSecond b₀ b₁ = true) :
    isContinuation b₁ = true := by
  have hle : ∀ {b lo hi : UInt8}, (lo ≤ b && b ≤ hi) = true → 0x80 ≤ lo → hi ≤ 0xBF →
      isContinuation b = true := by
    intro b lo hi hb hlo hhi
    rw [Bool.and_eq_true, decide_eq_true_eq, decide_eq_true_eq] at hb
    rw [isContinuation, Bool.and_eq_true, decide_eq_true_eq, decide_eq_true_eq]
    exact ⟨UInt8.le_trans hlo hb.1, UInt8.le_trans hb.2 hhi⟩
  unfold fitsSecond at h
  split at h
  · exact hle h (by decide) (by decide)
  · split at h
    · exact hle h (by decide) (by decide)
    · split at h
      · exact hle h (by decide) (by decide)
      · split at h
        · exact hle h (by decide) (by decide)
        · exact (Bool.and_eq_true _ _ ▸ h).2

/-- No character starts within an ill-formed beginning. -/
theorem not_first_of_mem_take_illFormedRest {b k : UInt8} {bytes : List UInt8}
    (h : k ∈ bytes.take (illFormedRest (b :: bytes))) : ¬ k.IsUTF8FirstByte := by
  cases bytes with
  | nil => simp at h
  | cons b₁ rest =>
    simp only [illFormedRest] at h
    split at h
    · rename_i hfits
      have hsecond := not_isUTF8FirstByte (isContinuation_of_fitsSecond hfits)
      cases rest with
      | nil =>
        obtain rfl : k = b₁ := by simpa using h
        exact hsecond
      | cons b₂ rest =>
        dsimp only at h
        split at h
        · rename_i hthird
          rw [Bool.and_eq_true] at hthird
          rcases (by simpa using h : k = b₁ ∨ k = b₂) with rfl | rfl
          · exact hsecond
          · exact not_isUTF8FirstByte hthird.2
        · obtain rfl : k = b₁ := by simpa using h
          exact hsecond
    · simp at h

/-- **One character is read** of a byte and bytes behind it at which no character starts. -/
theorem lossyFrom_cons (n : ℕ) (b : UInt8) (bytes : List UInt8) :
    ∃ c ks rest, bytes = ks ++ rest ∧ (∀ k ∈ ks, ¬ k.IsUTF8FirstByte) ∧
      lossyFrom (n + 1) (b :: bytes) = c :: lossyFrom n rest := by
  rw [lossyFrom]
  cases hfirst : decodeFirst (b :: bytes) with
  | some c =>
    obtain ⟨rest, hrest⟩ := eq_append_of_decodeFirst hfirst
    obtain ⟨b', ks, hencode, hlength, -, hks⟩ := utf8EncodeChar_eq_cons c
    rw [hencode, List.cons_append] at hrest
    obtain ⟨-, rfl⟩ := List.cons.inj hrest
    refine ⟨c, ks, rest, rfl, hks, ?_⟩
    dsimp only
    rw [← hlength, List.drop_left]
  | none =>
    exact ⟨'\uFFFD', bytes.take (illFormedRest (b :: bytes)), bytes.drop (illFormedRest (b :: bytes)),
      (List.take_append_drop _ _).symm, fun k hk => not_first_of_mem_take_illFormedRest hk, rfl⟩

/-- If no character starts in the first bytes of some parts, these come from escapes. -/
theorem exists_suffix_of_append {ps : List Piece} {ks rest : List UInt8}
    (h : ps.flatMap Piece.bytes = ks ++ rest) (hks : ∀ k ∈ ks, ¬ k.IsUTF8FirstByte) :
    ∃ ps', ps' <:+ ps ∧ rest = ps'.flatMap Piece.bytes := by
  induction ks generalizing ps with
  | nil => exact ⟨ps, List.suffix_rfl, h.symm⟩
  | cons k ks ih =>
    rw [List.forall_mem_cons] at hks
    cases ps with
    | nil => cases h
    | cons piece ps =>
      rw [List.flatMap_cons] at h
      cases piece with
      | char c =>
        obtain ⟨b, _, hencode, -, hb, -⟩ := utf8EncodeChar_eq_cons c
        rw [Piece.bytes, hencode] at h
        obtain ⟨rfl, -⟩ := List.cons.inj h
        exact absurd hb hks.1
      | byte b =>
        obtain ⟨-, h⟩ := List.cons.inj h
        obtain ⟨ps', hsuffix, hrest⟩ := ih h hks.2
        exact ⟨ps', hsuffix.trans (List.suffix_cons _ _), hrest⟩

/-- How many characters that are no whitespace are read of a part, at most. -/
def Piece.weight : Piece → ℕ
  | .char c => if Text.whiteSpace c then 0 else 1
  | .byte _ => 1

/-- The characters of a text that are no whitespace. -/
def visible (cs : List Char) : ℕ := cs.countP fun c => !Text.whiteSpace c

theorem visible_cons (c : Char) (cs : List Char) :
    visible (c :: cs) = (Piece.char c).weight + visible cs := by
  rw [visible, List.countP_cons, Nat.add_comm, Piece.weight]
  cases Text.whiteSpace c <;> rfl

theorem lossyFrom_char (n : ℕ) (c : Char) (bytes : List UInt8) :
    lossyFrom (n + 1) ((Piece.char c).bytes ++ bytes) = c :: lossyFrom n bytes := by
  obtain ⟨b, ks, hencode, hlength, -, -⟩ := utf8EncodeChar_eq_cons c
  have hfirst := decodeFirst_append c bytes
  rw [hencode, List.cons_append] at hfirst
  rw [Piece.bytes, hencode, List.cons_append, lossyFrom, hfirst]
  dsimp only
  rw [← hlength, List.drop_left]

theorem visible_lossyFrom_le (n : ℕ) (ps : List Piece) :
    visible (lossyFrom n (ps.flatMap Piece.bytes)) ≤ (ps.map Piece.weight).sum := by
  induction n generalizing ps with
  | zero => exact Nat.zero_le _
  | succ n ih =>
    cases ps with
    | nil => exact Nat.zero_le _
    | cons piece ps =>
      rw [List.flatMap_cons, List.map_cons, List.sum_cons]
      cases piece with
      | char c =>
        rw [lossyFrom_char, visible_cons]
        exact Nat.add_le_add_left (ih ps) _
      | byte b =>
        obtain ⟨c, ks, rest, hrest, hks, hread⟩ := lossyFrom_cons n b (ps.flatMap Piece.bytes)
        obtain ⟨ps', hsuffix, rfl⟩ := exists_suffix_of_append hrest hks
        have hle : (ps'.map Piece.weight).sum ≤ (ps.map Piece.weight).sum := by
          obtain ⟨ps'', rfl⟩ := hsuffix
          rw [List.map_append, List.sum_append]
          exact Nat.le_add_left _ _
        have hone : (Piece.char c).weight ≤ 1 := by
          rw [Piece.weight]
          split <;> decide
        show visible (lossyFrom (n + 1) (b :: ps.flatMap Piece.bytes)) ≤ 1 + _
        rw [hread, visible_cons]
        have hih := ih ps'
        omega

/-! ## Texts that read like themselves -/

theorem lossyFrom_chars (cs : List Char) {n : ℕ} (h : cs.length ≤ n) :
    lossyFrom n ((cs.map Piece.char).flatMap Piece.bytes) = cs := by
  induction cs generalizing n with
  | nil => cases n <;> rfl
  | cons c cs ih =>
    cases n with
    | zero => exact absurd h (Nat.not_succ_le_zero _)
    | succ n =>
      rw [List.map_cons, List.flatMap_cons, lossyFrom_char, ih (Nat.le_of_succ_le_succ h)]

theorem decode_of_pieces {cs : List Char} (h : pieces cs = cs.map Piece.char) : decode cs = cs := by
  rw [decode, h, fromUtf8Lossy]
  refine lossyFrom_chars cs ?_
  rw [List.length_flatMap, List.map_map]
  have hsize := Text.length_le_utf8Size cs
  rw [Text.utf8Size] at hsize
  simpa [Function.comp_def, Piece.bytes] using hsize

theorem whiteSpace_of_value {c : Char} {n : ℕ} (h : Hex.value c = some n) :
    Text.whiteSpace c = false := by
  have hall : ∀ n < 128, (Hex.value (Char.ofNat n)).isSome = true →
      Text.whiteSpace (Char.ofNat n) = false := by
    decide
  have hle : ∀ {d : Char}, c ≤ d → d.toNat < 128 → c.toNat < 128 := fun hcd hd =>
    (UInt32.le_iff_toNat_le.mp (Char.le_def.mp hcd)).trans_lt hd
  have hlt : c.toNat < 128 := by
    unfold Hex.value at h
    split at h
    · rename_i hc
      exact hle hc.2 (by decide)
    · split at h
      · rename_i hc
        exact hle hc.2 (by decide)
      · split at h
        · rename_i hc
          exact hle hc.2 (by decide)
        · cases h
  have hc := hall c.toNat hlt
  rw [Char.ofNat_toNat] at hc
  exact hc (Option.isSome_iff_exists.mpr ⟨n, h⟩)

theorem sum_weight_map_char (cs : List Char) :
    ((cs.map Piece.char).map Piece.weight).sum = visible cs := by
  induction cs with
  | nil => rfl
  | cons c cs ih => rw [List.map_cons, List.map_cons, List.sum_cons, ih, visible_cons]

/-- The parts of a text are its characters, or fewer of them are visible. -/
def PlainOrFewer (cs : List Char) : Prop :=
  pieces cs = cs.map Piece.char ∨ ((pieces cs).map Piece.weight).sum < visible cs

namespace PlainOrFewer

variable {c : Char} {cs : List Char}

theorem sum_weight_le (h : PlainOrFewer cs) :
    ((pieces cs).map Piece.weight).sum ≤ visible cs := by
  rcases h with h | h
  · rw [h, sum_weight_map_char]
  · exact h.le

/-- A part that is a character of the text keeps the balance. -/
theorem cons (h : PlainOrFewer cs) (hc : pieces (c :: cs) = .char c :: pieces cs) :
    PlainOrFewer (c :: cs) := by
  rcases h with h | h
  · exact .inl (by rw [hc, h, List.map_cons])
  · refine .inr ?_
    rw [hc, List.map_cons, List.sum_cons, visible_cons]
    omega

end PlainOrFewer

/-- An escape or a plus sign leaves fewer visible characters. -/
theorem plainOrFewer (cs : List Char) : PlainOrFewer cs := by
  induction cs using pieces.induct with
  | case1 => exact .inl rfl
  | case2 hi lo cs h l hl hh ih =>
    have hvisible : visible ('%' :: hi :: lo :: cs) = 3 + visible cs := by
      rw [visible_cons, visible_cons, visible_cons, Piece.weight, Piece.weight, Piece.weight,
        whiteSpace_of_value hl, whiteSpace_of_value hh, if_neg (by decide)]
      simp only [Bool.false_eq_true, if_false]
      omega
    refine .inr ?_
    rw [pieces, hh, hl, hvisible]
    simp only [List.map_cons, List.sum_cons, Piece.weight]
    have hih := ih.sum_weight_le
    omega
  | case3 hi lo cs hnone ih =>
    refine ih.cons ?_
    rw [pieces]
    split
    · rename_i h l hh hl
      exact (hnone h l hh hl).elim
    · rfl
  | case4 cs ih =>
    refine .inr ?_
    rw [pieces, List.map_cons, List.sum_cons, visible_cons]
    have hplus : (Piece.char '+').weight = 1 := rfl
    have hspace : (Piece.char ' ').weight = 0 := rfl
    have hih := ih.sum_weight_le
    omega
  | case5 c cs hpercent hplus ih =>
    refine ih.cons ?_
    rw [pieces]
    · exact hpercent
    · exact hplus

theorem visible_dropWhile (cs : List Char) : visible (cs.dropWhile Text.whiteSpace) = visible cs := by
  induction cs with
  | nil => rfl
  | cons c cs ih =>
    rw [List.dropWhile_cons]
    split
    · rename_i hc
      rw [ih, visible_cons, Piece.weight, if_pos hc, Nat.zero_add]
    · rfl

theorem visible_trim (cs : List Char) : visible (Text.trim cs) = visible cs := by
  have hreverse : ∀ l : List Char, visible l.reverse = visible l := fun l => List.countP_reverse
  rw [Text.trim, hreverse, visible_dropWhile, hreverse, visible_dropWhile]

/-- **A text that reads like itself but for whitespace at the ends reads like itself.** -/
theorem decode_eq_of_trim_eq {cs : List Char} (h : Text.trim (decode cs) = Text.trim cs) :
    decode cs = cs := by
  rcases plainOrFewer cs with hpieces | hlt
  · exact decode_of_pieces hpieces
  · have hle : visible (decode cs) ≤ ((pieces cs).map Piece.weight).sum :=
      visible_lossyFrom_le _ (pieces cs)
    rw [← visible_trim (decode cs), h, visible_trim] at hle
    omega

example : decode "a%2Bb+c%C3%A9%FF%E2%82x%4".toList = "a+b cé\uFFFD\uFFFDx%4".toList := by
  decide +kernel

end Urlencoded
