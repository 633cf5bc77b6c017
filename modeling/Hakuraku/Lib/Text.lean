import Mathlib.Data.List.Basic
import Mathlib.Data.Char
import Mathlib.Tactic.IntervalCases

/-!
# Text encodings: bytes, hexadecimal, decimal and delimited fields

Bytes are lists of `UInt8` and text is `String` or a list of characters. The encoders follow the usual
conventions of systems code: lower-case hexadecimal that is decoded in either case (`Hex`), and
numbers in decimal with an optional sign on input (`Decimal`). `Text.lines` and `Text.words` take a
text apart. `Delimited` answers when two triples of fields joined by a delimiter give the same text
although only the middle field is known to be free of the delimiter.
-/

namespace Text

/-- The UTF-8 bytes of a string. -/
def asBytes (s : String) : List UInt8 := s.toByteArray.data.toList

theorem asBytes_injective : Function.Injective asBytes := by
  intro s t h
  have hdata : s.toByteArray.data = t.toByteArray.data := Array.toList_inj.mp h
  exact String.toByteArray_inj.mp (ByteArray.ext hdata)

@[simp] theorem asBytes_inj {s t : String} : asBytes s = asBytes t ↔ s = t :=
  asBytes_injective.eq_iff

/-- The bytes of a text are those of its characters. -/
theorem asBytes_eq_flatMap (s : String) : asBytes s = s.toList.flatMap String.utf8EncodeChar := by
  have h : (String.ofList s.toList).toByteArray = s.toList.utf8Encode := String.toByteArray_ofList
  rw [String.ofList_toList] at h
  rw [asBytes, h, List.utf8Encode, List.data_toByteArray]

theorem utf8Size_eq_one_iff {c : Char} : c.utf8Size = 1 ↔ c.toNat < 128 := by
  rw [Char.utf8Size_eq_one_iff, UInt32.le_iff_toNat_le]
  exact Nat.lt_succ_iff.symm

/-- Every byte of an ASCII text is a character. -/
theorem asBytes_of_ascii {s : String} (h : ∀ c ∈ s.toList, c.toNat < 128) :
    asBytes s = s.toList.map fun c => UInt8.ofNat c.toNat := by
  rw [asBytes_eq_flatMap, List.map_eq_flatMap]
  refine List.flatMap_congr fun c hc => ?_
  rw [String.utf8EncodeChar_eq_singleton (utf8Size_eq_one_iff.mpr (h c hc))]
  rfl

/-- Split at a byte position of the UTF-8 text; `none` within a character or beyond the end. -/
def splitAt : List Char → ℕ → Option (List Char × List Char)
  | cs, 0 => some ([], cs)
  | [], _ + 1 => none
  | c :: cs, n + 1 =>
    if c.utf8Size ≤ n + 1 then
      (splitAt cs (n + 1 - c.utf8Size)).map fun parts => (c :: parts.1, parts.2)
    else none

/-- How many bytes a text takes. -/
def utf8Size (cs : List Char) : ℕ := (cs.map Char.utf8Size).sum

@[simp] theorem utf8Size_append (cs cs' : List Char) :
    utf8Size (cs ++ cs') = utf8Size cs + utf8Size cs' := by
  rw [utf8Size, List.map_append, List.sum_append]
  rfl

theorem utf8Size_cons (c : Char) (cs : List Char) : utf8Size (c :: cs) = c.utf8Size + utf8Size cs :=
  rfl

/-- A text takes at least a byte for every character. -/
theorem length_le_utf8Size (cs : List Char) : cs.length ≤ utf8Size cs := by
  induction cs with
  | nil => exact Nat.zero_le _
  | cons c cs ih =>
    have hc := c.utf8Size_pos
    rw [utf8Size_cons, List.length_cons]
    omega

theorem utf8ByteSize_eq (s : String) : s.utf8ByteSize = utf8Size s.toList := by
  have h : s.utf8ByteSize = (asBytes s).length := rfl
  rw [h, asBytes_eq_flatMap, List.length_flatMap, utf8Size]
  simp

/-- **A split is where the byte position falls between two characters.** -/
theorem splitAt_eq_some_iff {cs a b : List Char} {n : ℕ} :
    splitAt cs n = some (a, b) ↔ cs = a ++ b ∧ utf8Size a = n := by
  induction cs, n using splitAt.induct generalizing a with
  | case1 cs =>
    rw [splitAt, Option.some.injEq, Prod.mk.injEq]
    constructor
    · rintro ⟨rfl, rfl⟩
      exact ⟨rfl, rfl⟩
    · rintro ⟨rfl, ha⟩
      have hnil : a = [] := List.eq_nil_of_length_eq_zero
        (Nat.le_zero.mp (ha ▸ length_le_utf8Size a))
      subst hnil
      exact ⟨rfl, rfl⟩
  | case2 n =>
    refine iff_of_false (by simp [splitAt]) ?_
    rintro ⟨hnil, ha⟩
    rw [(List.append_eq_nil_iff.mp hnil.symm).1] at ha
    exact absurd ha (Nat.succ_ne_zero n).symm
  | case3 c cs n hle ih =>
    rw [splitAt, if_pos hle, Option.map_eq_some_iff]
    constructor
    · rintro ⟨⟨a', b'⟩, hsplit, heq⟩
      obtain ⟨rfl, rfl⟩ := Prod.mk.inj heq
      obtain ⟨rfl, ha'⟩ := ih.mp hsplit
      refine ⟨rfl, ?_⟩
      show c.utf8Size + utf8Size a' = n + 1
      omega
    · rintro ⟨hcs, ha⟩
      cases a with
      | nil => exact absurd ha (Nat.succ_ne_zero n).symm
      | cons d a =>
        obtain ⟨rfl, rfl⟩ := List.cons.inj hcs
        rw [utf8Size_cons] at ha
        exact ⟨(a, b), ih.mpr ⟨rfl, by omega⟩, rfl⟩
  | case4 c cs n hlt =>
    rw [splitAt, if_neg hlt]
    refine iff_of_false (by simp) ?_
    rintro ⟨hcs, ha⟩
    cases a with
    | nil => exact absurd ha (Nat.succ_ne_zero n).symm
    | cons d a =>
      obtain ⟨rfl, rfl⟩ := List.cons.inj hcs
      rw [utf8Size_cons] at ha
      omega

/-- Before a last character of one byte there is a split at the last byte. -/
theorem splitAt_pred_of_one {cs : List Char} {c : Char} (hc : c.utf8Size = 1) :
    splitAt (cs ++ [c]) (utf8Size (cs ++ [c]) - 1) = some (cs, [c]) := by
  refine splitAt_eq_some_iff.mpr ⟨rfl, ?_⟩
  rw [utf8Size_append, utf8Size_cons, hc]
  rfl

/-- Before the last byte there is a split exactly if the last character takes one byte. -/
theorem splitAt_pred_concat {cs : List Char} {c : Char} :
    (splitAt (cs ++ [c]) (utf8Size (cs ++ [c]) - 1)).isSome = true ↔ c.utf8Size = 1 := by
  have hc := c.utf8Size_pos
  have hsize : utf8Size (cs ++ [c]) = utf8Size cs + c.utf8Size := by simp [utf8Size]
  constructor
  · intro h
    obtain ⟨⟨a, b⟩, hsplit⟩ := Option.isSome_iff_exists.mp h
    obtain ⟨hcs, ha⟩ := splitAt_eq_some_iff.mp hsplit
    -- what is right of the split takes one byte, and the last character is in it
    have hb : utf8Size b = 1 := by
      have hall : utf8Size (cs ++ [c]) = utf8Size a + utf8Size b := by rw [hcs, utf8Size_append]
      omega
    rcases List.eq_nil_or_concat b with rfl | ⟨b', d, rfl⟩
    · exact absurd hb (by decide)
    · rw [List.concat_eq_append, ← List.append_assoc] at hcs
      obtain ⟨-, hcd⟩ := List.append_inj' hcs rfl
      obtain rfl := List.head_eq_of_cons_eq hcd
      rw [List.concat_eq_append, utf8Size_append] at hb
      have hd : utf8Size [c] = c.utf8Size := Nat.add_zero _
      omega
  · intro h
    rw [splitAt_pred_of_one h]
    rfl

/-! ### Lines and words -/

/-- The characters with the Unicode property `White_Space`. -/
def whiteSpace (c : Char) : Bool :=
  let n := c.toNat
  (0x9 ≤ n && n ≤ 0xD) || n = 0x20 || n = 0x85 || n = 0xA0 || n = 0x1680 ||
    (0x2000 ≤ n && n ≤ 0x200A) || n = 0x2028 || n = 0x2029 || n = 0x202F || n = 0x205F || n = 0x3000

/-- The text without the whitespace at both ends. -/
def trim (cs : List Char) : List Char :=
  ((cs.dropWhile whiteSpace).reverse.dropWhile whiteSpace).reverse

/-- The lines of a text after the reversed beginning of the first. A line feed ends a line, together
with a carriage return before it. -/
def linesFrom : List Char → List Char → List (List Char)
  | [], [] => []
  | before, [] => [before.reverse]
  | '\r' :: before, '\n' :: cs => before.reverse :: linesFrom [] cs
  | before, '\n' :: cs => before.reverse :: linesFrom [] cs
  | before, c :: cs => linesFrom (c :: before) cs

/-- The lines of a text. -/
def lines (cs : List Char) : List (List Char) := linesFrom [] cs

/-- The words of a text after the reversed beginning of the first. -/
def wordsFrom : List Char → List Char → List (List Char)
  | [], [] => []
  | before, [] => [before.reverse]
  | before, c :: cs =>
    if whiteSpace c then
      if before.isEmpty then wordsFrom [] cs else before.reverse :: wordsFrom [] cs
    else wordsFrom (c :: before) cs

/-- The parts of a text between whitespace. -/
def words (cs : List Char) : List (List Char) := wordsFrom [] cs

/-- What is before and after the first occurrence of a character. -/
def splitOnce (d : Char) : List Char → Option (List Char × List Char)
  | [] => none
  | c :: cs =>
    if c = d then some ([], cs) else (splitOnce d cs).map fun parts => (c :: parts.1, parts.2)

/-- What follows a beginning of the text. -/
def stripPrefix (beginning cs : List Char) : Option (List Char) :=
  if beginning.isPrefixOf cs then some (cs.drop beginning.length) else none

section

variable {d : Char} {pieces : List (List Char)}

/-- Pieces that are joined and closed by a delimiter are what a split finds, besides empty ones. -/
theorem filter_splitOn_joined (hd : ∀ piece ∈ pieces, d ∉ piece) (hne : [] ∉ pieces) :
    (([d].intercalate pieces ++ [d]).splitOn d).filter (· ≠ []) = pieces := by
  have hkeep : pieces.filter (· ≠ []) = pieces := by
    refine List.filter_eq_self.mpr fun piece hpiece => decide_eq_true ?_
    rintro rfl
    exact hne hpiece
  rw [List.splitOn_append_cons_self, List.filter_append]
  by_cases hnil : pieces = []
  · subst hnil
    rfl
  · rw [List.splitOn_intercalate d hd hnil, hkeep]
    exact List.append_nil _

/-- They end with one delimiter. -/
theorem not_isSuffix_joined (hd : ∀ piece ∈ pieces, d ∉ piece) (hne : [] ∉ pieces) :
    ¬ [d, d] <:+ [d].intercalate pieces ++ [d] := by
  rintro ⟨before, h⟩
  have hjoined : before ++ [d] = [d].intercalate pieces :=
    List.append_cancel_right (by rw [← h, List.append_assoc]; rfl)
  -- The piece after the last delimiter would be empty.
  have hmem : [] ∈ ([d].intercalate pieces).splitOn d := by
    rw [← hjoined, List.splitOn_append_cons_self]
    exact List.mem_append_right _ (by rw [List.splitOn_nil]; exact List.mem_singleton_self _)
  by_cases hnil : pieces = []
  · subst hnil
    exact absurd hjoined (by simp)
  · rw [List.splitOn_intercalate d hd hnil] at hmem
    exact hne hmem

end

end Text

/-! ## Hexadecimal -/

namespace Hex

/-- The digit of a value below sixteen, in lower case. -/
def digit (n : ℕ) : Char :=
  if n < 10 then Char.ofNat (48 + n) else Char.ofNat (87 + n)

/-- The value of a hexadecimal digit in either case. -/
def value (c : Char) : Option ℕ :=
  if '0' ≤ c ∧ c ≤ '9' then some (c.toNat - 48)
  else if 'a' ≤ c ∧ c ≤ 'f' then some (c.toNat - 87)
  else if 'A' ≤ c ∧ c ≤ 'F' then some (c.toNat - 55)
  else none

/-- Two digits for each byte, the high half first. -/
def encodeChars : List UInt8 → List Char
  | [] => []
  | b :: bs => digit (b.toNat / 16) :: digit (b.toNat % 16) :: encodeChars bs

/-- Read pairs of digits; an odd length or a character that is no digit is an error. -/
def decodeChars : List Char → Option (List UInt8)
  | [] => some []
  | [_] => none
  | hi :: lo :: rest => do
    let h ← value hi
    let l ← value lo
    let bytes ← decodeChars rest
    some (UInt8.ofNat (16 * h + l) :: bytes)

def encode (bytes : List UInt8) : String := String.ofList (encodeChars bytes)

def decode (s : String) : Option (List UInt8) := decodeChars s.toList

theorem value_digit {n : ℕ} (h : n < 16) : value (digit n) = some n := by
  interval_cases n <;> decide

theorem decodeChars_encodeChars (bytes : List UInt8) :
    decodeChars (encodeChars bytes) = some bytes := by
  induction bytes with
  | nil => rfl
  | cons b bs ih =>
    have hb : b.toNat < 256 := b.toNat_lt
    have hhi : value (digit (b.toNat / 16)) = some (b.toNat / 16) := value_digit (by omega)
    have hlo : value (digit (b.toNat % 16)) = some (b.toNat % 16) := value_digit (by omega)
    have hjoin : UInt8.ofNat (16 * (b.toNat / 16) + b.toNat % 16) = b := by
      rw [Nat.div_add_mod, UInt8.ofNat_toNat]
    simp only [encodeChars, decodeChars, hhi, hlo, ih, Option.bind_eq_bind, Option.bind_some, hjoin]

theorem digit_toNat {n : ℕ} (h : n < 16) : 48 ≤ (digit n).toNat ∧ (digit n).toNat < 127 := by
  interval_cases n <;> decide

/-- A hexadecimal text is made of digits. -/
theorem toNat_of_mem_encode {bytes : List UInt8} {c : Char} (h : c ∈ (encode bytes).toList) :
    48 ≤ c.toNat ∧ c.toNat < 127 := by
  rw [encode, String.toList_ofList] at h
  induction bytes with
  | nil => exact absurd h (by simp [encodeChars])
  | cons b bs ih =>
    have hb : b.toNat < 256 := b.toNat_lt
    rw [encodeChars, List.mem_cons, List.mem_cons] at h
    rcases h with rfl | rfl | h
    · exact digit_toNat (by omega)
    · exact digit_toNat (by omega)
    · exact ih h

/-- **Decoding undoes encoding.** -/
@[simp] theorem decode_encode (bytes : List UInt8) : decode (encode bytes) = some bytes := by
  rw [decode, encode, String.toList_ofList, decodeChars_encodeChars]

end Hex

/-! ## Decimal numbers -/

namespace Decimal

/-- A non-empty run of decimal digits. -/
def parseNat (cs : List Char) : Option ℕ :=
  if cs ≠ [] ∧ cs.all Char.isDigit then some (Nat.ofDigitChars 10 cs 0) else none

/-- An integer with an optional sign. -/
def parseInt : List Char → Option ℤ
  | '-' :: cs => (parseNat cs).map fun n : ℕ => -(n : ℤ)
  | '+' :: cs => (parseNat cs).map fun n : ℕ => (n : ℤ)
  | cs => (parseNat cs).map fun n : ℕ => (n : ℤ)

/-- A signed 64-bit integer; a value out of range is an error. -/
def parseI64 (s : String) : Option Int64 := do
  let n ← parseInt s.toList
  if -2 ^ 63 ≤ n ∧ n < 2 ^ 63 then some (Int64.ofInt n) else none

/-- A natural number below a bound, with an optional plus sign. -/
def parseUnsigned (bound : ℕ) (cs : List Char) : Option ℕ := do
  let n ← match cs with
    | '+' :: cs => parseNat cs
    | cs => parseNat cs
  if n < bound then some n else none

/-- An unsigned 64-bit integer. -/
def parseU64 (cs : List Char) : Option UInt64 := (parseUnsigned (2 ^ 64) cs).map UInt64.ofNat

/-- An unsigned 32-bit integer. -/
def parseU32 (cs : List Char) : Option UInt32 := (parseUnsigned (2 ^ 32) cs).map UInt32.ofNat

/-- A signed 32-bit integer. -/
def parseI32 (cs : List Char) : Option Int32 := do
  let n ← parseInt cs
  if -2 ^ 31 ≤ n ∧ n < 2 ^ 31 then some (Int32.ofInt n) else none

theorem isDigit_of_mem_repr {n : ℕ} {c : Char} (h : c ∈ n.repr.toList) : c.isDigit = true := by
  rw [Nat.toList_repr] at h
  exact Nat.isDigit_of_mem_toDigits (by decide) (by decide) h

theorem parseNat_repr (n : ℕ) : parseNat n.repr.toList = some n := by
  have hne : n.repr.toList ≠ [] := by
    rw [Nat.toList_repr]
    exact Nat.toDigits_ne_nil
  have hdigits : n.repr.toList.all Char.isDigit = true :=
    List.all_eq_true.mpr fun _ => isDigit_of_mem_repr
  rw [parseNat, if_pos ⟨hne, hdigits⟩, Nat.toList_repr, Nat.ofDigitChars_ten_toDigits]

theorem isDigit_of_parseNat {cs : List Char} {n : ℕ} {c : Char} (h : parseNat cs = some n)
    (hc : c ∈ cs) : c.isDigit = true := by
  rw [parseNat, Option.ite_none_right_eq_some] at h
  exact List.all_eq_true.mp h.1.2 c hc

/-- A number without a sign is an integer. -/
theorem parseInt_of_parseNat {cs : List Char} {n : ℕ} (h : parseNat cs = some n) :
    parseInt cs = some (n : ℤ) := by
  unfold parseInt
  split
  · exact absurd (isDigit_of_parseNat h List.mem_cons_self) (by decide)
  · exact absurd (isDigit_of_parseNat h List.mem_cons_self) (by decide)
  · rw [h]
    rfl

theorem parseI64_of_parseNat {cs : List Char} {n : ℕ} (h : parseNat cs = some n)
    (hlt : (n : ℤ) < 2 ^ 63) : parseI64 (String.ofList cs) = some (Int64.ofInt n) := by
  rw [parseI64, String.toList_ofList, parseInt_of_parseNat h, Option.bind_eq_bind, Option.bind_some,
    if_pos ⟨by omega, hlt⟩]

theorem parseInt_toString (z : ℤ) : parseInt (toString z).toList = some z := by
  rw [Int.toString_eq_repr, Int.repr_eq_if]
  split
  next hpos =>
    rw [parseInt_of_parseNat (parseNat_repr z.toNat), Option.some.injEq]
    omega
  next hneg =>
    rw [String.toList_append]
    show (parseNat (Nat.repr _).toList).map _ = _
    rw [parseNat_repr, Option.map_some, Option.some.injEq]
    omega

/-- **Parsing undoes printing.** -/
@[simp] theorem parseI64_toString (t : Int64) : parseI64 (toString t) = some t := by
  have hlo := t.le_toInt
  have hhi := t.toInt_lt
  show (parseInt (toString t.toInt).toList).bind _ = _
  rw [parseInt_toString, Option.bind_some, if_pos ⟨hlo, hhi⟩, Int64.ofInt_toInt]

theorem toString_injective : Function.Injective (toString : Int64 → String) := by
  intro t t' h
  have hparse := congrArg parseI64 h
  simpa using hparse

/-- The decimal text of an integer is made of digits and a minus sign. -/
theorem isDigit_or_eq_of_mem_toString {z : ℤ} {c : Char} (h : c ∈ (toString z).toList) :
    c.isDigit = true ∨ c = '-' := by
  rw [Int.toString_eq_repr, Int.repr_eq_if] at h
  split at h
  · exact .inl (isDigit_of_mem_repr h)
  · rw [String.toList_append, List.mem_append] at h
    rcases h with h | h
    · exact .inr (List.mem_singleton.mp h)
    · exact .inl (isDigit_of_mem_repr h)

/-- A number has fewer values than its digits have texts. -/
theorem parseNat_lt {cs : List Char} {n : ℕ} (h : parseNat cs = some n) : n < 10 ^ cs.length := by
  rw [parseNat, Option.ite_none_right_eq_some] at h
  obtain ⟨⟨-, hdigits⟩, h⟩ := h
  obtain rfl := Option.some.inj h
  have hfold : ∀ (cs : List Char) (init : ℕ), cs.all Char.isDigit = true →
      Nat.ofDigitChars 10 cs init < (init + 1) * 10 ^ cs.length := by
    intro cs
    induction cs with
    | nil => intro init _; simp [Nat.ofDigitChars]
    | cons c cs ih =>
      intro init hall
      rw [List.all_cons, Bool.and_eq_true] at hall
      have hc : c.toNat ≤ 57 := (Char.isDigit_iff_toNat.mp hall.1).2
      rw [Nat.ofDigitChars_cons, List.length_cons, Nat.pow_succ']
      calc Nat.ofDigitChars 10 cs (10 * init + (c.toNat - 48))
          < (10 * init + (c.toNat - 48) + 1) * 10 ^ cs.length := ih _ hall.2
        _ ≤ (10 * (init + 1)) * 10 ^ cs.length := Nat.mul_le_mul_right _ (by omega)
        _ = (init + 1) * (10 * 10 ^ cs.length) := by rw [Nat.mul_comm 10, Nat.mul_assoc]
  simpa using hfold cs 0 hdigits

/-- An integer is written with digits and signs. -/
theorem mem_of_parseInt {cs : List Char} {z : ℤ} (h : parseInt cs = some z) {c : Char}
    (hc : c ∈ cs) : c.isDigit = true ∨ c = '-' ∨ c = '+' := by
  unfold parseInt at h
  split at h
  · obtain ⟨n, hn, -⟩ := Option.map_eq_some_iff.mp h
    rcases List.mem_cons.mp hc with rfl | hc
    · exact .inr (.inl rfl)
    · exact .inl (isDigit_of_parseNat hn hc)
  · obtain ⟨n, hn, -⟩ := Option.map_eq_some_iff.mp h
    rcases List.mem_cons.mp hc with rfl | hc
    · exact .inr (.inr rfl)
    · exact .inl (isDigit_of_parseNat hn hc)
  · obtain ⟨n, hn, -⟩ := Option.map_eq_some_iff.mp h
    exact .inl (isDigit_of_parseNat hn hc)

/-- Without a minus sign the number is not negative. -/
theorem parseInt_bounds {cs : List Char} {z : ℤ} (h : parseInt cs = some z) (hminus : '-' ∉ cs) :
    0 ≤ z ∧ z < 10 ^ cs.length := by
  have hnat : ∀ {cs : List Char} {n : ℕ}, parseNat cs = some n → (n : ℤ) < 10 ^ cs.length := by
    intro cs n h
    exact_mod_cast parseNat_lt h
  unfold parseInt at h
  split at h
  · exact absurd List.mem_cons_self hminus
  · obtain ⟨n, hn, rfl⟩ := Option.map_eq_some_iff.mp h
    refine ⟨Int.natCast_nonneg n, (hnat hn).trans ?_⟩
    rw [List.length_cons]
    exact pow_lt_pow_right₀ (by decide) (Nat.lt_succ_self _)
  · obtain ⟨n, hn, rfl⟩ := Option.map_eq_some_iff.mp h
    exact ⟨Int.natCast_nonneg n, hnat hn⟩

theorem not_mem_toString {t : Int64} {c : Char} (hdigit : c.isDigit = false) (hminus : c ≠ '-') :
    c ∉ (toString t).toList := by
  intro h
  rcases isDigit_or_eq_of_mem_toString (z := t.toInt) h with h | h
  · rw [hdigit] at h
    exact absurd h (by decide)
  · exact hminus h

end Decimal

/-! ## Delimited fields

`n d t d c` for three fields and a delimiter `d`. If the middle field is free of `d` in two such
texts, the texts agree only if the fields do or if one triple is a *re-split* of the other: its
first field has swallowed the other's first delimiter, so that the surplus sits in the other's last
field. -/

namespace Delimited

variable {α : Type*}

/-- Three fields joined by `d`. -/
def join (d : α) (n t c : List α) : List α := n ++ d :: (t ++ d :: c)

/-- The delimiter that ends a field free of it determines the field. -/
theorem append_cons_inj {d : α} {t t' c c' : List α} (ht : d ∉ t) (ht' : d ∉ t')
    (h : t ++ d :: c = t' ++ d :: c') : t = t' ∧ c = c' := by
  rcases List.append_eq_append_iff.mp h with ⟨a, ha, hc⟩ | ⟨a, ha, hc⟩
  · cases a with
    | nil => exact ⟨by simpa using ha.symm, by simpa using hc⟩
    | cons x a =>
      obtain ⟨rfl, -⟩ := List.cons.inj hc
      exact absurd (by simp [ha]) ht'
  · cases a with
    | nil => exact ⟨by simpa using ha, by simpa using hc.symm⟩
    | cons x a =>
      obtain ⟨rfl, -⟩ := List.cons.inj hc
      exact absurd (by simp [ha]) ht

/-- The first field of the second triple reaches beyond the first delimiter of the first. -/
def Resplit (d : α) (n t c n' t' c' : List α) : Prop :=
  (n' = n ++ d :: t ∧ c = t' ++ d :: c') ∨
    ∃ x, n' = n ++ d :: (t ++ d :: x) ∧ c = x ++ d :: (t' ++ d :: c')

theorem Resplit.join_eq {d : α} {n t c n' t' c' : List α} (h : Resplit d n t c n' t' c') :
    join d n t c = join d n' t' c' := by
  rcases h with ⟨rfl, rfl⟩ | ⟨x, rfl, rfl⟩ <;> simp [join]

/-- If the first field of the second triple is longer, the second triple is a re-split. -/
theorem resplit_of_append {d : α} {t c a t' c' : List α} (n : List α) (ht : d ∉ t)
    (h : t ++ d :: c = a ++ d :: (t' ++ d :: c')) :
    Resplit d n t c (n ++ d :: a) t' c' := by
  rcases List.append_eq_append_iff.mp h with ⟨y, rfl, hc⟩ | ⟨y, rfl, hc⟩
  · cases y with
    | nil =>
      obtain ⟨-, rfl⟩ := List.cons.inj hc
      exact .inl ⟨by simp, rfl⟩
    | cons z y =>
      obtain ⟨rfl, rfl⟩ := List.cons.inj hc
      exact .inr ⟨y, rfl, rfl⟩
  · cases y with
    | nil =>
      obtain ⟨-, rfl⟩ := List.cons.inj hc
      exact .inl ⟨by simp, rfl⟩
    | cons z y =>
      obtain ⟨rfl, -⟩ := List.cons.inj hc
      exact absurd (by simp) ht

/-- **When the joined text does not determine the fields.** -/
theorem join_eq_iff {d : α} {n t c n' t' c' : List α} (ht : d ∉ t) (ht' : d ∉ t') :
    join d n t c = join d n' t' c' ↔
      (n = n' ∧ t = t' ∧ c = c') ∨ Resplit d n t c n' t' c' ∨ Resplit d n' t' c' n t c := by
  constructor
  · intro h
    rcases List.append_eq_append_iff.mp h with ⟨a, rfl, hrest⟩ | ⟨a, rfl, hrest⟩
    · cases a with
      | nil =>
        obtain ⟨-, htail⟩ := List.cons.inj hrest
        exact .inl ⟨by simp, append_cons_inj ht ht' htail⟩
      | cons x a =>
        obtain ⟨rfl, htail⟩ := List.cons.inj hrest
        exact .inr (.inl (resplit_of_append n ht htail))
    · cases a with
      | nil =>
        obtain ⟨-, htail⟩ := List.cons.inj hrest
        obtain ⟨hteq, hceq⟩ := append_cons_inj ht' ht htail
        exact .inl ⟨by simp, hteq.symm, hceq.symm⟩
      | cons x a =>
        obtain ⟨rfl, htail⟩ := List.cons.inj hrest
        exact .inr (.inr (resplit_of_append n' ht' htail))
  · rintro (⟨rfl, rfl, rfl⟩ | h | h)
    · rfl
    · exact h.join_eq
    · exact h.join_eq.symm

/-- A re-split leaves the delimiter in the last field it takes from. -/
theorem Resplit.mem {d : α} {n t c n' t' c' : List α} (h : Resplit d n t c n' t' c') : d ∈ c := by
  rcases h with ⟨-, rfl⟩ | ⟨x, -, rfl⟩ <;> simp

/-- A re-split has a longer first field. -/
theorem Resplit.ne {d : α} {n t c n' t' c' : List α} (h : Resplit d n t c n' t' c') : n ≠ n' := by
  rcases h with ⟨rfl, -⟩ | ⟨x, rfl, -⟩ <;> simp

end Delimited
