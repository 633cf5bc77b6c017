import Hakuraku.Lib.CaseMap
import Hakuraku.Lib.Wrapping
import Hakuraku.Server.History
import Mathlib.Data.List.TakeWhile

/-!
# The range of a history request

Reference: `pulse-server/src/api.rs`, `parse_range_to_ms` and the check of the range in
`get_node_history`.

The check counts bytes of the text as it came and asks for letters and digits of any script.
`parse_range_to_ms` trims the text, takes its lower case and splits it before the last byte. That is
a character boundary exactly if the last character of the lower case is an ASCII one.
-/

namespace Hakuraku.Server

variable {B J : Type}

/-- The functions of `str` from the tables of an edition of Unicode. -/
def Unicode.of (whitespace : Char → Bool) (m : CaseMap) : Unicode := ⟨whitespace, m.lowercase⟩

/-! ## Trimming -/

/-- A trimmed text is a part of the text. -/
theorem Unicode.trim_sublist (unicode : Unicode) (cs : List Char) : (unicode.trim cs).Sublist cs := by
  have hend := List.dropWhile_sublist (l := (cs.dropWhile unicode.whitespace).reverse)
    unicode.whitespace
  rw [← List.reverse_sublist, List.reverse_reverse] at hend
  exact hend.trans (List.dropWhile_sublist _)

/-- A trimmed text ends with the last character that is no whitespace. -/
theorem Unicode.getLast?_trim (unicode : Unicode) (cs : List Char) :
    (unicode.trim cs).getLast? = cs.reverse.find? fun c => !unicode.whitespace c := by
  -- the whitespace before the text is of no use to the search from behind
  have hfront : (cs.takeWhile unicode.whitespace).reverse.find? (fun c => !unicode.whitespace c) =
      none := by
    refine List.find?_eq_none.mpr fun c hc => ?_
    rw [List.mem_takeWhile_imp (List.mem_reverse.mp hc)]
    decide
  calc (unicode.trim cs).getLast?
      = (cs.dropWhile unicode.whitespace).reverse.find? (fun c => !unicode.whitespace c) := by
        rw [Unicode.trim, List.getLast?_reverse, List.find?_not_eq_head?_dropWhile]
    _ = (cs.takeWhile unicode.whitespace ++ cs.dropWhile unicode.whitespace).reverse.find?
          (fun c => !unicode.whitespace c) := by
        rw [List.reverse_append, List.find?_append, hfront, Option.or_none]
    _ = cs.reverse.find? (fun c => !unicode.whitespace c) := by rw [List.takeWhile_append_dropWhile]

/-! ## Where the split falls -/

/-- What `parse_range_to_ms` makes of the two parts. -/
def rangeOfParts (parts : List Char × List Char) : Int64 :=
  let num := (Decimal.parseI64 (String.ofList parts.1)).getD 1
  match parts.2 with
  | ['m'] => num * 60 * 1000
  | ['h'] => num * 3600 * 1000
  | ['d'] => num * 86400 * 1000
  | _ => 3600 * 1000

/-- The two parts of a range: the lower case before its last byte, and that byte. -/
def rangeParts (unicode : Unicode) (range : String) : Option (List Char × List Char) :=
  let cs := unicode.lowercase (unicode.trim range.toList)
  Text.splitAt cs (Text.utf8Size cs - 1)

/-- `parse_range_to_ms` splits the lower case before its last byte. -/
theorem parseRangeToMs_eq {unicode : Unicode} {range : String} {cs : List Char}
    (hcs : unicode.lowercase (unicode.trim range.toList) = cs) :
    parseRangeToMs unicode range =
      (Text.splitAt cs (Text.utf8Size cs - 1)).map rangeOfParts := by
  rw [parseRangeToMs, hcs, Text.utf8ByteSize_eq, String.toList_ofList]
  cases Text.splitAt cs (Text.utf8Size cs - 1) with
  | none => rfl
  | some parts =>
    obtain ⟨numStr, unit⟩ := parts
    simp only [Option.bind_eq_bind, Option.bind_some, Option.map_some, rangeOfParts]
    split <;> simp_all

/-- **`parse_range_to_ms` returns exactly if its text is blank or ends in a plain character.** -/
theorem isSome_parseRangeToMs_iff (whitespace : Char → Bool) (m : CaseMap) (range : String) :
    (parseRangeToMs (.of whitespace m) range).isSome = true ↔
      ∀ c ∈ range.toList.reverse.find? fun c => !whitespace c, CaseMap.Plain c := by
  have hlast : range.toList.reverse.find? (fun c => !whitespace c) =
      ((Unicode.of whitespace m).trim range.toList).getLast? :=
    (Unicode.getLast?_trim (.of whitespace m) range.toList).symm
  rw [hlast]
  rcases List.eq_nil_or_concat ((Unicode.of whitespace m).trim range.toList) with
    hnil | ⟨cs, c, hconcat⟩
  · have hlower : (Unicode.of whitespace m).lowercase ((Unicode.of whitespace m).trim range.toList) =
        [] := by
      rw [hnil]
      rfl
    rw [parseRangeToMs_eq hlower, hnil]
    exact iff_of_true rfl (by simp)
  · rw [List.concat_eq_append] at hconcat
    obtain ⟨l, d, hlower, hd⟩ := CaseMap.exists_lowercase_concat (m := m) cs c
    rw [← hconcat] at hlower
    rw [parseRangeToMs_eq hlower, Option.isSome_map, Text.splitAt_pred_concat, Text.utf8Size_eq_one_iff,
      hd, hconcat, List.getLast?_append]
    simp

/-- A configuration with the letters and digits up to `ÿ`, those with accents and the indicators,
superscripts and fractions included. -/
def Config.latin1 : Config ℕ String where
  serde := Config.byText.serde
  hash := Config.byText.hash
  alphanumeric c :=
    let n := c.toNat
    c.isAlphanum || n = 0xAA || n = 0xB2 || n = 0xB3 || n = 0xB5 || n = 0xB9 || n = 0xBA ||
      (0xBC ≤ n && n ≤ 0xBE) || (0xC0 ≤ n && n ≤ 0xFF && n ≠ 0xD7 && n ≠ 0xF7)

/-- The functions of `str` from the tables of Unicode 16, for texts without a capital sigma. -/
def Unicode.unicode16 : Unicode := .of Text.whiteSpace (.unicode16 Char.isAlpha fun _ => false)

/-- The check lets a letter with an accent through, and the split falls within it. -/
theorem parseRangeToMs_panics :
    isValidRange Config.latin1 "é" = true ∧ parseRangeToMs Unicode.unicode16 "é" = none := by
  decide +kernel

/-! ## How long a range is -/

/-- The number before the unit, of a range that the check lets through. -/
theorem num_bounds {cfg : Config B J} {whitespace : Char → Bool} {m : CaseMap} {range : String}
    {numStr : List Char} {unit : Char} {num : Int64} (hdash : cfg.alphanumeric '-' = false)
    (hvalid : isValidRange cfg range = true) (hunit : unit.toNat < 128)
    (hcs : m.lowercase ((Unicode.of whitespace m).trim range.toList) = numStr ++ [unit])
    (hnum : Decimal.parseI64 (String.ofList numStr) = some num) :
    0 ≤ num.toInt ∧ num.toInt < 10 ^ 7 := by
  rw [Decimal.parseI64, String.toList_ofList] at hnum
  obtain ⟨z, hz, hnum⟩ := Option.bind_eq_some_iff.mp hnum
  rw [Option.ite_none_right_eq_some] at hnum
  obtain ⟨⟨hlo, hhi⟩, hnum⟩ := hnum
  obtain rfl := Option.some.inj hnum
  rw [Int64.toInt_ofInt_of_le hlo hhi]
  have hascii : ∀ d ∈ numStr ++ [unit], d.toNat < 128 := by
    intro d hd
    rcases List.mem_append.mp hd with hd | hd
    · rcases Decimal.mem_of_parseInt hz hd with h | rfl | rfl
      · exact (Char.isDigit_iff_toNat.mp h).2.trans_lt (by decide)
      · decide
      · decide
    · exact List.mem_singleton.mp hd ▸ hunit
  -- so every character of the text became one, and only letters have changed
  obtain ⟨hplain, hmap⟩ := CaseMap.lowercase_of_ascii (hcs ▸ hascii)
  rw [hmap] at hcs
  have htrim := Unicode.trim_sublist (.of whitespace m) range.toList
  rw [isValidRange, Bool.and_eq_true, List.all_eq_true, decide_eq_true_eq] at hvalid
  have hminus : '-' ∉ numStr := by
    intro hmem
    obtain ⟨c, hc, hlower⟩ := List.mem_map.mp (hcs ▸ List.mem_append_left [unit] hmem)
    have hself := CaseMap.lowerPlain_eq_self (hplain c hc) (by rw [hlower]; decide)
    rw [hlower] at hself
    have hletter := hvalid.1 c (htrim.subset hc)
    rw [← hself, hdash] at hletter
    exact absurd hletter (by decide)
  obtain ⟨hpos, hlt⟩ := Decimal.parseInt_bounds hz hminus
  have hlength : numStr.length ≤ 7 := by
    have hbytes := Text.length_le_utf8Size range.toList
    rw [← Text.utf8ByteSize_eq] at hbytes
    have hchars := congrArg List.length hcs
    rw [List.length_map, List.length_append, List.length_singleton] at hchars
    have hpart := htrim.length_le
    omega
  exact ⟨hpos, hlt.trans_le (pow_le_pow_right₀ (by decide) hlength)⟩

/-- A number of units that fits as milliseconds is computed without overflow. -/
theorem toInt_mul_mul {num k : Int64} (hnum : 0 ≤ num.toInt) (hk : 0 ≤ k.toInt)
    (hfits : num.toInt * k.toInt * 1000 < 2 ^ 63) :
    (num * k).toInt = num.toInt * k.toInt ∧
      (num * k * 1000).toInt = num.toInt * k.toInt * 1000 := by
  have hthousand : (1000 : Int64).toInt = 1000 := by decide
  have hnonneg := Int.mul_nonneg hnum hk
  have hprod := Wrapping.toInt_mul (a := num) (b := k) (by omega) (by omega)
  refine ⟨hprod, ?_⟩
  rw [Wrapping.toInt_mul, hprod, hthousand]
  · rw [hprod, hthousand]
    omega
  · rw [hprod, hthousand]
    exact hfits

/-- The factors of the products that `parse_range_to_ms` computes, one after the other. -/
def rangeProducts (parts : List Char × List Char) : List (Int64 × Int64) :=
  let num := (Decimal.parseI64 (String.ofList parts.1)).getD 1
  match parts.2 with
  | ['m'] => [(num, 60), (num * 60, 1000)]
  | ['h'] => [(num, 3600), (num * 3600, 1000)]
  | ['d'] => [(num, 86400), (num * 86400, 1000)]
  | _ => [(3600, 1000)]

/-- The product of two factors does not overflow. -/
def ProductFits (factors : Int64 × Int64) : Prop :=
  -2 ^ 63 ≤ factors.1.toInt * factors.2.toInt ∧ factors.1.toInt * factors.2.toInt < 2 ^ 63

/-- **The range of a request that is let through** is computed without overflow, and is a length of
time. -/
theorem rangeOfParts_bounds {cfg : Config B J} {whitespace : Char → Bool} {m : CaseMap}
    {range : String} {parts : List Char × List Char} (hdash : cfg.alphanumeric '-' = false)
    (hvalid : isValidRange cfg range = true)
    (hparts : rangeParts (.of whitespace m) range = some parts) :
    (∀ factors ∈ rangeProducts parts, ProductFits factors) ∧
      0 ≤ (rangeOfParts parts).toInt ∧ (rangeOfParts parts).toInt < 2 ^ 62 := by
  obtain ⟨numStr, unit⟩ := parts
  obtain ⟨hcs, -⟩ := Text.splitAt_eq_some_iff.mp hparts
  set num := (Decimal.parseI64 (String.ofList numStr)).getD 1 with hnum
  have hproduct : ∀ (c : Char) (k : Int64), c.toNat < 128 → unit = [c] → 0 ≤ k.toInt →
      k.toInt ≤ 86400 → (∀ factors ∈ [(num, k), (num * k, 1000)], ProductFits factors) ∧
        0 ≤ (num * k * 1000).toInt ∧ (num * k * 1000).toInt < 2 ^ 62 := by
    rintro c k hc rfl hk hk'
    have hbounds : 0 ≤ num.toInt ∧ num.toInt < 10 ^ 7 := by
      cases hparse : Decimal.parseI64 (String.ofList numStr) with
      | none =>
        rw [hnum, hparse]
        decide
      | some num' =>
        rw [hnum, hparse]
        exact num_bounds hdash hvalid hc hcs hparse
    have hthousand : (1000 : Int64).toInt = 1000 := by decide
    have hle : num.toInt * k.toInt ≤ 10 ^ 7 * 86400 :=
      Int.mul_le_mul hbounds.2.le hk' hk (by decide)
    have hpos := Int.mul_nonneg hbounds.1 hk
    obtain ⟨hprod, hprod'⟩ := toInt_mul_mul hbounds.1 hk (by omega)
    rw [List.forall_mem_cons, List.forall_mem_singleton, ProductFits, ProductFits, hprod, hprod',
      hthousand]
    dsimp only
    omega
  unfold rangeOfParts rangeProducts
  split
  · exact hproduct 'm' 60 (by decide) ‹_› (by decide) (by decide)
  · exact hproduct 'h' 3600 (by decide) ‹_› (by decide) (by decide)
  · exact hproduct 'd' 86400 (by decide) ‹_› (by decide) (by decide)
  · rw [List.forall_mem_singleton, ProductFits]
    decide

theorem nonneg_of_parseRangeToMs {cfg : Config B J} {whitespace : Char → Bool} {m : CaseMap}
    {range : String} {rangeMs : Int64} (hdash : cfg.alphanumeric '-' = false)
    (hvalid : isValidRange cfg range = true)
    (h : parseRangeToMs (.of whitespace m) range = some rangeMs) : 0 ≤ rangeMs.toInt := by
  rw [parseRangeToMs_eq rfl, Option.map_eq_some_iff] at h
  obtain ⟨parts, hsplit, rfl⟩ := h
  exact (rangeOfParts_bounds hdash hvalid hsplit).2.1

/-! ## The value of a range -/

/-- The milliseconds of a unit, in either case. -/
def unitMs : Char → Option ℕ
  | 'm' | 'M' => some 60000
  | 'h' | 'H' => some 3600000
  | 'd' | 'D' => some 86400000
  | _ => none

/-- The letter of a unit is an ASCII one, and its lower case says how `parse_range_to_ms` goes on. -/
theorem unitMs_cases {unit : Char} {ms : ℕ} (h : unitMs unit = some ms) :
    unit.toNat < 128 ∧ Text.whiteSpace unit = false ∧
      ∃ k : Int64, (k.toInt * 1000 = ms ∧ 0 < k.toInt) ∧ ∀ numStr,
        rangeOfParts (numStr, [CaseMap.lowerPlain unit]) =
          (Decimal.parseI64 (String.ofList numStr)).getD 1 * k * 1000 := by
  unfold unitMs at h
  split at h
  · obtain rfl := Option.some.inj h
    exact ⟨by decide, by decide, 60, by decide, fun numStr => rfl⟩
  · obtain rfl := Option.some.inj h
    exact ⟨by decide, by decide, 60, by decide, fun numStr => rfl⟩
  · obtain rfl := Option.some.inj h
    exact ⟨by decide, by decide, 3600, by decide, fun numStr => rfl⟩
  · obtain rfl := Option.some.inj h
    exact ⟨by decide, by decide, 3600, by decide, fun numStr => rfl⟩
  · obtain rfl := Option.some.inj h
    exact ⟨by decide, by decide, 86400, by decide, fun numStr => rfl⟩
  · obtain rfl := Option.some.inj h
    exact ⟨by decide, by decide, 86400, by decide, fun numStr => rfl⟩
  · cases h

theorem Unicode.trim_of_forall {unicode : Unicode} {cs : List Char}
    (h : ∀ c ∈ cs, unicode.whitespace c = false) : unicode.trim cs = cs := by
  have hdrop : ∀ {l : List Char}, (∀ c ∈ l, unicode.whitespace c = false) →
      l.dropWhile unicode.whitespace = l := by
    intro l hl
    cases l with
    | nil => rfl
    | cons c l => exact List.dropWhile_cons_of_neg (by simp [hl c List.mem_cons_self])
  rw [Unicode.trim, hdrop h, hdrop fun c hc => h c (List.mem_reverse.mp hc), List.reverse_reverse]

theorem digit_facts {c : Char} (h : c.isDigit = true) :
    c.toNat < 128 ∧ Text.whiteSpace c = false ∧ CaseMap.lowerPlain c = c := by
  have hlt : c.toNat < 128 := (Char.isDigit_iff_toNat.mp h).2.trans_lt (by decide)
  refine ⟨hlt, ?_⟩
  exact CaseMap.forall_ascii (P := fun c => c.isDigit = true →
    Text.whiteSpace c = false ∧ CaseMap.lowerPlain c = c) (by decide) hlt h

/-- A numeral and an ASCII letter are trimmed to themselves, and only the letter has a lower case. -/
theorem lowercase_numeral (m : CaseMap) {digits : List Char} {unit : Char}
    (hdigits : ∀ c ∈ digits, c.isDigit = true) (hascii : unit.toNat < 128)
    (hspace : Text.whiteSpace unit = false) :
    (Unicode.of Text.whiteSpace m).lowercase ((Unicode.of Text.whiteSpace m).trim
      (digits ++ [unit])) = digits ++ [CaseMap.lowerPlain unit] := by
  have htrim : (Unicode.of Text.whiteSpace m).trim (digits ++ [unit]) = digits ++ [unit] := by
    refine Unicode.trim_of_forall (List.forall_mem_append.mpr ⟨?_, ?_⟩)
    · exact fun c hc => (digit_facts (hdigits c hc)).2.1
    · exact List.forall_mem_singleton.mpr hspace
  rw [htrim]
  show m.lowercase (digits ++ [unit]) = digits ++ [CaseMap.lowerPlain unit]
  rw [CaseMap.lowercase, CaseMap.lowercaseFrom_of_plain, List.map_append]
  · congr 1
    refine (List.map_congr_left fun c hc => ?_).trans (List.map_id digits)
    exact (digit_facts (hdigits c hc)).2.2
  · refine List.forall_mem_append.mpr ⟨?_, List.forall_mem_singleton.mpr (.inl hascii)⟩
    exact fun c hc => .inl (digit_facts (hdigits c hc)).1

/-- **A numeral and a unit are the product**, if it fits. -/
theorem parseRangeToMs_numeral (m : CaseMap) {digits : List Char} {unit : Char} {ms : ℕ}
    (hne : digits ≠ []) (hdigits : ∀ c ∈ digits, c.isDigit = true) (hunit : unitMs unit = some ms)
    (hfits : Nat.ofDigitChars 10 digits 0 * ms < 2 ^ 63) :
    ∃ rangeMs, parseRangeToMs (.of Text.whiteSpace m) (String.ofList (digits ++ [unit])) =
      some rangeMs ∧ rangeMs.toInt = Nat.ofDigitChars 10 digits 0 * ms := by
  obtain ⟨hascii, hspace, k, ⟨hk, hkpos⟩, hrange⟩ := unitMs_cases hunit
  have hsplit : Text.splitAt (digits ++ [CaseMap.lowerPlain unit])
      (Text.utf8Size (digits ++ [CaseMap.lowerPlain unit]) - 1) =
        some (digits, [CaseMap.lowerPlain unit]) :=
    Text.splitAt_pred_of_one (Text.utf8Size_eq_one_iff.mpr (CaseMap.lowerPlain_lt (.inl hascii)))
  -- the number fits as well, since a unit is at least a millisecond
  set n := Nat.ofDigitChars 10 digits 0
  have hcast : (n : ℤ) * k.toInt * 1000 = n * ms := by rw [Int.mul_assoc, hk]
  have hfits' : (n : ℤ) * k.toInt * 1000 < 2 ^ 63 := by
    rw [hcast]
    exact_mod_cast hfits
  have hle : (n : ℤ) ≤ n * k.toInt := le_mul_of_one_le_right (Int.natCast_nonneg n) hkpos
  have hlt : (n : ℤ) < 2 ^ 63 := by omega
  have hnat : Decimal.parseNat digits = some n := if_pos ⟨hne, List.all_eq_true.mpr hdigits⟩
  have hnum := Decimal.parseI64_of_parseNat hnat hlt
  have hint : (Int64.ofInt n).toInt = n := Int64.toInt_ofInt_of_le (by omega) hlt
  refine ⟨Int64.ofInt n * k * 1000, ?_, ?_⟩
  · have hcs := lowercase_numeral m hdigits hascii hspace
    rw [← String.toList_ofList (l := digits ++ [unit])] at hcs
    rw [parseRangeToMs_eq hcs, hsplit, Option.map_some, hrange, hnum]
    rfl
  · rw [(toInt_mul_mul (by omega) hkpos.le (by rw [hint]; exact hfits')).2, hint, hcast]

theorem exists_rangeParts {m : CaseMap} {range : String}
    (hascii : ∀ c ∈ range.toList, c.toNat < 128) :
    ∃ parts, rangeParts (.of Text.whiteSpace m) range = some parts := by
  have hsome : (parseRangeToMs (.of Text.whiteSpace m) range).isSome = true := by
    refine (isSome_parseRangeToMs_iff _ m range).mpr fun c hc => .inl (hascii c ?_)
    exact List.mem_reverse.mp (List.mem_of_find?_eq_some hc)
  rw [parseRangeToMs_eq rfl, Option.isSome_map] at hsome
  exact Option.isSome_iff_exists.mp hsome

/-- **Ranges are exact.** A numeral and a unit give the product, whenever it fits. For every ASCII
range that `get_node_history` lets through, none of the products overflows, and neither does the
difference from a clock in `[0, 2 ^ 62)`; the range is not negative, and the interval not empty. -/
theorem range_values_exact (cfg : Config B J) (m : CaseMap)
    (halphanumeric : ∀ c : Char, c.toNat < 128 → cfg.alphanumeric c = c.isAlphanum) :
    (∀ (digits : List Char) (unit : Char) (ms : ℕ), digits ≠ [] →
      (∀ c ∈ digits, c.isDigit = true) → unitMs unit = some ms →
      Nat.ofDigitChars 10 digits 0 * ms < 2 ^ 63 →
      ∃ rangeMs, parseRangeToMs (.of Text.whiteSpace m) (String.ofList (digits ++ [unit])) =
        some rangeMs ∧ rangeMs.toInt = Nat.ofDigitChars 10 digits 0 * ms) ∧
    ∀ range : String, (∀ c ∈ range.toList, c.toNat < 128) → isValidRange cfg range = true →
      ∃ parts rangeMs, rangeParts (.of Text.whiteSpace m) range = some parts ∧
        (∀ factors ∈ rangeProducts parts, ProductFits factors) ∧
        parseRangeToMs (.of Text.whiteSpace m) range = some rangeMs ∧ 0 ≤ rangeMs.toInt ∧
        ∀ nowMs : Int64, 0 ≤ nowMs.toInt → nowMs.toInt < 2 ^ 62 →
          -2 ^ 63 ≤ nowMs.toInt - rangeMs.toInt ∧ nowMs.toInt - rangeMs.toInt < 2 ^ 63 ∧
          ∀ (db : Database J) (nodeId : String) (limit : Int64) (ok : Bool) (history : History J),
            getNodeHistory cfg (.of Text.whiteSpace m) db nodeId ⟨range, limit⟩ nowMs ok =
              some (.ok history) →
            history.fromMs.toInt = nowMs.toInt - rangeMs.toInt ∧ history.toMs = nowMs ∧
              history.fromMs ≤ history.toMs := by
  refine ⟨fun digits unit ms hne hdigits hunit hfits =>
    parseRangeToMs_numeral m hne hdigits hunit hfits, ?_⟩
  intro range hascii hvalid
  have hdash : cfg.alphanumeric '-' = false := halphanumeric '-' (by decide)
  obtain ⟨parts, hparts⟩ := exists_rangeParts (m := m) hascii
  obtain ⟨hproducts, hpos, hlt⟩ := rangeOfParts_bounds hdash hvalid hparts
  have hparse : parseRangeToMs (.of Text.whiteSpace m) range = some (rangeOfParts parts) := by
    rw [parseRangeToMs_eq rfl]
    exact congrArg (Option.map rangeOfParts) hparts
  refine ⟨parts, rangeOfParts parts, hparts, hproducts, hparse, hpos, ?_⟩
  intro nowMs hnow hnow'
  refine ⟨by omega, by omega, ?_⟩
  intro db nodeId limit ok history hhistory
  have hfrom : (nowMs - rangeOfParts parts).toInt = nowMs.toInt - (rangeOfParts parts).toInt :=
    Wrapping.toInt_sub (by omega) (by omega)
  obtain ⟨hfromMs, htoMs⟩ := interval_of_getNodeHistory hhistory hparse
  rw [hfromMs, htoMs, Int64.le_iff_toInt_le, hfrom]
  exact ⟨rfl, rfl, by omega⟩

theorem range_values_exact_of_week :
    (∃ rangeMs, parseRangeToMs .unicode16 "007D" = some rangeMs ∧ rangeMs.toInt = 604800000) ∧
      isValidRange Config.latin1 "99999d9" = true ∧
      ∃ rangeMs, parseRangeToMs .unicode16 "99999d9" = some rangeMs ∧ 0 ≤ rangeMs.toInt := by
  have halphanumeric : ∀ c : Char, c.toNat < 128 → Config.latin1.alphanumeric c = c.isAlphanum :=
    fun c => CaseMap.forall_ascii
      (P := fun c => Config.latin1.alphanumeric c = c.isAlphanum) (by decide +kernel)
  have hexact := range_values_exact Config.latin1 (.unicode16 Char.isAlpha fun _ => false)
    halphanumeric
  have hascii : ∀ c ∈ "99999d9".toList, c.toNat < 128 := by simp
  refine ⟨hexact.1 "007".toList 'D' 86400000 (by decide) (List.all_eq_true.mp rfl) rfl (by decide),
    by decide +kernel, ?_⟩
  obtain ⟨-, rangeMs, -, -, hparse, hpos, -⟩ := hexact.2 "99999d9" hascii (by decide +kernel)
  exact ⟨rangeMs, hparse, hpos⟩

end Hakuraku.Server
