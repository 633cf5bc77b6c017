import Mathlib.Data.List.Basic
import Mathlib.Data.Char

/-!
# Lower case

The lower case of a text, character by character from a table, except that a capital sigma at the end
of a word becomes a final sigma. `CaseMap` is what one edition of the Unicode tables says, with the
facts about ASCII on which programs rely: an ASCII character has an ASCII lower case, and of the
other characters only the Kelvin sign has one. `CaseMap.unicode16` has the table of Unicode 16.
-/

/-- `K`, the Kelvin sign. -/
def kelvinSign : Char := '\u212a'

/-- What the Unicode tables say about case. -/
structure CaseMap where
  /-- The lower case of a single character. -/
  toLower : Char → List Char
  /-- The property `Cased`. -/
  cased : Char → Bool
  /-- The property `Case_Ignorable`. -/
  caseIgnorable : Char → Bool
  toLower_of_ascii : ∀ c, c.toNat < 128 → toLower c = [c.toLower]
  toLower_kelvin : toLower kelvinSign = ['k']
  toLower_of_not_ascii : ∀ c, 128 ≤ c.toNat → c ≠ kelvinSign →
    ∃ l d, toLower c = l ++ [d] ∧ 128 ≤ d.toNat

namespace CaseMap

variable (m : CaseMap)

/-- After the characters that case ignores comes a cased one. -/
def ignorableThenCased (cs : List Char) : Bool :=
  match cs.dropWhile m.caseIgnorable with
  | c :: _ => m.cased c
  | [] => false

/-- The lower case of a character between the texts `before`, which is reversed, and `after`. -/
def expand (before : List Char) (c : Char) (after : List Char) : List Char :=
  if c = 'Σ' then
    if m.ignorableThenCased before && !m.ignorableThenCased after then ['ς'] else ['σ']
  else m.toLower c

/-- The lower case of a text after `before`, which is reversed. -/
def lowercaseFrom : List Char → List Char → List Char
  | _, [] => []
  | before, c :: cs => m.expand before c cs ++ lowercaseFrom (c :: before) cs

/-- The lower case of a text. -/
def lowercase (cs : List Char) : List Char := m.lowercaseFrom [] cs

/-! ## ASCII in the lower case -/

/-- A character with an ASCII lower case. -/
def Plain (c : Char) : Prop := c.toNat < 128 ∨ c = kelvinSign

instance (c : Char) : Decidable (Plain c) := inferInstanceAs (Decidable (_ ∨ _))

/-- The lower case of such a character. -/
def lowerPlain (c : Char) : Char := if c = kelvinSign then 'k' else c.toLower

/-- What holds of the first 128 code points holds of every ASCII character. -/
theorem forall_ascii {P : Char → Prop} (h : ∀ n < 128, P (Char.ofNat n)) {c : Char}
    (hc : c.toNat < 128) : P c := by
  have hc' := h c.toNat hc
  rwa [Char.ofNat_toNat] at hc'

theorem lowerPlain_lt {c : Char} (h : Plain c) : (lowerPlain c).toNat < 128 := by
  rcases h with h | rfl
  · exact forall_ascii (P := fun c => (lowerPlain c).toNat < 128) (by decide) h
  · decide

/-- Only letters change. -/
theorem lowerPlain_eq_self {c : Char} (h : Plain c) (hlower : (lowerPlain c).isLower = false) :
    lowerPlain c = c := by
  rcases h with h | rfl
  · exact forall_ascii (P := fun c => (lowerPlain c).isLower = false → lowerPlain c = c)
      (by decide) h hlower
  · exact absurd hlower (by decide)

variable {m} {before cs after : List Char} {c : Char}

theorem expand_of_plain (h : Plain c) : m.expand before c after = [lowerPlain c] := by
  have hsigma : c ≠ 'Σ' := by
    rintro rfl
    exact absurd h (by decide)
  rw [expand, if_neg hsigma]
  rcases h with h | rfl
  · have hkelvin : c ≠ kelvinSign := by
      rintro rfl
      exact absurd h (by decide)
    rw [m.toLower_of_ascii c h, lowerPlain, if_neg hkelvin]
  · rw [m.toLower_kelvin, lowerPlain, if_pos rfl]

/-- The lower case of any other character ends in a character that is not ASCII. -/
theorem expand_of_not_plain (before : List Char) (h : ¬ Plain c) (after : List Char) :
    ∃ l d, m.expand before c after = l ++ [d] ∧ 128 ≤ d.toNat := by
  rw [Plain, not_or, Nat.not_lt] at h
  rw [expand]
  split
  · split
    · exact ⟨[], 'ς', rfl, by decide⟩
    · exact ⟨[], 'σ', rfl, by decide⟩
  · exact m.toLower_of_not_ascii c h.1 h.2

/-- The lower case of a text ends with that of its last character. -/
theorem lowercaseFrom_concat (before cs : List Char) (c : Char) :
    ∃ l before', m.lowercaseFrom before (cs ++ [c]) = l ++ m.expand before' c [] := by
  induction cs generalizing before with
  | nil => exact ⟨[], before, by simp [lowercaseFrom]⟩
  | cons b cs ih =>
    obtain ⟨l, before', h⟩ := ih (b :: before)
    exact ⟨m.expand before b (cs ++ [c]) ++ l, before', by
      rw [List.cons_append, lowercaseFrom, h, List.append_assoc]⟩

/-- **The lower case of a text ends in ASCII exactly if the text ends in a plain character.** -/
theorem exists_lowercase_concat (cs : List Char) (c : Char) :
    ∃ l d, m.lowercase (cs ++ [c]) = l ++ [d] ∧ (d.toNat < 128 ↔ Plain c) := by
  obtain ⟨l, before, h⟩ := lowercaseFrom_concat (m := m) [] cs c
  rw [lowercase, h]
  by_cases hc : Plain c
  · exact ⟨l, lowerPlain c, by rw [expand_of_plain hc], iff_of_true (lowerPlain_lt hc) hc⟩
  · obtain ⟨l', d, hexp, hd⟩ := expand_of_not_plain (m := m) before hc []
    exact ⟨l ++ l', d, by rw [hexp, List.append_assoc], iff_of_false (Nat.not_lt.mpr hd) hc⟩

theorem lowercaseFrom_of_plain (h : ∀ c ∈ cs, Plain c) (before : List Char) :
    m.lowercaseFrom before cs = cs.map lowerPlain := by
  induction cs generalizing before with
  | nil => rfl
  | cons c cs ih =>
    rw [List.forall_mem_cons] at h
    rw [lowercaseFrom, expand_of_plain h.1, ih h.2, List.map_cons, List.singleton_append]

theorem plain_of_lowercaseFrom (h : ∀ d ∈ m.lowercaseFrom before cs, d.toNat < 128) :
    ∀ c ∈ cs, Plain c := by
  induction cs generalizing before with
  | nil => exact fun c hc => absurd hc List.not_mem_nil
  | cons c cs ih =>
    rw [lowercaseFrom, List.forall_mem_append] at h
    refine List.forall_mem_cons.mpr ⟨by_contra fun hc => ?_, ih h.2⟩
    obtain ⟨l, d, hexp, hd⟩ := expand_of_not_plain (m := m) before hc cs
    rw [hexp] at h
    exact absurd (h.1 d (by simp)) (Nat.not_lt.mpr hd)

/-- **A text with an ASCII lower case is plain, and each of its characters became one.** -/
theorem lowercase_of_ascii (h : ∀ d ∈ m.lowercase cs, d.toNat < 128) :
    (∀ c ∈ cs, Plain c) ∧ m.lowercase cs = cs.map lowerPlain :=
  ⟨plain_of_lowercaseFrom h, lowercaseFrom_of_plain (plain_of_lowercaseFrom h) []⟩

/-! ## The table of Unicode 16 -/

/-- A run of code points: every `stride`-th from `first` to `last` has a lower case, and those are as
far apart, from `lower` on. -/
structure Run where
  first : ℕ
  last : ℕ
  stride : ℕ
  lower : ℕ

/-- The code point belongs to the run. -/
def Run.has (r : Run) (n : ℕ) : Bool := r.first ≤ n && n ≤ r.last && (n - r.first) % r.stride = 0

/-- The lower case of a code point of the run. -/
def Run.map (r : Run) (n : ℕ) : ℕ := r.lower + (n - r.first)

/-- The runs beyond ASCII and but for the Kelvin sign. -/
def runs : List Run :=
  [⟨0xC0, 0xD6, 1, 0xE0⟩, ⟨0xD8, 0xDE, 1, 0xF8⟩, ⟨0x100, 0x12E, 2, 0x101⟩, ⟨0x132, 0x136, 2, 0x133⟩,
    ⟨0x139, 0x147, 2, 0x13A⟩, ⟨0x14A, 0x176, 2, 0x14B⟩, ⟨0x178, 0x178, 1, 0xFF⟩,
    ⟨0x179, 0x17D, 2, 0x17A⟩, ⟨0x181, 0x181, 1, 0x253⟩, ⟨0x182, 0x184, 2, 0x183⟩,
    ⟨0x186, 0x186, 1, 0x254⟩, ⟨0x187, 0x187, 1, 0x188⟩, ⟨0x189, 0x18A, 1, 0x256⟩,
    ⟨0x18B, 0x18B, 1, 0x18C⟩, ⟨0x18E, 0x18E, 1, 0x1DD⟩, ⟨0x18F, 0x18F, 1, 0x259⟩,
    ⟨0x190, 0x190, 1, 0x25B⟩, ⟨0x191, 0x191, 1, 0x192⟩, ⟨0x193, 0x193, 1, 0x260⟩,
    ⟨0x194, 0x194, 1, 0x263⟩, ⟨0x196, 0x196, 1, 0x269⟩, ⟨0x197, 0x197, 1, 0x268⟩,
    ⟨0x198, 0x198, 1, 0x199⟩, ⟨0x19C, 0x19C, 1, 0x26F⟩, ⟨0x19D, 0x19D, 1, 0x272⟩,
    ⟨0x19F, 0x19F, 1, 0x275⟩, ⟨0x1A0, 0x1A4, 2, 0x1A1⟩, ⟨0x1A6, 0x1A6, 1, 0x280⟩,
    ⟨0x1A7, 0x1A7, 1, 0x1A8⟩, ⟨0x1A9, 0x1A9, 1, 0x283⟩, ⟨0x1AC, 0x1AC, 1, 0x1AD⟩,
    ⟨0x1AE, 0x1AE, 1, 0x288⟩, ⟨0x1AF, 0x1AF, 1, 0x1B0⟩, ⟨0x1B1, 0x1B2, 1, 0x28A⟩,
    ⟨0x1B3, 0x1B5, 2, 0x1B4⟩, ⟨0x1B7, 0x1B7, 1, 0x292⟩, ⟨0x1B8, 0x1B8, 1, 0x1B9⟩,
    ⟨0x1BC, 0x1BC, 1, 0x1BD⟩, ⟨0x1C4, 0x1C4, 1, 0x1C6⟩, ⟨0x1C5, 0x1C5, 1, 0x1C6⟩,
    ⟨0x1C7, 0x1C7, 1, 0x1C9⟩, ⟨0x1C8, 0x1C8, 1, 0x1C9⟩, ⟨0x1CA, 0x1CA, 1, 0x1CC⟩,
    ⟨0x1CB, 0x1DB, 2, 0x1CC⟩, ⟨0x1DE, 0x1EE, 2, 0x1DF⟩, ⟨0x1F1, 0x1F1, 1, 0x1F3⟩,
    ⟨0x1F2, 0x1F4, 2, 0x1F3⟩, ⟨0x1F6, 0x1F6, 1, 0x195⟩, ⟨0x1F7, 0x1F7, 1, 0x1BF⟩,
    ⟨0x1F8, 0x21E, 2, 0x1F9⟩, ⟨0x220, 0x220, 1, 0x19E⟩, ⟨0x222, 0x232, 2, 0x223⟩,
    ⟨0x23A, 0x23A, 1, 0x2C65⟩, ⟨0x23B, 0x23B, 1, 0x23C⟩, ⟨0x23D, 0x23D, 1, 0x19A⟩,
    ⟨0x23E, 0x23E, 1, 0x2C66⟩, ⟨0x241, 0x241, 1, 0x242⟩, ⟨0x243, 0x243, 1, 0x180⟩,
    ⟨0x244, 0x244, 1, 0x289⟩, ⟨0x245, 0x245, 1, 0x28C⟩, ⟨0x246, 0x24E, 2, 0x247⟩,
    ⟨0x370, 0x372, 2, 0x371⟩, ⟨0x376, 0x376, 1, 0x377⟩, ⟨0x37F, 0x37F, 1, 0x3F3⟩,
    ⟨0x386, 0x386, 1, 0x3AC⟩, ⟨0x388, 0x38A, 1, 0x3AD⟩, ⟨0x38C, 0x38C, 1, 0x3CC⟩,
    ⟨0x38E, 0x38F, 1, 0x3CD⟩, ⟨0x391, 0x3A1, 1, 0x3B1⟩, ⟨0x3A3, 0x3AB, 1, 0x3C3⟩,
    ⟨0x3CF, 0x3CF, 1, 0x3D7⟩, ⟨0x3D8, 0x3EE, 2, 0x3D9⟩, ⟨0x3F4, 0x3F4, 1, 0x3B8⟩,
    ⟨0x3F7, 0x3F7, 1, 0x3F8⟩, ⟨0x3F9, 0x3F9, 1, 0x3F2⟩, ⟨0x3FA, 0x3FA, 1, 0x3FB⟩,
    ⟨0x3FD, 0x3FF, 1, 0x37B⟩, ⟨0x400, 0x40F, 1, 0x450⟩, ⟨0x410, 0x42F, 1, 0x430⟩,
    ⟨0x460, 0x480, 2, 0x461⟩, ⟨0x48A, 0x4BE, 2, 0x48B⟩, ⟨0x4C0, 0x4C0, 1, 0x4CF⟩,
    ⟨0x4C1, 0x4CD, 2, 0x4C2⟩, ⟨0x4D0, 0x52E, 2, 0x4D1⟩, ⟨0x531, 0x556, 1, 0x561⟩,
    ⟨0x10A0, 0x10C5, 1, 0x2D00⟩, ⟨0x10C7, 0x10C7, 1, 0x2D27⟩, ⟨0x10CD, 0x10CD, 1, 0x2D2D⟩,
    ⟨0x13A0, 0x13EF, 1, 0xAB70⟩, ⟨0x13F0, 0x13F5, 1, 0x13F8⟩, ⟨0x1C89, 0x1C89, 1, 0x1C8A⟩,
    ⟨0x1C90, 0x1CBA, 1, 0x10D0⟩, ⟨0x1CBD, 0x1CBF, 1, 0x10FD⟩, ⟨0x1E00, 0x1E94, 2, 0x1E01⟩,
    ⟨0x1E9E, 0x1E9E, 1, 0xDF⟩, ⟨0x1EA0, 0x1EFE, 2, 0x1EA1⟩, ⟨0x1F08, 0x1F0F, 1, 0x1F00⟩,
    ⟨0x1F18, 0x1F1D, 1, 0x1F10⟩, ⟨0x1F28, 0x1F2F, 1, 0x1F20⟩, ⟨0x1F38, 0x1F3F, 1, 0x1F30⟩,
    ⟨0x1F48, 0x1F4D, 1, 0x1F40⟩, ⟨0x1F59, 0x1F5F, 2, 0x1F51⟩, ⟨0x1F68, 0x1F6F, 1, 0x1F60⟩,
    ⟨0x1F88, 0x1F8F, 1, 0x1F80⟩, ⟨0x1F98, 0x1F9F, 1, 0x1F90⟩, ⟨0x1FA8, 0x1FAF, 1, 0x1FA0⟩,
    ⟨0x1FB8, 0x1FB9, 1, 0x1FB0⟩, ⟨0x1FBA, 0x1FBB, 1, 0x1F70⟩, ⟨0x1FBC, 0x1FBC, 1, 0x1FB3⟩,
    ⟨0x1FC8, 0x1FCB, 1, 0x1F72⟩, ⟨0x1FCC, 0x1FCC, 1, 0x1FC3⟩, ⟨0x1FD8, 0x1FD9, 1, 0x1FD0⟩,
    ⟨0x1FDA, 0x1FDB, 1, 0x1F76⟩, ⟨0x1FE8, 0x1FE9, 1, 0x1FE0⟩, ⟨0x1FEA, 0x1FEB, 1, 0x1F7A⟩,
    ⟨0x1FEC, 0x1FEC, 1, 0x1FE5⟩, ⟨0x1FF8, 0x1FF9, 1, 0x1F78⟩, ⟨0x1FFA, 0x1FFB, 1, 0x1F7C⟩,
    ⟨0x1FFC, 0x1FFC, 1, 0x1FF3⟩, ⟨0x2126, 0x2126, 1, 0x3C9⟩, ⟨0x212B, 0x212B, 1, 0xE5⟩,
    ⟨0x2132, 0x2132, 1, 0x214E⟩, ⟨0x2160, 0x216F, 1, 0x2170⟩, ⟨0x2183, 0x2183, 1, 0x2184⟩,
    ⟨0x24B6, 0x24CF, 1, 0x24D0⟩, ⟨0x2C00, 0x2C2F, 1, 0x2C30⟩, ⟨0x2C60, 0x2C60, 1, 0x2C61⟩,
    ⟨0x2C62, 0x2C62, 1, 0x26B⟩, ⟨0x2C63, 0x2C63, 1, 0x1D7D⟩, ⟨0x2C64, 0x2C64, 1, 0x27D⟩,
    ⟨0x2C67, 0x2C6B, 2, 0x2C68⟩, ⟨0x2C6D, 0x2C6D, 1, 0x251⟩, ⟨0x2C6E, 0x2C6E, 1, 0x271⟩,
    ⟨0x2C6F, 0x2C6F, 1, 0x250⟩, ⟨0x2C70, 0x2C70, 1, 0x252⟩, ⟨0x2C72, 0x2C72, 1, 0x2C73⟩,
    ⟨0x2C75, 0x2C75, 1, 0x2C76⟩, ⟨0x2C7E, 0x2C7F, 1, 0x23F⟩, ⟨0x2C80, 0x2CE2, 2, 0x2C81⟩,
    ⟨0x2CEB, 0x2CED, 2, 0x2CEC⟩, ⟨0x2CF2, 0x2CF2, 1, 0x2CF3⟩, ⟨0xA640, 0xA66C, 2, 0xA641⟩,
    ⟨0xA680, 0xA69A, 2, 0xA681⟩, ⟨0xA722, 0xA72E, 2, 0xA723⟩, ⟨0xA732, 0xA76E, 2, 0xA733⟩,
    ⟨0xA779, 0xA77B, 2, 0xA77A⟩, ⟨0xA77D, 0xA77D, 1, 0x1D79⟩, ⟨0xA77E, 0xA786, 2, 0xA77F⟩,
    ⟨0xA78B, 0xA78B, 1, 0xA78C⟩, ⟨0xA78D, 0xA78D, 1, 0x265⟩, ⟨0xA790, 0xA792, 2, 0xA791⟩,
    ⟨0xA796, 0xA7A8, 2, 0xA797⟩, ⟨0xA7AA, 0xA7AA, 1, 0x266⟩, ⟨0xA7AB, 0xA7AB, 1, 0x25C⟩,
    ⟨0xA7AC, 0xA7AC, 1, 0x261⟩, ⟨0xA7AD, 0xA7AD, 1, 0x26C⟩, ⟨0xA7AE, 0xA7AE, 1, 0x26A⟩,
    ⟨0xA7B0, 0xA7B0, 1, 0x29E⟩, ⟨0xA7B1, 0xA7B1, 1, 0x287⟩, ⟨0xA7B2, 0xA7B2, 1, 0x29D⟩,
    ⟨0xA7B3, 0xA7B3, 1, 0xAB53⟩, ⟨0xA7B4, 0xA7C2, 2, 0xA7B5⟩, ⟨0xA7C4, 0xA7C4, 1, 0xA794⟩,
    ⟨0xA7C5, 0xA7C5, 1, 0x282⟩, ⟨0xA7C6, 0xA7C6, 1, 0x1D8E⟩, ⟨0xA7C7, 0xA7C9, 2, 0xA7C8⟩,
    ⟨0xA7CB, 0xA7CB, 1, 0x264⟩, ⟨0xA7CC, 0xA7CC, 1, 0xA7CD⟩, ⟨0xA7D0, 0xA7D0, 1, 0xA7D1⟩,
    ⟨0xA7D6, 0xA7DA, 2, 0xA7D7⟩, ⟨0xA7DC, 0xA7DC, 1, 0x19B⟩, ⟨0xA7F5, 0xA7F5, 1, 0xA7F6⟩,
    ⟨0xFF21, 0xFF3A, 1, 0xFF41⟩, ⟨0x10400, 0x10427, 1, 0x10428⟩, ⟨0x104B0, 0x104D3, 1, 0x104D8⟩,
    ⟨0x10570, 0x1057A, 1, 0x10597⟩, ⟨0x1057C, 0x1058A, 1, 0x105A3⟩, ⟨0x1058C, 0x10592, 1, 0x105B3⟩,
    ⟨0x10594, 0x10595, 1, 0x105BB⟩, ⟨0x10C80, 0x10CB2, 1, 0x10CC0⟩, ⟨0x10D50, 0x10D65, 1, 0x10D70⟩,
    ⟨0x118A0, 0x118BF, 1, 0x118C0⟩, ⟨0x16E40, 0x16E5F, 1, 0x16E60⟩, ⟨0x1E900, 0x1E921, 1, 0x1E922⟩]

/-- The lower case of a character in Unicode 16. -/
def toLower16 (c : Char) : List Char :=
  if c = '\u0130' then ['i', '\u0307']
  else if c = kelvinSign then ['k']
  else if c.toNat < 128 then [c.toLower]
  else
    match runs.find? (·.has c.toNat) with
    | some r => [Char.ofNat (r.map c.toNat)]
    | none => [c]

/-- Every lower case of a run is a code point beyond ASCII. -/
def Run.Beyond (r : Run) : Prop :=
  128 ≤ r.lower ∧ (r.map r.last < 0xD800 ∨ 0xDFFF < r.lower ∧ r.map r.last < 0x110000)

instance (r : Run) : Decidable r.Beyond := inferInstanceAs (Decidable (_ ∧ (_ ∨ _ ∧ _)))

theorem beyond_of_mem_runs : ∀ r ∈ runs, r.Beyond := by decide +kernel

theorem Run.Beyond.le_toNat {r : Run} {n : ℕ} (h : r.Beyond) (hn : r.has n = true) :
    128 ≤ (Char.ofNat (r.map n)).toNat := by
  simp only [Run.has, Bool.and_eq_true, decide_eq_true_eq] at hn
  simp only [Run.Beyond, Run.map] at h
  have hvalid : (r.map n).isValidChar := by
    rw [Run.map, Nat.isValidChar]
    omega
  have htoNat : (Char.ofNat (r.map n)).toNat = r.map n := by
    rw [Char.ofNat, dif_pos hvalid]
    rfl
  rw [htoNat, Run.map]
  omega

/-- The table of Unicode 16, with any reading of the two properties, which decide between the two
small sigmas only. -/
def unicode16 (cased caseIgnorable : Char → Bool) : CaseMap where
  toLower := toLower16
  cased := cased
  caseIgnorable := caseIgnorable
  toLower_of_ascii c h := by
    have hdot : c ≠ '\u0130' := by
      rintro rfl
      exact absurd h (by decide)
    have hkelvin : c ≠ kelvinSign := by
      rintro rfl
      exact absurd h (by decide)
    rw [toLower16, if_neg hdot, if_neg hkelvin, if_pos h]
  toLower_kelvin := by decide
  toLower_of_not_ascii c h hkelvin := by
    rw [toLower16, if_neg hkelvin, if_neg (Nat.not_lt.mpr h)]
    split
    · exact ⟨['i'], '\u0307', rfl, by decide⟩
    · split
      · rename_i r hr
        have hbeyond := beyond_of_mem_runs r (List.mem_of_find?_eq_some hr)
        have hhas : r.has c.toNat = true := by simpa using List.find?_some hr
        exact ⟨[], _, rfl, hbeyond.le_toNat hhas⟩
      · exact ⟨[], c, rfl, h⟩

end CaseMap
