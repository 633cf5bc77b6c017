import Hakuraku.Lib.Text

/-!
# JSON values and their compact text

A value is printed without whitespace, with the short escapes for the characters that have one and
`\u00xx` for the other control characters. The reader reads such text. Reading undoes printing
(`parse_print`), and the text has no control characters (`le_toNat_of_mem_print`), so that texts of
several values can be told apart by the lines they are on.

Numbers are unsigned integers, negative integers or floats. The type of the (finite) floats is a
parameter, with their shortest texts and the reading of these (`Floats`): a float is printed with a
point or an exponent, and no other character than a number may have.
-/

namespace Json

/-- A character of a number. -/
def isNumberChar (c : Char) : Bool :=
  c.isDigit || c = '-' || c = '+' || c = '.' || c = 'e' || c = 'E'

/-- A character that makes a number a float. -/
def isFloatMark (c : Char) : Bool := c = '.' || c = 'e' || c = 'E'

/-- Finite floats, their texts and the conversion of integers. -/
structure Floats (F : Type) where
  ofU64 : UInt64 → F
  ofI64 : Int64 → F
  print : F → List Char
  parse : List Char → Option F
  isNumberChar_of_mem_print : ∀ x, ∀ c ∈ print x, isNumberChar c = true
  exists_mem_print : ∀ x, ∃ c ∈ print x, isFloatMark c = true
  parse_print : ∀ x, parse (print x) = some x

/-- A number. An integer is stored as unsigned unless it is negative. -/
inductive Number (F : Type) where
  | posInt (n : UInt64)
  | negInt (n : Int64) (neg : n < 0)
  | float (x : F)

/-- A value. An object is a list of fields. -/
inductive Value (F : Type) where
  | null
  | bool (b : Bool)
  | number (n : Number F)
  | string (s : String)
  | array (vs : List (Value F))
  | object (fields : List (String × Value F))

/-- What holds of a value whenever it holds of its parts holds of every value. -/
theorem Value.induct {F : Type} {P : Value F → Prop} (null : P .null) (bool : ∀ b, P (.bool b))
    (number : ∀ n, P (.number n)) (string : ∀ s, P (.string s))
    (array : ∀ vs, (∀ v ∈ vs, P v) → P (.array vs))
    (object : ∀ fields, (∀ field ∈ fields, P field.2) → P (.object fields)) (v : Value F) : P v :=
  @Value.rec F P (fun vs => ∀ v ∈ vs, P v) (fun fields => ∀ field ∈ fields, P field.2)
    (fun field => P field.2) null bool number string array object (fun _ h => nomatch h)
    (fun _ _ hv hvs => List.forall_mem_cons.mpr ⟨hv, hvs⟩) (fun _ h => nomatch h)
    (fun _ _ hfield hfields => List.forall_mem_cons.mpr ⟨hfield, hfields⟩) (fun _ _ h => h) v

/-! ## Access -/

section

variable {F : Type} (floats : Floats F)

/-- The field of an object. -/
def Value.get : Value F → String → Option (Value F)
  | .object fields, key => (fields.find? fun field => field.1 = key).map (·.2)
  | _, _ => none

/-- A number as a float. -/
def Value.asF64 : Value F → Option F
  | .number (.posInt n) => some (floats.ofU64 n)
  | .number (.negInt n _) => some (floats.ofI64 n)
  | .number (.float x) => some x
  | _ => none

/-- An unsigned integer. -/
def Value.asU64 : Value F → Option UInt64
  | .number (.posInt n) => some n
  | _ => none

/-- A signed integer. -/
def Value.asI64 : Value F → Option Int64
  | .number (.posInt n) => if n.toNat < 2 ^ 63 then some n.toInt64 else none
  | .number (.negInt n _) => some n
  | _ => none

/-- The text of a string value. -/
def Value.asStr : Value F → Option String
  | .string s => some s
  | _ => none

/-- The element of an array of one. -/
def Value.single : Value F → Option (Value F)
  | .array [v] => some v
  | _ => none

/-- The number of a signed integer. -/
def Number.ofI64 (n : Int64) : Number F := if h : n < 0 then .negInt n h else .posInt n.toUInt64

/-- A signed integer is its number. -/
@[simp] theorem asI64_ofI64 (n : Int64) : (Value.number (Number.ofI64 n) : Value F).asI64 = some n := by
  rw [Number.ofI64]
  split
  · rfl
  · rename_i hneg
    have hval : n.toUInt64.toNat < 2 ^ 63 := by
      rw [Int64.toNat_toUInt64_of_le (Int64.not_lt.mp hneg)]
      exact n.toNatClampNeg_lt
    rw [Value.asI64, if_pos hval, Int64.toInt64_toUInt64]

/-! ## Printing -/

/-- A character within a string. -/
def escape (c : Char) : List Char :=
  if c = '"' then ['\\', '"']
  else if c = '\\' then ['\\', '\\']
  else if c = '\x08' then ['\\', 'b']
  else if c = '\t' then ['\\', 't']
  else if c = '\n' then ['\\', 'n']
  else if c = '\x0C' then ['\\', 'f']
  else if c = '\r' then ['\\', 'r']
  else if c.toNat < 32 then
    ['\\', 'u', '0', '0', Hex.digit (c.toNat / 16), Hex.digit (c.toNat % 16)]
  else [c]

def printString (s : String) : List Char := '"' :: (s.toList.flatMap escape ++ ['"'])

def printNumber : Number F → List Char
  | .posInt n => n.toNat.repr.toList
  | .negInt n _ => (toString n).toList
  | .float x => floats.print x

/-- Texts with a comma before each, up to a closing bracket. -/
def printTail (close : Char) : List (List Char) → List Char
  | [] => [close]
  | text :: texts => ',' :: (text ++ printTail close texts)

/-- Texts with commas between them, up to a closing bracket. -/
def printItems (close : Char) : List (List Char) → List Char
  | [] => [close]
  | text :: texts => text ++ printTail close texts

mutual

/-- The compact text of a value. -/
def print : Value F → List Char
  | .null => "null".toList
  | .bool true => "true".toList
  | .bool false => "false".toList
  | .number n => printNumber floats n
  | .string s => printString s
  | .array vs => '[' :: printItems ']' (printAll vs)
  | .object fields => '{' :: printItems '}' (printFields fields)

/-- The texts of values. -/
def printAll : List (Value F) → List (List Char)
  | [] => []
  | v :: vs => print v :: printAll vs

/-- The texts of fields. -/
def printFields : List (String × Value F) → List (List Char)
  | [] => []
  | (key, v) :: fields => (printString key ++ ':' :: print v) :: printFields fields

end

/-! ## Reading -/

/-- The character of a short escape. -/
def unescape : Char → Option Char
  | '"' => some '"'
  | '\\' => some '\\'
  | '/' => some '/'
  | 'b' => some '\x08'
  | 't' => some '\t'
  | 'n' => some '\n'
  | 'f' => some '\x0C'
  | 'r' => some '\r'
  | _ => none

/-- The character with a code of four digits, which is no surrogate. -/
def ofCode (a b c d : Char) : Option Char := do
  let code := ((((← Hex.value a) * 16 + (← Hex.value b)) * 16 + (← Hex.value c)) * 16 + (← Hex.value d))
  if 0xD800 ≤ code ∧ code ≤ 0xDFFF then none else some (Char.ofNat code)

/-- The rest of a string, up to its closing quote, and what follows. -/
def parseString : List Char → Option (List Char × List Char)
  | [] => none
  | '"' :: cs => some ([], cs)
  | '\\' :: 'u' :: a :: b :: c :: d :: cs => do
    let char ← ofCode a b c d
    let (s, rest) ← parseString cs
    some (char :: s, rest)
  | '\\' :: e :: cs => do
    let char ← unescape e
    let (s, rest) ← parseString cs
    some (char :: s, rest)
  | c :: cs =>
    if c.toNat < 32 then none
    else do
      let (s, rest) ← parseString cs
      some (c :: s, rest)

/-- The number of a text. -/
def numberOf (token : List Char) : Option (Number F) :=
  if token.any isFloatMark then (floats.parse token).map .float
  else
    match token with
    | '-' :: digits => do
      let n ← Decimal.parseNat digits
      if h : n ≤ 2 ^ 63 ∧ Int64.ofInt (-n) < 0 then some (.negInt (Int64.ofInt (-n)) h.2) else none
    | digits => do
      let n ← Decimal.parseNat digits
      if n < 2 ^ 64 then some (.posInt (UInt64.ofNat n)) else none

/-- A value that is a number, and what follows. -/
def parseNumber (cs : List Char) : Option (Value F × List Char) :=
  (numberOf floats (cs.takeWhile isNumberChar)).map fun n =>
    (.number n, cs.dropWhile isNumberChar)

/-- Items with a comma before each, up to the closing bracket, and what follows. -/
def parseTail {α : Type} (item : List Char → Option (α × List Char)) (close : Char) :
    ℕ → List Char → Option (List α × List Char)
  | 0, _ => none
  | _, [] => none
  | n + 1, c :: cs =>
    if c = close then some ([], cs)
    else if c = ',' then do
      let (x, rest) ← item cs
      let (xs, rest) ← parseTail item close n rest
      some (x :: xs, rest)
    else none

/-- Items with commas between them, up to the closing bracket, and what follows. -/
def parseItems {α : Type} (item : List Char → Option (α × List Char)) (close : Char) (n : ℕ) :
    List Char → Option (List α × List Char)
  | [] => none
  | c :: cs =>
    if c = close then some ([], cs)
    else do
      let (x, rest) ← item (c :: cs)
      let (xs, rest) ← parseTail item close n rest
      some (x :: xs, rest)

/-- A field, and what follows. -/
def parseField (value : List Char → Option (Value F × List Char)) :
    List Char → Option ((String × Value F) × List Char)
  | '"' :: cs => do
    let (key, rest) ← parseString cs
    match rest with
    | ':' :: rest => do
      let (v, rest) ← value rest
      some ((String.ofList key, v), rest)
    | _ => none
  | _ => none

/-- A value nested at most so deep, and what follows. -/
def parseValue : ℕ → List Char → Option (Value F × List Char)
  | 0, _ => none
  | n + 1, cs =>
    match cs with
    | 'n' :: 'u' :: 'l' :: 'l' :: rest => some (.null, rest)
    | 't' :: 'r' :: 'u' :: 'e' :: rest => some (.bool true, rest)
    | 'f' :: 'a' :: 'l' :: 's' :: 'e' :: rest => some (.bool false, rest)
    | '"' :: cs => (parseString cs).map fun s => (.string (String.ofList s.1), s.2)
    | '[' :: cs => (parseItems (parseValue n) ']' n cs).map fun vs => (.array vs.1, vs.2)
    | '{' :: cs =>
      (parseItems (parseField (parseValue n)) '}' n cs).map fun fields => (.object fields.1, fields.2)
    | cs => parseNumber floats cs

/-- The value that a text is. -/
def parse (cs : List Char) : Option (Value F) :=
  match parseValue floats cs.length cs with
  | some (v, []) => some v
  | _ => none

/-! ## Reading undoes printing -/

/-- A character of a string is read back. -/
theorem parseString_escape (c : Char) (cs : List Char) :
    parseString (escape c ++ cs) = (parseString cs).map fun s => (c :: s.1, s.2) := by
  have hmap : ∀ {o : Option (List Char × List Char)},
      (do let (s, rest) ← o; some (c :: s, rest)) = o.map fun s => (c :: s.1, s.2) := by
    intro o
    cases o <;> rfl
  unfold escape
  split_ifs with h₁ h₂ h₃ h₄ h₅ h₆ h₇ h₈
  · subst h₁
    exact hmap
  · subst h₂
    exact hmap
  · subst h₃
    exact hmap
  · subst h₄
    exact hmap
  · subst h₅
    exact hmap
  · subst h₆
    exact hmap
  · subst h₇
    exact hmap
  · have hcode : ofCode '0' '0' (Hex.digit (c.toNat / 16)) (Hex.digit (c.toNat % 16)) = some c := by
      have hzero : Hex.value '0' = some 0 := by decide
      have hsum : ((0 * 16 + 0) * 16 + c.toNat / 16) * 16 + c.toNat % 16 = c.toNat := by omega
      simp only [ofCode, hzero, Hex.value_digit (show c.toNat / 16 < 16 by omega),
        Hex.value_digit (show c.toNat % 16 < 16 by omega), Option.bind_eq_bind, Option.bind_some, hsum]
      rw [if_neg (by omega), Char.ofNat_toNat]
    show parseString ('\\' :: 'u' :: '0' :: '0' :: Hex.digit (c.toNat / 16) ::
      Hex.digit (c.toNat % 16) :: cs) = _
    rw [parseString, hcode]
    exact hmap
  · show parseString (c :: cs) = _
    rw [parseString, if_neg h₈]
    · exact hmap
    · exact h₁
    · exact fun _ _ _ _ _ h => absurd h h₂
    · exact fun _ _ h => absurd h h₂

theorem parseString_flatMap (s rest : List Char) :
    parseString (s.flatMap escape ++ '"' :: rest) = some (s, rest) := by
  induction s with
  | nil => rfl
  | cons c s ih =>
    rw [List.flatMap_cons, List.append_assoc, parseString_escape, ih]
    rfl

/-- What follows a number does not go on with it. -/
def EndsNumber (rest : List Char) : Prop := ∀ c ∈ rest.head?, isNumberChar c = false

theorem parseNumber_append {token rest : List Char} {n : Number F}
    (htoken : ∀ c ∈ token, isNumberChar c = true) (hrest : EndsNumber rest)
    (h : numberOf floats token = some n) :
    parseNumber floats (token ++ rest) = some (.number n, rest) := by
  have hspan : (token ++ rest).takeWhile isNumberChar = token ∧
      (token ++ rest).dropWhile isNumberChar = rest := by
    rw [List.takeWhile_append_of_pos htoken, List.dropWhile_append_of_pos htoken]
    cases rest with
    | nil => exact ⟨List.append_nil _, rfl⟩
    | cons c rest =>
      have hc : ¬ isNumberChar c = true := by rw [hrest c rfl]; decide
      rw [List.takeWhile_cons_of_neg hc, List.dropWhile_cons_of_neg hc, List.append_nil]
      exact ⟨rfl, rfl⟩
  rw [parseNumber, hspan.1, hspan.2, h]
  rfl

theorem isNumberChar_of_isDigit {c : Char} (h : c.isDigit = true) : isNumberChar c = true := by
  simp [isNumberChar, h]

/-- The text of a negative integer is a minus sign and digits. -/
theorem toString_of_neg {n : Int64} (h : n < 0) :
    (toString n).toList = '-' :: (-n.toInt).toNat.repr.toList := by
  have hneg : n.toInt < 0 := Int64.lt_iff_toInt_lt.mp h
  show (toString n.toInt).toList = _
  rw [Int.toString_eq_repr, Int.repr_eq_if, if_neg (by omega), String.toList_append]
  rfl

theorem isNumberChar_of_mem_printNumber {n : Number F} {c : Char} (h : c ∈ printNumber floats n) :
    isNumberChar c = true := by
  cases n with
  | posInt n => exact isNumberChar_of_isDigit (Decimal.isDigit_of_mem_repr h)
  | negInt n neg =>
    rcases Decimal.isDigit_or_eq_of_mem_toString (z := n.toInt) h with hdigit | rfl
    · exact isNumberChar_of_isDigit hdigit
    · rfl
  | float x => exact floats.isNumberChar_of_mem_print x c h

/-- Digits are no float. -/
theorem any_isFloatMark_repr (n : ℕ) : n.repr.toList.any isFloatMark = false := by
  refine List.any_eq_false.mpr fun c hc => ?_
  have hdigit := Decimal.isDigit_of_mem_repr hc
  simp only [isFloatMark, Bool.or_eq_true, decide_eq_true_eq, not_or]
  refine ⟨⟨?_, ?_⟩, ?_⟩ <;>
  · rintro rfl
    exact absurd hdigit (by decide)

theorem numberOf_printNumber (n : Number F) : numberOf floats (printNumber floats n) = some n := by
  cases n with
  | posInt n =>
    unfold numberOf
    rw [printNumber, if_neg (by rw [any_isFloatMark_repr]; decide)]
    split
    · rename_i digits hdigits
      have hminus := Decimal.isDigit_of_mem_repr (hdigits ▸ List.mem_cons_self : '-' ∈ n.toNat.repr.toList)
      exact absurd hminus (by decide)
    · rw [Decimal.parseNat_repr, Option.bind_eq_bind, Option.bind_some, if_pos n.toNat_lt,
        UInt64.ofNat_toNat]
  | negInt n neg =>
    have hneg : n.toInt < 0 := Int64.lt_iff_toInt_lt.mp neg
    have hle := n.le_toInt
    have hint : Int64.ofInt (-((-n.toInt).toNat : ℤ)) = n := by
      rw [Int.toNat_of_nonneg (by omega), Int.neg_neg, Int64.ofInt_toInt]
    have hmark : (printNumber floats (.negInt n neg)).any isFloatMark = false := by
      rw [printNumber, toString_of_neg neg, List.any_cons, any_isFloatMark_repr]
      rfl
    unfold numberOf
    rw [if_neg (by rw [hmark]; decide), printNumber, toString_of_neg neg]
    show ((Decimal.parseNat (-n.toInt).toNat.repr.toList).bind fun m =>
      if h : m ≤ 2 ^ 63 ∧ Int64.ofInt (-m) < 0 then some (Number.negInt (Int64.ofInt (-m)) h.2)
      else none) = some (.negInt n neg)
    rw [Decimal.parseNat_repr, Option.bind_some,
      dif_pos ⟨by omega, hint.symm ▸ neg⟩]
    simp only [hint]
  | float x =>
    have hmark : (floats.print x).any isFloatMark = true :=
      List.any_eq_true.mpr (floats.exists_mem_print x)
    unfold numberOf
    rw [printNumber, if_pos hmark, floats.parse_print]
    rfl

/-! ### Items -/

section

variable {α : Type} {item : List Char → Option (α × List Char)} {text : α → List Char} {close : Char}

theorem endsNumber_cons {c : Char} (h : isNumberChar c = false) (rest : List Char) :
    EndsNumber (c :: rest) := by
  intro d hd
  obtain rfl := Option.some.inj hd
  exact h

theorem endsNumber_printTail (hclose : isNumberChar close = false) (texts : List (List Char))
    (rest : List Char) : EndsNumber (printTail close texts ++ rest) := by
  cases texts with
  | nil => exact endsNumber_cons hclose rest
  | cons text texts => exact endsNumber_cons (by decide) _

/-- If each item is read back, so are all of them behind commas. -/
theorem parseTail_printTail (hclose : isNumberChar close = false) (hcomma : close ≠ ',')
    {xs : List α} {n : ℕ} (hn : xs.length < n)
    (hitem : ∀ x ∈ xs, ∀ rest, EndsNumber rest → item (text x ++ rest) = some (x, rest))
    (rest : List Char) :
    parseTail item close n (printTail close (xs.map text) ++ rest) = some (xs, rest) := by
  induction xs generalizing n with
  | nil =>
    obtain ⟨n, rfl⟩ := Nat.exists_eq_succ_of_ne_zero hn.ne'
    exact if_pos rfl
  | cons x xs ih =>
    rw [List.forall_mem_cons] at hitem
    obtain ⟨n, rfl⟩ := Nat.exists_eq_succ_of_ne_zero (Nat.ne_of_gt (Nat.zero_lt_of_lt hn))
    have hx := hitem.1 _ (endsNumber_printTail hclose (xs.map text) rest)
    have hxs := ih (Nat.lt_of_succ_lt_succ hn) hitem.2
    rw [List.map_cons, printTail, List.cons_append, List.append_assoc, parseTail,
      if_neg hcomma.symm, if_pos rfl, hx]
    simp only [Option.bind_eq_bind, Option.bind_some, hxs]

/-- **If each item is read back, so are all of them**, up to the closing bracket. -/
theorem parseItems_printItems (hclose : isNumberChar close = false) (hcomma : close ≠ ',')
    {xs : List α} {n : ℕ} (hn : xs.length ≤ n)
    (hitem : ∀ x ∈ xs, ∀ rest, EndsNumber rest → item (text x ++ rest) = some (x, rest))
    (hstart : ∀ x ∈ xs, ∃ c cs, text x = c :: cs ∧ c ≠ close) (rest : List Char) :
    parseItems item close n (printItems close (xs.map text) ++ rest) = some (xs, rest) := by
  cases xs with
  | nil => exact if_pos rfl
  | cons x xs =>
    rw [List.forall_mem_cons] at hitem hstart
    obtain ⟨c, cs, hc, hne⟩ := hstart.1
    have hx := hitem.1 _ (endsNumber_printTail hclose (xs.map text) rest)
    have hxs := parseTail_printTail hclose hcomma hn hitem.2 rest
    rw [List.map_cons, printItems, List.append_assoc, hc, List.cons_append, parseItems, if_neg hne,
      ← List.cons_append, ← hc, hx]
    simp only [Option.bind_eq_bind, Option.bind_some, hxs]

end

/-! ### Values -/

theorem printAll_eq_map (vs : List (Value F)) : printAll floats vs = vs.map (print floats) := by
  induction vs with
  | nil => rfl
  | cons v vs ih => rw [printAll, ih, List.map_cons]

/-- The text of a field. -/
def printField (field : String × Value F) : List Char :=
  printString field.1 ++ ':' :: print floats field.2

theorem printFields_eq_map (fields : List (String × Value F)) :
    printFields floats fields = fields.map (printField floats) := by
  induction fields with
  | nil => rfl
  | cons field fields ih => rw [printFields, ih, List.map_cons, printField]

/-- The text of a number is not empty. -/
theorem exists_printNumber_eq_cons (n : Number F) :
    ∃ c cs, printNumber floats n = c :: cs ∧ isNumberChar c = true := by
  have hne : printNumber floats n ≠ [] := by
    cases n with
    | posInt n =>
      rw [printNumber, Nat.toList_repr]
      exact Nat.toDigits_ne_nil
    | negInt n neg =>
      rw [printNumber, toString_of_neg neg]
      exact List.cons_ne_nil _ _
    | float x =>
      obtain ⟨c, hc, -⟩ := floats.exists_mem_print x
      exact List.ne_nil_of_mem hc
  obtain ⟨c, cs, hn⟩ := List.exists_cons_of_ne_nil hne
  exact ⟨c, cs, hn, isNumberChar_of_mem_printNumber floats (hn ▸ List.mem_cons_self)⟩

/-- The text of a value is not empty and does not start with a closing bracket. -/
theorem exists_print_eq_cons (v : Value F) : ∃ c cs, print floats v = c :: cs ∧ c ≠ ']' := by
  cases v with
  | null => exact ⟨'n', _, rfl, by decide⟩
  | bool b =>
    cases b with
    | true => exact ⟨'t', _, rfl, by decide⟩
    | false => exact ⟨'f', _, rfl, by decide⟩
  | number n =>
    obtain ⟨c, cs, hn, hc⟩ := exists_printNumber_eq_cons floats n
    refine ⟨c, cs, hn, ?_⟩
    rintro rfl
    exact absurd hc (by decide)
  | string s => exact ⟨'"', _, rfl, by decide⟩
  | array vs => exact ⟨'[', _, rfl, by decide⟩
  | object fields => exact ⟨'{', _, rfl, by decide⟩

/-- What starts like a number is read as a number. -/
theorem parseValue_of_isNumberChar {c : Char} (h : isNumberChar c = true) (n : ℕ) (cs : List Char) :
    parseValue floats (n + 1) (c :: cs) = parseNumber floats (c :: cs) := by
  -- The last branch, whose side conditions say that no other one is taken.
  rw [parseValue]
  all_goals
    intro rest heq
    obtain rfl := (List.cons.inj heq).1
    exact absurd h (by decide)

theorem length_printTail_le (close : Char) (texts : List (List Char)) :
    (printTail close texts).length ≤ (printItems close texts).length + 1 := by
  cases texts with
  | nil => exact Nat.le_succ 1
  | cons text texts => exact Nat.le_refl _

theorem length_lt_printTail (close : Char) (texts : List (List Char)) :
    texts.length < (printTail close texts).length := by
  induction texts with
  | nil => exact Nat.one_pos
  | cons text texts ih =>
    rw [printTail, List.length_cons, List.length_cons, List.length_append]
    omega

theorem length_lt_printTail_of_mem (close : Char) {texts : List (List Char)} {text : List Char}
    (h : text ∈ texts) : text.length < (printTail close texts).length := by
  induction texts with
  | nil => nomatch h
  | cons first texts ih =>
    rw [printTail, List.length_cons, List.length_append]
    rcases List.mem_cons.mp h with rfl | h
    · omega
    · have := ih h
      omega

/-- There are no more items, and none is longer, than the text of all of them. -/
theorem length_le_printItems {α : Type} (text : α → List Char) (close : Char) (xs : List α) :
    xs.length ≤ (printItems close (xs.map text)).length ∧
      ∀ x ∈ xs, (text x).length ≤ (printItems close (xs.map text)).length := by
  have htail := length_printTail_le close (xs.map text)
  constructor
  · have hlt := length_lt_printTail close (xs.map text)
    rw [List.length_map] at hlt
    omega
  · intro x hx
    have hlt := length_lt_printTail_of_mem close (List.mem_map_of_mem (f := text) hx)
    omega

theorem parseValue_array {n : ℕ} {vs : List (Value F)}
    (hn : (print floats (.array vs)).length ≤ n + 1)
    (hvs : ∀ v ∈ vs, (print floats v).length ≤ n → ∀ rest, EndsNumber rest →
      parseValue floats n (print floats v ++ rest) = some (v, rest)) (rest : List Char) :
    parseValue floats (n + 1) (print floats (.array vs) ++ rest) = some (.array vs, rest) := by
  rw [print, printAll_eq_map] at hn ⊢
  rw [List.length_cons] at hn
  have hlength := length_le_printItems (print floats) ']' vs
  have hitems : parseItems (parseValue floats n) ']' n
      (printItems ']' (vs.map (print floats)) ++ rest) = some (vs, rest) := by
    refine parseItems_printItems (by decide) (by decide) (by omega) ?_
      (fun v _ => exists_print_eq_cons floats v) rest
    intro v hv
    have hfit := hlength.2 v hv
    exact hvs v hv (by omega)
  rw [List.cons_append, parseValue, hitems]
  rfl

theorem parseField_printField {value : List Char → Option (Value F × List Char)}
    {field : String × Value F} {rest : List Char}
    (h : value (print floats field.2 ++ rest) = some (field.2, rest)) :
    parseField value (printField floats field ++ rest) = some (field, rest) := by
  have htext : printField floats field ++ rest =
      '"' :: (field.1.toList.flatMap escape ++ '"' :: ':' :: (print floats field.2 ++ rest)) := by
    simp only [printField, printString, List.cons_append, List.append_assoc, List.nil_append]
  rw [htext, parseField, parseString_flatMap]
  simp only [Option.bind_eq_bind, Option.bind_some, h, String.ofList_toList]

theorem parseValue_object {n : ℕ} {fields : List (String × Value F)}
    (hn : (print floats (.object fields)).length ≤ n + 1)
    (hfields : ∀ field ∈ fields, (print floats field.2).length ≤ n → ∀ rest, EndsNumber rest →
      parseValue floats n (print floats field.2 ++ rest) = some (field.2, rest)) (rest : List Char) :
    parseValue floats (n + 1) (print floats (.object fields) ++ rest) =
      some (.object fields, rest) := by
  rw [print, printFields_eq_map] at hn ⊢
  rw [List.length_cons] at hn
  have hlength := length_le_printItems (printField floats) '}' fields
  have hitems : parseItems (parseField (parseValue floats n)) '}' n
      (printItems '}' (fields.map (printField floats)) ++ rest) = some (fields, rest) := by
    refine parseItems_printItems (by decide) (by decide) (by omega) ?_
      (fun field _ => ⟨'"', _, rfl, by decide⟩) rest
    intro field hfield rest hrest
    have hfit := hlength.2 field hfield
    rw [printField, List.length_append, List.length_cons] at hfit
    exact parseField_printField floats (hfields field hfield (by omega) rest hrest)
  rw [List.cons_append, parseValue, hitems]
  rfl

/-- **A value is read back**, whatever follows it that does not go on with a number. -/
theorem parseValue_print (v : Value F) : ∀ n, (print floats v).length ≤ n → ∀ rest, EndsNumber rest →
    parseValue floats n (print floats v ++ rest) = some (v, rest) := by
  have hfuel : ∀ {v : Value F} {n : ℕ}, (print floats v).length ≤ n → ∃ m, n = m + 1 := by
    intro v n hn
    obtain ⟨c, cs, hv, -⟩ := exists_print_eq_cons floats v
    rw [hv, List.length_cons] at hn
    exact Nat.exists_eq_add_of_le' (Nat.le_trans (Nat.le_add_left 1 _) hn)
  induction v using Value.induct with
  | null =>
    intro n hn rest _
    obtain ⟨m, rfl⟩ := hfuel hn
    rfl
  | bool b =>
    intro n hn rest _
    obtain ⟨m, rfl⟩ := hfuel hn
    cases b <;> rfl
  | number k =>
    intro n hn rest hrest
    obtain ⟨m, rfl⟩ := hfuel hn
    obtain ⟨c, cs, hk, hc⟩ := exists_printNumber_eq_cons floats k
    have hnumber := parseNumber_append floats (fun _ => isNumberChar_of_mem_printNumber floats) hrest
      (numberOf_printNumber floats k)
    rw [hk, List.cons_append] at hnumber
    rw [print, hk, List.cons_append, parseValue_of_isNumberChar floats hc, hnumber]
  | string s =>
    intro n hn rest _
    obtain ⟨m, rfl⟩ := hfuel hn
    rw [print, printString, List.cons_append, List.append_assoc, List.singleton_append, parseValue,
      parseString_flatMap]
    simp only [Option.map_some, String.ofList_toList]
  | array vs ih =>
    intro n hn rest _
    obtain ⟨m, rfl⟩ := hfuel hn
    exact parseValue_array floats hn (fun v hv => ih v hv m) rest
  | object fields ih =>
    intro n hn rest _
    obtain ⟨m, rfl⟩ := hfuel hn
    exact parseValue_object floats hn (fun field hfield => ih field hfield m) rest

/-- **Reading undoes printing.** -/
theorem parse_print (v : Value F) : parse floats (print floats v) = some v := by
  have hread := parseValue_print floats v _ (Nat.le_refl _) [] (fun c hc => nomatch hc)
  rw [List.append_nil] at hread
  rw [parse, hread]

/-! ## The text has no control characters -/

theorem le_toNat_of_mem_escape {c d : Char} (h : d ∈ escape c) : 32 ≤ d.toNat := by
  have hdigit : ∀ n < 16, 32 ≤ (Hex.digit n).toNat := by decide
  have hpair : ∀ {e : Char}, 32 ≤ e.toNat → d ∈ ['\\', e] → 32 ≤ d.toNat := by
    intro e he hd
    rcases List.mem_pair.mp hd with rfl | rfl
    · decide
    · exact he
  unfold escape at h
  split_ifs at h with h₁ h₂ h₃ h₄ h₅ h₆ h₇ h₈
  · exact hpair (by decide) h
  · exact hpair (by decide) h
  · exact hpair (by decide) h
  · exact hpair (by decide) h
  · exact hpair (by decide) h
  · exact hpair (by decide) h
  · exact hpair (by decide) h
  · rcases List.mem_append.mp (show d ∈ ['\\', 'u'] ++ (['0', '0'] ++ _) from h) with h | h
    · exact hpair (by decide) h
    · rcases List.mem_append.mp h with h | h
      · rcases List.mem_pair.mp h with rfl | rfl <;> decide
      · rcases List.mem_pair.mp h with rfl | rfl
        · exact hdigit _ (by omega)
        · exact hdigit _ (by omega)
  · rw [List.mem_singleton.mp h]
    omega

theorem le_toNat_of_mem_printString {s : String} {c : Char} (h : c ∈ printString s) :
    32 ≤ c.toNat := by
  rcases List.mem_cons.mp h with rfl | h
  · decide
  · rcases List.mem_append.mp h with h | h
    · obtain ⟨_, _, hc⟩ := List.mem_flatMap.mp h
      exact le_toNat_of_mem_escape hc
    · rw [List.mem_singleton.mp h]
      decide

theorem le_toNat_of_isNumberChar {c : Char} (h : isNumberChar c = true) : 32 ≤ c.toNat := by
  simp only [isNumberChar, Bool.or_eq_true, decide_eq_true_eq] at h
  rcases h with ((((h | rfl) | rfl) | rfl) | rfl) | rfl
  · exact Nat.le_trans (by decide) (Char.isDigit_iff_toNat.mp h).1
  all_goals decide

theorem le_toNat_of_mem_printTail {close : Char} {texts : List (List Char)}
    (hclose : 32 ≤ close.toNat) (h : ∀ text ∈ texts, ∀ c ∈ text, 32 ≤ c.toNat) :
    ∀ c ∈ printTail close texts, 32 ≤ c.toNat := by
  induction texts with
  | nil => exact List.forall_mem_singleton.mpr hclose
  | cons text texts ih =>
    rw [List.forall_mem_cons] at h
    rw [printTail, List.forall_mem_cons, List.forall_mem_append]
    exact ⟨by decide, h.1, ih h.2⟩

theorem le_toNat_of_mem_printItems {close : Char} {texts : List (List Char)}
    (hclose : 32 ≤ close.toNat) (h : ∀ text ∈ texts, ∀ c ∈ text, 32 ≤ c.toNat) :
    ∀ c ∈ printItems close texts, 32 ≤ c.toNat := by
  intro c hc
  refine le_toNat_of_mem_printTail hclose h c ?_
  cases texts with
  | nil => exact hc
  | cons text texts => exact List.mem_cons_of_mem _ hc

/-- **The text of a value has no control characters**, so no line break either. -/
theorem le_toNat_of_mem_print (v : Value F) : ∀ c ∈ print floats v, 32 ≤ c.toNat := by
  have hkeyword : ∀ text : List Char, (text.all fun c => decide (32 ≤ c.toNat)) = true →
      ∀ c ∈ text, 32 ≤ c.toNat := fun text h c hc => of_decide_eq_true (List.all_eq_true.mp h c hc)
  induction v using Value.induct with
  | null => exact hkeyword "null".toList rfl
  | bool b =>
    cases b with
    | true => exact hkeyword "true".toList rfl
    | false => exact hkeyword "false".toList rfl
  | number n =>
    exact fun c hc => le_toNat_of_isNumberChar (isNumberChar_of_mem_printNumber floats hc)
  | string s => exact fun c hc => le_toNat_of_mem_printString hc
  | array vs ih =>
    rw [print, printAll_eq_map, List.forall_mem_cons]
    exact ⟨by decide, le_toNat_of_mem_printItems (by decide) (List.forall_mem_map.mpr ih)⟩
  | object fields ih =>
    rw [print, printFields_eq_map, List.forall_mem_cons]
    refine ⟨by decide, le_toNat_of_mem_printItems (by decide) (List.forall_mem_map.mpr ?_)⟩
    intro field hfield
    rw [printField, List.forall_mem_append, List.forall_mem_cons]
    exact ⟨fun c hc => le_toNat_of_mem_printString hc, by decide, ih field hfield⟩

end

end Json
