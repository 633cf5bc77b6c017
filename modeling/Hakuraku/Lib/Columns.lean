import Hakuraku.Lib.Text

/-!
# Texts in columns

A table in a text has a line for each entry and in it words, with blanks between them that a reader
who splits at whitespace does not count (`columns`). Such a reader finds the words (`words_columns`)
and the lines (`lines_ended`) whatever the widths of the columns are, and the numbers that were
printed (`Decimal.parseU64_repr`).
-/

namespace Text

/-! ## Words -/

/-- Some characters, of which none is whitespace. -/
def IsWord (w : List Char) : Prop := w ≠ [] ∧ ∀ c ∈ w, whiteSpace c = false

instance : DecidablePred IsWord := fun w =>
  decidable_of_iff (w ≠ [] ∧ (w.all fun c => !whiteSpace c) = true) (by simp [IsWord])

/-- A number of blanks. -/
def blanks (n : ℕ) : List Char := List.replicate n ' '

/-- Words, each after a blank and a number of further blanks. -/
def columns : List (ℕ × List Char) → List Char
  | [] => []
  | (n, w) :: cols => ' ' :: (blanks n ++ (w ++ columns cols))

variable {w cs : List Char} {cols : List (ℕ × List Char)}

/-- Words with a number of further blanks before each, which depends on its column and on the word. -/
def padded (pad : ℕ → List Char → ℕ) (ws : List (List Char)) : List (ℕ × List Char) :=
  ws.mapIdx fun i w => (pad i w, w)

@[simp] theorem map_padded (pad : ℕ → List Char → ℕ) (ws : List (List Char)) :
    (padded pad ws).map (·.2) = ws := by
  refine List.ext_getElem? fun i => ?_
  rw [padded, List.getElem?_map, List.getElem?_mapIdx, Option.map_map]
  exact Option.map_id'

theorem columns_padded_cons (pad : ℕ → List Char → ℕ) (w : List Char) (ws : List (List Char)) :
    columns (padded pad (w :: ws)) =
      ' ' :: (blanks (pad 0 w) ++ (w ++ columns (padded (fun i => pad (i + 1)) ws))) := by
  rw [padded, List.mapIdx_cons, columns]
  rfl

theorem isWord_of_mem_padded {pad : ℕ → List Char → ℕ} {ws : List (List Char)}
    (hws : ∀ w ∈ ws, IsWord w) {col : ℕ × List Char} (hcol : col ∈ padded pad ws) : IsWord col.2 := by
  refine hws col.2 ?_
  rw [← map_padded pad ws]
  exact List.mem_map_of_mem hcol

theorem wordsFrom_cons (c : Char) (before cs : List Char) : wordsFrom before (c :: cs) =
    if whiteSpace c = true then
      (if before.isEmpty then wordsFrom [] cs else before.reverse :: wordsFrom [] cs)
    else wordsFrom (c :: before) cs := by
  cases before <;> rfl

theorem wordsFrom_cons_of_whiteSpace {c : Char} (hc : whiteSpace c = true)
    (before cs : List Char) : wordsFrom before (c :: cs) =
      (if before = [] then [] else [before.reverse]) ++ wordsFrom [] cs := by
  rw [wordsFrom_cons, if_pos hc]
  cases before <;> rfl

theorem whiteSpace_blank : whiteSpace ' ' = true := by decide

theorem wordsFrom_blanks (n : ℕ) (cs : List Char) :
    wordsFrom [] (blanks n ++ cs) = wordsFrom [] cs := by
  induction n with
  | zero => rfl
  | succ n ih => exact (wordsFrom_cons_of_whiteSpace whiteSpace_blank [] _).trans ih

theorem wordsFrom_append (hw : ∀ c ∈ w, whiteSpace c = false) (before cs : List Char) :
    wordsFrom before (w ++ cs) = wordsFrom (w.reverse ++ before) cs := by
  induction w generalizing before with
  | nil => rfl
  | cons c w ih =>
    rw [List.forall_mem_cons] at hw
    rw [List.cons_append, wordsFrom_cons, hw.1, if_neg Bool.false_ne_true, ih hw.2,
      List.reverse_cons, List.append_assoc]
    rfl

/-- The columns end a word that has begun. -/
theorem wordsFrom_columns (hcols : ∀ col ∈ cols, IsWord col.2) (before : List Char) :
    wordsFrom before (columns cols) =
      (if before = [] then [] else [before.reverse]) ++ cols.map (·.2) := by
  induction cols generalizing before with
  | nil => cases before <;> rfl
  | cons col cols ih =>
    obtain ⟨n, w⟩ := col
    rw [List.forall_mem_cons] at hcols
    obtain ⟨⟨hne, hw⟩, hcols⟩ := hcols
    have hrest : wordsFrom [] (blanks n ++ (w ++ columns cols)) = w :: cols.map (·.2) := by
      rw [wordsFrom_blanks, wordsFrom_append hw, ih hcols, List.append_nil,
        if_neg (by simpa using hne), List.reverse_reverse]
      rfl
    rw [columns, wordsFrom_cons_of_whiteSpace whiteSpace_blank, hrest]
    rfl

/-- **The words of a line in columns.** -/
theorem words_columns (hcols : ∀ col ∈ cols, IsWord col.2) :
    words (columns cols) = cols.map (·.2) := wordsFrom_columns hcols []

theorem words_append_columns (hw : IsWord w) (hcols : ∀ col ∈ cols, IsWord col.2) (n : ℕ) :
    words (blanks n ++ (w ++ columns cols)) = w :: cols.map (·.2) := by
  rw [words, wordsFrom_blanks, wordsFrom_append hw.2, wordsFrom_columns hcols, List.append_nil,
    if_neg (by simpa using hw.1), List.reverse_reverse]
  rfl

/-- Whitespace at the end adds no word. -/
theorem words_concat {c : Char} (hc : whiteSpace c = true) (cs : List Char) :
    words (cs ++ [c]) = words cs := by
  suffices h : ∀ before, wordsFrom before (cs ++ [c]) = wordsFrom before cs from h []
  induction cs with
  | nil =>
    intro before
    rw [List.nil_append, wordsFrom_cons_of_whiteSpace hc]
    cases before <;> rfl
  | cons d cs ih =>
    intro before
    rw [List.cons_append, wordsFrom_cons, wordsFrom_cons, ih, ih]

/-! ## The ends of a line -/

/-- Neither end is whitespace. -/
def Trimmed (cs : List Char) : Prop :=
  (∀ c ∈ cs.head?, whiteSpace c = false) ∧ ∀ c ∈ cs.getLast?, whiteSpace c = false

instance : DecidablePred Trimmed := fun cs =>
  decidable_of_iff ((cs.head?.all fun c => !whiteSpace c) = true ∧
    (cs.getLast?.all fun c => !whiteSpace c) = true) (by simp [Trimmed, Option.all_eq_true])

theorem IsWord.trimmed (hw : IsWord w) : Trimmed w :=
  ⟨fun c hc => hw.2 c (List.mem_of_head? hc), fun c hc => hw.2 c (List.mem_of_getLast? hc)⟩

theorem dropWhile_of_head (h : ∀ c ∈ cs.head?, whiteSpace c = false) :
    cs.dropWhile whiteSpace = cs := by
  cases cs with
  | nil => rfl
  | cons c cs => rw [List.dropWhile_cons_of_neg (by simpa using h c rfl)]

/-- What `trim` leaves of a line that is indented. -/
theorem trim_blanks_append (h : Trimmed cs) (n : ℕ) : trim (blanks n ++ cs) = cs := by
  have hblanks : (blanks n ++ cs).dropWhile whiteSpace = cs := by
    induction n with
    | zero => exact dropWhile_of_head h.1
    | succ n ih =>
      rw [blanks, List.replicate_succ, List.cons_append,
        List.dropWhile_cons_of_pos whiteSpace_blank]
      exact ih
  have hlast : cs.reverse.dropWhile whiteSpace = cs.reverse :=
    dropWhile_of_head (by simpa using h.2)
  rw [trim, hblanks, hlast, List.reverse_reverse]

theorem trim_of_trimmed (h : Trimmed cs) : trim cs = cs := trim_blanks_append h 0

/-- A line feed at the end is trimmed. -/
theorem trim_concat_newline (h : Trimmed cs) : trim (cs ++ ['\n']) = cs := by
  have hws : whiteSpace '\n' = true := by decide
  cases cs with
  | nil => rfl
  | cons c cs =>
    have hhead : ((c :: cs) ++ ['\n']).dropWhile whiteSpace = (c :: cs) ++ ['\n'] :=
      dropWhile_of_head (by simpa using h.1)
    have hlast : (c :: cs).reverse.dropWhile whiteSpace = (c :: cs).reverse :=
      dropWhile_of_head (by
        rw [List.head?_reverse]
        exact h.2)
    rw [trim, hhead, List.reverse_append, List.reverse_singleton, List.singleton_append,
      List.dropWhile_cons_of_pos hws, hlast, List.reverse_reverse]

theorem trimmed_append_columns (hw : IsWord w) (hcols : ∀ col ∈ cols, IsWord col.2) :
    Trimmed (w ++ columns cols) := by
  constructor
  · obtain ⟨c, w', rfl⟩ := List.exists_cons_of_ne_nil hw.1
    simpa using hw.2 c List.mem_cons_self
  · induction cols generalizing w with
    | nil => simpa [columns] using hw.trimmed.2
    | cons col cols ih =>
      obtain ⟨n, w'⟩ := col
      rw [List.forall_mem_cons] at hcols
      have hne : w' ++ columns cols ≠ [] := by simp [hcols.1.1]
      rw [columns, List.getLast?_append_of_ne_nil _ (by simp), ← List.cons_append,
        List.getLast?_append_of_ne_nil _ hne]
      exact ih hcols.1 hcols.2

/-! ## Lines -/

/-- No character ends the line. -/
def OnOneLine (cs : List Char) : Prop := ∀ c ∈ cs, c ≠ '\n' ∧ c ≠ '\r'

instance : DecidablePred OnOneLine := fun cs =>
  decidable_of_iff ((cs.all fun c => c ≠ '\n' ∧ c ≠ '\r') = true) (by simp [OnOneLine])

theorem IsWord.onOneLine (hw : IsWord w) : OnOneLine w := by
  intro c hc
  have hws := hw.2 c hc
  refine ⟨?_, ?_⟩ <;> rintro rfl <;> exact absurd hws (by decide)

theorem onOneLine_blanks (n : ℕ) : OnOneLine (blanks n) := by
  intro c hc
  rw [List.eq_of_mem_replicate hc]
  decide

theorem OnOneLine.append {cs cs' : List Char} (h : OnOneLine cs) (h' : OnOneLine cs') :
    OnOneLine (cs ++ cs') := fun c hc => (List.mem_append.mp hc).elim (h c) (h' c)

theorem onOneLine_columns (hcols : ∀ col ∈ cols, IsWord col.2) : OnOneLine (columns cols) := by
  induction cols with
  | nil => exact fun c hc => absurd hc List.not_mem_nil
  | cons col cols ih =>
    rw [List.forall_mem_cons] at hcols
    exact (onOneLine_blanks 1).append
      ((onOneLine_blanks _).append (hcols.1.onOneLine.append (ih hcols.2)))

/-- Lines, each with its line feed. -/
def ended (lines : List (List Char)) : List Char := lines.flatMap (· ++ ['\n'])

theorem linesFrom_append (h : OnOneLine cs) (before rest : List Char) :
    linesFrom before (cs ++ '\n' :: rest) = linesFrom (cs.reverse ++ before) ('\n' :: rest) := by
  induction cs generalizing before with
  | nil => rfl
  | cons c cs ih =>
    obtain ⟨hc, hcs⟩ := List.forall_mem_cons.mp h
    have hstep : linesFrom before (c :: (cs ++ '\n' :: rest)) =
        linesFrom (c :: before) (cs ++ '\n' :: rest) := by
      rw [linesFrom]
      · exact hc.1
      · exact fun _ _ heq => hc.1 heq
    rw [List.cons_append, hstep, ih hcs, List.reverse_cons, List.append_assoc]
    rfl

/-- **The lines of a text are those that were put together.** -/
theorem lines_ended {ls : List (List Char)} (h : ∀ l ∈ ls, OnOneLine l) : lines (ended ls) = ls := by
  induction ls with
  | nil => rfl
  | cons l ls ih =>
    obtain ⟨hl, hls⟩ := List.forall_mem_cons.mp h
    have hnext : linesFrom l.reverse ('\n' :: ended ls) = l :: linesFrom [] (ended ls) := by
      rw [linesFrom]
      · rw [List.reverse_reverse]
      · intro before hbefore
        have hmem : '\r' ∈ l := by
          rw [← List.mem_reverse, hbefore]
          exact List.mem_cons_self
        exact absurd rfl (hl '\r' hmem).2
    have hended : ended (l :: ls) = l ++ '\n' :: ended ls := by simp [ended]
    rw [lines, hended, linesFrom_append hl, List.append_nil, hnext]
    exact congrArg (l :: ·) (ih hls)

/-! ## Delimiters -/

theorem splitOnce_append {d : Char} {before : List Char} (h : d ∉ before) (rest : List Char) :
    splitOnce d (before ++ d :: rest) = some (before, rest) := by
  induction before with
  | nil => simp [splitOnce]
  | cons c before ih =>
    rw [List.mem_cons, not_or] at h
    rw [List.cons_append, splitOnce, if_neg (Ne.symm h.1), ih h.2]
    rfl

theorem stripPrefix_append (beginning cs : List Char) :
    stripPrefix beginning (beginning ++ cs) = some cs := by
  rw [stripPrefix, if_pos (List.isPrefixOf_iff_prefix.mpr (List.prefix_append _ _)), List.drop_left]

end Text

/-! ## Numbers -/

namespace Decimal

theorem whiteSpace_of_isDigit {c : Char} (h : c.isDigit = true) : Text.whiteSpace c = false := by
  obtain ⟨hlow, hhigh⟩ := Char.isDigit_iff_toNat.mp h
  have hlow' : 48 ≤ c.toNat := hlow
  have hhigh' : c.toNat ≤ 57 := hhigh
  simp only [Text.whiteSpace, Bool.or_eq_false_iff, Bool.and_eq_false_iff, decide_eq_false_iff_not]
  omega

theorem isWord_repr (n : ℕ) : Text.IsWord n.repr.toList := by
  refine ⟨?_, fun c hc => whiteSpace_of_isDigit (isDigit_of_mem_repr hc)⟩
  rw [Nat.toList_repr]
  exact Nat.toDigits_ne_nil

theorem whiteSpace_of_mem_toString {z : ℤ} {c : Char} (h : c ∈ (toString z).toList) :
    Text.whiteSpace c = false := by
  rcases isDigit_or_eq_of_mem_toString h with hdigit | rfl
  · exact whiteSpace_of_isDigit hdigit
  · decide

theorem parseUnsigned_repr {bound n : ℕ} (h : n < bound) :
    parseUnsigned bound n.repr.toList = some n := by
  rw [parseUnsigned, parseNat_repr, Option.bind_eq_bind, Option.bind_some]
  · exact if_pos h
  · -- the text has no sign
    intro cs heq
    have hplus : '+' ∈ n.repr.toList := heq ▸ List.mem_cons_self
    exact absurd (isDigit_of_mem_repr hplus) (by decide)

@[simp] theorem parseU64_repr (n : UInt64) : parseU64 n.toNat.repr.toList = some n := by
  rw [parseU64, parseUnsigned_repr n.toNat_lt]
  simp

@[simp] theorem parseU32_repr (n : UInt32) : parseU32 n.toNat.repr.toList = some n := by
  rw [parseU32, parseUnsigned_repr n.toNat_lt]
  simp

end Decimal
