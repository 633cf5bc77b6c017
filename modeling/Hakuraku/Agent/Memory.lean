import Hakuraku.Agent.Collector
import Mathlib.Data.List.Induction
import Mathlib.Data.List.Perm.Basic

/-!
# What `/proc/meminfo` says

Reference: `pulse-agent/src/collector.rs`, `read_meminfo`, `parse_meminfo_line`.

`read_meminfo` overwrites a variable at every line with the key of the variable. A variable therefore
ends with the last number under its key, and neither the order of lines with different keys nor any
other line matters.
-/

namespace Hakuraku.Agent

/-- The keys that `read_meminfo` looks for. -/
inductive MeminfoKey where
  | memTotal
  | memFree
  | memAvailable
  | buffers
  | cached
  | swapTotal
  | swapFree
deriving DecidableEq

namespace MeminfoKey

/-- The key as it is written in a line. -/
def name : MeminfoKey → String
  | memTotal => "MemTotal"
  | memFree => "MemFree"
  | memAvailable => "MemAvailable"
  | buffers => "Buffers"
  | cached => "Cached"
  | swapTotal => "SwapTotal"
  | swapFree => "SwapFree"

/-- The number in a line with this key. -/
def numberIn (key : MeminfoKey) (line : List Char) : Option UInt64 :=
  match parseMeminfoLine line with
  | some (name, val) => if name = key.name then some val else none
  | none => none

/-- The numbers in the lines with this key. -/
def numbers (key : MeminfoKey) (lines : List (List Char)) : List UInt64 :=
  lines.filterMap key.numberIn

/-- The last of them, or zero. -/
def number (key : MeminfoKey) (lines : List (List Char)) : ℕ :=
  ((key.numbers lines).getLast?.map UInt64.toNat).getD 0

end MeminfoKey

namespace Meminfo

/-- The variable of a key. -/
def get (info : Meminfo) : MeminfoKey → UInt64
  | .memTotal => info.memTotal
  | .memFree => info.memFree
  | .memAvailable => info.memAvailable
  | .buffers => info.buffers
  | .cached => info.cached
  | .swapTotal => info.swapTotal
  | .swapFree => info.swapFree

theorem ext_get {info info' : Meminfo} (h : ∀ key, info.get key = info'.get key) : info = info' := by
  cases info
  cases info'
  simp only [mk.injEq]
  exact ⟨h .memTotal, h .memFree, h .memAvailable, h .buffers, h .cached, h .swapTotal, h .swapFree⟩

/-- **A line sets the variable of its key.** -/
theorem readLine_get (info : Meminfo) (line : List Char) (key : MeminfoKey) :
    (info.readLine line).get key = ((key.numberIn line).map (· * 1024)).getD (info.get key) := by
  rw [readLine, MeminfoKey.numberIn]
  cases hparse : parseMeminfoLine line with
  | none => rfl
  | some parsed =>
    obtain ⟨name, val⟩ := parsed
    dsimp only
    split
    · cases key <;> rfl
    · cases key <;> rfl
    · cases key <;> rfl
    · cases key <;> rfl
    · cases key <;> rfl
    · cases key <;> rfl
    · cases key <;> rfl
    · -- another key, which is none of the seven names
      rw [if_neg (by cases key <;> assumption)]
      rfl

/-- The variables after all lines. -/
theorem foldl_readLine_get (lines : List (List Char)) (info : Meminfo) (key : MeminfoKey) :
    (lines.foldl readLine info).get key =
      ((key.numbers lines).getLast?.map (· * 1024)).getD (info.get key) := by
  induction lines using List.reverseRecOn with
  | nil => rfl
  | append_singleton lines line ih =>
    rw [List.foldl_concat, readLine_get, ih, MeminfoKey.numbers, MeminfoKey.numbers,
      List.filterMap_append]
    cases hnumber : key.numberIn line with
    | none => simp [hnumber]
    | some val => simp [hnumber]

end Meminfo

end Hakuraku.Agent
