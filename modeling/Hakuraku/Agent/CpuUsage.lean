import Hakuraku.Agent.Collector
import Mathlib.Algebra.Order.Field.Rat
import Mathlib.Data.List.Chain
import Mathlib.Data.Rat.Floor
import Mathlib.Tactic.Positivity

/-!
# The range of the CPU usage

Reference: `pulse-agent/src/collector.rs`, `read_cpu`, `compute_cpu_percent`;
`pulse-core/proto/telemetry.proto`, `NodeStats.cpu_percent`.

The usage between two samples is the share of the active jiffies in all of them. The idle jiffies and
those of `iowait` make up the rest, and Linux lets `iowait` decrease: a sample with fewer of the two
together than the sample before it has more active jiffies than jiffies, and is reported with more
than 100 percent. Nothing else leads out of the range.

`Steady` is the relation between two samples that the range depends on. A call of `read_cpu` compares
every sample with the last one of the same counters, in this file or an earlier one, so that a run
stays in the range if the samples of each counter form a chain.
-/

namespace Hakuraku.Agent

/-! ## Exact percentages -/

/-- Exact rational numbers in the place of `f64`; a text has no sign and no exponent. -/
def F64.rational : F64 ℚ where
  ofU64 n := n.toNat
  asU64 x := UInt64.ofNat (min ⌊x⌋.toNat (2 ^ 64 - 1))
  asSecsF64 ns := ns / 1000000000
  parse cs :=
    match Text.splitOnce '.' cs with
    | none => (Decimal.parseNat cs).map fun n => (n : ℚ)
    | some (whole, decimals) =>
      (Decimal.parseNat (whole ++ decimals)).map fun n => (n : ℚ) / 10 ^ decimals.length
  max := Max.max
  div x y := x / y
  mul x y := x * y
  zero := 0
  one := 1
  hundred := 100
  thousandth := 1 / 1000
  max_asSecsF64 ns h := by
    have hns : (1000000 : ℚ) ≤ ns := by exact_mod_cast h
    refine max_eq_left ?_
    linarith

/-- The documented range of a percentage. -/
def InRange (percent : ℚ) : Prop := 0 ≤ percent ∧ percent ≤ 100

theorem inRange_zero : InRange 0 := ⟨le_rfl, by norm_num⟩

namespace CpuJiffies

/-- The jiffies of a sample in which there was work to do. -/
def busyJiffies (j : CpuJiffies) : ℕ :=
  j.user.toNat + j.nice.toNat + j.system.toNat + j.irq.toNat + j.softirq.toNat + j.steal.toNat

/-- The other ones. -/
def restJiffies (j : CpuJiffies) : ℕ := j.idle.toNat + j.iowait.toNat

/-- The total of a sample does not overflow. -/
def Fits (j : CpuJiffies) : Prop := j.busyJiffies + j.restJiffies < 2 ^ 64

/-- If the total has grown since the sample before, what is not active has not shrunk. -/
def Steady (prev curr : CpuJiffies) : Prop :=
  prev.busyJiffies + prev.restJiffies < curr.busyJiffies + curr.restJiffies →
    prev.restJiffies ≤ curr.restJiffies

theorem Fits.total_toNat {j : CpuJiffies} (h : j.Fits) :
    j.total.toNat = j.busyJiffies + j.restJiffies := by
  unfold Fits busyJiffies restJiffies at h
  simp only [total, UInt64.toNat_add, busyJiffies, restJiffies]
  omega

theorem Fits.active_toNat {j : CpuJiffies} (h : j.Fits) : j.active.toNat = j.busyJiffies := by
  have htotal := h.total_toNat
  have hidle : j.idle ≤ j.total := by
    rw [UInt64.le_iff_toNat_le, htotal, restJiffies]
    omega
  have hiowait : j.iowait ≤ j.total - j.idle := by
    rw [UInt64.le_iff_toNat_le, UInt64.toNat_sub_of_le _ _ hidle, htotal, restJiffies]
    omega
  rw [active, UInt64.toNat_sub_of_le _ _ hiowait, UInt64.toNat_sub_of_le _ _ hidle, htotal,
    restJiffies]
  omega

/-- **The active jiffies are at most all jiffies exactly if the samples are steady.** -/
theorem activeDelta_le_iff {prev curr : CpuJiffies} (hprev : prev.Fits) (hcurr : curr.Fits) :
    (0 < saturatingSub curr.total prev.total →
      saturatingSub curr.active prev.active ≤ saturatingSub curr.total prev.total) ↔
      Steady prev curr := by
  rw [UInt64.lt_iff_toNat_lt, UInt64.le_iff_toNat_le, saturatingSub_toNat, saturatingSub_toNat,
    hprev.total_toNat, hcurr.total_toNat, hprev.active_toNat, hcurr.active_toNat,
    UInt64.toNat_zero, Steady]
  omega

/-- The percentage of two samples is in the range exactly if they are steady. -/
theorem inRange_computeCpuPercent_iff {prev curr : CpuJiffies} (hprev : prev.Fits)
    (hcurr : curr.Fits) : InRange (computeCpuPercent .rational prev curr) ↔ Steady prev curr := by
  rw [← activeDelta_le_iff hprev hcurr, computeCpuPercent]
  generalize saturatingSub curr.total prev.total = totalDelta
  generalize saturatingSub curr.active prev.active = activeDelta
  split
  · rename_i hzero
    subst hzero
    exact iff_of_true inRange_zero fun h => absurd h (UInt64.lt_irrefl 0)
  · rename_i hne
    have hpos : 0 < totalDelta := UInt64.pos_iff_ne_zero.mpr hne
    have hposq : (0 : ℚ) < totalDelta.toNat := by exact_mod_cast UInt64.lt_iff_toNat_lt.mp hpos
    show 0 ≤ (activeDelta.toNat : ℚ) / totalDelta.toNat * 100 ∧
      (activeDelta.toNat : ℚ) / totalDelta.toNat * 100 ≤ 100 ↔ _
    have hhundred : (activeDelta.toNat : ℚ) / totalDelta.toNat * 100 ≤ 100 ↔
        (activeDelta.toNat : ℚ) ≤ totalDelta.toNat := by
      rw [← div_le_one hposq]
      constructor <;> intro h <;> linarith
    rw [hhundred, Nat.cast_le, ← UInt64.le_iff_toNat_le]
    exact ⟨fun h _ => h.2, fun h => ⟨by positivity, h hpos⟩⟩

end CpuJiffies

/-! ## The samples of a run -/

/-- What a sample is about: all cores together, or one of them. -/
inductive Cpu where
  | all
  | core (num : UInt32)
deriving DecidableEq

/-- The samples that `read_cpu` takes from lines after `cores` lines of cores, up to the line it ends
or fails at. -/
def cpuSamples : ℕ → List (List Char) → List (Cpu × CpuJiffies)
  | _, [] => []
  | cores, line :: lines =>
    if "cpu ".toList.isPrefixOf line then
      match parseCpuLine line with
      | .ok jiffies => (.all, jiffies) :: cpuSamples cores lines
      | .error _ => []
    else
      match Text.stripPrefix "cpu".toList line with
      | some stripped =>
        match parseCpuLine line with
        | .ok jiffies =>
          (.core (((Text.words stripped).head?.bind Decimal.parseU32).getD (UInt32.ofNat cores)),
            jiffies) :: cpuSamples (cores + 1) lines
        | .error _ => []
      | none => []

/-- The samples of `/proc/stat`. -/
def Files.cpuSamples (files : Files) : List (Cpu × CpuJiffies) :=
  match readFile files "/proc/stat" with
  | .ok buf => Agent.cpuSamples 0 (Text.lines buf)
  | .error _ => []

/-- Those that are about one thing. -/
def samplesOf (cpu : Cpu) (samples : List (Cpu × CpuJiffies)) : List CpuJiffies :=
  samples.filterMap fun s => if s.1 = cpu then some s.2 else none

/-- The baseline that the next sample is compared with. -/
def SystemCollector.baseline (c : SystemCollector) : Cpu → Option CpuJiffies
  | .all => c.prevCpu
  | .core num => c.prevCpuPerCore.lookup num

/-- The percentages that the calls of `read_cpu` report which succeed. -/
def reported {F : Type} (ops : F64 F) : List Files → SystemCollector → List (F × List F)
  | [], _ => []
  | files :: run, c =>
    match readCpu ops files c with
    | .ok percentages c' => percentages :: reported ops run c'
    | .error _ c' => reported ops run c'

/-! ## What a run compares -/

open CpuJiffies Fallible

/-- Consecutive samples of the same counters that do not overflow. -/
def SteadyRun (samples : List CpuJiffies) : Prop :=
  (∀ j ∈ samples, j.Fits) ∧ samples.IsChain Steady

theorem SteadyRun.tail {j : CpuJiffies} {samples : List CpuJiffies} (h : SteadyRun (j :: samples)) :
    SteadyRun samples :=
  ⟨fun j' hj' => h.1 j' (List.mem_cons_of_mem _ hj'), h.2.tail⟩

/-- The samples to come continue the baselines. -/
def Continues (c : SystemCollector) (samples : List (Cpu × CpuJiffies)) : Prop :=
  ∀ cpu, SteadyRun ((c.baseline cpu).toList ++ samplesOf cpu samples)

/-- The second collector has a sample in the place of a baseline of the first. -/
def Stores (c : SystemCollector) (cpu : Cpu) (j : CpuJiffies) (c' : SystemCollector) : Prop :=
  ∀ cpu', c'.baseline cpu' = if cpu' = cpu then some j else c.baseline cpu'

theorem stores_prevCpu (c : SystemCollector) (j : CpuJiffies) :
    Stores c .all j { c with prevCpu := some j } := by
  intro cpu
  cases cpu <;> rfl

theorem stores_prevCpuPerCore (c : SystemCollector) (num : UInt32) (j : CpuJiffies) :
    Stores c (.core num) j { c with prevCpuPerCore := c.prevCpuPerCore.insert num j } := by
  intro cpu
  cases cpu with
  | all => rfl
  | core num' =>
    show (c.prevCpuPerCore.insert num j).lookup num' = _
    by_cases h : num' = num
    · subst h
      rw [AList.lookup_insert, if_pos rfl]
    · rw [AList.lookup_insert_ne h, if_neg fun heq => h (Cpu.core.inj heq)]
      rfl

theorem samplesOf_cons (cpu cpu' : Cpu) (j : CpuJiffies) (samples : List (Cpu × CpuJiffies)) :
    samplesOf cpu ((cpu', j) :: samples) =
      (if cpu' = cpu then [j] else []) ++ samplesOf cpu samples := by
  rw [samplesOf, List.filterMap_cons]
  by_cases h : cpu' = cpu
  · rw [if_pos h, if_pos h]
    rfl
  · rw [if_neg h, if_neg h]
    rfl

/-- **A stored sample** continues its baseline, and the samples after it continue the sample. -/
theorem Continues.store {c c' : SystemCollector} {cpu : Cpu} {j : CpuJiffies}
    {samples : List (Cpu × CpuJiffies)} (h : Continues c ((cpu, j) :: samples))
    (hstores : Stores c cpu j c') : Continues c' samples := by
  intro cpu'
  have horderly := h cpu'
  rw [samplesOf_cons] at horderly
  rw [hstores cpu']
  by_cases hcpu : cpu' = cpu
  · subst hcpu
    rw [if_pos rfl] at horderly ⊢
    -- the baseline is no longer needed
    cases hbase : c.baseline cpu' with
    | none =>
      rw [hbase] at horderly
      exact horderly
    | some prev =>
      rw [hbase] at horderly
      exact horderly.tail
  · rw [if_neg (Ne.symm hcpu), List.nil_append] at horderly
    rw [if_neg hcpu]
    exact horderly

theorem Continues.inRange {c : SystemCollector} {cpu : Cpu} {j : CpuJiffies}
    {samples : List (Cpu × CpuJiffies)} (h : Continues c ((cpu, j) :: samples)) {percent : ℚ}
    (hpercent : InRange percent) :
    InRange (((c.baseline cpu).map (computeCpuPercent .rational · j)).getD percent) := by
  have horderly := h cpu
  rw [samplesOf_cons, if_pos rfl] at horderly
  cases hbase : c.baseline cpu with
  | none => exact hpercent
  | some prev =>
    rw [hbase] at horderly
    obtain ⟨hfits, hchain⟩ := horderly
    have hprev : prev.Fits := hfits prev (by simp)
    have hcurr : j.Fits := hfits j (by simp)
    exact (inRange_computeCpuPercent_iff hprev hcurr).mpr (List.isChain_cons_cons.mp hchain).1

/-- A call reports percentages in the range, and what it leaves is continued by later samples,
whether it fails or not. -/
def ReportsInRange (later : List (Cpu × CpuJiffies)) :
    EStateM.Result CollectorError SystemCollector (ℚ × List ℚ) → Prop
  | .ok percentages c =>
    (InRange percentages.1 ∧ ∀ p ∈ percentages.2, InRange p) ∧ Continues c later
  | .error _ c => Continues c later

/-- **The loop of `read_cpu`** stays in the range. -/
theorem reportsInRange_readCpuLines (lines : List (List Char)) (overallPercent : ℚ)
    (perCore : List ℚ) (c : SystemCollector) {later : List (Cpu × CpuJiffies)}
    (h : Continues c (cpuSamples perCore.length lines ++ later)) (hoverall : InRange overallPercent)
    (hperCore : ∀ p ∈ perCore, InRange p) :
    ReportsInRange later (readCpuLines .rational lines overallPercent perCore c) := by
  induction lines generalizing overallPercent perCore c with
  | nil => exact ⟨⟨hoverall, hperCore⟩, h⟩
  | cons line lines ih =>
    rw [cpuSamples] at h
    rw [readCpuLines]
    by_cases hall : "cpu ".toList.isPrefixOf line = true
    · rw [if_pos hall] at h ⊢
      cases hline : parseCpuLine line with
      | error e =>
        rw [hline] at h
        exact h
      | ok j =>
        rw [hline, List.cons_append] at h
        exact ih _ _ { c with prevCpu := some j } (h.store (stores_prevCpu c j))
          (h.inRange hoverall) hperCore
    · rw [if_neg hall] at h ⊢
      cases hstripped : Text.stripPrefix "cpu".toList line with
      | none =>
        rw [hstripped] at h
        exact ⟨⟨hoverall, hperCore⟩, h⟩
      | some stripped =>
        rw [hstripped] at h
        cases hline : parseCpuLine line with
        | error e =>
          simp only [hline] at h
          exact h
        | ok j =>
          simp only [hline, List.cons_append] at h
          refine ih _ _ { c with prevCpuPerCore := _ } ?_ hoverall ?_
          · rw [List.length_append, List.length_singleton]
            exact h.store (stores_prevCpuPerCore c _ j)
          · intro p hp
            rcases List.mem_append.mp hp with hp | hp
            · exact hperCore p hp
            · rw [List.mem_singleton] at hp
              subst hp
              exact h.inRange inRange_zero

theorem reportsInRange_readCpu (files : Files) (c : SystemCollector)
    {later : List (Cpu × CpuJiffies)} (h : Continues c (files.cpuSamples ++ later)) :
    ReportsInRange later (readCpu .rational files c) := by
  rw [Files.cpuSamples] at h
  rw [readCpu]
  cases hread : readFile files "/proc/stat" with
  | error e =>
    rw [hread] at h
    exact h
  | ok buf =>
    rw [hread] at h
    exact reportsInRange_readCpuLines (Text.lines buf) 0 [] c h inRange_zero fun _ hp =>
      absurd hp List.not_mem_nil

theorem inRange_of_mem_reported {run : List Files} {c : SystemCollector}
    (h : Continues c (run.flatMap Files.cpuSamples)) :
    ∀ r ∈ reported .rational run c, InRange r.1 ∧ ∀ p ∈ r.2, InRange p := by
  induction run generalizing c with
  | nil => exact fun r hr => absurd hr List.not_mem_nil
  | cons files run ih =>
    rw [List.flatMap_cons] at h
    have hrange := reportsInRange_readCpu files c h
    intro r hr
    rw [reported] at hr
    cases hread : readCpu .rational files c with
    | error e c' =>
      rw [hread] at hrange hr
      exact ih hrange r hr
    | ok percentages c' =>
      rw [hread] at hrange hr
      rcases List.mem_cons.mp hr with rfl | hr
      · exact hrange.1
      · exact ih hrange.2 r hr

theorem mem_of_mem_samplesOf {cpu : Cpu} {samples : List (Cpu × CpuJiffies)} {j : CpuJiffies}
    (h : j ∈ samplesOf cpu samples) : (cpu, j) ∈ samples := by
  obtain ⟨⟨cpu', j'⟩, hmem, hj⟩ := List.mem_filterMap.mp h
  rw [Option.ite_none_right_eq_some] at hj
  obtain ⟨rfl, hj⟩ := hj
  obtain rfl := Option.some.inj hj
  exact hmem

/-- **The CPU usage is in its range as long as the samples are steady.** For two samples whose totals
do not overflow, the active jiffies are at most all jiffies, and the percentage is in `[0, 100]`,
exactly if they are steady. In every run of `read_cpu` in which each sample is steady after the last
one of the same counters, every percentage is in `[0, 100]`. -/
theorem cpu_usage_in_range {prev curr : CpuJiffies} (hprev : prev.Fits) (hcurr : curr.Fits) :
    ((0 < saturatingSub curr.total prev.total →
        saturatingSub curr.active prev.active ≤ saturatingSub curr.total prev.total) ↔
      Steady prev curr) ∧
    (InRange (computeCpuPercent .rational prev curr) ↔ Steady prev curr) ∧
    ∀ run : List Files, (∀ s ∈ run.flatMap Files.cpuSamples, s.2.Fits) →
      (∀ cpu, (samplesOf cpu (run.flatMap Files.cpuSamples)).IsChain Steady) →
      ∀ r ∈ reported .rational run .new, InRange r.1 ∧ ∀ p ∈ r.2, InRange p := by
  refine ⟨activeDelta_le_iff hprev hcurr, inRange_computeCpuPercent_iff hprev hcurr, ?_⟩
  intro run hfits hchain
  refine inRange_of_mem_reported ?_
  intro cpu
  -- a new collector has no baseline
  have hbase : SystemCollector.new.baseline cpu = none := by
    cases cpu with
    | all => rfl
    | core num => exact AList.lookup_empty num
  rw [hbase, Option.toList_none, List.nil_append]
  exact ⟨fun j hj => hfits (cpu, j) (mem_of_mem_samplesOf hj), hchain cpu⟩

/-- Two hundred jiffies later the idle jiffies are more than before. -/
theorem cpu_usage_in_range_of_steady :
    let run : List Files :=
      [.only "/proc/stat" "cpu  0 0 0 100 100 0 0 0\n",
        .only "/proc/stat" "cpu  150 0 0 150 100 0 0 0\n"]
    (∀ s ∈ run.flatMap Files.cpuSamples, s.2.Fits) ∧
      (∀ cpu, (samplesOf cpu (run.flatMap Files.cpuSamples)).IsChain Steady) ∧
      (∀ r ∈ reported .rational run .new, InRange r.1 ∧ ∀ p ∈ r.2, InRange p) ∧
      InRange (computeCpuPercent .rational ⟨0, 0, 0, 100, 100, 0, 0, 0⟩
        ⟨150, 0, 0, 150, 100, 0, 0, 0⟩) := by
  intro run
  have hsamples : run.flatMap Files.cpuSamples =
      [(.all, ⟨0, 0, 0, 100, 100, 0, 0, 0⟩), (.all, ⟨150, 0, 0, 150, 100, 0, 0, 0⟩)] := by
    decide +kernel
  have hfits : ∀ s ∈ run.flatMap Files.cpuSamples, s.2.Fits := by
    rw [hsamples]
    unfold Fits
    decide
  have hsteady : Steady ⟨0, 0, 0, 100, 100, 0, 0, 0⟩ ⟨150, 0, 0, 150, 100, 0, 0, 0⟩ := by
    unfold Steady
    decide
  have hchain : ∀ cpu, (samplesOf cpu (run.flatMap Files.cpuSamples)).IsChain Steady := by
    rw [hsamples]
    intro cpu
    cases cpu with
    | all => exact List.isChain_pair.mpr hsteady
    | core num => exact .nil
  have hprev : Fits ⟨0, 0, 0, 100, 100, 0, 0, 0⟩ := by
    unfold Fits
    decide
  have hcurr : Fits ⟨150, 0, 0, 150, 100, 0, 0, 0⟩ := by
    unfold Fits
    decide
  obtain ⟨-, hpair, hrun⟩ := cpu_usage_in_range hprev hcurr
  exact ⟨hfits, hchain, hrun run hfits hchain, hpair.mpr hsteady⟩

/-- After `iowait` has gone back from 100 to nothing, fifty jiffies later, 150 of these count as
active. -/
theorem three_hundred_percent_of_iowait :
    ∃ prev curr : CpuJiffies,
      parseCpuLine "cpu  0 0 0 100 100 0 0 0".toList = .ok prev ∧
      parseCpuLine "cpu  150 0 0 100 0 0 0 0".toList = .ok curr ∧ prev.Fits ∧ curr.Fits ∧
      0 < saturatingSub curr.total prev.total ∧
      ¬ saturatingSub curr.active prev.active ≤ saturatingSub curr.total prev.total ∧
      ∃ r ∈ reported .rational
        [.only "/proc/stat" "cpu  0 0 0 100 100 0 0 0\n",
          .only "/proc/stat" "cpu  150 0 0 100 0 0 0 0\n"] .new,
        r.1 = 300 ∧ ¬ InRange r.1 := by
  refine ⟨⟨0, 0, 0, 100, 100, 0, 0, 0⟩, ⟨150, 0, 0, 100, 0, 0, 0, 0⟩, by rfl, by rfl, ?_, ?_,
    by decide, by decide, (300, []), by decide +kernel, rfl, ?_⟩
  · unfold Fits
    decide
  · unfold Fits
    decide
  · unfold InRange
    norm_num

end Hakuraku.Agent
