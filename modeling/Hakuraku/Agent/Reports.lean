import Hakuraku.Agent.Baselines
import Hakuraku.Agent.CpuUsage
import Hakuraku.Agent.Procfs

/-!
# What the collector reports of a machine

Reference: `pulse-agent/src/collector.rs`, `SystemCollector::collect`.

A machine is observed at several times, and each time its counters are in the files of
`Agent.Procfs`. `Observation.report` says what is to be reported of an observation after the ones
before it, without files or texts, and a collector reports just that (`collect_reports`).

Usage and rates are against the last observation that had the counter in question. For a network
interface or a core this need not be the previous observation, although the time that a rate divides
by always is the one since the previous observation.
-/

namespace Hakuraku.Agent

open Fallible

variable {F : Type} (ops : F64 F) (value : ℕ → F)

/-! ## Reports -/

/-- An observation of a machine: when, what it counts, and how its files are laid out. -/
structure Observation where
  /-- `Instant::now`. -/
  now : ℕ
  /-- `SystemTime::now`. -/
  timestampMs : Int64
  kernel : Kernel
  pad : Padding

/-- The call of `collect` that makes the observation. -/
def Observation.call (nodeId : String) (o : Observation) : Call :=
  ⟨nodeId, o.now, o.timestampMs, o.kernel.files o.pad⟩

/-- The last values of the counters of a machine, and when it was observed last. -/
structure LastValues where
  cpu : Option CpuJiffies
  core : UInt32 → Option CpuJiffies
  net : String → Option NetCounters
  disk : Option DiskCounters
  time : Option ℕ

/-- The last values in some observations, of which the newest is the first. A core or an interface
need not be in the newest one. -/
def LastValues.of (past : List Observation) : LastValues where
  cpu := past.head?.map (·.kernel.cpu.jiffies)
  core n := past.findSome? fun o => (o.kernel.cores.lookup n).map (·.jiffies)
  net name := past.findSome? fun o => o.kernel.interfaces.lookup name
  disk := past.head?.map (·.kernel.sectors)
  time := past.head?.map (·.now)

/-- The jiffies of a sample in which there was work to do; the counters wrap around together. -/
def CpuJiffies.working (j : CpuJiffies) : UInt64 :=
  j.user + j.nice + j.system + j.irq + j.softirq + j.steal

/-- The jiffies without work, or with work that waited for a device. -/
def CpuJiffies.resting (j : CpuJiffies) : UInt64 := j.idle + j.iowait

/-- How much a counter has grown; one that has gone back has not grown. -/
def grown (before now : UInt64) : UInt64 := if before ≤ now then now - before else 0

/-- The share of the working jiffies among those since the last sample, in percent. -/
def usage (last : Option CpuJiffies) (now : CpuJiffies) : F :=
  match last with
  | none => ops.zero
  | some before =>
    let passed := grown (before.working + before.resting) (now.working + now.resting)
    if passed = 0 then ops.zero
    else
      ops.mul (ops.div (ops.ofU64 (grown before.working now.working)) (ops.ofU64 passed)) ops.hundred

/-- The seconds since the last observation, of which there is at least a thousandth, or one. -/
def secondsSince (last : Option ℕ) (now : ℕ) : F :=
  match last with
  | none => ops.max ops.one ops.thousandth
  | some before => ops.max (ops.asSecsF64 (now - before)) ops.thousandth

/-- How many bytes a second a counter of units of `size` bytes has grown by. -/
def perSecond (seconds : F) (size : UInt64) (last : Option UInt64) (now : UInt64) : UInt64 :=
  match last with
  | none => 0
  | some before => ops.asU64 (ops.div (ops.ofU64 (grown before now * size)) seconds)

/-- What is to be reported of an observation. -/
def Observation.report (last : LastValues) (o : Observation) : Metrics F :=
  let seconds := secondsSince ops last.time o.now
  { cpuPercent := usage ops last.cpu o.kernel.cpu.jiffies
    cpuPerCore := o.kernel.cores.map fun core => usage ops (last.core core.1) core.2.jiffies
    loadAvg1 := value o.kernel.load1
    loadAvg5 := value o.kernel.load5
    loadAvg15 := value o.kernel.load15
    memTotal := o.kernel.bytes .memTotal
    memUsed := saturatingSub (o.kernel.bytes .memTotal)
      (o.kernel.bytes .memFree + o.kernel.bytes .buffers + o.kernel.bytes .cached)
    memFree := o.kernel.bytes .memFree
    memAvailable := o.kernel.bytes .memAvailable
    memBuffers := o.kernel.bytes .buffers
    memCached := o.kernel.bytes .cached
    swapTotal := o.kernel.bytes .swapTotal
    swapUsed := saturatingSub (o.kernel.bytes .swapTotal) (o.kernel.bytes .swapFree)
    -- a sector has 512 bytes
    diskReadBytesSec :=
      perSecond ops seconds 512 (last.disk.map (·.readSectors)) o.kernel.sectors.readSectors
    diskWriteBytesSec :=
      perSecond ops seconds 512 (last.disk.map (·.writeSectors)) o.kernel.sectors.writeSectors
    netInterfaces := o.kernel.interfaces.map fun i =>
      { name := i.1
        rxBytesSec := perSecond ops seconds 1 ((last.net i.1).map (·.rxBytes)) i.2.rxBytes
        txBytesSec := perSecond ops seconds 1 ((last.net i.1).map (·.txBytes)) i.2.txBytes
        rxBytesTotal := i.2.rxBytes
        txBytesTotal := i.2.txBytes }
    tcpConnections := o.kernel.tcp.count + countOf o.kernel.tcp6
    udpConnections := o.kernel.udp.count + countOf o.kernel.udp6
    uptimeSeconds := ops.asU64 (value o.kernel.uptime)
    temperatures := o.kernel.temperatures }

/-- The reports of observations in a row, after earlier ones. -/
def reports (nodeId : String) : List Observation → List Observation →
    List (NodeStats (Metrics F))
  | _, [] => []
  | past, o :: later =>
    ⟨nodeId, o.timestampMs, o.report ops value (.of past)⟩ :: reports nodeId (o :: past) later

/-- What the calls of one collector return. -/
def answers : SystemCollector → List Call → List (Except CollectorError (NodeStats (Metrics F)))
  | _, [] => []
  | c, call :: calls =>
    (match collect ops call c with
      | .ok stats _ => .ok stats
      | .error e _ => .error e) :: answers (after (collect ops call c)) calls

variable {ops value}

/-! ## Usage and rates -/

theorem CpuJiffies.active_eq (j : CpuJiffies) : j.active = j.working := by
  simp only [active, total, working]
  grind

theorem CpuJiffies.total_eq (j : CpuJiffies) : j.total = j.working + j.resting := by
  simp only [total, working, resting]
  ac_rfl

/-- The collector's percentage is the share of the working jiffies. -/
theorem computeCpuPercent_eq (last : Option CpuJiffies) (now : CpuJiffies) :
    (last.map (computeCpuPercent ops · now)).getD ops.zero = usage ops last now := by
  cases last with
  | none => rfl
  | some before =>
    rw [Option.map_some, Option.getD_some, computeCpuPercent]
    simp only [CpuJiffies.active_eq, CpuJiffies.total_eq]
    rfl

theorem elapsedSecs_eq_secondsSince (last : Option ℕ) (now : ℕ) :
    elapsedSecs ops last now = secondsSince ops last now := by
  cases last <;> rfl

/-- The collector's rates of an interface are those of the received and the sent bytes. -/
theorem netInterface_eq (seconds : F) (last : Option NetCounters) (name : String)
    (now : NetCounters) :
    netInterface ops seconds last name now =
      { name
        rxBytesSec := perSecond ops seconds 1 (last.map (·.rxBytes)) now.rxBytes
        txBytesSec := perSecond ops seconds 1 (last.map (·.txBytes)) now.txBytes
        rxBytesTotal := now.rxBytes
        txBytesTotal := now.txBytes } := by
  have hone : ∀ n : UInt64, n * 1 = n := UInt64.mul_one
  cases last with
  | none => rfl
  | some before =>
    simp only [perSecond, Option.map_some, hone]
    rfl

/-- The collector's rates of the disks are those of the sectors read and written. -/
theorem diskRates_eq (seconds : F) (last : Option DiskCounters) (now : DiskCounters) :
    diskRates ops seconds last now =
      (perSecond ops seconds 512 (last.map (·.readSectors)) now.readSectors,
        perSecond ops seconds 512 (last.map (·.writeSectors)) now.writeSectors) := by
  cases last <;> rfl

/-- The usage and the rates of a report, as the collector computes them. -/
theorem report_eq_collector (last : LastValues) (o : Observation) :
    o.report ops value last =
      { o.report ops value last with
        cpuPercent := (last.cpu.map (computeCpuPercent ops · o.kernel.cpu.jiffies)).getD ops.zero
        cpuPerCore := o.kernel.cores.map fun core =>
          ((last.core core.1).map (computeCpuPercent ops · core.2.jiffies)).getD ops.zero
        diskReadBytesSec :=
          (diskRates ops (elapsedSecs ops last.time o.now) last.disk o.kernel.sectors).1
        diskWriteBytesSec :=
          (diskRates ops (elapsedSecs ops last.time o.now) last.disk o.kernel.sectors).2
        netInterfaces := o.kernel.interfaces.map fun i =>
          netInterface ops (elapsedSecs ops last.time o.now) (last.net i.1) i.1 i.2 } := by
  simp only [computeCpuPercent_eq, elapsedSecs_eq_secondsSince, diskRates_eq, netInterface_eq]
  rfl

/-! ## Baselines -/

theorem lookup_storeCores {cores : List (UInt32 × CpuTimes)} (honce : (cores.map (·.1)).Nodup)
    (prev : AList fun _ : UInt32 => CpuJiffies) (n : UInt32) :
    (storeCores cores prev).lookup n = ((cores.lookup n).map (·.jiffies)).or (prev.lookup n) := by
  induction cores generalizing prev with
  | nil => rfl
  | cons core cores ih =>
    obtain ⟨m, t⟩ := core
    obtain ⟨hnotin, honce⟩ := List.nodup_cons.mp honce
    have hcons := ih honce (prev.insert m t.jiffies)
    by_cases hn : n = m
    · subst hn
      have hnone : cores.lookup n = none := List.lookup_eq_none_iff.mpr fun core hcore => by
        simpa using fun heq : n = core.1 => hnotin (List.mem_map.mpr ⟨core, hcore, heq.symm⟩)
      rw [hnone, AList.lookup_insert] at hcons
      simpa [storeCores] using hcons
    · have hbeq : (n == m) = false := beq_eq_false_iff_ne.mpr hn
      rw [AList.lookup_insert_ne hn] at hcons
      simpa only [storeCores, List.foldl_cons, List.lookup_cons, hbeq] using hcons

/-- Interfaces that are listed once are rated against the baselines the call has found. -/
theorem readNetLines_fst {elapsed : F} {entries : List (String × NetCounters)}
    (honce : (names entries).Nodup) (prevNet : AList fun _ : String => NetCounters) :
    (readNetLines ops elapsed entries prevNet).1 =
      entries.map fun i => netInterface ops elapsed (prevNet.lookup i.1) i.1 i.2 := by
  induction entries generalizing prevNet with
  | nil => rfl
  | cons entry entries ih =>
    obtain ⟨hnotin, honce⟩ := List.nodup_cons.mp honce
    rw [readNetLines, List.map_cons, ih honce]
    refine congrArg (_ :: ·) (List.map_congr_left fun i hi => ?_)
    have hne : i.1 ≠ entry.1 := fun heq => hnotin (heq ▸ List.mem_map_of_mem (f := Prod.fst) hi)
    rw [AList.lookup_insert_ne hne]

theorem lookup_readNetLines_snd {elapsed : F} {entries : List (String × NetCounters)}
    (honce : (names entries).Nodup) (prevNet : AList fun _ : String => NetCounters)
    (name : String) : (readNetLines ops elapsed entries prevNet).2.lookup name =
      (entries.lookup name).or (prevNet.lookup name) := by
  cases hlookup : entries.lookup name with
  | none =>
    refine lookup_readNetLines_of_not_mem fun hmem => ?_
    obtain ⟨entry, hentry, heq⟩ := List.mem_map.mp hmem
    simpa [heq] using List.lookup_eq_none_iff.mp hlookup entry hentry
  | some curr =>
    refine lookup_readNetLines honce ?_
    obtain ⟨l₁, l₂, heq, -⟩ := List.lookup_eq_some_iff.mp hlookup
    rw [heq]
    simp

/-- The baselines of a collector. -/
def SystemCollector.lastValues (c : SystemCollector) : LastValues where
  cpu := c.prevCpu
  core n := c.prevCpuPerCore.lookup n
  net name := c.prevNet.lookup name
  disk := c.prevDisk
  time := c.prevTime

theorem lastValues_new : SystemCollector.new.lastValues = .of [] := rfl

/-- The values of an observation replace those of the same counters. -/
def Observation.update (o : Observation) (last : LastValues) : LastValues where
  cpu := some o.kernel.cpu.jiffies
  core n := ((o.kernel.cores.lookup n).map (·.jiffies)).or (last.core n)
  net name := (o.kernel.interfaces.lookup name).or (last.net name)
  disk := some o.kernel.sectors
  time := some o.now

theorem LastValues.of_cons (o : Observation) (past : List Observation) :
    LastValues.of (o :: past) = o.update (.of past) := by
  have hfirst : ∀ {α : Type} (f : Observation → Option α),
      (o :: past).findSome? f = (f o).or (past.findSome? f) := fun f => by
    rw [← List.singleton_append, List.findSome?_append, List.findSome?_singleton]
  simp only [LastValues.of, Observation.update, hfirst, List.head?_cons, Option.map_some]

/-! ## Calls -/

theorem names_interfaces (k : Kernel) : (names k.interfaces).Nodup := by
  have hnames : ((k.devices.map fun d => (String.ofList d.name, d.counters)).map Prod.fst).Nodup := by
    rw [List.map_map]
    have hcomp : (Prod.fst ∘ fun d : NetDevice => (String.ofList d.name, d.counters)) =
        String.ofList ∘ NetDevice.name := rfl
    rw [hcomp, ← List.map_map]
    exact k.devicesOnce.map fun _ _ heq => String.ofList_injective heq
  exact hnames.sublist (List.filter_sublist.map _)

theorem readNetDev_files (k : Kernel) (pad : Padding) (elapsed : F) (c : SystemCollector) :
    readNetDev ops (k.files pad) elapsed c =
      .ok (readNetLines ops elapsed k.interfaces c.prevNet).1
        { c with prevNet := (readNetLines ops elapsed k.interfaces c.prevNet).2 } := by
  have hread : readFile (k.files pad) "/proc/net/dev" =
      .ok (Text.ended (k.netHeader ++ k.devices.map (·.line pad))) := readFile_files rfl
  have hparse : (k.files pad).netDev = k.interfaces := netDev_files k
  rw [Files.netDev, hread] at hparse
  rw [readNetDev, hread, ← hparse]
  rfl

theorem readDiskstats_files (k : Kernel) (pad : Padding) (elapsed : F) (c : SystemCollector) :
    readDiskstats ops (k.files pad) elapsed c =
      .ok (diskRates ops elapsed c.prevDisk k.sectors) { c with prevDisk := some k.sectors } := by
  have hread : readFile (k.files pad) "/proc/diskstats" =
      .ok (Text.ended (k.disks.map (·.line pad))) := readFile_files rfl
  have hparse : (k.files pad).diskstats = k.sectors := diskstats_files k
  rw [Files.diskstats, hread] at hparse
  rw [readDiskstats, hread, ← hparse]
  rfl

/-- **One call** reports an observation against the baselines, and updates them. -/
theorem collect_files (hparse : ∀ n, ops.parse (hundredths n) = some (value n)) (nodeId : String)
    (o : Observation) (c : SystemCollector) :
    ∃ c', collect ops (o.call nodeId) c =
        .ok ⟨nodeId, o.timestampMs, o.report ops value c.lastValues⟩ c' ∧
      c'.lastValues = o.update c.lastValues := by
  have hinterfaces := names_interfaces o.kernel
  refine ⟨⟨some o.kernel.cpu.jiffies, storeCores o.kernel.cores c.prevCpuPerCore,
    (readNetLines ops (elapsedSecs ops c.prevTime o.now) o.kernel.interfaces c.prevNet).2,
    some o.kernel.sectors, some o.now⟩, ?_, ?_⟩
  · rw [collect]
    refine bind_eq_ok.mpr ⟨c, c, rfl, ?_⟩
    refine bind_eq_ok.mpr ⟨_, _, readCpu_files ops o.kernel c, ?_⟩
    refine bind_eq_ok.mpr ⟨_, _, ofExcept_eq_ok.mpr ⟨readMeminfo_files o.kernel, rfl⟩, ?_⟩
    refine bind_eq_ok.mpr ⟨_, _, ofExcept_eq_ok.mpr ⟨readLoadavg_files hparse o.kernel, rfl⟩, ?_⟩
    refine bind_eq_ok.mpr ⟨_, _, readNetDev_files o.kernel o.pad _ _, ?_⟩
    refine bind_eq_ok.mpr ⟨_, _, readDiskstats_files o.kernel o.pad _ _, ?_⟩
    refine bind_eq_ok.mpr ⟨_, _, ofExcept_eq_ok.mpr ⟨readConnections_files o.kernel, rfl⟩, ?_⟩
    refine bind_eq_ok.mpr ⟨_, _, ofExcept_eq_ok.mpr ⟨readUptime_files hparse o.kernel, rfl⟩, ?_⟩
    have htemperatures : readTemperatures (o.call nodeId).files = o.kernel.temperatures :=
      readTemperatures_files o.kernel
    rw [htemperatures, readNetLines_fst hinterfaces, report_eq_collector]
    rfl
  · simp only [SystemCollector.lastValues, Observation.update, lookup_storeCores o.kernel.coresOnce,
      lookup_readNetLines_snd hinterfaces]

/-- The calls of a collector with the baselines of earlier observations. -/
theorem answers_eq (hparse : ∀ n, ops.parse (hundredths n) = some (value n)) {nodeId : String}
    {past : List Observation} {c : SystemCollector} (hpast : c.lastValues = .of past)
    (os : List Observation) :
    answers ops c (os.map (·.call nodeId)) = (reports ops value nodeId past os).map .ok := by
  induction os generalizing past c with
  | nil => rfl
  | cons o os ih =>
    obtain ⟨c', hcollect, hlast⟩ := collect_files hparse nodeId o c
    have hrest : answers ops c' (os.map (·.call nodeId)) =
        (reports ops value nodeId (o :: past) os).map .ok :=
      ih (by rw [hlast, hpast, LastValues.of_cons])
    rw [List.map_cons, answers, hcollect, reports, List.map_cons, ← hpast, ← hrest]
    rfl

/-- **A collector reports every observation of a machine** against the last values before it: for
every sequence of observations, each call on the files that show the machine succeeds, and reports
what the machine counts. -/
theorem collect_reports (hparse : ∀ n, ops.parse (hundredths n) = some (value n)) (nodeId : String)
    (os : List Observation) :
    answers ops .new (os.map (·.call nodeId)) = (reports ops value nodeId [] os).map .ok :=
  answers_eq hparse lastValues_new os

/-! ## A machine -/

theorem toList_decimal_digit {d : ℕ} (hd : d < 10) : decimal d = [Nat.digitChar d] := by
  rw [decimal, Nat.toList_repr, Nat.toDigits_of_lt_base hd]

theorem parse_hundredths (n : ℕ) : F64.rational.parse (hundredths n) = some ((n : ℚ) / 100) := by
  have htens : n / 10 % 10 < 10 := Nat.mod_lt _ (by decide)
  have hones : n % 10 < 10 := Nat.mod_lt _ (by decide)
  have hsplit : Text.splitOnce '.' (hundredths n) =
      some (decimal (n / 100), [Nat.digitChar (n / 10 % 10), Nat.digitChar (n % 10)]) := by
    rw [hundredths, Text.splitOnce_append (not_mem_decimal (by decide) _), toList_decimal_digit htens,
      toList_decimal_digit hones]
    rfl
  have hdigits : ∀ c ∈ decimal (n / 100) ++ [Nat.digitChar (n / 10 % 10), Nat.digitChar (n % 10)],
      c.isDigit = true := by
    intro c hc
    rcases List.mem_append.mp hc with hc | hc
    · exact Decimal.isDigit_of_mem_repr hc
    · rcases List.mem_pair.mp hc with rfl | rfl
      · exact by simpa using htens
      · exact by simpa using hones
  have hnumber : Nat.ofDigitChars 10
      (decimal (n / 100) ++ [Nat.digitChar (n / 10 % 10), Nat.digitChar (n % 10)]) 0 = n := by
    rw [Nat.ofDigitChars_append, decimal, Nat.toList_repr, Nat.ofDigitChars_ten_toDigits,
      Nat.ofDigitChars_cons_digitChar_of_lt_ten htens,
      Nat.ofDigitChars_cons_digitChar_of_lt_ten hones, Nat.ofDigitChars_nil]
    omega
  dsimp only [F64.rational]
  rw [hsplit]
  dsimp only
  rw [Decimal.parseNat, if_pos ⟨by simp, List.all_eq_true.mpr hdigits⟩, hnumber]
  show some ((n : ℚ) / 10 ^ 2) = _
  norm_num

/-- A machine with a core, an ethernet device and a disk. -/
def Kernel.small (cpu : CpuJiffies) (net : NetCounters) (disk : DiskCounters) : Kernel where
  cpu := ⟨cpu, [0, 0]⟩
  cores := [(0, ⟨cpu, [0, 0]⟩)]
  coresOnce := List.nodup_singleton _
  statMore := ["intr 512".toList]
  statMoreOnOneLine := by decide
  noCpu := by decide
  memory := [⟨"MemTotal".toList, by decide, by decide, 100, true⟩,
    ⟨"MemFree".toList, by decide, by decide, 40, true⟩]
  memoryOnce := by decide
  load1 := 52
  load5 := 8
  load15 := 105
  loadMore := ["1/80".toList]
  loadMoreWords := by decide
  netHeader := ["Inter-|".toList, " face |".toList]
  netHeaderOnOneLine := by decide
  netHeaderTwo := rfl
  devices := [⟨"lo".toList, by decide, by decide, ⟨7, 7⟩, .replicate 7 0, .replicate 7 0⟩,
    ⟨"eth0".toList, by decide, by decide, net, .replicate 7 3, .replicate 7 4⟩]
  devicesOnce := show ["lo".toList, "eth0".toList].Nodup by decide
  disks := [⟨8, 0, "sda".toList, by decide, 1, 2, disk, 3, 4, 5, [0, 0, 0, 0], by decide⟩]
  tcp := ⟨"sl".toList, ["0: 22".toList], by decide, by decide, by decide⟩
  tcp6 := none
  udp := ⟨"sl".toList, [], by decide, by decide, by decide⟩
  udp6 := none
  uptime := 9050
  idle := 4500
  thermal := some [.cooling 0 "Processor".toList,
    .zone ⟨0, "cpu-thermal".toList, by decide, 45000⟩]

/-- Two observations, two seconds apart: 45 of 100 jiffies with work and 30 of waiting, and other
numbers of bytes and sectors for each direction. -/
theorem collect_reports_two_seconds :
    (answers .rational .new ([
        ⟨0, 0, .small ⟨100, 10, 20, 900, 50, 1, 2, 3⟩ ⟨5000, 700⟩ ⟨10, 40⟩, fun _ _ => 3⟩,
        ⟨2000000000, 2000, .small ⟨120, 15, 35, 925, 80, 2, 4, 5⟩ ⟨9000, 1300⟩ ⟨30, 44⟩,
          fun _ _ => 2⟩].map (Observation.call "n"))).map
      (fun answer => answer.toOption.map fun stats =>
        (stats.metrics.cpuPercent, stats.metrics.netInterfaces, stats.metrics.diskReadBytesSec,
          stats.metrics.diskWriteBytesSec)) =
      [some (0, [⟨"eth0", 0, 0, 5000, 700⟩], 0, 0),
        some (45, [⟨"eth0", 2000, 300, 9000, 1300⟩], 5120, 1024)] := by
  rw [collect_reports parse_hundredths]
  decide +kernel

end Hakuraku.Agent
