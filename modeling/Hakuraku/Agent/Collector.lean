import Hakuraku.Core.Proto
import Hakuraku.Lib.Fallible
import Hakuraku.Lib.Text
import Mathlib.Data.List.AList

/-!
# The metric collector

Reference: `pulse-agent/src/collector.rs`; `pulse-core/src/error.rs`, `CollectorError`.

`collect` reads eight groups of metrics one after the other and returns at the first error. Three of
the readers keep what they have read as the baseline of the next call, while they read: a call that
fails has stored the baselines of the readers before the failure and of the lines before it, and not
the time of the call. A reader that stores something is therefore a function on the state that keeps
its changes with an error (`EStateM`); the others return a value or an error.

What is modelled of the environment:

* a file is read as a whole, or the read fails with an I/O error; no file is read twice in a call;
* `Instant::now` is a number of nanoseconds;
* the operations of `f64` are a parameter (`F64`), and integers wrap.

The read buffer, which holds the file that was read last, is no part of the state.
-/

namespace Hakuraku.Agent

/-! ## Data -/

/-- The operations of `f64` that the collector uses. -/
structure F64 (F : Type) where
  /-- `u64 as f64`. -/
  ofU64 : UInt64 → F
  /-- `f64 as u64`. -/
  asU64 : F → UInt64
  /-- `Duration::as_secs_f64`, of nanoseconds. -/
  asSecsF64 : ℕ → F
  /-- `str::parse`. -/
  parse : List Char → Option F
  /-- `f64::max`. -/
  max : F → F → F
  div : F → F → F
  mul : F → F → F
  /-- `0.0`. -/
  zero : F
  /-- `1.0`. -/
  one : F
  /-- `100.0`. -/
  hundred : F
  /-- `0.001`. -/
  thousandth : F
  /-- A duration of a millisecond or more has at least `0.001` seconds. -/
  max_asSecsF64 : ∀ ns, 1000000 ≤ ns → max (asSecsF64 ns) thousandth = asSecsF64 ns

/-- Numbers with nine decimals, among which whole seconds and counters are exact, as they are in `f64`
up to `2 ^ 53`. -/
def F64.decimals : F64 ℕ where
  ofU64 n := n.toNat * 1000000000
  asU64 x := UInt64.ofNat (min (x / 1000000000) (2 ^ 64 - 1))
  asSecsF64 ns := ns
  parse cs := (Decimal.parseNat cs).map (· * 1000000000)
  max := Nat.max
  div x y := x * 1000000000 / y
  mul x y := x * y / 1000000000
  zero := 0
  one := 1000000000
  hundred := 100000000000
  thousandth := 1000000
  max_asSecsF64 _ h := Nat.max_eq_left h

/-- `CollectorError`; an I/O error is its text. -/
inductive CollectorError where
  | procRead (path source : String)
  | parse (path field detail : String)
deriving DecidableEq

/-- `CpuJiffies`. -/
structure CpuJiffies where
  user : UInt64
  nice : UInt64
  system : UInt64
  idle : UInt64
  iowait : UInt64
  irq : UInt64
  softirq : UInt64
  steal : UInt64
deriving DecidableEq

namespace CpuJiffies

/-- `CpuJiffies::total`. -/
def total (j : CpuJiffies) : UInt64 :=
  j.user + j.nice + j.system + j.idle + j.iowait + j.irq + j.softirq + j.steal

/-- `CpuJiffies::active`. -/
def active (j : CpuJiffies) : UInt64 := j.total - j.idle - j.iowait

end CpuJiffies

/-- `NetCounters`. -/
structure NetCounters where
  rxBytes : UInt64
  txBytes : UInt64
deriving DecidableEq

/-- `DiskCounters`. -/
structure DiskCounters where
  readSectors : UInt64
  writeSectors : UInt64
deriving DecidableEq

/-- `SystemCollector`: the baselines of the next call. -/
structure SystemCollector where
  prevCpu : Option CpuJiffies
  prevCpuPerCore : AList fun _ : UInt32 => CpuJiffies
  prevNet : AList fun _ : String => NetCounters
  prevDisk : Option DiskCounters
  /-- The `Instant` of the previous sample. -/
  prevTime : Option ℕ
deriving DecidableEq

/-- `SystemCollector::new`. -/
def SystemCollector.new : SystemCollector := ⟨none, ∅, ∅, none, none⟩

/-- `NetworkInterface`. -/
structure NetworkInterface where
  name : String
  rxBytesSec : UInt64
  txBytesSec : UInt64
  rxBytesTotal : UInt64
  txBytesTotal : UInt64
deriving DecidableEq

/-- `TemperatureSensor`. -/
structure TemperatureSensor where
  label : String
  tempMillicelsius : Int32
deriving DecidableEq

/-- The metric fields of a `NodeStats`. -/
structure Metrics (F : Type) where
  cpuPercent : F
  cpuPerCore : List F
  loadAvg1 : F
  loadAvg5 : F
  loadAvg15 : F
  memTotal : UInt64
  memUsed : UInt64
  memFree : UInt64
  memAvailable : UInt64
  memBuffers : UInt64
  memCached : UInt64
  swapTotal : UInt64
  swapUsed : UInt64
  diskReadBytesSec : UInt64
  diskWriteBytesSec : UInt64
  netInterfaces : List NetworkInterface
  tcpConnections : UInt32
  udpConnections : UInt32
  uptimeSeconds : UInt64
  temperatures : List TemperatureSensor
deriving DecidableEq

/-- An entry of `/sys/class/thermal`, with its files `type` and `temp` as far as they can be read. -/
structure ThermalEntry where
  fileName : String
  type : Option String
  temp : Option String

/-- The files that a call finds. -/
structure Files where
  /-- The content of a file, or the error of opening or reading it. -/
  read : String → Except String String
  /-- The entries of `/sys/class/thermal`, if it can be listed. -/
  thermal : Option (List ThermalEntry)

/-- Only one file can be read. -/
def Files.only (path content : String) : Files where
  read path' := if path' = path then .ok content else .error "No such file or directory (os error 2)"
  thermal := none

/-- A call of `collect`. -/
structure Call where
  nodeId : String
  /-- `Instant::now`. -/
  now : ℕ
  /-- `SystemTime::now`. -/
  timestampMs : Int64
  files : Files

/-- `u64::saturating_sub`. -/
def saturatingSub (a b : UInt64) : UInt64 := if b ≤ a then a - b else 0

theorem saturatingSub_toNat (a b : UInt64) : (saturatingSub a b).toNat = a.toNat - b.toNat := by
  rw [saturatingSub]
  split
  · rename_i hle
    exact UInt64.toNat_sub_of_le _ _ hle
  · rename_i hlt
    rw [UInt64.le_iff_toNat_le] at hlt
    rw [UInt64.toNat_zero]
    omega

/-- `read_file`. -/
def readFile (files : Files) (path : String) : Except CollectorError (List Char) :=
  match files.read path with
  | .ok content => .ok content.toList
  | .error source => .error (.procRead path source)

/-- The closure `parse` of `parse_cpu_line` and of `read_loadavg`: a field of a file. -/
def parseField {α : Type} (path detail : String) (parse : List Char → Option α)
    (word : Option (List Char)) (field : String) : Except CollectorError α :=
  match word with
  | none => .error (.parse path field "missing field")
  | some word =>
    match parse word with
    | some value => .ok value
    | none => .error (.parse path field detail)

/-! ## The readers that store nothing -/

/-- `parse_meminfo_line`. -/
def parseMeminfoLine (line : List Char) : Option (String × UInt64) := do
  let (key, rest) ← Text.splitOnce ':' line
  let valStr := Text.trim (rest.takeWhile (· ≠ ':'))
  let numStr ← (Text.words valStr).head?
  let val ← Decimal.parseU64 numStr
  some (String.ofList (Text.trim key), val)

/-- The variables of `read_meminfo`. -/
structure Meminfo where
  memTotal : UInt64 := 0
  memFree : UInt64 := 0
  memAvailable : UInt64 := 0
  buffers : UInt64 := 0
  cached : UInt64 := 0
  swapTotal : UInt64 := 0
  swapFree : UInt64 := 0

/-- A line of `/proc/meminfo`. -/
def Meminfo.readLine (info : Meminfo) (line : List Char) : Meminfo :=
  match parseMeminfoLine line with
  | none => info
  | some (key, valKb) =>
    let valBytes := valKb * 1024
    match key with
    | "MemTotal" => { info with memTotal := valBytes }
    | "MemFree" => { info with memFree := valBytes }
    | "MemAvailable" => { info with memAvailable := valBytes }
    | "Buffers" => { info with buffers := valBytes }
    | "Cached" => { info with cached := valBytes }
    | "SwapTotal" => { info with swapTotal := valBytes }
    | "SwapFree" => { info with swapFree := valBytes }
    | _ => info

/-- `mem_used`, as `read_meminfo` returns it. -/
def Meminfo.memUsed (info : Meminfo) : UInt64 :=
  saturatingSub info.memTotal (info.memFree + info.buffers + info.cached)

/-- `swap_used`, as `read_meminfo` returns it. -/
def Meminfo.swapUsed (info : Meminfo) : UInt64 := saturatingSub info.swapTotal info.swapFree

/-- `read_meminfo`. -/
def readMeminfo (files : Files) : Except CollectorError Meminfo := do
  let buf ← readFile files "/proc/meminfo"
  pure ((Text.lines buf).foldl Meminfo.readLine {})

/-- `read_loadavg`. -/
def readLoadavg {F : Type} (ops : F64 F) (files : Files) : Except CollectorError (F × F × F) := do
  let buf ← readFile files "/proc/loadavg"
  let parts := Text.words buf
  let parse := parseField "/proc/loadavg" "not a valid f64" ops.parse
  let l1 ← parse parts[0]? "load1"
  let l5 ← parse parts[1]? "load5"
  let l15 ← parse parts[2]? "load15"
  pure (l1, l5, l15)

/-- `count_connections`. -/
def countConnections (files : Files) (path : String) : Except CollectorError UInt32 := do
  let buf ← readFile files path
  let lines := ((Text.lines buf).drop 1).filter fun l => !(Text.trim l).isEmpty
  pure (UInt32.ofNat lines.length)

/-- `read_connections`. -/
def readConnections (files : Files) : Except CollectorError (UInt32 × UInt32) := do
  -- only the tables of IPv4 have to be there
  let tcp ← countConnections files "/proc/net/tcp"
  let tcp6 := (countConnections files "/proc/net/tcp6").toOption.getD 0
  let udp ← countConnections files "/proc/net/udp"
  let udp6 := (countConnections files "/proc/net/udp6").toOption.getD 0
  pure (tcp + tcp6, udp + udp6)

/-- `read_uptime`. -/
def readUptime {F : Type} (ops : F64 F) (files : Files) : Except CollectorError UInt64 := do
  let buf ← readFile files "/proc/uptime"
  match (Text.words buf).head? with
  | none => throw (.parse "/proc/uptime" "uptime" "empty file")
  | some uptimeStr =>
    match ops.parse uptimeStr with
    | none => throw (.parse "/proc/uptime" "uptime" "not a valid f64")
    | some uptime => pure (ops.asU64 uptime)

/-- The sensor of an entry of `/sys/class/thermal`. -/
def ThermalEntry.sensor (entry : ThermalEntry) : Option TemperatureSensor := do
  if !"thermal_zone".toList.isPrefixOf entry.fileName.toList then none
  let label := String.ofList (Text.trim (entry.type.getD entry.fileName).toList)
  let tempStr ← entry.temp
  let temp ← Decimal.parseI32 (Text.trim tempStr.toList)
  some ⟨label, temp⟩

/-- `read_temperatures`. -/
def readTemperatures (files : Files) : List TemperatureSensor :=
  match files.thermal with
  | none => []
  | some entries => entries.filterMap ThermalEntry.sensor

/-! ## The readers that store a baseline -/

/-- A function on the collector that may fail; what it has stored until then stays. -/
abbrev Collect (α : Type) := EStateM CollectorError SystemCollector α

/-- `parse_cpu_line`. -/
def parseCpuLine (line : List Char) : Except CollectorError CpuJiffies := do
  let parts := (Text.words line).drop 1
  let parse := parseField "/proc/stat" "not a valid u64" Decimal.parseU64
  let user ← parse parts[0]? "user"
  let nice ← parse parts[1]? "nice"
  let system ← parse parts[2]? "system"
  let idle ← parse parts[3]? "idle"
  -- the other fields count as zero if they are missing or malformed
  pure
    { user, nice, system, idle
      iowait := (parse parts[4]? "iowait").toOption.getD 0
      irq := (parse parts[5]? "irq").toOption.getD 0
      softirq := (parse parts[6]? "softirq").toOption.getD 0
      steal := (parse parts[7]? "steal").toOption.getD 0 }

section

variable {F : Type} (ops : F64 F)

/-- `compute_cpu_percent`. -/
def computeCpuPercent (prev curr : CpuJiffies) : F :=
  let totalDelta := saturatingSub curr.total prev.total
  if totalDelta = 0 then ops.zero
  else
    let activeDelta := saturatingSub curr.active prev.active
    ops.mul (ops.div (ops.ofU64 activeDelta) (ops.ofU64 totalDelta)) ops.hundred

/-- The loop of `read_cpu` over the lines, from the percentages so far. -/
def readCpuLines : List (List Char) → F → List F → Collect (F × List F)
  | [], overallPercent, perCore => pure (overallPercent, perCore)
  | line :: lines, overallPercent, perCore =>
    -- the aggregate line; the baseline is stored before the next line is parsed
    if "cpu ".toList.isPrefixOf line then do
      let jiffies ← MonadExcept.ofExcept (parseCpuLine line)
      let prevCpu := (← get).prevCpu
      modify fun c => { c with prevCpu := some jiffies }
      readCpuLines lines ((prevCpu.map (computeCpuPercent ops · jiffies)).getD overallPercent)
        perCore
    else
      match Text.stripPrefix "cpu".toList line with
      | some stripped => do
        -- a core without a readable number gets the number of cores before it
        let coreNum := ((Text.words stripped).head?.bind Decimal.parseU32).getD
          (UInt32.ofNat perCore.length)
        let jiffies ← MonadExcept.ofExcept (parseCpuLine line)
        let prev := (← get).prevCpuPerCore.lookup coreNum
        modify fun c => { c with prevCpuPerCore := c.prevCpuPerCore.insert coreNum jiffies }
        readCpuLines lines overallPercent
          (perCore ++ [(prev.map (computeCpuPercent ops · jiffies)).getD ops.zero])
      -- past all cpu lines
      | none => pure (overallPercent, perCore)

/-- `read_cpu`. -/
def readCpu (files : Files) : Collect (F × List F) := do
  let buf ← MonadExcept.ofExcept (readFile files "/proc/stat")
  readCpuLines ops (Text.lines buf) ops.zero []

/-- A line of `/proc/net/dev` with its interface and counters; `none` if the loop skips it. -/
def parseNetLine (line : List Char) : Option (String × NetCounters) := do
  let line := Text.trim line
  let (name, rest) ← Text.splitOnce ':' line
  let ifaceName := String.ofList (Text.trim name)
  if ifaceName = "lo" then none
  -- a word that is no number is dropped, so that the later ones move up
  let fields := (Text.words rest).filterMap Decimal.parseU64
  if fields.length < 10 then none
  let rxBytes ← fields[0]?
  let txBytes ← fields[8]?
  some (ifaceName, ⟨rxBytes, txBytes⟩)

/-- The interfaces that `/proc/net/dev` lists, after its two header lines. -/
def parseNetDev (buf : List Char) : List (String × NetCounters) :=
  ((Text.lines buf).drop 2).filterMap parseNetLine

/-- A difference of byte counters as a rate. -/
def rate (delta : UInt64) (elapsedSecs : F) : UInt64 :=
  ops.asU64 (ops.div (ops.ofU64 delta) elapsedSecs)

/-- What `read_net_dev` reports of an interface. -/
def netInterface (elapsedSecs : F) (prev : Option NetCounters) (name : String) (curr : NetCounters) :
    NetworkInterface :=
  { name
    rxBytesSec := (prev.map fun p => rate ops (saturatingSub curr.rxBytes p.rxBytes) elapsedSecs).getD 0
    txBytesSec := (prev.map fun p => rate ops (saturatingSub curr.txBytes p.txBytes) elapsedSecs).getD 0
    rxBytesTotal := curr.rxBytes
    txBytesTotal := curr.txBytes }

/-- The loop of `read_net_dev` over the interfaces, with the baseline it updates. -/
def readNetLines (elapsedSecs : F) : List (String × NetCounters) → (AList fun _ : String => NetCounters) →
    List NetworkInterface × AList fun _ : String => NetCounters
  | [], prevNet => ([], prevNet)
  | (name, curr) :: entries, prevNet =>
    let rest := readNetLines elapsedSecs entries (prevNet.insert name curr)
    (netInterface ops elapsedSecs (prevNet.lookup name) name curr :: rest.1, rest.2)

/-- `read_net_dev`. -/
def readNetDev (files : Files) (elapsedSecs : F) : Collect (List NetworkInterface) := do
  let buf ← MonadExcept.ofExcept (readFile files "/proc/net/dev")
  let (interfaces, prevNet) := readNetLines ops elapsedSecs (parseNetDev buf) (← get).prevNet
  modify fun c => { c with prevNet }
  pure interfaces

/-- A line of `/proc/diskstats`; `none` if the loop skips it. -/
def parseDiskLine (line : List Char) : Option DiskCounters := do
  let fields := Text.words line
  if fields.length < 14 then none
  let devName ← fields[2]?
  if "loop".toList.isPrefixOf devName || "ram".toList.isPrefixOf devName then none
  let readSectors ← fields[5]?
  let writeSectors ← fields[9]?
  some ⟨(Decimal.parseU64 readSectors).getD 0, (Decimal.parseU64 writeSectors).getD 0⟩

/-- The totals over the lines of `/proc/diskstats`. -/
def parseDiskstats (buf : List Char) : DiskCounters :=
  ((Text.lines buf).filterMap parseDiskLine).foldl
    (fun total disk =>
      ⟨total.readSectors + disk.readSectors, total.writeSectors + disk.writeSectors⟩) ⟨0, 0⟩

/-- The rates of reading and writing that `read_diskstats` returns. -/
def diskRates (elapsedSecs : F) (prev : Option DiskCounters) (curr : DiskCounters) : UInt64 × UInt64 :=
  match prev with
  | some p =>
    (rate ops (saturatingSub curr.readSectors p.readSectors * 512) elapsedSecs,
      rate ops (saturatingSub curr.writeSectors p.writeSectors * 512) elapsedSecs)
  | none => (0, 0)

/-- `read_diskstats`. -/
def readDiskstats (files : Files) (elapsedSecs : F) : Collect (UInt64 × UInt64) := do
  let buf ← MonadExcept.ofExcept (readFile files "/proc/diskstats")
  let total := parseDiskstats buf
  let prevDisk := (← get).prevDisk
  modify fun c => { c with prevDisk := some total }
  pure (diskRates ops elapsedSecs prevDisk total)

/-! ## A call -/

/-- `elapsed_secs`: the seconds since the previous sample, or one. -/
def elapsedSecs (prevTime : Option ℕ) (now : ℕ) : F :=
  ops.max ((prevTime.map fun prev => ops.asSecsF64 (now - prev)).getD ops.one) ops.thousandth

/-- `SystemCollector::collect`. -/
def collect (call : Call) : Collect (NodeStats (Metrics F)) := do
  let elapsed := elapsedSecs ops (← get).prevTime call.now
  let (cpuPercent, cpuPerCore) ← readCpu ops call.files
  let mem ← MonadExcept.ofExcept (readMeminfo call.files)
  let (load1, load5, load15) ← MonadExcept.ofExcept (readLoadavg ops call.files)
  let netInterfaces ← readNetDev ops call.files elapsed
  let (diskReadBytesSec, diskWriteBytesSec) ← readDiskstats ops call.files elapsed
  let (tcpConnections, udpConnections) ← MonadExcept.ofExcept (readConnections call.files)
  let uptimeSeconds ← MonadExcept.ofExcept (readUptime ops call.files)
  let temperatures := readTemperatures call.files
  -- only here, after all readers
  modify fun c => { c with prevTime := some call.now }
  pure ⟨call.nodeId, call.timestampMs,
    { cpuPercent, cpuPerCore
      loadAvg1 := load1, loadAvg5 := load5, loadAvg15 := load15
      memTotal := mem.memTotal, memUsed := mem.memUsed, memFree := mem.memFree
      memAvailable := mem.memAvailable, memBuffers := mem.buffers, memCached := mem.cached
      swapTotal := mem.swapTotal, swapUsed := mem.swapUsed
      diskReadBytesSec, diskWriteBytesSec, netInterfaces, tcpConnections, udpConnections
      uptimeSeconds, temperatures }⟩

/-! ## What the readers do -/

open Fallible

variable {ops}

/-- The interfaces that a call finds in `/proc/net/dev`. -/
def Files.netDev (files : Files) : List (String × NetCounters) :=
  match readFile files "/proc/net/dev" with
  | .ok buf => parseNetDev buf
  | .error _ => []

/-- The totals that a call finds in `/proc/diskstats`. -/
def Files.diskstats (files : Files) : DiskCounters :=
  match readFile files "/proc/diskstats" with
  | .ok buf => parseDiskstats buf
  | .error _ => ⟨0, 0⟩

/-- The baselines that `read_cpu` has nothing to do with. -/
def SystemCollector.other (c : SystemCollector) :
    (AList fun _ : String => NetCounters) × Option DiskCounters × Option ℕ :=
  (c.prevNet, c.prevDisk, c.prevTime)

theorem readCpuLines_frames (lines : List (List Char)) (overallPercent : F) (perCore : List F) :
    Frames SystemCollector.other (readCpuLines ops lines overallPercent perCore) := by
  induction lines generalizing overallPercent perCore with
  | nil => exact frames_pure _
  | cons line lines ih =>
    rw [readCpuLines]
    split
    · refine (frames_ofExcept _).bind fun jiffies => frames_get.bind fun c => ?_
      exact Frames.bind (frames_modify fun _ => rfl) fun _ => ih _ _
    · split
      · refine (frames_ofExcept _).bind fun jiffies => frames_get.bind fun c => ?_
        exact Frames.bind (frames_modify fun _ => rfl) fun _ => ih _ _
      · exact frames_pure _

theorem readCpu_frames (files : Files) : Frames SystemCollector.other (readCpu ops files) :=
  (frames_ofExcept _).bind fun buf => readCpuLines_frames (Text.lines buf) ops.zero []

theorem readNetDev_eq_ok {files : Files} {elapsed : F} {c c' : SystemCollector}
    {interfaces : List NetworkInterface} (h : readNetDev ops files elapsed c = .ok interfaces c') :
    interfaces = (readNetLines ops elapsed files.netDev c.prevNet).1 ∧
      c' = { c with prevNet := (readNetLines ops elapsed files.netDev c.prevNet).2 } := by
  obtain ⟨buf, c₁, hbuf, h⟩ := bind_eq_ok.mp h
  obtain ⟨hread, rfl⟩ := ofExcept_eq_ok.mp hbuf
  rw [Files.netDev, hread]
  obtain ⟨rfl, rfl⟩ := EStateM.Result.ok.inj h
  exact ⟨rfl, rfl⟩

theorem readDiskstats_eq_ok {files : Files} {elapsed : F} {c c' : SystemCollector}
    {rates : UInt64 × UInt64} (h : readDiskstats ops files elapsed c = .ok rates c') :
    rates = diskRates ops elapsed c.prevDisk files.diskstats ∧
      c' = { c with prevDisk := some files.diskstats } := by
  obtain ⟨buf, c₁, hbuf, h⟩ := bind_eq_ok.mp h
  obtain ⟨hread, rfl⟩ := ofExcept_eq_ok.mp hbuf
  rw [Files.diskstats, hread]
  obtain ⟨rfl, rfl⟩ := EStateM.Result.ok.inj h
  exact ⟨rfl, rfl⟩

/-- What a successful call reports and stores, as far as rates are concerned. -/
structure Collected (ops : F64 F) (c : SystemCollector) (call : Call)
    (stats : NodeStats (Metrics F)) (c' : SystemCollector) : Prop where
  net : (stats.metrics.netInterfaces, c'.prevNet) =
    readNetLines ops (elapsedSecs ops c.prevTime call.now) call.files.netDev c.prevNet
  disk : (stats.metrics.diskReadBytesSec, stats.metrics.diskWriteBytesSec) =
    diskRates ops (elapsedSecs ops c.prevTime call.now) c.prevDisk call.files.diskstats
  prevDisk : c'.prevDisk = some call.files.diskstats
  prevTime : c'.prevTime = some call.now

/-- **A successful call** rates the counters against the baselines it has found and stores the
counters as the new ones. -/
theorem collected_of_ok {c c' : SystemCollector} {call : Call} {stats : NodeStats (Metrics F)}
    (h : collect ops call c = .ok stats c') : Collected ops c call stats c' := by
  obtain ⟨_, _, hget, h⟩ := bind_eq_ok.mp h
  obtain ⟨rfl, rfl⟩ := EStateM.Result.ok.inj hget
  obtain ⟨cpu, c₁, hcpu, h⟩ := bind_eq_ok.mp h
  obtain ⟨mem, _, hmem, h⟩ := bind_eq_ok.mp h
  obtain ⟨-, rfl⟩ := ofExcept_eq_ok.mp hmem
  obtain ⟨loads, _, hloads, h⟩ := bind_eq_ok.mp h
  obtain ⟨-, rfl⟩ := ofExcept_eq_ok.mp hloads
  obtain ⟨interfaces, c₂, hnet, h⟩ := bind_eq_ok.mp h
  obtain ⟨rates, c₃, hdisk, h⟩ := bind_eq_ok.mp h
  obtain ⟨connections, _, hconnections, h⟩ := bind_eq_ok.mp h
  obtain ⟨-, rfl⟩ := ofExcept_eq_ok.mp hconnections
  obtain ⟨uptime, _, huptime, h⟩ := bind_eq_ok.mp h
  obtain ⟨-, rfl⟩ := ofExcept_eq_ok.mp huptime
  obtain ⟨rfl, rfl⟩ := EStateM.Result.ok.inj h
  -- the rates are against what was stored before the call, since `read_cpu` keeps away from it
  have hother := (readCpu_frames call.files).of_ok hcpu
  obtain ⟨hprevNet, hprevDisk, -⟩ : c₁.prevNet = c.prevNet ∧ c₁.prevDisk = c.prevDisk ∧ _ := by
    simpa [SystemCollector.other] using hother
  obtain ⟨rfl, rfl⟩ := readNetDev_eq_ok hnet
  obtain ⟨hrates, rfl⟩ := readDiskstats_eq_ok hdisk
  refine ⟨?_, ?_, rfl, rfl⟩
  · rw [← hprevNet]
  · rw [← hprevDisk]
    exact hrates

/-! ## When a call succeeds -/

/-- The lines that `read_cpu` parses. -/
def cpuLines (lines : List (List Char)) : List (List Char) :=
  lines.takeWhile fun line => "cpu".toList.isPrefixOf line

/-- `/proc/stat` can be read, and its first lines can be parsed. -/
def Files.statParses (files : Files) : Bool :=
  match readFile files "/proc/stat" with
  | .ok buf => (cpuLines (Text.lines buf)).all fun line => (parseCpuLine line).isOk
  | .error _ => false

variable (ops) in
/-- Every file that a call needs can be read and parsed. -/
def Files.complete (files : Files) : Bool :=
  files.statParses && (readMeminfo files).isOk && (readLoadavg ops files).isOk &&
    (readFile files "/proc/net/dev").isOk && (readFile files "/proc/diskstats").isOk &&
    (readConnections files).isOk && (readUptime ops files).isOk

theorem succeeds_readCpuLines (lines : List (List Char)) (overallPercent : F) (perCore : List F)
    (c : SystemCollector) :
    Succeeds (readCpuLines ops lines overallPercent perCore) c ↔
      (cpuLines lines).all (fun line => (parseCpuLine line).isOk) = true := by
  induction lines generalizing overallPercent perCore c with
  | nil => exact iff_of_true (succeeds_pure _ _) rfl
  | cons line lines ih =>
    have hparse : "cpu".toList.isPrefixOf line = true →
        ((cpuLines (line :: lines)).all (fun line => (parseCpuLine line).isOk) = true ↔
          (parseCpuLine line).isOk = true ∧
            (cpuLines lines).all (fun line => (parseCpuLine line).isOk) = true) := fun hcpu => by
      rw [cpuLines, List.takeWhile_cons_of_pos hcpu, List.all_cons, Bool.and_eq_true]
      rfl
    rw [readCpuLines]
    split
    · rename_i hcpu
      -- a line of the aggregate starts like one of a core
      have hcpu' : "cpu".toList.isPrefixOf line = true :=
        List.isPrefixOf_iff_prefix.mpr
          (.trans ⟨[' '], rfl⟩ (List.isPrefixOf_iff_prefix.mp hcpu))
      rw [hparse hcpu']
      exact succeeds_ofExcept_bind fun jiffies => ih _ _ _
    · split
      · rename_i stripped hstripped
        rw [Text.stripPrefix, Option.ite_none_right_eq_some] at hstripped
        rw [hparse hstripped.1]
        exact succeeds_ofExcept_bind fun jiffies => ih _ _ _
      · rename_i hstripped
        have hcpu : ¬ "cpu".toList.isPrefixOf line = true := fun hcpu => by
          rw [Text.stripPrefix, if_pos hcpu] at hstripped
          cases hstripped
        refine iff_of_true (succeeds_pure _ _) ?_
        rw [cpuLines, List.takeWhile_cons_of_neg hcpu]
        rfl

theorem succeeds_readCpu (files : Files) (c : SystemCollector) :
    Succeeds (readCpu ops files) c ↔ files.statParses = true := by
  rw [Files.statParses]
  cases hread : readFile files "/proc/stat" with
  | ok buf =>
    rw [readCpu, hread]
    exact succeeds_readCpuLines (Text.lines buf) ops.zero [] c
  | error e =>
    rw [readCpu, hread]
    exact iff_of_false (fun ⟨_, _, h⟩ => nomatch h) Bool.false_ne_true

theorem succeeds_readNetDev (files : Files) (elapsed : F) (c : SystemCollector) :
    Succeeds (readNetDev ops files elapsed) c ↔ (readFile files "/proc/net/dev").isOk = true := by
  refine Iff.trans ?_ (and_iff_left trivial)
  exact succeeds_ofExcept_bind fun _ => iff_of_true ⟨_, _, rfl⟩ trivial

theorem succeeds_readDiskstats (files : Files) (elapsed : F) (c : SystemCollector) :
    Succeeds (readDiskstats ops files elapsed) c ↔ (readFile files "/proc/diskstats").isOk = true := by
  refine Iff.trans ?_ (and_iff_left trivial)
  exact succeeds_ofExcept_bind fun _ => iff_of_true ⟨_, _, rfl⟩ trivial

variable (ops) in
/-- **A call succeeds exactly if every file it needs can be read and parsed.** -/
theorem succeeds_collect (call : Call) (c : SystemCollector) :
    Succeeds (collect ops call) c ↔ call.files.complete ops = true := by
  have hchain : Succeeds (collect ops call) c ↔ call.files.statParses = true ∧
      (readMeminfo call.files).isOk = true ∧ (readLoadavg ops call.files).isOk = true ∧
      (readFile call.files "/proc/net/dev").isOk = true ∧
      (readFile call.files "/proc/diskstats").isOk = true ∧
      (readConnections call.files).isOk = true ∧ (readUptime ops call.files).isOk = true ∧ True := by
    refine (succeeds_bind (x := readCpu ops call.files) fun cpu c₁ _ => ?_).trans
      (and_congr_left' (succeeds_readCpu call.files c))
    refine succeeds_ofExcept_bind fun mem => succeeds_ofExcept_bind fun loads => ?_
    refine (succeeds_bind fun interfaces c₂ _ => ?_).trans
      (and_congr_left' (succeeds_readNetDev call.files _ c₁))
    refine (succeeds_bind fun rates c₃ _ => ?_).trans
      (and_congr_left' (succeeds_readDiskstats call.files _ c₂))
    refine succeeds_ofExcept_bind fun connections => succeeds_ofExcept_bind fun uptime => ?_
    exact iff_of_true ⟨_, _, rfl⟩ trivial
  rw [hchain, Files.complete]
  simp only [Bool.and_eq_true, and_assoc, and_true]

/-- `/proc/stat` cannot be read, or its first line is one of a cpu and cannot be parsed. -/
def Files.failsFirst (files : Files) : Bool :=
  match readFile files "/proc/stat" with
  | .ok buf =>
    match Text.lines buf with
    | line :: _ => "cpu".toList.isPrefixOf line && !(parseCpuLine line).isOk
    | [] => false
  | .error _ => true

variable (ops) in
/-- A call that fails there has stored nothing. -/
theorem collect_of_failsFirst {call : Call} (h : call.files.failsFirst = true)
    (c : SystemCollector) : ∃ e, collect ops call c = .error e c := by
  have hcpu : ∃ e, readCpu ops call.files c = .error e c := by
    rw [Files.failsFirst] at h
    cases hread : readFile call.files "/proc/stat" with
    | error e =>
      rw [readCpu, hread]
      exact ⟨e, rfl⟩
    | ok buf =>
      rw [hread] at h
      rw [readCpu, hread, bind_of_ok (ofExcept_ok buf c)]
      cases hlines : Text.lines buf with
      | nil => simp [hlines] at h
      | cons line lines =>
        simp only [hlines, Bool.and_eq_true, Bool.not_eq_true'] at h
        obtain ⟨hstarts, hparse⟩ := h
        cases hline : parseCpuLine line with
        | ok jiffies => simp [hline, Except.isOk, Except.toBool] at hparse
        | error e =>
          refine ⟨e, ?_⟩
          rw [readCpuLines, hline]
          split
          · rfl
          · rw [Text.stripPrefix, if_pos hstarts]
            rfl
  obtain ⟨e, hcpu⟩ := hcpu
  exact ⟨e, bind_of_error hcpu _⟩

end

end Hakuraku.Agent
