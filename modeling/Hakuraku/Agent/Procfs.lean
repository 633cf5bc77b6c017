import Hakuraku.Agent.Memory
import Hakuraku.Lib.Columns
import Mathlib.Data.List.TakeWhile

/-!
# The files of the kernel

Reference: `proc(5)` as far as `pulse-agent/src/collector.rs` relies on it.

`Kernel` is what a machine counts, and `Kernel.files` are the files that show it: tables whose columns
are as wide as they like (`pad`). The readers of `Agent.Collector` get back the numbers from these
files, whatever else is in them: further lines and columns, the loopback interface, loop and ram
devices, cooling devices.
-/

namespace Hakuraku.Agent

open Fallible Text

/-! ## Counters -/

/-- The times of a processor, and the further ones that the collector leaves out. -/
structure CpuTimes where
  jiffies : CpuJiffies
  more : List UInt64

/-- An entry of `/proc/meminfo`. -/
structure MemoryEntry where
  key : List Char
  isWord : IsWord key
  noColon : ':' ∉ key
  /-- The number, in kB or without a unit. -/
  number : UInt64
  inKb : Bool

/-- A network device. -/
structure NetDevice where
  name : List Char
  isWord : IsWord name
  noColon : ':' ∉ name
  counters : NetCounters
  /-- The other counters of the received packets. -/
  rxMore : Vector UInt64 7
  /-- The other counters of the sent packets. -/
  txMore : Vector UInt64 7

/-- A block device. -/
structure BlockDevice where
  major : ℕ
  minor : ℕ
  name : List Char
  isWord : IsWord name
  reads : UInt64
  readsMerged : UInt64
  counters : DiskCounters
  readMs : UInt64
  writes : UInt64
  writesMerged : UInt64
  /-- The counters after the sectors written, of which there are four or more. -/
  more : List UInt64
  four_le : 4 ≤ more.length

/-- A table of sockets. -/
structure SocketTable where
  header : List Char
  sockets : List (List Char)
  headerOnOneLine : OnOneLine header
  onOneLine : ∀ socket ∈ sockets, OnOneLine socket
  notBlank : ∀ socket ∈ sockets, trim socket ≠ []

/-- A thermal zone. -/
structure ThermalZone where
  number : ℕ
  type : List Char
  trimmed : Trimmed type
  millicelsius : Int32

/-- A device in `/sys/class/thermal`. -/
inductive ThermalDevice where
  | zone (zone : ThermalZone)
  | cooling (number : ℕ) (type : List Char)

/-- What a machine counts. -/
structure Kernel where
  cpu : CpuTimes
  cores : List (UInt32 × CpuTimes)
  coresOnce : (cores.map (·.1)).Nodup
  /-- The lines of `/proc/stat` after those of the processors. -/
  statMore : List (List Char)
  statMoreOnOneLine : ∀ line ∈ statMore, OnOneLine line
  noCpu : ∀ line ∈ statMore, "cpu".toList.isPrefixOf line = false
  memory : List MemoryEntry
  memoryOnce : (memory.map (·.key)).Nodup
  /-- The load averages, in hundredths. -/
  load1 : ℕ
  load5 : ℕ
  load15 : ℕ
  loadMore : List (List Char)
  loadMoreWords : ∀ w ∈ loadMore, IsWord w
  netHeader : List (List Char)
  netHeaderOnOneLine : ∀ line ∈ netHeader, OnOneLine line
  netHeaderTwo : netHeader.length = 2
  devices : List NetDevice
  devicesOnce : (devices.map (·.name)).Nodup
  disks : List BlockDevice
  tcp : SocketTable
  tcp6 : Option SocketTable
  udp : SocketTable
  udp6 : Option SocketTable
  /-- The seconds since the start, in hundredths. -/
  uptime : ℕ
  idle : ℕ
  thermal : Option (List ThermalDevice)

/-! ## Files -/

/-- A number in decimal. -/
def decimal (n : ℕ) : List Char := n.repr.toList

/-- A number with two decimals. -/
def hundredths (n : ℕ) : List Char :=
  decimal (n / 100) ++ '.' :: (decimal (n / 10 % 10) ++ decimal (n % 10))

/-- How the columns of a file are padded. -/
abbrev Padding := ℕ → List Char → ℕ

variable (pad : Padding)

/-- The columns of some numbers. -/
def CpuTimes.words (t : CpuTimes) : List (List Char) :=
  [t.jiffies.user, t.jiffies.nice, t.jiffies.system, t.jiffies.idle, t.jiffies.iowait, t.jiffies.irq,
    t.jiffies.softirq, t.jiffies.steal].map (decimal ·.toNat) ++ t.more.map (decimal ·.toNat)

/-- A line of `/proc/stat`. -/
def CpuTimes.line (label : List Char) (t : CpuTimes) : List Char :=
  label ++ columns (padded pad t.words)

/-- The label of a core. -/
def coreLabel (n : UInt32) : List Char := "cpu".toList ++ decimal n.toNat

def Kernel.stat (k : Kernel) : List (List Char) :=
  k.cpu.line pad "cpu".toList ::
    (k.cores.map fun core => core.2.line pad (coreLabel core.1)) ++ k.statMore

def MemoryEntry.words (e : MemoryEntry) : List (List Char) :=
  decimal e.number.toNat :: if e.inKb then ["kB".toList] else []

/-- A line of `/proc/meminfo`. -/
def MemoryEntry.line (e : MemoryEntry) : List Char := e.key ++ ':' :: columns (padded pad e.words)

def Kernel.loadavg (k : Kernel) : List Char :=
  hundredths k.load1 ++
    columns (padded pad (hundredths k.load5 :: hundredths k.load15 :: k.loadMore))

def NetDevice.words (d : NetDevice) : List (List Char) :=
  (d.counters.rxBytes :: d.rxMore.toList ++ d.counters.txBytes :: d.txMore.toList).map
    (decimal ·.toNat)

/-- A line of `/proc/net/dev`. -/
def NetDevice.line (d : NetDevice) : List Char :=
  blanks (pad 0 d.name) ++ (d.name ++ ':' :: columns (padded pad d.words))

def BlockDevice.words (d : BlockDevice) : List (List Char) :=
  [decimal d.minor, d.name] ++
    ([d.reads, d.readsMerged, d.counters.readSectors, d.readMs, d.writes, d.writesMerged,
      d.counters.writeSectors] ++ d.more).map (decimal ·.toNat)

/-- A line of `/proc/diskstats`. -/
def BlockDevice.line (d : BlockDevice) : List Char :=
  blanks (pad 0 (decimal d.major)) ++ (decimal d.major ++ columns (padded pad d.words))

/-- A file that shows a table of sockets. -/
def SocketTable.file (t : SocketTable) : List Char := ended (t.header :: t.sockets)

/-- The entry of a device in `/sys/class/thermal`. -/
def ThermalDevice.entry : ThermalDevice → ThermalEntry
  | zone z =>
    { fileName := "thermal_zone" ++ z.number.repr
      type := some (String.ofList (z.type ++ ['\n']))
      temp := some (toString z.millicelsius.toInt ++ "\n") }
  | cooling number type =>
    { fileName := "cooling_device" ++ number.repr
      type := some (String.ofList (type ++ ['\n']))
      temp := none }

/-- The file at a path, if there is one. -/
def Kernel.file (k : Kernel) : String → Option (List Char)
  | "/proc/stat" => some (ended (k.stat pad))
  | "/proc/meminfo" => some (ended (k.memory.map (·.line pad)))
  | "/proc/loadavg" => some (ended [k.loadavg pad])
  | "/proc/net/dev" => some (ended (k.netHeader ++ k.devices.map (·.line pad)))
  | "/proc/diskstats" => some (ended (k.disks.map (·.line pad)))
  | "/proc/net/tcp" => some k.tcp.file
  | "/proc/net/tcp6" => k.tcp6.map (·.file)
  | "/proc/net/udp" => some k.udp.file
  | "/proc/net/udp6" => k.udp6.map (·.file)
  | "/proc/uptime" => some (ended [hundredths k.uptime ++ columns (padded pad [hundredths k.idle])])
  | _ => none

/-- The files of a machine. -/
def Kernel.files (k : Kernel) : Files where
  read path :=
    match k.file pad path with
    | some content => .ok (String.ofList content)
    | none => .error "No such file or directory (os error 2)"
  thermal := k.thermal.map (·.map ThermalDevice.entry)

/-! ## Words and lines -/

variable {pad}

theorem onOneLine_colon : OnOneLine [':'] := by decide

theorem isWord_decimal (n : ℕ) : IsWord (decimal n) := Decimal.isWord_repr n

theorem isWord_of_mem_decimals {ns : List UInt64} {w : List Char}
    (h : w ∈ ns.map (decimal ·.toNat)) : IsWord w := by
  obtain ⟨n, -, rfl⟩ := List.mem_map.mp h
  exact isWord_decimal _

theorem CpuTimes.isWord_of_mem_words {t : CpuTimes} {w : List Char} (h : w ∈ t.words) :
    IsWord w := (List.mem_append.mp h).elim isWord_of_mem_decimals isWord_of_mem_decimals

theorem CpuTimes.words_line {t : CpuTimes} {label : List Char} (hlabel : IsWord label) :
    Text.words (t.line pad label) = label :: t.words := by
  have hcols : ∀ col ∈ padded pad t.words, IsWord col.2 := fun col hcol =>
    isWord_of_mem_padded (fun _ => CpuTimes.isWord_of_mem_words) hcol
  exact (words_append_columns hlabel hcols 0).trans (by rw [map_padded])

theorem CpuTimes.onOneLine_line {t : CpuTimes} {label : List Char} (hlabel : IsWord label) :
    OnOneLine (t.line pad label) :=
  hlabel.onOneLine.append (onOneLine_columns fun _ hcol =>
    isWord_of_mem_padded (fun _ => CpuTimes.isWord_of_mem_words) hcol)

/-! ## `/proc/stat` -/

theorem parseField_some {α : Type} {path detail field : String} {parse : List Char → Option α}
    {w : List Char} {value : α} (h : parse w = some value) :
    parseField path detail parse (some w) field = .ok value := by
  rw [parseField, h]

theorem parseCpuLine_line {t : CpuTimes} {label : List Char} (hlabel : IsWord label) :
    parseCpuLine (t.line pad label) = .ok t.jiffies := by
  have hfield : ∀ (n : UInt64) field, parseField "/proc/stat" "not a valid u64" Decimal.parseU64
      (some (decimal n.toNat)) field = .ok n := fun n _ => parseField_some (Decimal.parseU64_repr n)
  rw [parseCpuLine, CpuTimes.words_line hlabel, CpuTimes.words]
  simp only [List.drop_succ_cons, List.drop_zero, List.map_cons, List.map_nil, List.cons_append,
    List.getElem?_cons_zero, List.getElem?_cons_succ, hfield]
  rfl

theorem isWord_cpu : IsWord "cpu".toList := by decide

theorem isWord_coreLabel (n : UInt32) : IsWord (coreLabel n) := by
  refine ⟨by simp [coreLabel], fun c hc => ?_⟩
  exact (List.mem_append.mp hc).elim (isWord_cpu.2 c) ((isWord_decimal _).2 c)

section Cpu

variable {F : Type} {ops : F64 F} {lines : List (List Char)} {overallPercent : F} {perCore : List F}
  {c : SystemCollector} {t : CpuTimes}

/-- The line of the aggregate is rated against its baseline and replaces it. -/
theorem readCpuLines_cpu :
    readCpuLines ops (t.line pad "cpu".toList :: lines) overallPercent perCore c =
      readCpuLines ops lines
        ((c.prevCpu.map (computeCpuPercent ops · t.jiffies)).getD overallPercent) perCore
        { c with prevCpu := some t.jiffies } := by
  have hblank : "cpu ".toList.isPrefixOf (t.line pad "cpu".toList) = true := by
    rw [CpuTimes.line, CpuTimes.words, List.map_cons, List.cons_append, columns_padded_cons]
    rfl
  rw [readCpuLines, if_pos hblank, parseCpuLine_line isWord_cpu]
  rfl

/-- The line of a core is rated against the baseline of the core and replaces it. -/
theorem readCpuLines_core {n : UInt32} :
    readCpuLines ops (t.line pad (coreLabel n) :: lines) overallPercent perCore c =
      readCpuLines ops lines overallPercent
        (perCore ++ [((c.prevCpuPerCore.lookup n).map (computeCpuPercent ops · t.jiffies)).getD
          ops.zero])
        { c with prevCpuPerCore := c.prevCpuPerCore.insert n t.jiffies } := by
  have hline : t.line pad (coreLabel n) =
      "cpu".toList ++ (decimal n.toNat ++ columns (padded pad t.words)) :=
    List.append_assoc ..
  have hblank : ¬ "cpu ".toList.isPrefixOf (t.line pad (coreLabel n)) = true := by
    obtain ⟨d, ds, hd⟩ := List.exists_cons_of_ne_nil (isWord_decimal n.toNat).1
    have hws := (isWord_decimal n.toNat).2 d (by simp [hd])
    rw [hline, hd]
    rintro h
    obtain rfl : ' ' = d := by simpa [List.isPrefixOf] using h
    exact absurd hws (by decide)
  have hnum : (Text.words (decimal n.toNat ++ columns (padded pad t.words))).head?.bind
      Decimal.parseU32 = some n := by
    rw [← CpuTimes.line, CpuTimes.words_line (isWord_decimal _)]
    exact Decimal.parseU32_repr n
  rw [readCpuLines, if_neg hblank, parseCpuLine_line (isWord_coreLabel n), hline, stripPrefix_append]
  dsimp only
  rw [hnum]
  rfl

/-- The baselines after the lines of some cores. -/
def storeCores (cores : List (UInt32 × CpuTimes)) (prev : AList fun _ : UInt32 => CpuJiffies) :
    AList fun _ : UInt32 => CpuJiffies :=
  cores.foldl (fun prev core => prev.insert core.1 core.2.jiffies) prev

theorem readCpuLines_cores {cores : List (UInt32 × CpuTimes)} (honce : (cores.map (·.1)).Nodup)
    (hlines : ∀ line ∈ lines, "cpu".toList.isPrefixOf line = false) :
    readCpuLines ops (cores.map (fun core => core.2.line pad (coreLabel core.1)) ++ lines)
        overallPercent perCore c =
      .ok (overallPercent, perCore ++ cores.map fun core =>
          ((c.prevCpuPerCore.lookup core.1).map (computeCpuPercent ops · core.2.jiffies)).getD
            ops.zero)
        { c with prevCpuPerCore := storeCores cores c.prevCpuPerCore } := by
  induction cores generalizing perCore c with
  | nil =>
    rw [List.map_nil, List.map_nil, List.nil_append, List.append_nil]
    cases lines with
    | nil => rfl
    | cons line lines =>
      have hcpu : ¬ "cpu".toList.isPrefixOf line = true := by
        rw [hlines line List.mem_cons_self]
        exact Bool.false_ne_true
      have hblank : ¬ "cpu ".toList.isPrefixOf line = true := fun h => hcpu <|
        List.isPrefixOf_iff_prefix.mpr (.trans ⟨[' '], rfl⟩ (List.isPrefixOf_iff_prefix.mp h))
      rw [readCpuLines, if_neg hblank, stripPrefix, if_neg hcpu]
      rfl
  | cons core cores ih =>
    obtain ⟨hnotin, honce⟩ := List.nodup_cons.mp honce
    rw [List.map_cons, List.cons_append, readCpuLines_core, ih honce, List.map_cons,
      List.append_assoc, List.singleton_append]
    -- the cores that follow have other numbers
    have hothers : ∀ core' ∈ cores, (c.prevCpuPerCore.insert core.1 core.2.jiffies).lookup core'.1 =
        c.prevCpuPerCore.lookup core'.1 := fun core' hcore' =>
      AList.lookup_insert_ne fun heq => hnotin (List.mem_map.mpr ⟨core', hcore', heq⟩)
    rw [List.map_congr_left fun core' hcore' => by rw [hothers core' hcore']]
    rfl

end Cpu

theorem readFile_files {k : Kernel} {path : String} {content : List Char}
    (h : k.file pad path = some content) : readFile (k.files pad) path = .ok content := by
  have hread : (k.files pad).read path = .ok (String.ofList content) := by
    show (match k.file pad path with
      | some content => Except.ok (String.ofList content)
      | none => .error _) = _
    rw [h]
  rw [readFile, hread]
  exact congrArg Except.ok String.toList_ofList

theorem onOneLine_stat {k : Kernel} {line : List Char} (h : line ∈ k.stat pad) :
    OnOneLine line := by
  rcases List.mem_cons.mp h with rfl | h
  · exact CpuTimes.onOneLine_line isWord_cpu
  · rcases List.mem_append.mp h with h | h
    · obtain ⟨core, -, rfl⟩ := List.mem_map.mp h
      exact CpuTimes.onOneLine_line (isWord_coreLabel _)
    · exact k.statMoreOnOneLine line h

/-- **`read_cpu` rates the processors against their baselines** and stores their times. -/
theorem readCpu_files {F : Type} (ops : F64 F) (k : Kernel) (c : SystemCollector) :
    readCpu ops (k.files pad) c =
      .ok ((c.prevCpu.map (computeCpuPercent ops · k.cpu.jiffies)).getD ops.zero,
          k.cores.map fun core =>
            ((c.prevCpuPerCore.lookup core.1).map (computeCpuPercent ops · core.2.jiffies)).getD
              ops.zero)
        { c with
          prevCpu := some k.cpu.jiffies, prevCpuPerCore := storeCores k.cores c.prevCpuPerCore } := by
  have hread : readFile (k.files pad) "/proc/stat" = .ok (ended (k.stat pad)) := readFile_files rfl
  have hlines : Text.lines (ended (k.stat pad)) = k.stat pad :=
    lines_ended fun _ => onOneLine_stat
  have hrun : readCpu ops (k.files pad) c =
      readCpuLines ops (Text.lines (ended (k.stat pad))) ops.zero [] c := by
    rw [readCpu, hread]
    rfl
  rw [hrun, hlines, Kernel.stat, List.cons_append, readCpuLines_cpu,
    readCpuLines_cores k.coresOnce k.noCpu]
  rfl

/-! ## `/proc/meminfo` -/

theorem MemoryEntry.isWord_of_mem_words {e : MemoryEntry} {w : List Char} (h : w ∈ e.words) :
    IsWord w := by
  rcases List.mem_cons.mp h with rfl | h
  · exact isWord_decimal _
  · cases hunit : e.inKb with
    | false => simp [hunit] at h
    | true =>
      obtain rfl : w = "kB".toList := by simpa [hunit] using h
      decide

theorem not_mem_columns {d : Char} {cols : List (ℕ × List Char)} (hd : d ≠ ' ')
    (hcols : ∀ col ∈ cols, d ∉ col.2) : d ∉ columns cols := by
  induction cols with
  | nil => exact List.not_mem_nil
  | cons col cols ih =>
    obtain ⟨hcol, hcols⟩ := List.forall_mem_cons.mp hcols
    have hblanks : d ∉ blanks col.1 := fun h => hd (List.eq_of_mem_replicate h)
    simpa [columns, hd, hcol, ih hcols] using hblanks

theorem not_mem_decimal {d : Char} (hd : d.isDigit = false) (n : ℕ) : d ∉ decimal n := fun h => by
  rw [Decimal.isDigit_of_mem_repr h] at hd
  cases hd

theorem mem_padded {ws : List (List Char)} {col : ℕ × List Char} (h : col ∈ padded pad ws) :
    col.2 ∈ ws := by
  rw [← map_padded pad ws]
  exact List.mem_map_of_mem h

/-- The words of a text in columns are those of its trimmed text. -/
theorem words_trim_columns {ws : List (List Char)} (hws : ∀ w ∈ ws, IsWord w) :
    Text.words (trim (columns (padded pad ws))) = ws := by
  cases ws with
  | nil => rfl
  | cons w ws =>
    obtain ⟨hw, hws⟩ := List.forall_mem_cons.mp hws
    have hcols : ∀ col ∈ padded (fun i => pad (i + 1)) ws, IsWord col.2 := fun col hcol =>
      isWord_of_mem_padded hws hcol
    have hblanks : columns (padded pad (w :: ws)) =
        blanks (pad 0 w + 1) ++ (w ++ columns (padded (fun i => pad (i + 1)) ws)) :=
      columns_padded_cons pad w ws
    rw [hblanks, trim_blanks_append (trimmed_append_columns hw hcols)]
    exact (words_append_columns hw hcols 0).trans (by rw [map_padded])

theorem MemoryEntry.parse_line (e : MemoryEntry) :
    parseMeminfoLine (e.line pad) = some (String.ofList e.key, e.number) := by
  have hrest : ':' ∉ columns (padded pad e.words) := by
    refine not_mem_columns (by decide) fun col hcol => ?_
    rcases List.mem_cons.mp (mem_padded hcol) with heq | hmem
    · exact heq ▸ not_mem_decimal (by decide) _
    · cases hunit : e.inKb with
      | false => simp [hunit] at hmem
      | true =>
        rw [hunit, if_pos rfl, List.mem_singleton] at hmem
        exact hmem ▸ by decide
  have hwhole : (columns (padded pad e.words)).takeWhile (fun c => decide (c ≠ ':')) =
      columns (padded pad e.words) :=
    List.takeWhile_eq_self_iff.mpr fun c hc => decide_eq_true fun heq => hrest (heq ▸ hc)
  rw [parseMeminfoLine, MemoryEntry.line, splitOnce_append e.noColon, Option.bind_eq_bind,
    Option.bind_some]
  dsimp only
  rw [hwhole, words_trim_columns fun _ => MemoryEntry.isWord_of_mem_words,
    trim_of_trimmed e.isWord.trimmed]
  show (Decimal.parseU64 (decimal e.number.toNat)).bind _ = _
  rw [decimal, Decimal.parseU64_repr]
  rfl

/-- The bytes of an entry of `/proc/meminfo`. -/
def Kernel.bytes (k : Kernel) (key : MeminfoKey) : UInt64 :=
  ((k.memory.find? fun e => String.ofList e.key = key.name).map (·.number * 1024)).getD 0

/-- The number of a key that comes once. -/
theorem MeminfoKey.numbers_lines (key : MeminfoKey) {memory : List MemoryEntry}
    (honce : (memory.map (·.key)).Nodup) :
    (key.numbers (memory.map (·.line pad))).getLast? =
      (memory.find? fun e => String.ofList e.key = key.name).map (·.number) := by
  have hnumber : key.numberIn ∘ (·.line pad) = fun e : MemoryEntry =>
      if String.ofList e.key = key.name then some e.number else none := funext fun e => by
    rw [Function.comp_apply, MeminfoKey.numberIn, MemoryEntry.parse_line]
  rw [MeminfoKey.numbers, List.filterMap_map, hnumber]
  induction memory with
  | nil => rfl
  | cons e memory ih =>
    obtain ⟨hnotin, honce⟩ := List.nodup_cons.mp honce
    by_cases hkey : String.ofList e.key = key.name
    · -- no later entry has the key
      have hnone : memory.filterMap (fun e : MemoryEntry =>
          if String.ofList e.key = key.name then some e.number else none) = [] := by
        refine List.filterMap_eq_nil_iff.mpr fun e' he' => if_neg fun hkey' => hnotin ?_
        have heq : e.key = e'.key := String.ofList_injective (hkey.trans hkey'.symm)
        exact List.mem_map.mpr ⟨e', he', heq.symm⟩
      simp [hkey, hnone]
    · rw [List.filterMap_cons, if_neg hkey, List.find?_cons_of_neg (by simpa using hkey)]
      exact ih honce

/-- The numbers of the seven keys. -/
def Kernel.meminfo (k : Kernel) : Meminfo where
  memTotal := k.bytes .memTotal
  memFree := k.bytes .memFree
  memAvailable := k.bytes .memAvailable
  buffers := k.bytes .buffers
  cached := k.bytes .cached
  swapTotal := k.bytes .swapTotal
  swapFree := k.bytes .swapFree

/-- **`read_meminfo` gets the bytes of the seven keys.** -/
theorem readMeminfo_files (k : Kernel) : readMeminfo (k.files pad) = .ok k.meminfo := by
  have hread : readFile (k.files pad) "/proc/meminfo" = .ok (ended (k.memory.map (·.line pad))) :=
    readFile_files rfl
  have hlines : Text.lines (ended (k.memory.map (·.line pad))) = k.memory.map (·.line pad) := by
    refine lines_ended fun line hline => ?_
    obtain ⟨e, -, rfl⟩ := List.mem_map.mp hline
    exact e.isWord.onOneLine.append (onOneLine_colon.append (onOneLine_columns fun col hcol =>
      MemoryEntry.isWord_of_mem_words (mem_padded hcol)))
  have hinfo : (k.memory.map (·.line pad)).foldl Meminfo.readLine {} = k.meminfo :=
    Meminfo.ext_get fun key => by
      rw [Meminfo.foldl_readLine_get, key.numbers_lines k.memoryOnce, Option.map_map]
      cases key <;> rfl
  rw [readMeminfo, hread, ok_bind, hlines, hinfo]
  rfl

/-! ## `/proc/loadavg` and `/proc/uptime` -/

theorem isWord_hundredths (n : ℕ) : IsWord (hundredths n) := by
  refine ⟨by simp [hundredths], fun c hc => ?_⟩
  rcases List.mem_append.mp hc with hc | hc
  · exact (isWord_decimal _).2 c hc
  · rcases List.mem_cons.mp hc with rfl | hc
    · decide
    · exact (List.mem_append.mp hc).elim ((isWord_decimal _).2 c) ((isWord_decimal _).2 c)

/-- The words of a file of one line. -/
theorem words_ended_line {w : List Char} {ws : List (List Char)} (hw : IsWord w)
    (hws : ∀ w ∈ ws, IsWord w) :
    Text.words (ended [w ++ columns (padded pad ws)]) = w :: ws := by
  have hcols : ∀ col ∈ padded pad ws, IsWord col.2 := fun col hcol => hws _ (mem_padded hcol)
  have hended : ended [w ++ columns (padded pad ws)] = (w ++ columns (padded pad ws)) ++ ['\n'] := by
    simp [ended]
  rw [hended, words_concat (by decide)]
  exact (words_append_columns hw hcols 0).trans (by rw [map_padded])

section Decimals

variable {F : Type} {ops : F64 F} {value : ℕ → F}
  (hparse : ∀ n, ops.parse (hundredths n) = some (value n))

include hparse

theorem readLoadavg_files (k : Kernel) :
    readLoadavg ops (k.files pad) = .ok (value k.load1, value k.load5, value k.load15) := by
  have hread : readFile (k.files pad) "/proc/loadavg" = .ok (ended [k.loadavg pad]) :=
    readFile_files rfl
  have hwords : Text.words (ended [k.loadavg pad]) =
      hundredths k.load1 :: hundredths k.load5 :: hundredths k.load15 :: k.loadMore := by
    refine words_ended_line (isWord_hundredths _) fun w hw => ?_
    rcases List.mem_cons.mp hw with rfl | hw
    · exact isWord_hundredths _
    · rcases List.mem_cons.mp hw with rfl | hw
      · exact isWord_hundredths _
      · exact k.loadMoreWords w hw
  have hfield : ∀ n field, parseField "/proc/loadavg" "not a valid f64" ops.parse
      (some (hundredths n)) field = .ok (value n) := fun n _ => parseField_some (hparse n)
  rw [readLoadavg, hread, ok_bind, hwords]
  simp only [List.getElem?_cons_zero, List.getElem?_cons_succ, hfield, ok_bind]
  rfl

theorem readUptime_files (k : Kernel) :
    readUptime ops (k.files pad) = .ok (ops.asU64 (value k.uptime)) := by
  have hread : readFile (k.files pad) "/proc/uptime" =
      .ok (ended [hundredths k.uptime ++ columns (padded pad [hundredths k.idle])]) :=
    readFile_files rfl
  have hwords : (Text.words (ended [hundredths k.uptime ++
      columns (padded pad [hundredths k.idle])])).head? = some (hundredths k.uptime) := by
    rw [words_ended_line (isWord_hundredths _) fun w hw =>
      (List.mem_singleton.mp hw) ▸ isWord_hundredths _]
    rfl
  rw [readUptime, hread, ok_bind, hwords]
  dsimp only
  rw [hparse]
  rfl

end Decimals

/-! ## `/proc/net/dev` -/

theorem filterMap_parseU64 (ns : List UInt64) :
    (ns.map (decimal ·.toNat)).filterMap Decimal.parseU64 = ns := by
  rw [List.filterMap_map]
  have hparse : Decimal.parseU64 ∘ (decimal ·.toNat) = some := funext Decimal.parseU64_repr
  rw [hparse, List.filterMap_some]

/-- A line with a device; the loopback interface is left out. -/
theorem NetDevice.parse_line (d : NetDevice) :
    parseNetLine (d.line pad) =
      if String.ofList d.name = "lo" then none else some (String.ofList d.name, d.counters) := by
  have hwords : ∀ w ∈ d.words, IsWord w := fun _ => isWord_of_mem_decimals
  have hcols : ∀ col ∈ padded pad d.words, IsWord col.2 := fun col hcol =>
    hwords _ (mem_padded hcol)
  have htrim : trim (d.line pad) = d.name ++ ':' :: columns (padded pad d.words) := by
    refine trim_blanks_append ?_ _
    have hlast : d.name ++ ':' :: columns (padded pad d.words) =
        (d.name ++ [':']) ++ columns (padded pad d.words) := by simp
    rw [hlast]
    refine trimmed_append_columns ⟨by simp, fun c hc => ?_⟩ hcols
    rcases List.mem_append.mp hc with hc | hc
    · exact d.isWord.2 c hc
    · obtain rfl := List.mem_singleton.mp hc
      decide
  have hfields : (Text.words (columns (padded pad d.words))).filterMap Decimal.parseU64 =
      d.counters.rxBytes :: d.rxMore.toList ++ d.counters.txBytes :: d.txMore.toList := by
    rw [words_columns hcols, map_padded, NetDevice.words, filterMap_parseU64]
  have hlength : ¬ (d.counters.rxBytes :: d.rxMore.toList ++
      d.counters.txBytes :: d.txMore.toList).length < 10 := by simp
  have htx : (d.counters.rxBytes :: d.rxMore.toList ++
      d.counters.txBytes :: d.txMore.toList)[8]? = some d.counters.txBytes := by
    rw [List.getElem?_append_right (by simp)]
    simp
  rw [parseNetLine, htrim, splitOnce_append d.noColon, Option.bind_eq_bind, Option.bind_some]
  dsimp only
  rw [trim_of_trimmed d.isWord.trimmed, hfields]
  split
  · rfl
  · rw [htx]
    rfl

/-- The devices that are reported. -/
def Kernel.interfaces (k : Kernel) : List (String × NetCounters) :=
  (k.devices.map fun d => (String.ofList d.name, d.counters)).filter (·.1 ≠ "lo")

/-- **`read_net_dev` finds the devices but the loopback interface.** -/
theorem netDev_files (k : Kernel) : (k.files pad).netDev = k.interfaces := by
  have hread : readFile (k.files pad) "/proc/net/dev" =
      .ok (ended (k.netHeader ++ k.devices.map (·.line pad))) := readFile_files rfl
  have hlines : Text.lines (ended (k.netHeader ++ k.devices.map (·.line pad))) =
      k.netHeader ++ k.devices.map (·.line pad) := by
    refine lines_ended fun line hline => ?_
    rcases List.mem_append.mp hline with hline | hline
    · exact k.netHeaderOnOneLine line hline
    · obtain ⟨d, -, rfl⟩ := List.mem_map.mp hline
      exact (onOneLine_blanks _).append (d.isWord.onOneLine.append (onOneLine_colon.append
        (onOneLine_columns fun col hcol => isWord_of_mem_decimals (mem_padded hcol))))
  have hparse : parseNetLine ∘ (·.line pad) = fun d : NetDevice =>
      if String.ofList d.name = "lo" then none else some (String.ofList d.name, d.counters) :=
    funext fun d => d.parse_line
  rw [Files.netDev, hread]
  show parseNetDev _ = _
  rw [parseNetDev, hlines, List.drop_left' k.netHeaderTwo, List.filterMap_map, hparse,
    Kernel.interfaces, List.filter_map, ← List.filterMap_eq_filter, List.map_filterMap]
  refine List.filterMap_congr fun d _ => ?_
  by_cases hlo : String.ofList d.name = "lo" <;> simp [hlo]

/-! ## `/proc/diskstats` -/

/-- A block device that is counted: no loop or ram device. -/
def BlockDevice.counted (d : BlockDevice) : Bool :=
  !("loop".toList.isPrefixOf d.name || "ram".toList.isPrefixOf d.name)

theorem BlockDevice.isWord_of_mem_words {d : BlockDevice} {w : List Char} (h : w ∈ d.words) :
    IsWord w := by
  rcases List.mem_append.mp h with h | h
  · rcases List.mem_cons.mp h with rfl | h
    · exact isWord_decimal _
    · exact (List.mem_singleton.mp h) ▸ d.isWord
  · exact isWord_of_mem_decimals h

theorem BlockDevice.parse_line (d : BlockDevice) :
    parseDiskLine (d.line pad) = if d.counted = true then some d.counters else none := by
  have hcols : ∀ col ∈ padded pad d.words, IsWord col.2 := fun col hcol =>
    BlockDevice.isWord_of_mem_words (mem_padded hcol)
  have hwords : Text.words (d.line pad) = decimal d.major :: d.words := by
    rw [BlockDevice.line, words_append_columns (isWord_decimal _) hcols, map_padded]
  have hlength : ¬ (decimal d.major :: d.words).length < 14 := by
    have hmore := d.four_le
    simp only [BlockDevice.words, List.length_cons, List.length_append, List.length_map,
      List.length_nil]
    omega
  rw [parseDiskLine, hwords, if_neg hlength, BlockDevice.words]
  simp only [List.cons_append, List.nil_append, List.map_cons, List.getElem?_cons_zero,
    List.getElem?_cons_succ, Option.bind_eq_bind, Option.bind_some]
  by_cases hleft : ("loop".toList.isPrefixOf d.name || "ram".toList.isPrefixOf d.name) = true
  · have hcounted : ¬ d.counted = true := by
      rw [BlockDevice.counted, hleft]
      exact Bool.false_ne_true
    rw [if_pos hleft, if_neg hcounted]
    rfl
  · have hcounted : d.counted = true := by
      rw [BlockDevice.counted, Bool.eq_false_iff.mpr hleft]
      rfl
    rw [if_neg hleft, if_pos hcounted, decimal, decimal, Decimal.parseU64_repr,
      Decimal.parseU64_repr]
    rfl

/-- The sectors of the devices that are counted, which wrap around together. -/
def Kernel.sectors (k : Kernel) : DiskCounters :=
  ((k.disks.filter (·.counted)).map (·.counters)).foldl
    (fun total disk =>
      ⟨total.readSectors + disk.readSectors, total.writeSectors + disk.writeSectors⟩) ⟨0, 0⟩

/-- **`read_diskstats` adds up the devices but loop and ram devices.** -/
theorem diskstats_files (k : Kernel) : (k.files pad).diskstats = k.sectors := by
  have hread : readFile (k.files pad) "/proc/diskstats" =
      .ok (ended (k.disks.map (·.line pad))) := readFile_files rfl
  have hlines : Text.lines (ended (k.disks.map (·.line pad))) = k.disks.map (·.line pad) := by
    refine lines_ended fun line hline => ?_
    obtain ⟨d, -, rfl⟩ := List.mem_map.mp hline
    exact (onOneLine_blanks _).append ((isWord_decimal _).onOneLine.append
      (onOneLine_columns fun col hcol => BlockDevice.isWord_of_mem_words (mem_padded hcol)))
  have hparse : parseDiskLine ∘ (·.line pad) = fun d : BlockDevice =>
      if d.counted = true then some d.counters else none := funext fun d => d.parse_line
  rw [Files.diskstats, hread]
  show parseDiskstats _ = _
  rw [parseDiskstats, hlines, List.filterMap_map, hparse, Kernel.sectors]
  refine congrArg (List.foldl _ _) ?_
  rw [← List.filterMap_eq_filter, List.map_filterMap]
  refine List.filterMap_congr fun d _ => ?_
  by_cases hcounted : d.counted = true <;> simp [hcounted, Option.guard]

/-! ## Sockets and temperatures -/

/-- The number of sockets of a table. -/
def SocketTable.count (t : SocketTable) : UInt32 := UInt32.ofNat t.sockets.length

theorem countConnections_files {k : Kernel} {path : String} {t : SocketTable}
    (h : k.file pad path = some t.file) : countConnections (k.files pad) path = .ok t.count := by
  have hlines : Text.lines t.file = t.header :: t.sockets :=
    lines_ended (List.forall_mem_cons.mpr ⟨t.headerOnOneLine, t.onOneLine⟩)
  have hkeep : t.sockets.filter (fun l => !(trim l).isEmpty) = t.sockets :=
    List.filter_eq_self.mpr fun l hl => by simpa using t.notBlank l hl
  rw [countConnections, readFile_files h, ok_bind, hlines, List.drop_succ_cons, List.drop_zero,
    hkeep]
  rfl

theorem countConnections_missing {k : Kernel} {path : String} (h : k.file pad path = none) :
    ∃ e, countConnections (k.files pad) path = .error e := by
  have hread : (k.files pad).read path = .error "No such file or directory (os error 2)" := by
    show (match k.file pad path with
      | some content => Except.ok (String.ofList content)
      | none => .error _) = _
    rw [h]
  rw [countConnections, readFile, hread]
  exact ⟨_, rfl⟩

/-- The sockets of a table that need not be there. -/
def countOf (t : Option SocketTable) : UInt32 := (t.map SocketTable.count).getD 0

theorem countConnections_optional {k : Kernel} {path : String} {t : Option SocketTable}
    (h : k.file pad path = t.map (·.file)) :
    (countConnections (k.files pad) path).toOption.getD 0 = countOf t := by
  cases t with
  | none =>
    obtain ⟨e, hcount⟩ := countConnections_missing h
    rw [hcount]
    rfl
  | some t =>
    rw [countConnections_files h]
    rfl

theorem readConnections_files (k : Kernel) : readConnections (k.files pad) =
    .ok (k.tcp.count + countOf k.tcp6, k.udp.count + countOf k.udp6) := by
  have htcp : countConnections (k.files pad) "/proc/net/tcp" = .ok k.tcp.count :=
    countConnections_files rfl
  have hudp : countConnections (k.files pad) "/proc/net/udp" = .ok k.udp.count :=
    countConnections_files rfl
  have htcp6 : (countConnections (k.files pad) "/proc/net/tcp6").toOption.getD 0 =
      countOf k.tcp6 := countConnections_optional rfl
  have hudp6 : (countConnections (k.files pad) "/proc/net/udp6").toOption.getD 0 =
      countOf k.udp6 := countConnections_optional rfl
  rw [readConnections, htcp, hudp, htcp6, hudp6]
  rfl

/-- What is reported of a device in `/sys/class/thermal`. -/
def ThermalDevice.sensor : ThermalDevice → Option TemperatureSensor
  | zone z => some ⟨String.ofList z.type, z.millicelsius⟩
  | cooling _ _ => none

theorem ThermalDevice.sensor_entry (device : ThermalDevice) :
    device.entry.sensor = device.sensor := by
  cases device with
  | cooling number type =>
    have hname :
        "thermal_zone".toList.isPrefixOf ("cooling_device" ++ number.repr).toList = false := by
      rw [String.toList_append]
      rfl
    rw [ThermalEntry.sensor, entry, hname]
    rfl
  | zone z =>
    have hname :
        "thermal_zone".toList.isPrefixOf ("thermal_zone" ++ z.number.repr).toList = true := by
      rw [String.toList_append]
      exact List.isPrefixOf_iff_prefix.mpr (List.prefix_append _ _)
    have htemp : trim (toString z.millicelsius.toInt ++ "\n").toList =
        (toString z.millicelsius.toInt).toList := by
      rw [String.toList_append]
      exact trim_concat_newline
        ⟨fun c hc => Decimal.whiteSpace_of_mem_toString (List.mem_of_head? hc),
          fun c hc => Decimal.whiteSpace_of_mem_toString (List.mem_of_getLast? hc)⟩
    have hparse : Decimal.parseI32 (toString z.millicelsius.toInt).toList = some z.millicelsius := by
      rw [Decimal.parseI32, Decimal.parseInt_toString, Option.bind_eq_bind, Option.bind_some, if_pos]
      · simp
      · exact ⟨z.millicelsius.le_toInt, z.millicelsius.toInt_lt⟩
    rw [ThermalEntry.sensor, entry, hname]
    simp only [Bool.not_true, Bool.false_eq_true, if_false, Option.bind_eq_bind, Option.bind_some,
      Option.getD_some, String.toList_ofList, htemp, hparse, trim_concat_newline z.trimmed]
    rfl

/-- What is reported of the thermal devices. -/
def Kernel.temperatures (k : Kernel) : List TemperatureSensor :=
  (k.thermal.getD []).filterMap ThermalDevice.sensor

theorem readTemperatures_files (k : Kernel) :
    readTemperatures (k.files pad) = k.temperatures := by
  have hsensors : ∀ devices : List ThermalDevice,
      (devices.map ThermalDevice.entry).filterMap ThermalEntry.sensor =
        devices.filterMap ThermalDevice.sensor := by
    intro devices
    have hentry : ThermalEntry.sensor ∘ ThermalDevice.entry = ThermalDevice.sensor :=
      funext ThermalDevice.sensor_entry
    rw [List.filterMap_map, hentry]
  rw [readTemperatures, Kernel.temperatures, Kernel.files]
  cases k.thermal with
  | none => rfl
  | some devices => exact hsensors devices

end Hakuraku.Agent
