import Hakuraku.Agent.Collector
import Hakuraku.Lib.Sums

/-!
# What the disk totals count

Reference: `pulse-agent/src/collector.rs`, `read_diskstats`.

`read_diskstats` adds up the sectors of all lines but those of `loop` and `ram` devices and keeps the
two totals only. The comment in the loop speaks of leaving out partitions, which the loop does not do:
a partition counts like a disk. And since the totals do not tell the devices apart, what a new device
has done in its life counts as done in the interval, and a device that is gone hides what the others
have done. `read_net_dev`, which keeps the counters of each interface, does neither.

The totals wrap. `Io` is the direction, so that everything is said of both at once.
-/

namespace Hakuraku.Agent

/-- A direction of transfer. -/
inductive Io where
  | read
  | write
deriving DecidableEq

/-- The counter of a direction. -/
def DiskCounters.sectors (d : DiskCounters) : Io → UInt64
  | .read => d.readSectors
  | .write => d.writeSectors

theorem DiskCounters.ext_sectors {d d' : DiskCounters} :
    d = d' ↔ ∀ io, (d.sectors io).toNat = (d'.sectors io).toNat := by
  constructor
  · rintro rfl io
    rfl
  · intro h
    cases d
    cases d'
    rw [DiskCounters.mk.injEq]
    exact ⟨UInt64.toNat_inj.mp (h .read), UInt64.toNat_inj.mp (h .write)⟩

/-! ## The totals -/

/-- The disks that are counted. -/
def countedDisks (lines : List (List Char)) : List DiskCounters := lines.filterMap parseDiskLine

/-- What the lines have in total, without wrapping. -/
def totalSectors (io : Io) (lines : List (List Char)) : ℕ :=
  ((countedDisks lines).map fun d => (d.sectors io).toNat).sum

/-- **The totals are the sums, up to wrapping.** -/
theorem parseDiskstats_sectors (buf : List Char) (io : Io) :
    ((parseDiskstats buf).sectors io).toNat = totalSectors io (Text.lines buf) % 2 ^ 64 := by
  have hfold : ∀ (disks : List DiskCounters) (total : DiskCounters),
      ((disks.foldl (fun total disk => (⟨total.readSectors + disk.readSectors,
        total.writeSectors + disk.writeSectors⟩ : DiskCounters)) total).sectors io).toNat =
        ((total.sectors io).toNat + (disks.map fun d => (d.sectors io).toNat).sum) % 2 ^ 64 := by
    intro disks
    induction disks with
    | nil =>
      intro total
      exact (Nat.mod_eq_of_lt (total.sectors io).toNat_lt).symm
    | cons disk disks ih =>
      intro total
      have hadd : ((⟨total.readSectors + disk.readSectors, total.writeSectors + disk.writeSectors⟩ :
          DiskCounters).sectors io).toNat =
            ((total.sectors io).toNat + (disk.sectors io).toNat) % 2 ^ 64 := by
        cases io <;> exact UInt64.toNat_add _ _
      rw [List.foldl_cons, ih, hadd, List.map_cons, List.sum_cons, Nat.mod_add_mod, Nat.add_assoc]
  refine (hfold _ ⟨0, 0⟩).trans ?_
  have hzero : ((⟨0, 0⟩ : DiskCounters).sectors io).toNat = 0 := by cases io <;> rfl
  rw [hzero, Nat.zero_add]
  rfl

/-! ## Partitions -/

/-- A line of a partition: the name of the disk and a number. -/
def IsPartitionOf (disk line : List Char) : Prop :=
  14 ≤ (Text.words line).length ∧ ∃ digits, digits ≠ [] ∧ (∀ c ∈ digits, c.isDigit = true) ∧
    (Text.words line)[2]? = some (disk ++ digits)

/-- The devices that `read_diskstats` leaves out. -/
def isLeftOut (name : List Char) : Bool :=
  "loop".toList.isPrefixOf name || "ram".toList.isPrefixOf name

/-- The counter in a line, as far as it is a number. -/
def lineSectors (line : List Char) : Io → ℕ
  | .read => (((Text.words line)[5]?.bind Decimal.parseU64).getD 0).toNat
  | .write => (((Text.words line)[9]?.bind Decimal.parseU64).getD 0).toNat

/-- What becomes of a line with enough fields. -/
theorem parseDiskLine_eq {line name : List Char} (hlength : 14 ≤ (Text.words line).length)
    (hname : (Text.words line)[2]? = some name) :
    (isLeftOut name = true ∧ parseDiskLine line = none) ∨
      (isLeftOut name = false ∧ ∃ d, parseDiskLine line = some d ∧
        ∀ io, (d.sectors io).toNat = lineSectors line io) := by
  obtain ⟨r, hr⟩ : ∃ r, (Text.words line)[5]? = some r :=
    ⟨_, List.getElem?_eq_getElem (by omega)⟩
  obtain ⟨w, hw⟩ : ∃ w, (Text.words line)[9]? = some w :=
    ⟨_, List.getElem?_eq_getElem (by omega)⟩
  have hparse : parseDiskLine line = if isLeftOut name = true then none else
      some ⟨(Decimal.parseU64 r).getD 0, (Decimal.parseU64 w).getD 0⟩ := by
    rw [parseDiskLine]
    simp only [hname, hr, hw, if_neg (Nat.not_lt.mpr hlength), Option.bind_eq_bind, Option.bind_some]
    rw [isLeftOut]
    split <;> rfl
  cases hleft : isLeftOut name with
  | true =>
    rw [hparse, if_pos hleft]
    exact .inl ⟨rfl, rfl⟩
  | false =>
    rw [hparse, if_neg (by rw [hleft]; decide)]
    refine .inr ⟨rfl, _, rfl, fun io => ?_⟩
    cases io
    · rw [lineSectors, hr]
      rfl
    · rw [lineSectors, hw]
      rfl

/-- A name does not start with letters that only digits behind it could give it. -/
theorem isPrefixOf_append_digits {letters disk digits : List Char}
    (hletters : ∀ c ∈ letters, c.isDigit = false) (hdigits : ∀ c ∈ digits, c.isDigit = true) :
    letters.isPrefixOf (disk ++ digits) = letters.isPrefixOf disk := by
  rw [Bool.eq_iff_iff, List.isPrefixOf_iff_prefix, List.isPrefixOf_iff_prefix]
  refine ⟨fun h => ?_, fun h => h.trans (List.prefix_append disk digits)⟩
  rcases List.prefix_or_prefix_of_prefix h (List.prefix_append disk digits) with hdisk | ⟨rest, rfl⟩
  · exact hdisk
  · cases rest with
    | nil => rw [List.append_nil]
    | cons c rest =>
      have hc : c ∈ digits := ((List.prefix_append_right_inj disk).mp h).subset List.mem_cons_self
      have hdigit := hdigits c hc
      rw [hletters c (by simp)] at hdigit
      cases hdigit

/-- A partition is left out like its disk. -/
theorem isLeftOut_append_digits {disk digits : List Char}
    (hdigits : ∀ c ∈ digits, c.isDigit = true) : isLeftOut (disk ++ digits) = isLeftOut disk := by
  rw [isLeftOut, isLeftOut, isPrefixOf_append_digits (by simp) hdigits,
    isPrefixOf_append_digits (by simp) hdigits]

/-- What the lines of partitions add to the totals. -/
theorem totalSectors_partitions {disk : List Char} {partitions : List (List Char)}
    (h : ∀ line ∈ partitions, IsPartitionOf disk line) (io : Io) :
    totalSectors io partitions =
      if isLeftOut disk = true then 0 else (partitions.map (lineSectors · io)).sum := by
  induction partitions with
  | nil => exact (ite_self 0).symm
  | cons line partitions ih =>
    rw [List.forall_mem_cons] at h
    obtain ⟨hlength, digits, -, hdigits, hname⟩ := h.1
    have hrest := ih h.2
    rw [totalSectors, countedDisks] at hrest ⊢
    rcases parseDiskLine_eq hlength hname with ⟨hleft, hparse⟩ | ⟨hleft, d, hparse, hsectors⟩
    · rw [isLeftOut_append_digits hdigits] at hleft
      rw [if_pos hleft] at hrest ⊢
      rw [List.filterMap_cons_none hparse, hrest]
    · rw [isLeftOut_append_digits hdigits] at hleft
      have hcounted : ¬ isLeftOut disk = true := by rw [hleft]; decide
      rw [if_neg hcounted] at hrest ⊢
      rw [List.filterMap_cons_some hparse, List.map_cons, List.sum_cons, hrest, hsectors, List.map_cons,
        List.sum_cons]

/-- **When partitions do not change the totals.** Lines of partitions of a disk that are put anywhere
into a listing leave the totals alone exactly if the disk is left out, or their counters add up to
nothing, for reading as for writing. -/
theorem parseDiskstats_partitions {buf buf' disk : List Char} {partitions : List (List Char)}
    (hlines : (Text.lines buf').Perm (Text.lines buf ++ partitions))
    (hpartitions : ∀ line ∈ partitions, IsPartitionOf disk line) :
    parseDiskstats buf' = parseDiskstats buf ↔
      isLeftOut disk = true ∨ ∀ io, 2 ^ 64 ∣ (partitions.map (lineSectors · io)).sum := by
  have htotal : ∀ io, totalSectors io (Text.lines buf') =
      totalSectors io (Text.lines buf) + totalSectors io partitions := by
    intro io
    have hsum := ((hlines.filterMap parseDiskLine).map fun d => (d.sectors io).toNat).sum_eq
    rwa [List.filterMap_append, List.map_append, List.sum_append] at hsum
  have hiff : ∀ io, ((parseDiskstats buf').sectors io).toNat = ((parseDiskstats buf).sectors io).toNat ↔
      isLeftOut disk = true ∨ 2 ^ 64 ∣ (partitions.map (lineSectors · io)).sum := by
    intro io
    rw [parseDiskstats_sectors, parseDiskstats_sectors, htotal, totalSectors_partitions hpartitions]
    cases isLeftOut disk with
    | true => simp
    | false =>
      simp only [Bool.false_eq_true, if_false, false_or]
      omega
  rw [DiskCounters.ext_sectors, forall_congr' hiff]
  exact forall_or_left

/-- A partition with no transfers changes nothing. -/
theorem parseDiskstats_idle_partition :
    IsPartitionOf "sda".toList "8 1 sda1 0 0 0 0 0 0 0 0 0 0 0".toList ∧
      parseDiskstats "8 1 sda1 0 0 0 0 0 0 0 0 0 0 0\n8 0 sda 9 0 72 4 5 0 40 2 0 3 6\n".toList =
        parseDiskstats "8 0 sda 9 0 72 4 5 0 40 2 0 3 6\n".toList := by
  have hpartition : IsPartitionOf "sda".toList "8 1 sda1 0 0 0 0 0 0 0 0 0 0 0".toList :=
    ⟨by decide +kernel, ['1'], by decide, by simp, by decide +kernel⟩
  have hlines : (Text.lines
      "8 1 sda1 0 0 0 0 0 0 0 0 0 0 0\n8 0 sda 9 0 72 4 5 0 40 2 0 3 6\n".toList).Perm
        (Text.lines "8 0 sda 9 0 72 4 5 0 40 2 0 3 6\n".toList ++
          ["8 1 sda1 0 0 0 0 0 0 0 0 0 0 0".toList]) := by
    decide +kernel
  have hpartitions := List.forall_mem_singleton.mpr hpartition
  refine ⟨hpartition, (parseDiskstats_partitions hlines hpartitions).mpr (.inr fun io => ?_)⟩
  cases io <;> decide +kernel

/-- A disk and its partition, through which all of its transfers went, have twice the sectors. -/
theorem partition_counts_twice :
    IsPartitionOf "sda".toList "8 1 sda1 9 0 72 4 5 0 40 2 0 3 6".toList ∧
      parseDiskstats "8 0 sda 9 0 72 4 5 0 40 2 0 3 6\n".toList = ⟨72, 40⟩ ∧
      parseDiskstats
        "8 0 sda 9 0 72 4 5 0 40 2 0 3 6\n8 1 sda1 9 0 72 4 5 0 40 2 0 3 6\n".toList = ⟨144, 80⟩ :=
  ⟨⟨by decide +kernel, ['1'], by decide, by simp, by decide +kernel⟩, by decide +kernel,
    by decide +kernel⟩

/-! ## Devices that come and go -/

/-- A line with the name of its device; `none` if the loop skips it. -/
def diskEntry (line : List Char) : Option (List Char × DiskCounters) :=
  (parseDiskLine line).map fun d => ((Text.words line)[2]?.getD [], d)

/-- The devices that are counted. -/
def devices (lines : List (List Char)) : Finset (List Char) :=
  ((lines.filterMap diskEntry).map (·.1)).toFinset

/-- The counter of a device: what its line says, or its lines together. -/
def deviceSectors (io : Io) (lines : List (List Char)) (name : List Char) : ℕ :=
  (((lines.filterMap diskEntry).filter (·.1 = name)).map fun e => (e.2.sectors io).toNat).sum

section

variable (io : Io) (prev curr : List (List Char))

/-- The lifetime totals of the devices that have appeared. -/
def appeared : ℕ := ∑ name ∈ devices curr \ devices prev, deviceSectors io curr name

/-- The last counters of the devices that have disappeared. -/
def disappeared : ℕ := ∑ name ∈ devices prev \ devices curr, deviceSectors io prev name

/-- The increases of the counters of the other devices. -/
def increased : ℕ :=
  ∑ name ∈ devices prev ∩ devices curr, (deviceSectors io curr name - deviceSectors io prev name)

/-- The decreases of the counters of the other devices. -/
def decreased : ℕ :=
  ∑ name ∈ devices prev ∩ devices curr, (deviceSectors io prev name - deviceSectors io curr name)

/-- The total is that of the devices. -/
theorem totalSectors_eq_sum (lines : List (List Char)) :
    totalSectors io lines = ∑ name ∈ devices lines, deviceSectors io lines name := by
  have hentries : countedDisks lines = (lines.filterMap diskEntry).map (·.2) := by
    rw [List.map_filterMap, countedDisks]
    congr 1
    funext line
    rw [diskEntry, Option.map_map]
    exact Option.map_id'.symm
  rw [totalSectors, hentries, List.map_map]
  exact Sums.sum_map_eq_sum_keys (·.1)
    (fun e : List Char × DiskCounters => (e.2.sectors io).toNat) (lines.filterMap diskEntry)

theorem totalSectors_books :
    totalSectors io curr + disappeared io prev curr + decreased io prev curr =
      totalSectors io prev + appeared io prev curr + increased io prev curr := by
  rw [totalSectors_eq_sum, totalSectors_eq_sum]
  exact Sums.sum_add_sum_sdiff_add_sum_inter (devices prev) (devices curr) _ _

end

/-- The difference of sectors that `read_diskstats` divides by the time. -/
def sectorDelta (io : Io) (prev curr : DiskCounters) : UInt64 :=
  saturatingSub (curr.sectors io) (prev.sectors io)

/-- What the devices that come and go, and those that start again, take from the difference is what
they add to it. A total that has wrapped has lost `2 ^ 64`. -/
def Balanced (io : Io) (prev curr : List (List Char)) : Prop :=
  appeared io prev curr + 2 ^ 64 * (totalSectors io prev / 2 ^ 64) =
      disappeared io prev curr + decreased io prev curr + 2 ^ 64 * (totalSectors io curr / 2 ^ 64) ∨
    increased io prev curr = 0 ∧
      appeared io prev curr + 2 ^ 64 * (totalSectors io prev / 2 ^ 64) ≤
        disappeared io prev curr + decreased io prev curr + 2 ^ 64 * (totalSectors io curr / 2 ^ 64)

theorem sectorDelta_eq_increased_iff {io : Io} {prev curr : DiskCounters}
    {lines lines' : List (List Char)}
    (hprev : (prev.sectors io).toNat = totalSectors io lines % 2 ^ 64)
    (hcurr : (curr.sectors io).toNat = totalSectors io lines' % 2 ^ 64) :
    (sectorDelta io prev curr).toNat = increased io lines lines' ↔ Balanced io lines lines' := by
  have hbooks := totalSectors_books io lines lines'
  have hdiv := Nat.div_add_mod (totalSectors io lines) (2 ^ 64)
  have hdiv' := Nat.div_add_mod (totalSectors io lines') (2 ^ 64)
  rw [sectorDelta, saturatingSub_toNat, hprev, hcurr, Balanced]
  -- the totals enter with what is left of them and how often they have wrapped
  generalize totalSectors io lines % 2 ^ 64 = m at *
  generalize totalSectors io lines' % 2 ^ 64 = m' at *
  generalize 2 ^ 64 * (totalSectors io lines / 2 ^ 64) = w at *
  generalize 2 ^ 64 * (totalSectors io lines' / 2 ^ 64) = w' at *
  omega

/-- The lines of `/proc/diskstats`. -/
def Files.diskLines (files : Files) : List (List Char) :=
  match readFile files "/proc/diskstats" with
  | .ok buf => Text.lines buf
  | .error _ => []

theorem diskstats_sectors (files : Files) (io : Io) :
    (files.diskstats.sectors io).toNat = totalSectors io files.diskLines % 2 ^ 64 := by
  rw [Files.diskstats, Files.diskLines]
  cases readFile files "/proc/diskstats" with
  | ok buf => exact parseDiskstats_sectors buf io
  | error e => cases io <;> rfl

/-- **When the disk rates count what was done in the interval.** Of two samples of `read_diskstats`
with no other in between, the second reports the rates of the differences of the totals. Reading or
writing, the difference is the sum of the increases of the devices that both list exactly if what
appears balances what disappears. -/
theorem disk_deltas_balanced {F : Type} {ops : F64 F} {files files' : Files} {elapsed elapsed' : F}
    {c₀ c₁ c₂ c₃ : SystemCollector} {rates rates' : UInt64 × UInt64}
    (h : readDiskstats ops files elapsed c₀ = .ok rates c₁) (hbetween : c₂.prevDisk = c₁.prevDisk)
    (h' : readDiskstats ops files' elapsed' c₂ = .ok rates' c₃) :
    rates' = (rate ops (sectorDelta .read files.diskstats files'.diskstats * 512) elapsed',
        rate ops (sectorDelta .write files.diskstats files'.diskstats * 512) elapsed') ∧
      ∀ io, (sectorDelta io files.diskstats files'.diskstats).toNat =
          increased io files.diskLines files'.diskLines ↔
        Balanced io files.diskLines files'.diskLines := by
  obtain ⟨-, rfl⟩ := readDiskstats_eq_ok h
  obtain ⟨hrates, -⟩ := readDiskstats_eq_ok h'
  rw [hbetween] at hrates
  exact ⟨hrates, fun io => sectorDelta_eq_increased_iff (diskstats_sectors files io)
    (diskstats_sectors files' io)⟩

/-- One disk that goes on. -/
theorem disk_deltas_balanced_of_one :
    let files : Files := .only "/proc/diskstats" "8 0 sda 9 0 72 4 5 0 40 2 0 3 6\n"
    let files' : Files := .only "/proc/diskstats" "8 0 sda 9 0 80 4 5 0 41 2 0 3 6\n"
    ∃ c₁ c₂ rates rates', readDiskstats .decimals files 1000000000 .new = .ok rates c₁ ∧
      readDiskstats .decimals files' 1000000000 c₁ = .ok rates' c₂ ∧ rates' = (4096, 512) ∧
      ∀ io, (sectorDelta io files.diskstats files'.diskstats).toNat =
          increased io files.diskLines files'.diskLines ↔
        Balanced io files.diskLines files'.diskLines := by
  intro files files'
  have hfirst : readDiskstats .decimals files 1000000000 .new =
      .ok (0, 0) { SystemCollector.new with prevDisk := some files.diskstats } := rfl
  have hsecond : readDiskstats .decimals files' 1000000000
      { SystemCollector.new with prevDisk := some files.diskstats } =
        .ok (diskRates .decimals 1000000000 (some files.diskstats) files'.diskstats)
          { SystemCollector.new with prevDisk := some files'.diskstats } := rfl
  refine ⟨_, _, _, _, hfirst, hsecond, by decide +kernel, ?_⟩
  exact (disk_deltas_balanced hfirst rfl hsecond).2

/-- When a second disk appears, all it has ever read counts as read in the interval; when it is gone,
it hides what the first one has read. -/
theorem new_disk_counts_lifetime :
    let one : Files := .only "/proc/diskstats" "8 0 sda 9 0 72 4 5 0 40 2 0 3 6\n"
    let two : Files := .only "/proc/diskstats"
      "8 0 sda 9 0 80 4 5 0 40 2 0 3 6\n8 16 sdb 9 0 5000 4 5 0 0 2 0 3 6\n"
    let three : Files := .only "/proc/diskstats" "8 0 sda 9 0 96 4 5 0 40 2 0 3 6\n"
    (sectorDelta .read one.diskstats two.diskstats = 5008 ∧
      increased .read one.diskLines two.diskLines = 8) ∧
    sectorDelta .read two.diskstats three.diskstats = 0 ∧
      increased .read two.diskLines three.diskLines = 16 := by
  decide +kernel

end Hakuraku.Agent
