import Hakuraku.Agent.Collector
import Hakuraku.Lib.Machine

/-!
# The baselines of the collector

Reference: `pulse-agent/src/collector.rs`, `collect`, `read_net_dev` and `read_diskstats`.

A rate is a difference of two counters by the time between two calls. The counters of the earlier
read are the baselines, and the time is that of the last successful call. The two belong together if
the baselines are those of the last successful call. They are not after a call that has failed
between two readers, nor for an interface that has been missing: `prev_net` keeps every interface
that was ever listed.
-/

namespace Hakuraku.Agent

open Fallible

variable {F : Type} {ops : F64 F}

/-! ## The loop over the interfaces -/

section

variable {elapsed : F} {entries : List (String × NetCounters)}
  {prevNet : AList fun _ : String => NetCounters} {name : String} {curr : NetCounters}

/-- The names that are listed. -/
def names (entries : List (String × NetCounters)) : List String := entries.map Prod.fst

theorem names_cons (entry : String × NetCounters) (entries : List (String × NetCounters)) :
    names (entry :: entries) = entry.1 :: names entries := rfl

/-- An interface that is not listed keeps its baseline. -/
theorem lookup_readNetLines_of_not_mem (h : name ∉ names entries) :
    (readNetLines ops elapsed entries prevNet).2.lookup name = prevNet.lookup name := by
  induction entries generalizing prevNet with
  | nil => rfl
  | cons entry entries ih =>
    rw [names_cons, List.mem_cons, not_or] at h
    rw [readNetLines, ih h.2, AList.lookup_insert_ne h.1]

/-- The baselines are for the interfaces that were known or are listed. -/
theorem mem_readNetLines :
    name ∈ (readNetLines ops elapsed entries prevNet).2 ↔ name ∈ prevNet ∨ name ∈ names entries := by
  induction entries generalizing prevNet with
  | nil => simp [readNetLines, names]
  | cons entry entries ih =>
    rw [readNetLines, ih, AList.mem_insert, names_cons, List.mem_cons, or_assoc, or_left_comm]

/-- The baseline of an interface that is listed once is its counters. -/
theorem lookup_readNetLines (honce : (names entries).Nodup) (h : (name, curr) ∈ entries) :
    (readNetLines ops elapsed entries prevNet).2.lookup name = some curr := by
  induction entries generalizing prevNet with
  | nil => exact absurd h List.not_mem_nil
  | cons entry entries ih =>
    rw [names_cons, List.nodup_cons] at honce
    rcases List.mem_cons.mp h with rfl | h
    · -- no later line overwrites it
      rw [readNetLines, lookup_readNetLines_of_not_mem honce.1, AList.lookup_insert]
    · exact ih honce.2 h

/-- An interface that is listed once is rated against the baseline the call has found. -/
theorem exists_of_mem_readNetLines (honce : (names entries).Nodup) {i : NetworkInterface}
    (h : i ∈ (readNetLines ops elapsed entries prevNet).1) :
    ∃ curr, (i.name, curr) ∈ entries ∧
      i = netInterface ops elapsed (prevNet.lookup i.name) i.name curr := by
  induction entries generalizing prevNet with
  | nil => exact absurd h List.not_mem_nil
  | cons entry entries ih =>
    rw [names_cons, List.nodup_cons] at honce
    rcases List.mem_cons.mp h with rfl | h
    · exact ⟨entry.2, List.mem_cons_self, rfl⟩
    · obtain ⟨curr, hmem, hi⟩ := ih honce.2 h
      -- the line before has stored a baseline of another interface
      have hne : i.name ≠ entry.1 := fun heq =>
        honce.1 (heq ▸ List.mem_map_of_mem (f := Prod.fst) hmem)
      rw [AList.lookup_insert_ne hne] at hi
      exact ⟨curr, List.mem_cons_of_mem _ hmem, hi⟩

end

/-! ## Runs -/

/-- What a successful call has found, and when. -/
structure Reading where
  now : ℕ
  net : List (String × NetCounters)
  disk : DiskCounters
deriving DecidableEq

/-- The reading of a call, if it succeeds. -/
def reading (ops : F64 F) (c : SystemCollector) (call : Call) : List Reading :=
  match collect ops call c with
  | .ok _ _ => [⟨call.now, call.files.netDev, call.files.diskstats⟩]
  | .error _ _ => []

/-- Calls in a row, with a record of the successful ones. -/
def stepRecorded (ops : F64 F) : SystemCollector × List Reading → Call →
    Option (SystemCollector × List Reading) :=
  Machine.recorded (fun c call => some (after (collect ops call c))) (reading ops)

/-- The baselines belong to the last successful call, and there is one for every interface that it
has listed and none for an interface that was never listed. -/
structure Baselines (p : SystemCollector × List Reading) : Prop where
  time : p.1.prevTime = p.2.getLast?.map (·.now)
  disk : p.1.prevDisk = p.2.getLast?.map (·.disk)
  net : ∀ r ∈ p.2.getLast?, ∀ name curr, (name, curr) ∈ r.net → p.1.prevNet.lookup name = some curr
  known : ∀ name ∈ p.1.prevNet, ∃ r ∈ p.2, name ∈ names r.net

theorem baselines_new : Baselines (.new, []) where
  time := rfl
  disk := rfl
  net := fun r hr => absurd hr (by simp)
  known := fun name h => absurd h (AList.notMem_empty name)

variable {p p' : SystemCollector × List Reading} {call : Call}

theorem stepRecorded_eq (ops : F64 F) (p : SystemCollector × List Reading) (call : Call) :
    stepRecorded ops p call =
      some (after (collect ops call p.1), p.2 ++ reading ops p.1 call) := rfl

/-- What a successful call leaves. -/
theorem step_of_ok {stats : NodeStats (Metrics F)} {c' : SystemCollector}
    (h : collect ops call p.1 = .ok stats c') :
    stepRecorded ops p call =
      some (c', p.2 ++ [⟨call.now, call.files.netDev, call.files.diskstats⟩]) := by
  rw [stepRecorded, Machine.recorded, reading, h]
  rfl

/-- What a failed call leaves. -/
theorem step_of_error {e : CollectorError} {c' : SystemCollector}
    (h : collect ops call p.1 = .error e c') : stepRecorded ops p call = some (c', p.2) := by
  rw [stepRecorded, Machine.recorded, reading, h, List.append_nil]
  rfl

/-- A successful call renews the baselines. -/
theorem Baselines.of_ok {stats : NodeStats (Metrics F)} {c' : SystemCollector} (h : Baselines p)
    (honce : (names call.files.netDev).Nodup) (hok : collect ops call p.1 = .ok stats c') :
    Baselines (c', p.2 ++ [⟨call.now, call.files.netDev, call.files.diskstats⟩]) := by
  obtain ⟨hnet, -, hdisk, htime⟩ := collected_of_ok hok
  have hprevNet : c'.prevNet = _ := congrArg Prod.snd hnet
  refine ⟨?_, ?_, fun r hr name curr hmem => ?_, fun name hname => ?_⟩
  · rw [List.getLast?_concat]
    exact htime
  · rw [List.getLast?_concat]
    exact hdisk
  · rw [List.getLast?_concat] at hr
    obtain rfl := Option.some.inj hr
    exact (congrArg (AList.lookup name) hprevNet).trans (lookup_readNetLines honce hmem)
  · have hname : name ∈ c'.prevNet := hname
    rw [hprevNet, mem_readNetLines] at hname
    rcases hname with hname | hname
    · obtain ⟨r, hr, hmem⟩ := h.known name hname
      exact ⟨r, List.mem_append_left _ hr, hmem⟩
    · exact ⟨_, List.mem_append_right _ List.mem_cons_self, hname⟩

/-! ## The rates of a call -/

/-- The rates of the interfaces divide the differences to the counters of the last reading by a time
that goes with it. An interface that is new has the rate zero. -/
def NetRates (ops : F64 F) (elapsed : Reading → F) (last : Option Reading) (files : Files)
    (interfaces : List NetworkInterface) : Prop :=
  ∀ i ∈ interfaces, ∃ curr, (i.name, curr) ∈ files.netDev ∧
    ((∃ r ∈ last, ∃ prev, (i.name, prev) ∈ r.net ∧
        i.rxBytesSec = rate ops (saturatingSub curr.rxBytes prev.rxBytes) (elapsed r) ∧
        i.txBytesSec = rate ops (saturatingSub curr.txBytes prev.txBytes) (elapsed r)) ∨
      (∀ r ∈ last, i.name ∉ names r.net) ∧ i.rxBytesSec = 0 ∧ i.txBytesSec = 0)

/-- The rates of the disks divide the differences to the totals of the last reading. -/
def DiskRates (ops : F64 F) (elapsed : Reading → F) (last : Option Reading) (files : Files)
    (rates : UInt64 × UInt64) : Prop :=
  (∃ r ∈ last, rates = diskRates ops (elapsed r) (some r.disk) files.diskstats) ∨
    last = none ∧ rates = (0, 0)

/-- The time that a successful call divides by. -/
theorem elapsedSecs_eq (h : Baselines p) {r : Reading} (hr : r ∈ p.2.getLast?) :
    elapsedSecs ops p.1.prevTime call.now = elapsedSecs ops (some r.now) call.now := by
  rw [h.time, show p.2.getLast? = some r from hr, Option.map_some]

/-- The interfaces that a call lists and has a baseline of were listed by the last call. -/
def Followed (p : SystemCollector × List Reading) (call : Call) : Prop :=
  ∀ name ∈ p.1.prevNet, name ∈ names call.files.netDev → ∃ last ∈ p.2.getLast?, name ∈ names last.net

/-- **The rates of a successful call** are those against the last one, if no interface returns. -/
theorem netRates_of_ok {stats : NodeStats (Metrics F)} {c' : SystemCollector} (h : Baselines p)
    (honce : (names call.files.netDev).Nodup) (hfollowed : Followed p call)
    (hok : collect ops call p.1 = .ok stats c') :
    NetRates ops (fun r => elapsedSecs ops (some r.now) call.now) p.2.getLast? call.files
      stats.metrics.netInterfaces := by
  intro i hi
  have hnet : stats.metrics.netInterfaces = _ := congrArg Prod.fst (collected_of_ok hok).net
  rw [hnet] at hi
  obtain ⟨curr, hmem, hi⟩ := exists_of_mem_readNetLines honce hi
  refine ⟨curr, hmem, ?_⟩
  cases hprev : p.1.prevNet.lookup i.name with
  | some prev =>
    -- the baseline was stored by some call, and by the last one if the interface is followed
    have hknown : i.name ∈ p.1.prevNet := AList.lookup_isSome.mp (by rw [hprev]; rfl)
    obtain ⟨last, hlast, hname⟩ := hfollowed i.name hknown (List.mem_map_of_mem (f := Prod.fst) hmem)
    obtain ⟨⟨_, prev'⟩, hentry, rfl⟩ := List.mem_map.mp hname
    have hsame : prev = prev' := Option.some.inj (hprev.symm.trans (h.net last hlast _ prev' hentry))
    rw [hprev, hsame, elapsedSecs_eq h hlast] at hi
    exact .inl ⟨last, hlast, prev', hentry, by rw [hi]; rfl, by rw [hi]; rfl⟩
  | none =>
    rw [hprev] at hi
    refine .inr ⟨fun r hr hname => ?_, by rw [hi]; rfl, by rw [hi]; rfl⟩
    obtain ⟨⟨_, prev⟩, hentry, rfl⟩ := List.mem_map.mp hname
    exact absurd (h.net r hr _ prev hentry) (by rw [hprev]; exact nofun)

theorem diskRates_of_ok {stats : NodeStats (Metrics F)} {c' : SystemCollector} (h : Baselines p)
    (hok : collect ops call p.1 = .ok stats c') :
    DiskRates ops (fun r => elapsedSecs ops (some r.now) call.now) p.2.getLast? call.files
      (stats.metrics.diskReadBytesSec, stats.metrics.diskWriteBytesSec) := by
  have hdisk := (collected_of_ok hok).disk
  rw [h.disk] at hdisk
  cases hlast : p.2.getLast? with
  | none =>
    rw [hlast] at hdisk
    exact .inr ⟨rfl, hdisk⟩
  | some r =>
    rw [hlast, elapsedSecs_eq h hlast] at hdisk
    exact .inl ⟨r, rfl, hdisk⟩

/-! ## Calls that fail -/

/-- A failed call leaves the baselines as they are, and the rates of a successful one divide by the
time since the reads they compare with. -/
def Consistent (ops : F64 F) (p : SystemCollector × List Reading) (call : Call) : Prop :=
  (∀ e c', collect ops call p.1 = .error e c' → c' = p.1) ∧
    ∀ stats c', collect ops call p.1 = .ok stats c' →
      NetRates ops (fun r => ops.asSecsF64 (call.now - r.now)) p.2.getLast? call.files
        stats.metrics.netInterfaces ∧
      DiskRates ops (fun r => ops.asSecsF64 (call.now - r.now)) p.2.getLast? call.files
        (stats.metrics.diskReadBytesSec, stats.metrics.diskWriteBytesSec)

/-- The call fails at the first line of `/proc/stat`; or every file it needs can be read and parsed,
it lists no interface twice and none that was listed before and not by the last successful call, and
it comes a millisecond or more after that. -/
def Orderly (ops : F64 F) (p : SystemCollector × List Reading) (call : Call) : Prop :=
  call.files.failsFirst = true ∨
    call.files.complete ops = true ∧ (names call.files.netDev).Nodup ∧
      (∀ r ∈ p.2, ∀ name ∈ names r.net, name ∈ names call.files.netDev →
        ∃ last ∈ p.2.getLast?, name ∈ names last.net) ∧
      ∀ last ∈ p.2.getLast?, last.now + 1000000 ≤ call.now

instance (p : SystemCollector × List Reading) (call : Call) : Decidable (Orderly ops p call) :=
  inferInstanceAs (Decidable (_ ∨ _ ∧ _ ∧ _ ∧ _))

/-- Between calls a millisecond apart nothing is rounded up. -/
theorem elapsedSecs_of_le {prev now : ℕ} (h : prev + 1000000 ≤ now) :
    elapsedSecs ops (some prev) now = ops.asSecsF64 (now - prev) :=
  ops.max_asSecsF64 (now - prev) (by omega)

/-- Rates depend on the time since the last reading only. -/
theorem NetRates.congr {elapsed elapsed' : Reading → F} {last : Option Reading} {files : Files}
    {interfaces : List NetworkInterface} (h : NetRates ops elapsed last files interfaces)
    (heq : ∀ r ∈ last, elapsed r = elapsed' r) : NetRates ops elapsed' last files interfaces := by
  intro i hi
  obtain ⟨curr, hmem, hrates⟩ := h i hi
  refine ⟨curr, hmem, hrates.imp_left ?_⟩
  rintro ⟨r, hr, prev, hentry, hrx, htx⟩
  exact ⟨r, hr, prev, hentry, heq r hr ▸ hrx, heq r hr ▸ htx⟩

theorem DiskRates.congr {elapsed elapsed' : Reading → F} {last : Option Reading} {files : Files}
    {rates : UInt64 × UInt64} (h : DiskRates ops elapsed last files rates)
    (heq : ∀ r ∈ last, elapsed r = elapsed' r) : DiskRates ops elapsed' last files rates :=
  h.imp_left fun ⟨r, hr, hrates⟩ => ⟨r, hr, heq r hr ▸ hrates⟩

/-- An orderly call keeps the baselines together. -/
theorem Baselines.step (h : Baselines p) (horderly : Orderly ops p call)
    (hstep : stepRecorded ops p call = some p') : Baselines p' := by
  rcases horderly with hfails | ⟨hcomplete, honce, -, -⟩
  · obtain ⟨e, herror⟩ := collect_of_failsFirst ops hfails p.1
    rw [step_of_error herror, Option.some.injEq] at hstep
    exact hstep ▸ h
  · obtain ⟨stats, c', hok⟩ := (succeeds_collect ops call p.1).mpr hcomplete
    rw [step_of_ok hok, Option.some.injEq] at hstep
    exact hstep ▸ h.of_ok honce hok

theorem Baselines.consistent (h : Baselines p) (horderly : Orderly ops p call) :
    Consistent ops p call := by
  rcases horderly with hfails | ⟨hcomplete, honce, hlisted, hapart⟩
  · obtain ⟨e, herror⟩ := collect_of_failsFirst ops hfails p.1
    refine ⟨fun e' c' h' => ?_, fun stats c' h' => ?_⟩
    · rw [herror] at h'
      exact (EStateM.Result.error.inj h').2.symm
    · rw [herror] at h'
      cases h'
  · obtain ⟨stats₀, c₀, hok₀⟩ := (succeeds_collect ops call p.1).mpr hcomplete
    refine ⟨fun e c' h' => ?_, fun stats c' hok => ?_⟩
    · rw [hok₀] at h'
      cases h'
    · have helapsed : ∀ r ∈ p.2.getLast?, elapsedSecs ops (some r.now) call.now =
          ops.asSecsF64 (call.now - r.now) := fun r hr => elapsedSecs_of_le (hapart r hr)
      have hfollowed : Followed p call := fun name hknown hname => by
        obtain ⟨r, hr, hmem⟩ := h.known name hknown
        exact hlisted r hr name hmem hname
      exact ⟨(netRates_of_ok h honce hfollowed hok).congr helapsed,
        (diskRates_of_ok h hok).congr helapsed⟩

/-- **Where calls fail at the first line of `/proc/stat` only, baselines stay together.** In every run
of orderly calls, a failed call changes no baseline, and every rate divides the difference of two
counters by the time between the calls that have read them. -/
theorem consistent_of_orderly (ops : F64 F) (calls : List Call)
    (h : Machine.Along (stepRecorded ops) (Orderly ops) (.new, []) calls) :
    Machine.Along (stepRecorded ops) (Consistent ops) (.new, []) calls :=
  h.of_invariant (fun _ _ _ hI hP hs => hI.step hP hs) (fun _ _ hI hP => hI.consistent hP)
    baselines_new

/-- In a consistent run a call that fails after another one leaves what that one has left. -/
theorem unchanged_of_consistent {c c' : SystemCollector} {a b : Call} {calls : List Call}
    {e : CollectorError}
    (h : Machine.Along (stepRecorded ops) (Consistent ops) (c, []) (a :: b :: calls))
    (herror : collect ops b (after (collect ops a c)) = .error e c') :
    c' = after (collect ops a c) :=
  (h.2 _ (stepRecorded_eq ops (c, []) a)).1.1 e c' herror

/-- Files to evaluate runs with. -/
def procFiles (stat netDev uptime : String) : Files where
  read path :=
    if path = "/proc/stat" then .ok stat
    else if path = "/proc/net/dev" then .ok ("Inter-|   Receive\n face |bytes\n" ++ netDev)
    else if path = "/proc/uptime" then .ok uptime
    else if path = "/proc/loadavg" then .ok "0 0 0 1/100 1\n"
    else if path ∈ ["/proc/meminfo", "/proc/diskstats", "/proc/net/tcp", "/proc/net/udp"] then .ok ""
    else .error "No such file or directory (os error 2)"
  thermal := none

/-- A call at a number of seconds. -/
def callAt (seconds : ℕ) (stat netDev uptime : String) : Call :=
  ⟨"node-01", seconds * 1000000000, 0, procFiles stat netDev uptime⟩

/-- A call that succeeds at 1 s. -/
def firstCall : Call := callAt 1 "cpu 1 0 0 1\n" "eth0: 1000 0 0 0 0 0 0 0 0 0\n" "1 1\n"

/-- A call at 2 s that finds `/proc/uptime` empty. -/
def lateFailure : Call := callAt 2 "cpu 2 0 0 2\n" "eth0: 2000 0 0 0 0 0 0 0 0 0\n" ""

/-- A call that succeeds at 3 s. -/
def thirdCall : Call := callAt 3 "cpu 3 0 0 3\n" "eth0: 3000 0 0 0 0 0 0 0 0 0\n" "3 3\n"

theorem consistent_when_stat_fails :
    Machine.Along (stepRecorded .decimals) (Consistent .decimals) (.new, [])
      [firstCall, callAt 2 "cpu 2 0 0\n" "eth0: 2000 0 0 0 0 0 0 0 0 0\n" "2 2\n", thirdCall] :=
  consistent_of_orderly .decimals _ (by decide +kernel)

/-- The collector after the first call. -/
def afterFirst : SystemCollector := after (collect .decimals firstCall .new)

/-- The collector after the call that fails. -/
def afterFailure : SystemCollector := after (collect .decimals lateFailure afterFirst)

/-- **A call that fails late spoils the rates of the next one.** It has stored the counters of 2 s, and
the thousand bytes since then are rated over the two seconds since 1 s. The rate between the reads is
a thousand bytes per second, whichever of the earlier reads is taken. -/
theorem late_failure_spoils_rates :
    (∃ e, collect .decimals lateFailure afterFirst = .error e afterFailure) ∧
      afterFailure ≠ afterFirst ∧
      (∃ stats c, collect .decimals thirdCall afterFailure = .ok stats c ∧
        stats.metrics.netInterfaces = [⟨"eth0", 500, 0, 3000, 0⟩]) ∧
      rate .decimals (3000 - 2000) (F64.decimals.asSecsF64 (3000000000 - 2000000000)) = 1000 ∧
      rate .decimals (3000 - 1000) (F64.decimals.asSecsF64 (3000000000 - 1000000000)) = 1000 ∧
      ¬ Machine.Along (stepRecorded .decimals) (Consistent .decimals) (.new, [])
        [firstCall, lateFailure, thirdCall] := by
  have hfails : ∃ e, collect .decimals lateFailure afterFirst = .error e afterFailure := by
    refine exists_error ?_
    rw [succeeds_collect]
    decide +kernel
  have hne : afterFailure ≠ afterFirst := by decide +kernel
  have hthird : Succeeds (collect .decimals thirdCall) afterFailure := by
    rw [succeeds_collect]
    decide +kernel
  obtain ⟨stats, c, hok⟩ := hthird
  have hnet : stats.metrics.netInterfaces = _ := congrArg Prod.fst (collected_of_ok hok).net
  refine ⟨hfails, hne, ⟨stats, c, hok, hnet.trans ?_⟩, ?_, ?_, fun h => ?_⟩
  · decide +kernel
  · decide +kernel
  · decide +kernel
  · obtain ⟨e, hfails⟩ := hfails
    exact hne (unchanged_of_consistent h hfails)

/-! ## Interfaces that come and go -/

/-- The rates of the interfaces cover the time since the last call. -/
def OneInterval (ops : F64 F) (p : SystemCollector × List Reading) (call : Call) : Prop :=
  ∀ stats c', collect ops call p.1 = .ok stats c' →
    NetRates ops (fun r => elapsedSecs ops (some r.now) call.now) p.2.getLast? call.files
      stats.metrics.netInterfaces

/-- `prev_net` holds interfaces of the last call only. -/
def PrevNetCurrent (p : SystemCollector × List Reading) : Prop :=
  ∀ name ∈ p.1.prevNet, ∃ last ∈ p.2.getLast?, name ∈ names last.net

/-- The call lists every interface that the last one has listed. -/
def KeepsInterfaces (p : SystemCollector × List Reading) (call : Call) : Prop :=
  ∀ last ∈ p.2.getLast?, ∀ name ∈ names last.net, name ∈ names call.files.netDev

instance (p : SystemCollector × List Reading) (call : Call) : Decidable (KeepsInterfaces p call) :=
  inferInstanceAs (Decidable (∀ last ∈ p.2.getLast?, ∀ name ∈ names last.net, _))

/-- The call succeeds, and it lists no interface twice. -/
def ListsOnce (ops : F64 F) (p : SystemCollector × List Reading) (call : Call) : Prop :=
  Succeeds (collect ops call) p.1 ∧ (names call.files.netDev).Nodup

instance (p : SystemCollector × List Reading) (call : Call) : Decidable (ListsOnce ops p call) :=
  decidable_of_iff (call.files.complete ops = true ∧ (names call.files.netDev).Nodup)
    (and_congr_left' (succeeds_collect ops call p.1).symm)

theorem Baselines.of_listsOnce (h : Baselines p) (honce : ListsOnce ops p call)
    (hstep : stepRecorded ops p call = some p') : Baselines p' := by
  obtain ⟨⟨stats, c', hok⟩, hnodup⟩ := honce
  rw [step_of_ok hok, Option.some.injEq] at hstep
  exact hstep ▸ h.of_ok hnodup hok

/-- **`prev_net` stays current exactly as long as no interface goes.** -/
theorem prevNetCurrent_iff (h : Baselines p) (hcurrent : PrevNetCurrent p)
    (hok : Succeeds (collect ops call) p.1) (hstep : stepRecorded ops p call = some p') :
    PrevNetCurrent p' ↔ KeepsInterfaces p call := by
  obtain ⟨stats, c', hok⟩ := hok
  rw [step_of_ok hok, Option.some.injEq] at hstep
  subst hstep
  have hprevNet : c'.prevNet = _ := congrArg Prod.snd (collected_of_ok hok).net
  have hmem : ∀ name, name ∈ c'.prevNet ↔ name ∈ p.1.prevNet ∨ name ∈ names call.files.netDev :=
    fun name => by rw [hprevNet, mem_readNetLines]
  simp only [PrevNetCurrent, List.getLast?_concat, Option.mem_some_iff, exists_eq_left', hmem]
  constructor
  · -- an interface that goes leaves its baseline behind
    intro hall last hlast name hname
    obtain ⟨⟨_, curr⟩, hentry, rfl⟩ := List.mem_map.mp hname
    refine hall _ (.inl (AList.lookup_isSome.mp ?_))
    rw [h.net last hlast _ curr hentry]
    rfl
  · rintro hkeeps name (hname | hname)
    · obtain ⟨last, hlast, hname⟩ := hcurrent name hname
      exact hkeeps last hlast name hname
    · exact hname

/-- **Rates cover one interval exactly as long as no interface goes.** In a run of successful calls
that list no interface twice, every rate is that between the call and the one before, and `prev_net`
holds interfaces of the last call only, if and only if every call lists the interfaces of the one
before. -/
theorem net_rates_cover_interval_iff (ops : F64 F) (calls : List Call)
    (h : Machine.Along (stepRecorded ops) (ListsOnce ops) (.new, []) calls) :
    Machine.Along (stepRecorded ops) (OneInterval ops) (.new, []) calls ∧
        Machine.Always (stepRecorded ops) PrevNetCurrent (.new, []) calls ↔
      Machine.Along (stepRecorded ops) KeepsInterfaces (.new, []) calls := by
  have hnew : PrevNetCurrent (.new, []) := fun name hname => absurd hname (AList.notMem_empty name)
  obtain ⟨t, hrun⟩ := Machine.exists_run
    (fun p call => ⟨_, stepRecorded_eq ops p call⟩) (.new, []) calls
  have hcurrent := h.always_iff (I := Baselines) (fun p a p' hI hG hs => hI.of_listsOnce hG hs)
    (fun p a p' hI hQ hG hs => prevNetCurrent_iff hI hQ hG.1 hs) baselines_new hnew hrun
  refine ⟨fun hall => hcurrent.mp hall.2, fun hkeeps => ⟨?_, hcurrent.mpr hkeeps⟩⟩
  refine (h.and hkeeps).of_invariant (I := fun p => Baselines p ∧ PrevNetCurrent p) ?_ ?_
    ⟨baselines_new, hnew⟩
  · rintro p call p' ⟨hI, hQ⟩ ⟨honce, hkeep⟩ hs
    exact ⟨hI.of_listsOnce honce hs, (prevNetCurrent_iff hI hQ honce.1 hs).mpr hkeep⟩
  · rintro p call ⟨hI, hQ⟩ ⟨honce, -⟩ stats c' hok
    exact netRates_of_ok hI honce.2 (fun name hname _ => hQ name hname) hok

theorem net_rates_cover_interval_when_one_comes :
    Machine.Along (stepRecorded .decimals) (OneInterval .decimals) (.new, [])
        [firstCall, callAt 2 "cpu 2 0 0 2\n"
          "eth0: 2000 0 0 0 0 0 0 0 0 0\nveth0: 50 0 0 0 0 0 0 0 0 0\n" "2 2\n"] ∧
      Machine.Always (stepRecorded .decimals) PrevNetCurrent (.new, [])
        [firstCall, callAt 2 "cpu 2 0 0 2\n"
          "eth0: 2000 0 0 0 0 0 0 0 0 0\nveth0: 50 0 0 0 0 0 0 0 0 0\n" "2 2\n"] :=
  (net_rates_cover_interval_iff .decimals _ (by decide +kernel)).mpr (by decide +kernel)

/-- In a run where `prev_net` stays current it is so after the second call. -/
theorem prevNetCurrent_after {c : SystemCollector} {a b : Call} {calls : List Call}
    (h : Machine.Always (stepRecorded ops) PrevNetCurrent (c, []) (a :: b :: calls)) :
    PrevNetCurrent (after (collect ops b (after (collect ops a c))),
      reading ops c a ++ reading ops (after (collect ops a c)) b) :=
  ((h.2 _ (stepRecorded_eq ops (c, []) a)).2 _ (stepRecorded_eq ops _ b)).head

/-- A call that lists the interface of a container. -/
def containerCall : Call := callAt 1 "cpu 1 0 0 1\n" "veth0: 1000 0 0 0 0 0 0 0 0 0\n" "1 1\n"

/-- A call while there is no container. -/
def emptyCall : Call := callAt 2 "cpu 2 0 0 2\n" "" "2 2\n"

/-- A call that lists an interface of the same name. -/
def returnCall : Call := callAt 3 "cpu 3 0 0 3\n" "veth0: 5000 0 0 0 0 0 0 0 0 0\n" "3 3\n"

/-- The collector after the interface has gone. -/
def afterGone : SystemCollector :=
  after (collect .decimals emptyCall (after (collect .decimals containerCall .new)))

/-- **An interface that returns is rated over the time it was away.** It was not in the sample before,
and the four thousand bytes since the one before that are rated over one second. -/
theorem returning_interface_rated :
    (∃ stats c, collect .decimals returnCall afterGone = .ok stats c ∧
        stats.metrics.netInterfaces = [⟨"veth0", 4000, 0, 5000, 0⟩]) ∧
      names emptyCall.files.netDev = [] ∧ "veth0" ∈ afterGone.prevNet ∧
      ¬ (Machine.Along (stepRecorded .decimals) (OneInterval .decimals) (.new, [])
          [containerCall, emptyCall, returnCall] ∧
        Machine.Always (stepRecorded .decimals) PrevNetCurrent (.new, [])
          [containerCall, emptyCall, returnCall]) := by
  have hreturn : Succeeds (collect .decimals returnCall) afterGone := by
    rw [succeeds_collect]
    decide +kernel
  obtain ⟨stats, c, hok⟩ := hreturn
  have hnet : stats.metrics.netInterfaces = _ := congrArg Prod.fst (collected_of_ok hok).net
  have hgone : "veth0" ∈ afterGone.prevNet := by
    rw [← AList.lookup_isSome]
    decide +kernel
  refine ⟨⟨stats, c, hok, hnet.trans ?_⟩, ?_, hgone, fun h => ?_⟩
  · decide +kernel
  · decide +kernel
  · exact absurd (prevNetCurrent_after h.2 "veth0" hgone) (by decide +kernel)

end Hakuraku.Agent
