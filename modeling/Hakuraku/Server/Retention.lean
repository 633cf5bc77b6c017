import Hakuraku.Lib.Machine
import Hakuraku.Server.Ranges

/-!
# Retention

Reference: `pulse-server/src/main.rs`, the cleanup task; `pulse-server/src/db.rs`,
`cleanup_old_snapshots`; `pulse-server/src/api.rs`, `get_node_history`.

The cleanup task wakes up, reads the clock and deletes what is older than seven days, the snapshots
first and then the probe results, with two statements between which the other tasks go on. A history
request reads the clock and selects the snapshots of a range that ends there, both in one step here.
What the task deletes is older than what a request for at most seven days can ask for, at that time or
later. A request that reads the clock before the task does, and selects after the task has deleted,
does not get the rows that have become older than seven days in between; no run has such a request.
-/

namespace Hakuraku.Server

variable {B J : Type}

namespace Database

/-- `DELETE FROM snapshots WHERE timestamp < $1`. -/
def deleteSnapshots (db : Database J) (beforeMs : Int64) : Database J :=
  { db with
    snapshots := db.snapshots.filter fun s => ¬ s.timestamp < beforeMs
    snapshots_fk := fun s hs => db.snapshots_fk s (List.mem_of_mem_filter hs) }

/-- `DELETE FROM probe_results WHERE timestamp < $1`. -/
def deleteProbeResults (db : Database J) (beforeMs : Int64) : Database J :=
  { db with
    probeResults := db.probeResults.filter fun r => ¬ r.timestamp < beforeMs
    probeResults_fk := fun r hr => db.probeResults_fk r (List.mem_of_mem_filter hr) }

end Database

/-- How long snapshots and probe results are kept. -/
def sevenDaysMs : Int64 := 7 * 24 * 3600 * 1000

/-- Where the cleanup task stands. -/
inductive Cleanup where
  /-- Awaiting the next tick or the cancellation. -/
  | waiting
  /-- In `cleanup_old_snapshots`, before the first statement. -/
  | snapshots (beforeMs : Int64)
  /-- Between the two statements. -/
  | probeResults (beforeMs : Int64)
  | stopped
deriving DecidableEq

/-- The bound of the statement that the task runs next. -/
def Cleanup.beforeMs? : Cleanup → Option Int64
  | .snapshots beforeMs | .probeResults beforeMs => some beforeMs
  | .waiting | .stopped => none

/-- The database with the clock of the server, which counts from the epoch, and the cleanup task. -/
structure Retained (J : Type) where
  db : Database J
  clock : Int64
  cleanup : Cleanup
  clock_nonneg : 0 ≤ clock.toInt

/-- What happens to the database. -/
inductive RetainedAct where
  /-- The clock advances. -/
  | wait (now : Int64)
  | upsertNode (nodeId hostname status : String)
  | insertSnapshot (nodeId : String) (timestampMs : Int64) (statsJson : String)
  | insertProbeResult (item : ProbeItem)
  /-- The interval ticks, and the cleanup task reads the clock. -/
  | tick
  /-- The next statement of the cleanup task; it may fail. -/
  | delete (ok : Bool)
  /-- The cleanup task sees the cancellation. -/
  | cancel

namespace Retained

/-- The server has started on a database. -/
def init (db : Database J) (clock : Int64) (h : 0 ≤ clock.toInt) : Retained J :=
  ⟨db, clock, .waiting, h⟩

/-- The database after a statement that fails without effect. -/
def write (s : Retained J) (db : Option (Database J)) : Retained J := { s with db := db.getD s.db }

/-- The step function. -/
def step (serde : Serde B J) (s : Retained J) : RetainedAct → Option (Retained J)
  | .wait now =>
    if h : s.clock ≤ now then
      some { s with
        clock := now
        clock_nonneg := s.clock_nonneg.trans (Int64.le_iff_toInt_le.mp h) }
    else none
  | .upsertNode nodeId hostname status =>
    some (s.write (s.db.upsertNode nodeId hostname status s.clock))
  | .insertSnapshot nodeId timestampMs statsJson =>
    some (s.write (s.db.insertSnapshot serde nodeId timestampMs statsJson))
  | .insertProbeResult item => some (s.write (s.db.insertProbeResult item))
  | .tick =>
    match s.cleanup with
    | .waiting => some { s with cleanup := .snapshots (s.clock - sevenDaysMs) }
    | _ => none
  | .delete ok =>
    match s.cleanup with
    | .snapshots beforeMs =>
      if ok then
        some { s with db := s.db.deleteSnapshots beforeMs, cleanup := .probeResults beforeMs }
      else some { s with cleanup := .waiting }
    | .probeResults beforeMs =>
      if ok then some { s with db := s.db.deleteProbeResults beforeMs, cleanup := .waiting }
      else some { s with cleanup := .waiting }
    | _ => none
  | .cancel =>
    match s.cleanup with
    | .waiting => some { s with cleanup := .stopped }
    | _ => none

/-- The snapshot that a step inserts. -/
def inserted (serde : Serde B J) (s : Retained J) : RetainedAct → List (Snapshot J)
  | .insertSnapshot nodeId timestampMs statsJson =>
    if (s.db.insertSnapshot serde nodeId timestampMs statsJson).isSome then
      [⟨nodeId, timestampMs, Database.stored serde statsJson⟩]
    else []
  | _ => []

/-- The step function with a record of the snapshots ever inserted. -/
def stepRecorded (serde : Serde B J) : Retained J × List (Snapshot J) → RetainedAct →
    Option (Retained J × List (Snapshot J)) :=
  Machine.recorded (step serde) (inserted serde)

/-! ## What a request for seven days can see -/

/-- The snapshot is not older than seven days. -/
def withinWeek (clock : Int64) (s : Snapshot J) : Bool :=
  clock.toInt - sevenDaysMs.toInt ≤ s.timestamp.toInt

/-- The snapshots of the last seven days are those ever inserted, and the cleanup task is not about to
delete any of them. -/
structure KeepsWeek (p : Retained J × List (Snapshot J)) : Prop where
  rows : p.1.db.snapshots.filter (withinWeek p.1.clock) = p.2.filter (withinWeek p.1.clock)
  bound : ∀ beforeMs ∈ p.1.cleanup.beforeMs?, beforeMs.toInt ≤ p.1.clock.toInt - sevenDaysMs.toInt

theorem sevenDaysMs_toInt : sevenDaysMs.toInt = 604800000 := by decide

/-- The bound of the cleanup task does not overflow. -/
theorem toInt_clock_sub (s : Retained J) :
    (s.clock - sevenDaysMs).toInt = s.clock.toInt - sevenDaysMs.toInt := by
  have hclock := s.clock_nonneg
  have hmax := s.clock.toInt_lt
  have hweek := sevenDaysMs_toInt
  exact Wrapping.toInt_sub (by omega) (by omega)

/-- What is deleted is older than seven days. -/
theorem filter_deleteSnapshots {db : Database J} {clock beforeMs : Int64}
    (h : beforeMs.toInt ≤ clock.toInt - sevenDaysMs.toInt) :
    (db.deleteSnapshots beforeMs).snapshots.filter (withinWeek clock) =
      db.snapshots.filter (withinWeek clock) := by
  rw [Database.deleteSnapshots, List.filter_filter]
  refine List.filter_congr fun s _ => ?_
  cases hs : withinWeek clock s with
  | false => rfl
  | true =>
    rw [withinWeek, decide_eq_true_eq] at hs
    rw [Bool.true_and, decide_eq_true_eq, Int64.lt_iff_toInt_lt]
    omega

variable {serde : Serde B J} {p p' : Retained J × List (Snapshot J)}

/-- A step that only adds snapshots keeps them. -/
theorem KeepsWeek.append {s s' : Retained J} {rows l : List (Snapshot J)} (h : KeepsWeek (s, rows))
    (hsnapshots : s'.db.snapshots = s.db.snapshots ++ l) (hclock : s'.clock = s.clock)
    (hbound : ∀ beforeMs ∈ s'.cleanup.beforeMs?,
      beforeMs.toInt ≤ s.clock.toInt - sevenDaysMs.toInt) : KeepsWeek (s', rows ++ l) where
  rows := by
    rw [hsnapshots, hclock, List.filter_append, List.filter_append]
    exact congrArg (· ++ _) h.rows
  bound := by
    rw [hclock]
    exact hbound

/-- So does a step that leaves the snapshots alone. -/
theorem KeepsWeek.same {s s' : Retained J} {rows : List (Snapshot J)} (h : KeepsWeek (s, rows))
    (hsnapshots : s'.db.snapshots = s.db.snapshots) (hclock : s'.clock = s.clock)
    (hbound : ∀ beforeMs ∈ s'.cleanup.beforeMs?,
      beforeMs.toInt ≤ s.clock.toInt - sevenDaysMs.toInt) : KeepsWeek (s', rows ++ []) :=
  h.append (hsnapshots.trans (List.append_nil _).symm) hclock hbound

/-- **Every step keeps the snapshots of the last seven days.** -/
theorem KeepsWeek.step {a : RetainedAct} (h : KeepsWeek p) (hstep : stepRecorded serde p a = some p') :
    KeepsWeek p' := by
  obtain ⟨s, rows⟩ := p
  obtain ⟨s', hs', rfl⟩ := Machine.recorded_eq_some.mp hstep
  cases a with
  | wait now =>
    rw [Retained.step, Option.dite_none_right_eq_some] at hs'
    obtain ⟨hle, hs'⟩ := hs'
    obtain rfl := Option.some.inj hs'
    rw [Int64.le_iff_toInt_le] at hle
    refine ⟨?_, fun beforeMs hb => (h.bound beforeMs hb).trans (by simpa using hle)⟩
    simp only [inserted, List.append_nil]
    -- a later clock sees less
    refine Query.filter_eq_of_imp (fun x hx => ?_) h.rows
    rw [withinWeek, decide_eq_true_eq] at hx ⊢
    exact (Int.sub_le_sub_right hle _).trans hx
  | upsertNode nodeId hostname status =>
    obtain rfl := Option.some.inj hs'
    exact h.same rfl rfl h.bound
  | insertSnapshot nodeId timestampMs statsJson =>
    obtain rfl := Option.some.inj hs'
    simp only [inserted, write]
    cases hdb : s.db.insertSnapshot serde nodeId timestampMs statsJson with
    | none => exact h.same rfl rfl h.bound
    | some db => exact h.append (Database.insertSnapshot_eq hdb).2 rfl h.bound
  | insertProbeResult item =>
    obtain rfl := Option.some.inj hs'
    simp only [write]
    cases hdb : s.db.insertProbeResult item with
    | none => exact h.same rfl rfl h.bound
    | some db => exact h.same (Database.insertProbeResult_eq hdb).2 rfl h.bound
  | tick =>
    simp only [Retained.step] at hs'
    split at hs'
    · obtain rfl := Option.some.inj hs'
      refine h.same rfl rfl fun beforeMs hb => ?_
      obtain rfl := Option.some.inj hb
      exact (toInt_clock_sub s).le
    · cases hs'
  | delete ok =>
    simp only [Retained.step] at hs'
    split at hs'
    · rename_i beforeMs hcleanup
      -- the clock was read at the tick and has not gone back since
      have hold : beforeMs.toInt ≤ s.clock.toInt - sevenDaysMs.toInt :=
        h.bound beforeMs (by simp only [hcleanup]; rfl)
      split at hs'
      · obtain rfl := Option.some.inj hs'
        refine ⟨?_, fun b hb => Option.some.inj hb ▸ hold⟩
        simp only [inserted, List.append_nil]
        exact (filter_deleteSnapshots hold).trans h.rows
      · obtain rfl := Option.some.inj hs'
        exact h.same rfl rfl nofun
    · split at hs'
      all_goals
        obtain rfl := Option.some.inj hs'
        exact h.same rfl rfl nofun
    · cases hs'
  | cancel =>
    simp only [Retained.step] at hs'
    split at hs'
    · obtain rfl := Option.some.inj hs'
      exact h.same rfl rfl nofun
    · cases hs'

end Retained

/-! ## The history of a node -/

/-- The order in which `get_snapshots` returns its rows. -/
def Snapshot.NewestFirst (s s' : Snapshot J) : Prop := s'.timestamp ≤ s.timestamp

instance : DecidableRel (Snapshot.NewestFirst (J := J)) :=
  fun s s' => inferInstanceAs (Decidable (s'.timestamp ≤ s.timestamp))

instance : Std.Total (Snapshot.NewestFirst (J := J)) where
  total s s' := Int64.le_total s'.timestamp s.timestamp

instance : IsTrans (Snapshot J) Snapshot.NewestFirst where
  trans _ _ _ h h' := Int64.le_trans h' h

/-- The snapshots of a node with a timestamp in a window. -/
def window (rows : List (Snapshot J)) (nodeId : String) (fromMs toMs : ℤ) : List (Snapshot J) :=
  rows.filter fun s => s.nodeId = nodeId ∧ fromMs ≤ s.timestamp.toInt ∧ s.timestamp.toInt ≤ toMs

/-- `get_snapshots` selects from its window. -/
theorem getSnapshots_isTop (db : Database J) (nodeId : String) (fromMs toMs limit : Int64) :
    Query.IsTop Snapshot.NewestFirst limit.toNatClampNeg
      (window db.snapshots nodeId fromMs.toInt toMs.toInt)
      (db.getSnapshots nodeId fromMs toMs limit) := by
  have hwindow : window db.snapshots nodeId fromMs.toInt toMs.toInt = db.snapshots.filter fun s =>
      s.nodeId = nodeId ∧ fromMs ≤ s.timestamp ∧ s.timestamp ≤ toMs := by
    refine List.filter_congr fun s _ => ?_
    simp only [Int64.le_iff_toInt_le]
  rw [hwindow]
  exact Query.isTop_take_insertionSort limit.toNatClampNeg _

/-- What a history request that is let through returns. -/
theorem getNodeHistory_eq_ok {cfg : Config B J} {unicode : Unicode} (db : Database J)
    {nodeId : String} {params : HistoryQuery} (nowMs : Int64) {rangeMs : Int64}
    (hid : isValidNodeId cfg nodeId = true) (hrange : isValidRange cfg params.range = true)
    (hparse : parseRangeToMs unicode params.range = some rangeMs) :
    ∃ history, getNodeHistory cfg unicode db nodeId params nowMs true = some (.ok history) ∧
      history.snapshots =
        db.getSnapshots nodeId (nowMs - rangeMs) nowMs (clamp params.limit 1 1000) := by
  unfold getNodeHistory
  rw [hid, hrange, hparse]
  exact ⟨_, rfl, rfl⟩

namespace Retained

/-- The windows of at most seven days that end now lie within the last seven days. -/
theorem KeepsWeek.window_eq {p : Retained J × List (Snapshot J)} (h : KeepsWeek p) (nodeId : String)
    {fromMs toMs : ℤ} (hfrom : p.1.clock.toInt - sevenDaysMs.toInt ≤ fromMs) :
    window p.1.db.snapshots nodeId fromMs toMs = window p.2 nodeId fromMs toMs := by
  refine Query.filter_eq_of_imp (fun s hs => ?_) h.rows
  rw [decide_eq_true_eq] at hs
  rw [withinWeek, decide_eq_true_eq]
  exact hfrom.trans hs.2.1

/-- **Retention is invisible to the history of the last seven days.** Whatever has been inserted and
cleaned up, a request for at most seven days returns the newest of the snapshots ever inserted in its
window. -/
theorem history_as_if_never_cleaned (cfg : Config B J) (whitespace : Char → Bool) (m : CaseMap)
    (hdash : cfg.alphanumeric '-' = false) (db : Database J) (clock : Int64) (h : 0 ≤ clock.toInt)
    (as : List RetainedAct) (t : Retained J) (rows : List (Snapshot J))
    (hrun : Machine.run (stepRecorded cfg.serde) (init db clock h, db.snapshots) as = some (t, rows))
    (nodeId : String) (params : HistoryQuery) (rangeMs : Int64)
    (hid : isValidNodeId cfg nodeId = true) (hrange : isValidRange cfg params.range = true)
    (hparse : parseRangeToMs (.of whitespace m) params.range = some rangeMs)
    (hweek : rangeMs ≤ 7 * 24 * 3600 * 1000) :
    ∃ history,
      getNodeHistory cfg (.of whitespace m) t.db nodeId params t.clock true = some (.ok history) ∧
      Query.IsTop Snapshot.NewestFirst (clamp params.limit 1 1000).toNatClampNeg
        (window rows nodeId (t.clock.toInt - rangeMs.toInt) t.clock.toInt) history.snapshots := by
  have hstart : KeepsWeek (init db clock h, db.snapshots) :=
    ⟨rfl, fun beforeMs hb => absurd hb (by simp [init, Cleanup.beforeMs?])⟩
  have hend : KeepsWeek (t, rows) :=
    Machine.run_invariant (fun p a p' hp hs => hp.step hs) hstart hrun
  obtain ⟨history, hhistory, hsnapshots⟩ := getNodeHistory_eq_ok t.db t.clock hid hrange hparse
  -- a negative range would wrap around at the end of the clock
  have hpos := nonneg_of_parseRangeToMs hdash hrange hparse
  have hle : rangeMs.toInt ≤ sevenDaysMs.toInt := Int64.le_iff_toInt_le.mp hweek
  have hfrom : (t.clock - rangeMs).toInt = t.clock.toInt - rangeMs.toInt := by
    have hclock := t.clock_nonneg
    have hmax := t.clock.toInt_lt
    have hseven := sevenDaysMs_toInt
    exact Wrapping.toInt_sub (by omega) (by omega)
  refine ⟨history, hhistory, ?_⟩
  rw [hsnapshots, ← hend.window_eq nodeId (Int.sub_le_sub_left hle _), ← hfrom]
  exact getSnapshots_isTop t.db nodeId (t.clock - rangeMs) t.clock (clamp params.limit 1 1000)

/-- At seven days two snapshots arrive late, of the epoch and of a millisecond later, and the cleanup
task makes a pass then and another one a millisecond later. -/
def lateArrivals : List RetainedAct :=
  [.upsertNode "node-01" "host" "online", .insertSnapshot "node-01" 0 "a",
    .insertSnapshot "node-01" 1 "b", .tick, .delete true, .insertSnapshot "node-02" 5 "c",
    .delete true, .wait 604800001, .tick, .delete true]

theorem history_after_cleanup :
    ∃ t rows history,
      Machine.run (stepRecorded Config.byText.serde) (init .empty 604800000 (by decide), [])
        lateArrivals = some (t, rows) ∧
      rows = [⟨"node-01", 0, "a"⟩, ⟨"node-01", 1, "b"⟩] ∧
      t.db.snapshots = [⟨"node-01", 1, "b"⟩] ∧ t.clock = 604800001 ∧
      getNodeHistory .byText Unicode.unicode16 t.db "node-01" ⟨"7d", 360⟩ t.clock true =
        some (.ok history) ∧
      Query.IsTop Snapshot.NewestFirst 360 (window rows "node-01" (t.clock.toInt - 604800000)
        t.clock.toInt) history.snapshots := by
  have heval : (Machine.run (stepRecorded Config.byText.serde)
      (init .empty 604800000 (by decide), []) lateArrivals).map
        (fun p => (p.2, p.1.db.snapshots, p.1.clock)) =
      some ([⟨"node-01", 0, "a"⟩, ⟨"node-01", 1, "b"⟩], [⟨"node-01", 1, "b"⟩], 604800001) := by
    decide
  obtain ⟨⟨t, rows⟩, hrun, hresult⟩ := Option.map_eq_some_iff.mp heval
  obtain ⟨hrows, hsnapshots, hclock⟩ : rows = _ ∧ t.db.snapshots = _ ∧ t.clock = _ := by
    simpa using hresult
  obtain ⟨history, hhistory, htop⟩ := history_as_if_never_cleaned .byText Text.whiteSpace
    (.unicode16 Char.isAlpha fun _ => false) (by decide) .empty 604800000 (by decide) lateArrivals
    t rows hrun "node-01" ⟨"7d", 360⟩ 604800000 (by decide) (by decide) (by decide) (by decide)
  exact ⟨t, rows, history, hrun, hrows, hsnapshots, hclock, hhistory, htop⟩

end Retained

end Hakuraku.Server
