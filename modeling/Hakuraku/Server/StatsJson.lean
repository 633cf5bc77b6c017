import Hakuraku.Agent.Collector
import Hakuraku.Lib.JsonObject
import Hakuraku.Server.Inserts
import Hakuraku.Server.VictoriaMetrics

/-!
# The metrics as JSON

Reference: `pulse-server/src/grpc.rs`, `StatsSerializable` and its parts, and the `Stats` arm of
`stream_telemetry`; `pulse-server/src/db.rs`, `insert_snapshot`.

The server passes the metrics of a message on as one JSON value, to the registry, the subscribers and
the exporter, and as its text to the worker, which reads the text again before it stores the value.
`jsonSerde` is that serializer. A map of `serde_json` keeps its keys in order, and a double that is
no finite number becomes `null`. `from_str` reads the text of a double with best-effort precision
only, which the parameter `reread` stands for.

The text loses nothing else (`toText_statsValue_inj`), so what a run stores are the metrics of
messages that it has received, up to the precision of the doubles, and never the `null` that
`insert_snapshot` falls back to (`stored_rows_are_received`).
-/

namespace Hakuraku.Server

open Json

/-! ## Serialization -/

/-- `f64` as `serde_json` sees it. -/
structure Doubles (D F : Type) where
  floats : Floats F
  /-- The finite double, `none` for a NaN or an infinity. -/
  finite : D → Option F
  /-- What `from_str` reads in the text of a finite double, with its best-effort precision. -/
  reread : F → F

variable {D F : Type} (doubles : Doubles D F)

/-- An `f64` as a value. -/
def ofF64 (x : D) : Value F :=
  match doubles.finite x with
  | some x => .number (.float x)
  | none => .null

/-- A `u64` as a value. -/
def ofU64 (n : UInt64) : Value F := .number (.posInt n)

/-- A `u32` as a value. -/
def ofU32 (n : UInt32) : Value F := .number (.posInt n.toUInt64)

/-- An `i32` as a value. -/
def ofI32 (n : Int32) : Value F := .number (.ofI64 n.toInt64)

/-- `NetIfaceSerializable`. -/
def netIfaceFields (n : Agent.NetworkInterface) : List (String × Value F) :=
  [("name", .string n.name),
    ("rx_bytes_sec", ofU64 n.rxBytesSec),
    ("tx_bytes_sec", ofU64 n.txBytesSec),
    ("rx_bytes_total", ofU64 n.rxBytesTotal),
    ("tx_bytes_total", ofU64 n.txBytesTotal)]

/-- `TempSerializable`. -/
def tempFields (t : Agent.TemperatureSensor) : List (String × Value F) :=
  [("label", .string t.label), ("temp_millicelsius", ofI32 t.tempMillicelsius)]

/-- `StatsSerializable`. -/
def statsFields (s : Agent.Metrics D) : List (String × Value F) :=
  [("cpu_percent", ofF64 doubles s.cpuPercent),
    ("cpu_per_core", .array (s.cpuPerCore.map (ofF64 doubles))),
    ("load_avg_1", ofF64 doubles s.loadAvg1),
    ("load_avg_5", ofF64 doubles s.loadAvg5),
    ("load_avg_15", ofF64 doubles s.loadAvg15),
    ("mem_total", ofU64 s.memTotal),
    ("mem_used", ofU64 s.memUsed),
    ("mem_free", ofU64 s.memFree),
    ("mem_available", ofU64 s.memAvailable),
    ("mem_buffers", ofU64 s.memBuffers),
    ("mem_cached", ofU64 s.memCached),
    ("swap_total", ofU64 s.swapTotal),
    ("swap_used", ofU64 s.swapUsed),
    ("disk_read_bytes_sec", ofU64 s.diskReadBytesSec),
    ("disk_write_bytes_sec", ofU64 s.diskWriteBytesSec),
    ("net_interfaces", .array (s.netInterfaces.map fun n => .ofFields (netIfaceFields n))),
    ("tcp_connections", ofU32 s.tcpConnections),
    ("udp_connections", ofU32 s.udpConnections),
    ("uptime_seconds", ofU64 s.uptimeSeconds),
    ("temperatures", .array (s.temperatures.map fun t => .ofFields (tempFields t)))]

/-- `serde_json::to_value(StatsSerializable::from(&stats))`. -/
def statsValue (s : Agent.Metrics D) : Value F := .ofFields (statsFields doubles s)

/-- `serde_json` as the server uses it. `from_str` is given the texts of `to_string` only. -/
def jsonSerde (jsonb : Value F → Value F) : Serde (Agent.Metrics D) (Value F) where
  toValue s := some (statsValue doubles s)
  toText v := String.ofList (print doubles.floats v)
  fromStr text := (parse doubles.floats text.toList).map (Value.mapFloats doubles.reread)
  null := .null
  jsonb := jsonb

/-! ## The text says what the metrics are -/

/-- The metrics, with the doubles that are no finite numbers left out. -/
def finiteMetrics (s : Agent.Metrics D) : Agent.Metrics (Option F) :=
  { cpuPercent := doubles.finite s.cpuPercent
    cpuPerCore := s.cpuPerCore.map doubles.finite
    loadAvg1 := doubles.finite s.loadAvg1
    loadAvg5 := doubles.finite s.loadAvg5
    loadAvg15 := doubles.finite s.loadAvg15
    memTotal := s.memTotal, memUsed := s.memUsed, memFree := s.memFree
    memAvailable := s.memAvailable, memBuffers := s.memBuffers, memCached := s.memCached
    swapTotal := s.swapTotal, swapUsed := s.swapUsed
    diskReadBytesSec := s.diskReadBytesSec, diskWriteBytesSec := s.diskWriteBytesSec
    netInterfaces := s.netInterfaces
    tcpConnections := s.tcpConnections, udpConnections := s.udpConnections
    uptimeSeconds := s.uptimeSeconds
    temperatures := s.temperatures }

@[simp] theorem ofF64_inj {x y : D} :
    ofF64 doubles x = ofF64 doubles y ↔ doubles.finite x = doubles.finite y := by
  rw [ofF64, ofF64]
  cases doubles.finite x <;> cases doubles.finite y <;> simp

@[simp] theorem ofU64_inj {m n : UInt64} : (ofU64 m : Value F) = ofU64 n ↔ m = n := by
  simp [ofU64]

@[simp] theorem ofU32_inj {m n : UInt32} : (ofU32 m : Value F) = ofU32 n ↔ m = n := by
  simp [ofU32, UInt32.toUInt64_inj]

@[simp] theorem ofI32_inj {m n : Int32} : (ofI32 m : Value F) = ofI32 n ↔ m = n := by
  refine ⟨fun h => ?_, congrArg _⟩
  have hI64 := congrArg Value.asI64 h
  rw [ofI32, ofI32, asI64_ofI64, asI64_ofI64, Option.some.injEq] at hI64
  simpa using congrArg Int64.toInt32 hI64

theorem ofFields_netIfaceFields_inj {n n' : Agent.NetworkInterface} :
    (Value.ofFields (netIfaceFields n) : Value F) = .ofFields (netIfaceFields n') ↔ n = n' := by
  have hnodup : ((netIfaceFields n : List (String × Value F)).map (·.1)).Nodup := by
    simp [netIfaceFields]
  have hkeys : (netIfaceFields n : List (String × Value F)).map (·.1) =
      (netIfaceFields n' : List (String × Value F)).map (·.1) := rfl
  rw [ofFields_inj hkeys hnodup]
  cases n
  cases n'
  simp [netIfaceFields]

theorem ofFields_tempFields_inj {t t' : Agent.TemperatureSensor} :
    (Value.ofFields (tempFields t) : Value F) = .ofFields (tempFields t') ↔ t = t' := by
  have hnodup : ((tempFields t : List (String × Value F)).map (·.1)).Nodup := by
    simp [tempFields]
  have hkeys : (tempFields t : List (String × Value F)).map (·.1) =
      (tempFields t' : List (String × Value F)).map (·.1) := rfl
  rw [ofFields_inj hkeys hnodup]
  cases t
  cases t'
  simp [tempFields]

/-- The keys of the stats. -/
def statsKeys : List String :=
  ["cpu_percent", "cpu_per_core", "load_avg_1", "load_avg_5", "load_avg_15", "mem_total", "mem_used",
    "mem_free", "mem_available", "mem_buffers", "mem_cached", "swap_total", "swap_used",
    "disk_read_bytes_sec", "disk_write_bytes_sec", "net_interfaces", "tcp_connections",
    "udp_connections", "uptime_seconds", "temperatures"]

theorem nodup_statsKeys : statsKeys.Nodup := by decide

/-- Equal lists of parts are lists of equal parts. -/
theorem map_eq_map_iff_of {α β γ : Type} {f : α → β} {g : α → γ} (h : ∀ x y, f x = f y ↔ g x = g y)
    {l l' : List α} : l.map f = l'.map f ↔ l.map g = l'.map g := by
  induction l generalizing l' with
  | nil => cases l' <;> simp
  | cons x l ih => cases l' <;> simp [h, ih]

/-- The value of the stats is determined by their finite part, and determines it. -/
theorem statsValue_inj {s s' : Agent.Metrics D} :
    statsValue doubles s = statsValue doubles s' ↔
      finiteMetrics doubles s = finiteMetrics doubles s' := by
  have hkeys : (statsFields doubles s).map (·.1) = (statsFields doubles s').map (·.1) := rfl
  rw [statsValue, statsValue, ofFields_inj hkeys nodup_statsKeys]
  have hcores : s.cpuPerCore.map (ofF64 doubles) = s'.cpuPerCore.map (ofF64 doubles) ↔
      s.cpuPerCore.map doubles.finite = s'.cpuPerCore.map doubles.finite :=
    map_eq_map_iff_of fun x y => ofF64_inj doubles
  have hnet : s.netInterfaces.map (fun n => (Value.ofFields (netIfaceFields n) : Value F)) =
      s'.netInterfaces.map (fun n => .ofFields (netIfaceFields n)) ↔
        s.netInterfaces.map id = s'.netInterfaces.map id :=
    map_eq_map_iff_of fun n n' => ofFields_netIfaceFields_inj
  have htemp : s.temperatures.map (fun t => (Value.ofFields (tempFields t) : Value F)) =
      s'.temperatures.map (fun t => .ofFields (tempFields t)) ↔
        s.temperatures.map id = s'.temperatures.map id :=
    map_eq_map_iff_of fun t t' => ofFields_tempFields_inj
  rw [List.map_id, List.map_id] at hnet htemp
  simp [statsFields, finiteMetrics, hcores, hnet, htemp]

section Text

variable (jsonb : Value F → Value F)

theorem parse_toText (v : Value F) :
    parse doubles.floats ((jsonSerde doubles jsonb).toText v).toList = some v := by
  show parse doubles.floats (String.ofList (print doubles.floats v)).toList = some v
  rw [String.toList_ofList, parse_print]

/-- The worker reads the value that the stream has written, but for the precision of the doubles. -/
theorem fromStr_toText (v : Value F) :
    (jsonSerde doubles jsonb).fromStr ((jsonSerde doubles jsonb).toText v) =
      some (v.mapFloats doubles.reread) := by
  show (parse doubles.floats ((jsonSerde doubles jsonb).toText v).toList).map _ = _
  rw [parse_toText]
  rfl

/-- **The text of the stats loses nothing but the doubles that are no finite numbers.** -/
theorem toText_statsValue_inj {s s' : Agent.Metrics D} :
    (jsonSerde doubles jsonb).toText (statsValue doubles s) =
        (jsonSerde doubles jsonb).toText (statsValue doubles s') ↔
      finiteMetrics doubles s = finiteMetrics doubles s' := by
  rw [← statsValue_inj]
  refine ⟨fun h => ?_, congrArg _⟩
  have hread := congrArg (fun text => parse doubles.floats text.toList) h
  simpa only [parse_toText, Option.some.injEq] using hread

/-- The doubles as `from_str` reads them. -/
def Doubles.rereading : Doubles D F :=
  { doubles with finite := fun x => (doubles.finite x).map doubles.reread }

theorem mapFloats_ofF64 (x : D) :
    (ofF64 doubles x).mapFloats doubles.reread = ofF64 doubles.rereading x := by
  have hfinite : doubles.rereading.finite x = (doubles.finite x).map doubles.reread := rfl
  rw [ofF64, ofF64, hfinite]
  cases doubles.finite x <;> rfl

theorem mapFloats_ofI32 (n : Int32) (f : F → F) : (ofI32 n : Value F).mapFloats f = ofI32 n := by
  rw [ofI32, Number.ofI64]
  split <;> rfl

/-- What the worker reads has every double reread and everything else as it was. -/
theorem mapFloats_statsValue (s : Agent.Metrics D) :
    (statsValue doubles s).mapFloats doubles.reread = statsValue doubles.rereading s := by
  have hcores : (Value.array (s.cpuPerCore.map (ofF64 doubles))).mapFloats doubles.reread =
      .array (s.cpuPerCore.map (ofF64 doubles.rereading)) := by
    rw [mapFloats_array, List.map_map]
    exact congrArg Value.array (List.map_congr_left fun x _ => mapFloats_ofF64 doubles x)
  have hnet : (Value.array (s.netInterfaces.map fun n => .ofFields (netIfaceFields n))).mapFloats
      doubles.reread = .array (s.netInterfaces.map fun n => .ofFields (netIfaceFields n)) := by
    rw [mapFloats_array, List.map_map]
    exact congrArg Value.array (List.map_congr_left fun n _ => mapFloats_ofFields ..)
  have htemp : (Value.array (s.temperatures.map fun t => .ofFields (tempFields t))).mapFloats
      doubles.reread = .array (s.temperatures.map fun t => .ofFields (tempFields t)) := by
    rw [mapFloats_array, List.map_map]
    refine congrArg Value.array (List.map_congr_left fun t _ => ?_)
    rw [Function.comp_apply, mapFloats_ofFields]
    simp [tempFields, mapFloats_ofI32, Value.mapFloats]
  rw [statsValue, statsValue, mapFloats_ofFields, statsFields, statsFields]
  simp only [List.map_cons, List.map_nil, mapFloats_ofF64, hcores, hnet, htemp]
  rfl

end Text

/-! ## What is stored -/

/-- The messages with stats that a run receives. -/
def statsReceived {B : Type} (as : List (Act B)) : List (NodeStats B) :=
  as.filterMap fun
    | .receive _ (.message (some (.stats stats))) => some stats
    | _ => none

section Run

variable {B J : Type} {cfg : Config B J} {p p' t : State J} {a : Act B} {as : List (Act B)}

/-- The item that a message becomes. -/
def itemOf (cfg : Config B J) (stats : NodeStats B) : Option (StatsItem J) :=
  (cfg.serde.toValue stats.metrics).map fun statsJson =>
    ⟨stats.nodeId, stats.timestampMs, cfg.serde.toText statsJson, statsJson⟩

/-- A step accepts nothing but the message that it receives. -/
theorem accepted_step (h : step cfg p a = some p') :
    ∃ l : List (NodeStats B), l.Sublist (statsReceived [a]) ∧
        p'.1.accepted = p.1.accepted ++ l.filterMap (itemOf cfg) := by
  obtain ⟨s, db⟩ := p
  have hnothing : ∀ {p' : State J}, p'.1.receipts = s.receipts →
      ∃ l : List (NodeStats B), l.Sublist (statsReceived [a]) ∧
        p'.1.accepted = s.accepted ++ l.filterMap (itemOf cfg) := by
    intro p' hreceipts
    refine ⟨[], List.nil_sublist _, ?_⟩
    rw [Process.accepted, Process.accepted, hreceipts]
    exact (List.append_nil _).symm
  cases a with
  | receive i inbound =>
    obtain ⟨x, hx, -, s', hs', rfl⟩ := step_receive_iff.mp h
    rcases Process.receive_cases hs' with
      rfl | rfl | ⟨stats, statsJson, rfl, hid, hvalue, rfl⟩ | ⟨hb, rfl, -, rfl⟩ | ⟨probe, rfl, hitem⟩
    · exact hnothing rfl
    · exact hnothing rfl
    · refine ⟨[stats], List.Sublist.refl _, ?_⟩
      simp [Process.accepted, Process.setStream, itemOf, hvalue, hid]
    · refine ⟨[], List.nil_sublist _, ?_⟩
      simp [Process.accepted, Process.setStream]
    · obtain ⟨shards, drops, rfl⟩ := Process.sendToWorker_eq hitem
      exact hnothing rfl
  | tick | visit | scanned | persist | announce =>
    obtain ⟨nodes, liveness, broadcasts, dbErrors, heq⟩ := step_of_liveness h rfl
    exact hnothing (by rw [heq])
  | _ =>
    cases step_effect h with
    | other _ hreceipts => exact hnothing hreceipts

/-- **What a run accepts are messages that it receives**, in their order. -/
theorem accepted_of_run (hrun : Machine.run (step cfg) p as = some t) :
    ∃ l : List (NodeStats B), l.Sublist (statsReceived as) ∧
      t.1.accepted = p.1.accepted ++ l.filterMap (itemOf cfg) := by
  induction as generalizing p with
  | nil =>
    obtain rfl := Option.some.inj hrun
    exact ⟨[], List.nil_sublist _, (List.append_nil _).symm⟩
  | cons a as ih =>
    obtain ⟨p', hs, hrun⟩ := Machine.run_cons_eq_some.mp hrun
    obtain ⟨l, hl, hacc⟩ := accepted_step hs
    obtain ⟨l', hl', hacc'⟩ := ih hrun
    have hreceived : statsReceived (a :: as) = statsReceived [a] ++ statsReceived as :=
      List.filterMap_append (l := [a])
    refine ⟨l ++ l', hreceived ▸ hl.append hl', ?_⟩
    rw [hacc', hacc, List.filterMap_append, List.append_assoc]

end Run

section Stored

variable (jsonb : Value F → Value F) (hash : String → ℕ) (alphanumeric : Char → Bool)

/-- The row of a message: its metrics, with the doubles as `from_str` reads them. -/
def rowOf (stats : NodeStats (Agent.Metrics D)) : Snapshot (Value F) :=
  ⟨stats.nodeId, stats.timestampMs, jsonb (statsValue doubles.rereading stats.metrics)⟩

/-- The item of a message becomes its row. -/
theorem snapshot_itemOf (stats : NodeStats (Agent.Metrics D)) :
    (itemOf ⟨jsonSerde doubles jsonb, hash, alphanumeric⟩ stats).map
        (·.snapshot ⟨jsonSerde doubles jsonb, hash, alphanumeric⟩) =
      some (rowOf doubles jsonb stats) := by
  have hread := fromStr_toText doubles jsonb (statsValue doubles stats.metrics)
  refine congrArg some ?_
  rw [rowOf]
  refine congrArg (Snapshot.mk _ _) ?_
  show jsonb (((jsonSerde doubles jsonb).fromStr ((jsonSerde doubles jsonb).toText
    (statsValue doubles stats.metrics))).getD .null) = _
  rw [hread, mapFloats_statsValue]
  rfl

/-- **Every row that a run stores has the metrics of a message of its node.** In every run, the rows
of `snapshots` are, apart from those that were there before, rows of messages that were received,
one for each message at most, with the node, the timestamp and the metrics of the message, whose
doubles alone have been through `from_str`. -/
theorem stored_rows_are_received {db : Database (Value F)} {clock : Int64}
    {as : List (Act (Agent.Metrics D))} {t : State (Value F)}
    (hrun : Machine.run (step ⟨jsonSerde doubles jsonb, hash, alphanumeric⟩)
      (Process.boot db clock, db) as = some t) :
    (t.2.snapshots : Multiset (Snapshot (Value F))) ≤
      db.snapshots + ((statsReceived as).map (rowOf doubles jsonb) : List _) := by
  obtain ⟨items, lost, haccepted, hstock, -⟩ := accounted_of_run hrun
  obtain ⟨l, hl, hacc⟩ := accepted_of_run hrun
  have hrows : (items.map (·.snapshot ⟨jsonSerde doubles jsonb, hash, alphanumeric⟩)) =
      (l.map (rowOf doubles jsonb) : List (Snapshot (Value F))) := by
    have hitems : items =
        (l.filterMap (itemOf ⟨jsonSerde doubles jsonb, hash, alphanumeric⟩) : List _) := by
      rw [hacc, ← Multiset.coe_add] at haccepted
      exact (add_left_cancel haccepted).symm
    rw [hitems, Multiset.map_coe, List.map_filterMap]
    simp only [snapshot_itemOf, List.filterMap_eq_map']
  rw [hrows, stock, stock, uninserted_boot, Multiset.map_zero, add_zero, add_assoc] at hstock
  calc (t.2.snapshots : Multiset (Snapshot (Value F)))
      ≤ db.snapshots + (l.map (rowOf doubles jsonb) : List _) :=
        Multiset.le_iff_exists_add.mpr ⟨_, hstock.symm⟩
    _ ≤ db.snapshots + ((statsReceived as).map (rowOf doubles jsonb) : List _) :=
        add_le_add_right (Multiset.coe_le.mpr (hl.map _).subperm) _

end Stored

/-- Doubles that are whole numbers or no finite numbers. -/
def wholeDoubles : Doubles (Option ℤ) ℤ := ⟨wholeFloats, id, id⟩

/-- As `wholeDoubles`, with a reader that is off by one. -/
def unsteadyDoubles : Doubles (Option ℤ) ℤ := { wholeDoubles with reread := (· + 1) }

/-- The metrics of a node with two cores, of which one is at no finite percentage. -/
def twoCores : Agent.Metrics (Option ℤ) :=
  { cpuPercent := some 12, cpuPerCore := [some 24, none]
    loadAvg1 := some 1, loadAvg5 := some 1, loadAvg15 := some 0
    memTotal := 8192, memUsed := 4096, memFree := 4096, memAvailable := 6144
    memBuffers := 0, memCached := 2048, swapTotal := 0, swapUsed := 0
    diskReadBytesSec := 512, diskWriteBytesSec := 0
    netInterfaces := [⟨"eth0", 10, 20, 1000, 2000⟩]
    tcpConnections := 3, udpConnections := 1, uptimeSeconds := 60
    temperatures := [⟨"cpu\"0", -45000⟩] }

/-- A snapshot is received and stored. -/
def twoCoresRun : List (Act (Agent.Metrics (Option ℤ))) :=
  [.openStream "node-01", .receive 0 (.message (some (.stats ⟨"node-01", 1000, twoCores⟩))),
    .enqueue 0, .workerRecv 3, .workerUpsert 3 true, .workerInsert 3 true]

theorem stored_rows_are_received_two_cores :
    ∃ t, Machine.run (step ⟨jsonSerde unsteadyDoubles id, String.length, Char.isAlphanum⟩)
        (Process.boot .empty 0, .empty) twoCoresRun = some t ∧ t.2.snapshots.length = 1 ∧
      (t.2.snapshots : Multiset (Snapshot (Value ℤ))) ≤
        ([⟨"node-01", 1000, statsValue unsteadyDoubles.rereading twoCores⟩] :
          List (Snapshot (Value ℤ))) := by
  have hcounts : (Machine.run (step ⟨jsonSerde unsteadyDoubles id, String.length, Char.isAlphanum⟩)
      (Process.boot .empty 0, .empty) twoCoresRun).map (·.2.snapshots.length) = some 1 := by
    decide +kernel
  obtain ⟨t, hrun, hlength⟩ := Option.map_eq_some_iff.mp hcounts
  have hle := stored_rows_are_received unsteadyDoubles id String.length Char.isAlphanum hrun
  exact ⟨t, hrun, hlength, hle.trans_eq (zero_add _)⟩

end Hakuraku.Server
