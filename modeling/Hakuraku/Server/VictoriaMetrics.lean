import Hakuraku.Lib.Json

/-!
# The metrics for VictoriaMetrics

Reference: `pulse-server/src/main.rs`, `serialize_to_vm_jsonl`.

For every snapshot the ingestion worker posts a text with a line for each exported field of the stats.
A line is a JSON object with the name of the metric, the id of the node, the value and the timestamp.
The ids come from the agents, so a line has to survive every id: the reader must find as many lines as
there were fields, each with the id that was written (`serializeToVmJsonl_lines`). The objects are
printed with their keys in order.
-/

namespace Hakuraku.Server

open Json

variable {F : Type} (floats : Floats F)

/-! ## Serialization -/

/-- The object of a metric. -/
def metricObject (nodeId : String) (timestampMs : Int64) (name : String) (val : F) : Value F :=
  .object
    [("metric", .object [("__name__", .string name), ("node_id", .string nodeId)]),
      ("timestamps", .array [.number (.ofI64 timestampMs)]),
      ("values", .array [.number (.float val)])]

/-- `add_metric` for a field that may be missing. -/
def addMetric (nodeId : String) (timestampMs : Int64) (name : String) (val : Option F)
    (lines : List (List Char)) : List (List Char) :=
  match val with
  | some val => lines ++ [print floats (metricObject nodeId timestampMs name val)]
  | none => lines

/-- `lines` after all fields. -/
def metricLines (nodeId : String) (timestampMs : Int64) (stats : Value F) : List (List Char) :=
  match stats with
  | .object _ =>
    let asF64 key := (stats.get key).bind (Value.asF64 floats)
    let asU64 key := ((stats.get key).bind Value.asU64).map floats.ofU64
    let add := addMetric floats nodeId timestampMs
    let lines := add "hakuraku_cpu_percent" (asF64 "cpu_percent") []
    let lines := add "hakuraku_mem_total_bytes" (asU64 "mem_total") lines
    let lines := add "hakuraku_mem_used_bytes" (asU64 "mem_used") lines
    let lines := add "hakuraku_mem_free_bytes" (asU64 "mem_free") lines
    let lines := add "hakuraku_mem_available_bytes" (asU64 "mem_available") lines
    let lines := add "hakuraku_swap_total_bytes" (asU64 "swap_total") lines
    let lines := add "hakuraku_swap_used_bytes" (asU64 "swap_used") lines
    let lines := add "hakuraku_disk_read_bytes_sec" (asU64 "disk_read_bytes_sec") lines
    let lines := add "hakuraku_disk_write_bytes_sec" (asU64 "disk_write_bytes_sec") lines
    let lines := add "hakuraku_tcp_connections" (asU64 "tcp_connections") lines
    let lines := add "hakuraku_udp_connections" (asU64 "udp_connections") lines
    add "hakuraku_uptime_seconds" (asU64 "uptime_seconds") lines
  | _ => []

/-- The text that is posted for a snapshot. -/
def serializeToVmJsonl (nodeId : String) (timestampMs : Int64) (stats : Value F) : List Char :=
  ['\n'].intercalate (metricLines floats nodeId timestampMs stats) ++ ['\n']

/-! ## What the text is to say -/

/-- How the value of a field is read: any number, or an unsigned integer that becomes a float. -/
inductive NumericKind where
  | f64
  | u64

def NumericKind.read : NumericKind → Value F → Option F
  | .f64, v => v.asF64 floats
  | .u64, v => v.asU64.map floats.ofU64

/-- A field of the stats that is exported, and its metric. -/
structure ExportedField where
  key : String
  kind : NumericKind
  name : String

/-- The exported fields in their order. -/
def exportedFields : List ExportedField :=
  [⟨"cpu_percent", .f64, "hakuraku_cpu_percent"⟩,
    ⟨"mem_total", .u64, "hakuraku_mem_total_bytes"⟩,
    ⟨"mem_used", .u64, "hakuraku_mem_used_bytes"⟩,
    ⟨"mem_free", .u64, "hakuraku_mem_free_bytes"⟩,
    ⟨"mem_available", .u64, "hakuraku_mem_available_bytes"⟩,
    ⟨"swap_total", .u64, "hakuraku_swap_total_bytes"⟩,
    ⟨"swap_used", .u64, "hakuraku_swap_used_bytes"⟩,
    ⟨"disk_read_bytes_sec", .u64, "hakuraku_disk_read_bytes_sec"⟩,
    ⟨"disk_write_bytes_sec", .u64, "hakuraku_disk_write_bytes_sec"⟩,
    ⟨"tcp_connections", .u64, "hakuraku_tcp_connections"⟩,
    ⟨"udp_connections", .u64, "hakuraku_udp_connections"⟩,
    ⟨"uptime_seconds", .u64, "hakuraku_uptime_seconds"⟩]

/-- The value of a field, if the stats have it and it is a number of its kind. -/
def ExportedField.value (field : ExportedField) (stats : Value F) : Option F :=
  (stats.get field.key).bind (field.kind.read floats)

/-- A value of a metric at a time. -/
structure Sample (F : Type) where
  name : String
  nodeId : String
  value : F
  timestampMs : Int64
deriving DecidableEq

/-- The sample of a field that has a value. -/
def ExportedField.sample (nodeId : String) (timestampMs : Int64) (stats : Value F)
    (field : ExportedField) : Option (Sample F) :=
  (field.value floats stats).map fun value => ⟨field.name, nodeId, value, timestampMs⟩

/-- The sample that a reader takes from a line. -/
def decodeLine (line : List Char) : Option (Sample F) := do
  let v ← parse floats line
  let metric ← v.get "metric"
  let name ← (← metric.get "__name__").asStr
  let nodeId ← (← metric.get "node_id").asStr
  let value ← (← (← v.get "values").single).asF64 floats
  let timestampMs ← (← (← v.get "timestamps").single).asI64
  some ⟨name, nodeId, value, timestampMs⟩

/-! ## What the text says -/

/-- The code goes through the exported fields. -/
theorem metricLines_eq_foldl (nodeId : String) (timestampMs : Int64) (stats : Value F) :
    metricLines floats nodeId timestampMs stats =
      exportedFields.foldl (fun lines field =>
        addMetric floats nodeId timestampMs field.name (field.value floats stats) lines) [] := by
  cases stats with
  | object fields =>
    have hu64 : ∀ key, ((Value.object fields).get key).bind (NumericKind.u64.read floats) =
        (((Value.object fields).get key).bind Value.asU64).map floats.ofU64 := by
      intro key
      rw [Option.map_bind]
      rfl
    simp only [exportedFields, List.foldl_cons, List.foldl_nil, ExportedField.value, hu64]
    rfl
  | _ => rfl

/-- The line of a sample. -/
def Sample.line (sample : Sample F) : List Char :=
  print floats (metricObject sample.nodeId sample.timestampMs sample.name sample.value)

/-- Every field that has a value adds its line, and no other field adds one. -/
theorem foldl_addMetric (nodeId : String) (timestampMs : Int64) (stats : Value F)
    (fields : List ExportedField) (lines : List (List Char)) :
    fields.foldl (fun lines field =>
        addMetric floats nodeId timestampMs field.name (field.value floats stats) lines) lines =
      lines ++ (fields.filterMap (ExportedField.sample floats nodeId timestampMs stats)).map
        (Sample.line floats) := by
  induction fields generalizing lines with
  | nil => exact (List.append_nil lines).symm
  | cons field fields ih =>
    rw [List.foldl_cons, ih, List.filterMap_cons, ExportedField.sample]
    cases field.value floats stats with
    | none => rfl
    | some value =>
      rw [addMetric, Option.map_some, List.map_cons, List.append_assoc]
      rfl

theorem metricLines_eq_map (nodeId : String) (timestampMs : Int64) (stats : Value F) :
    metricLines floats nodeId timestampMs stats =
      (exportedFields.filterMap (ExportedField.sample floats nodeId timestampMs stats)).map
        (Sample.line floats) := by
  rw [metricLines_eq_foldl, foldl_addMetric]
  exact List.nil_append _

/-- A line is read as its sample. -/
theorem decodeLine_line (sample : Sample F) : decodeLine floats (sample.line floats) = some sample := by
  have htimestamp := asI64_ofI64 (F := F) sample.timestampMs
  rw [decodeLine, Sample.line, parse_print]
  show ((Value.number (Number.ofI64 sample.timestampMs) : Value F).asI64.bind fun timestampMs =>
    some (Sample.mk sample.name sample.nodeId sample.value timestampMs)) = some sample
  rw [htimestamp]
  rfl

theorem newline_notMem_line (sample : Sample F) : '\n' ∉ sample.line floats := by
  intro h
  exact absurd (le_toNat_of_mem_print floats _ _ h) (by decide)

theorem line_ne_nil (sample : Sample F) : sample.line floats ≠ [] := List.cons_ne_nil _ _

/-- **The lines of the text are the samples of the stats.** For every id, timestamp and stats, the
non-empty lines are read as the samples of the exported fields that the stats have with a number of
their kind, one for each in their order, with this id and this timestamp; and the text ends with one
line feed. -/
theorem serializeToVmJsonl_lines (nodeId : String) (timestampMs : Int64) (stats : Value F) :
    (((serializeToVmJsonl floats nodeId timestampMs stats).splitOn '\n').filter (· ≠ [])).map
        (decodeLine floats) =
      (exportedFields.filterMap (ExportedField.sample floats nodeId timestampMs stats)).map some ∧
    ['\n'] <:+ serializeToVmJsonl floats nodeId timestampMs stats ∧
    ¬ ['\n', '\n'] <:+ serializeToVmJsonl floats nodeId timestampMs stats := by
  have hnewline : ∀ line ∈ metricLines floats nodeId timestampMs stats, '\n' ∉ line := by
    rw [metricLines_eq_map]
    exact List.forall_mem_map.mpr fun sample _ => newline_notMem_line floats sample
  have hne : [] ∉ metricLines floats nodeId timestampMs stats := by
    rw [metricLines_eq_map, List.mem_map]
    rintro ⟨sample, -, hnil⟩
    exact line_ne_nil floats sample hnil
  refine ⟨?_, List.suffix_append _ _, Text.not_isSuffix_joined hnewline hne⟩
  rw [serializeToVmJsonl, Text.filter_splitOn_joined hnewline hne, metricLines_eq_map, List.map_map]
  exact List.map_congr_left fun sample _ => decodeLine_line floats sample

/-- The floats that are whole numbers, with their texts: `5.0`. -/
def wholeFloats : Floats ℤ where
  ofU64 n := n.toNat
  ofI64 n := n.toInt
  print n := (toString n).toList ++ ['.', '0']
  parse cs :=
    if cs.drop (cs.length - 2) = ['.', '0'] then Decimal.parseInt (cs.take (cs.length - 2)) else none
  isNumberChar_of_mem_print n c hc := by
    rcases List.mem_append.mp hc with hc | hc
    · rcases Decimal.isDigit_or_eq_of_mem_toString hc with hdigit | rfl
      · exact isNumberChar_of_isDigit hdigit
      · rfl
    · rcases List.mem_pair.mp hc with rfl | rfl <;> rfl
  exists_mem_print n := ⟨'.', by simp, rfl⟩
  parse_print n := by
    have hlength : ((toString n).toList ++ ['.', '0']).length - 2 = (toString n).toList.length := by simp
    rw [hlength, List.drop_left, List.take_left, if_pos rfl, Decimal.parseInt_toString]

theorem serializeToVmJsonl_lines_of_quoted_id :
    (((serializeToVmJsonl wholeFloats "web\"\n-1" (-5) (.object
        [("cpu_percent", .number (.float 12)), ("mem_used", .number (.posInt 4096)),
          ("uptime_seconds", .string "7")])).splitOn '\n').filter (· ≠ [])).map
        (decodeLine wholeFloats) =
      [some ⟨"hakuraku_cpu_percent", "web\"\n-1", 12, -5⟩,
        some ⟨"hakuraku_mem_used_bytes", "web\"\n-1", 4096, -5⟩] := by
  refine (serializeToVmJsonl_lines wholeFloats _ _ _).1.trans ?_
  rfl

end Hakuraku.Server
