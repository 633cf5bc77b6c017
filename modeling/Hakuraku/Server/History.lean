import Hakuraku.Lib.Text
import Hakuraku.Server.Api

/-!
# The list and history endpoints

Reference: `pulse-server/src/api.rs`, `list_nodes`, `get_node_history` and `parse_range_to_ms`;
`pulse-server/src/db.rs`, `get_snapshots`.

`list_nodes` answers from the registry alone. `get_node_history` checks the node id like `get_node`
does, then the text of the range, and reads the snapshots of the range from the database. A panic is
`none`: `split_at` panics within a character.
-/

namespace Hakuraku.Server

variable {B J : Type}

/-- The response of `list_nodes`. -/
structure NodeList (J : Type) where
  nodes : List (NodeInfo J)
  count : ℕ

/-- `list_nodes`. -/
def listNodes (nodes : Registry J) : NodeList J :=
  let infos := nodes.entries.map (·.2)
  ⟨infos, infos.length⟩

/-- The functions of `str` that depend on the Unicode tables. -/
structure Unicode where
  /-- `char::is_whitespace`, which `str::trim` goes by. -/
  whitespace : Char → Bool
  /-- `str::to_lowercase`. -/
  lowercase : List Char → List Char

/-- Unicode as far as ASCII text goes. -/
def Unicode.ascii : Unicode := ⟨Char.isWhitespace, List.map Char.toLower⟩

/-- `str::trim`. -/
def Unicode.trim (unicode : Unicode) (cs : List Char) : List Char :=
  ((cs.dropWhile unicode.whitespace).reverse.dropWhile unicode.whitespace).reverse

/-- `parse_range_to_ms`. The products wrap. -/
def parseRangeToMs (unicode : Unicode) (range : String) : Option Int64 := do
  let range := String.ofList (unicode.lowercase (unicode.trim range.toList))
  let (numStr, unit) ← Text.splitAt range.toList (range.utf8ByteSize - 1)
  let num := (Decimal.parseI64 (String.ofList numStr)).getD 1
  match unit with
  | ['m'] => some (num * 60 * 1000)
  | ['h'] => some (num * 3600 * 1000)
  | ['d'] => some (num * 86400 * 1000)
  | _ => some (3600 * 1000)

/-- `get_snapshots`. -/
def Database.getSnapshots (db : Database J) (nodeId : String) (fromMs toMs limit : Int64) :
    List (Snapshot J) :=
  let rows := db.snapshots.filter fun s =>
    s.nodeId = nodeId ∧ fromMs ≤ s.timestamp ∧ s.timestamp ≤ toMs
  (rows.insertionSort fun s s' => s'.timestamp ≤ s.timestamp).take limit.toNatClampNeg

/-- `HistoryQuery`, with its defaults. -/
structure HistoryQuery where
  range : String := "1h"
  limit : Int64 := 360

/-- The check of the range by `get_node_history`. -/
def isValidRange (cfg : Config B J) (range : String) : Bool :=
  range.toList.all cfg.alphanumeric && range.utf8ByteSize ≤ 8

/-- `i64::clamp`. -/
def clamp (x lo hi : Int64) : Int64 := if x < lo then lo else if hi < x then hi else x

/-- The response of `get_node_history`. -/
structure History (J : Type) where
  nodeId : String
  range : String
  fromMs : Int64
  toMs : Int64
  count : ℕ
  snapshots : List (Snapshot J)

/-- `get_node_history`, with the clock it has read; the query may fail. -/
def getNodeHistory (cfg : Config B J) (unicode : Unicode) (db : Database J) (nodeId : String)
    (params : HistoryQuery) (nowMs : Int64) (ok : Bool) : Option (Except StatusCode (History J)) :=
  if !isValidNodeId cfg nodeId then some (.error .badRequest)
  else if !isValidRange cfg params.range then some (.error .badRequest)
  else do
    let limit := clamp params.limit 1 1000
    let rangeMs ← parseRangeToMs unicode params.range
    let fromMs := nowMs - rangeMs
    if ok then
      let snapshots := db.getSnapshots nodeId fromMs nowMs limit
      some (.ok ⟨nodeId, params.range, fromMs, nowMs, snapshots.length, snapshots⟩)
    else some (.error .internalServerError)

/-- **A history request is a bad one exactly for its node id or its range.** -/
theorem getNodeHistory_eq_badRequest_iff {cfg : Config B J} {unicode : Unicode} {db : Database J}
    {nodeId : String} {params : HistoryQuery} {nowMs : Int64} {ok : Bool} :
    getNodeHistory cfg unicode db nodeId params nowMs ok = some (.error .badRequest) ↔
      isValidNodeId cfg nodeId = false ∨ isValidRange cfg params.range = false := by
  unfold getNodeHistory
  cases hid : isValidNodeId cfg nodeId with
  | false => simp
  | true =>
    cases hrange : isValidRange cfg params.range with
    | false => simp
    | true =>
      cases hparse : parseRangeToMs unicode params.range with
      | none => simp
      | some rangeMs => cases ok <;> simp

/-- The interval of a history ends at the clock and is as long as the range. -/
theorem interval_of_getNodeHistory {cfg : Config B J} {unicode : Unicode} {db : Database J}
    {nodeId : String} {params : HistoryQuery} {nowMs rangeMs : Int64} {ok : Bool} {history : History J}
    (h : getNodeHistory cfg unicode db nodeId params nowMs ok = some (.ok history))
    (hparse : parseRangeToMs unicode params.range = some rangeMs) :
    history.fromMs = nowMs - rangeMs ∧ history.toMs = nowMs := by
  unfold getNodeHistory at h
  rw [hparse] at h
  cases hid : isValidNodeId cfg nodeId with
  | false => simp [hid] at h
  | true =>
    cases hrange : isValidRange cfg params.range with
    | false => simp [hid, hrange] at h
    | true =>
      cases ok with
      | false => simp [hid, hrange] at h
      | true =>
        simp only [hid, hrange, Bool.not_true, Bool.false_eq_true, if_false, if_true,
          Option.bind_eq_bind, Option.bind_some, Option.some.injEq, Except.ok.injEq] at h
        subst h
        exact ⟨rfl, rfl⟩

end Hakuraku.Server
