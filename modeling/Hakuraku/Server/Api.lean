import Hakuraku.Server.Tasks

/-!
# The node endpoint

Reference: `pulse-server/src/api.rs`, `get_node` and `is_valid_node_id`.

A request for a node looks the node up in the registry. If it is not there, the database is asked,
and what it returns is put into the registry; the lookup, the query and the insert are separate
steps, between which other tasks run.
-/

namespace Hakuraku.Server

variable {B J : Type}

/-- `is_valid_node_id`. -/
def isValidNodeId (cfg : Config B J) (nodeId : String) : Bool :=
  !nodeId.isEmpty && nodeId.utf8ByteSize ≤ 64 &&
    nodeId.toList.all fun c => cfg.alphanumeric c || c = '-' || c = '_'

/-- The error responses of the endpoint. -/
inductive StatusCode where
  | badRequest
  | notFound
  | internalServerError
deriving DecidableEq

/-- Where a request for a node stands. -/
inductive GetNode (J : Type) where
  /-- Not in the registry: awaiting the database. -/
  | querying (nodeId : String)
  /-- Found in the database, and not yet put into the registry. -/
  | filling (info : NodeInfo J)
  | answered (response : Except StatusCode (NodeInfo J))

namespace GetNode

/-- The request arrives: the registry answers it, or the database is asked. -/
def start (cfg : Config B J) (nodes : Registry J) (nodeId : String) : GetNode J :=
  if isValidNodeId cfg nodeId then
    match nodes.lookup nodeId with
    | some node => .answered (.ok node)
    | none => .querying nodeId
  else .answered (.error .badRequest)

/-- The database answers a query, or fails. -/
def query (db : Database J) (nodeId : String) (ok : Bool) : GetNode J :=
  if ok then
    match db.getNode nodeId with
    | some info => .filling info
    | none => .answered (.error .notFound)
  else .answered (.error .internalServerError)

end GetNode

end Hakuraku.Server
