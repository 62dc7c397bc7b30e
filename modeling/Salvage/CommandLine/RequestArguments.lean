import Salvage.Diagnosis
import Salvage.Message
import Salvage.Text.Decimal

/-!
# Arguments of a request

A request names a workspace, a dataset, the user who asks, and one or more packages.
-/

namespace Salvage

/-- What a request asks for. -/
structure RequestArguments where
  org : Int
  datasetNodeId : String
  userId : String
  request : RestoreRequest
  deriving DecidableEq, Repr

namespace RequestArguments

/-- How a request is written. -/
def usage : String := "usage: request <org_id> <dataset_node_id> <user_id> <node_id>..."

/-- Reads the arguments of a request. -/
def ofList : List String → Except Diagnosis RequestArguments
  | org :: datasetNodeId :: userId :: nodeIds => do
    if nodeIds = [] then throw (.of s!"no node ids given; {usage}")
    let org ← (Text.readInt .bits32 org.toList).mapError fun e =>
      (Diagnosis.of e.message).context s!"parsing org_id `{org}`"
    return ⟨org, datasetNodeId, userId, ⟨nodeIds⟩⟩
  | _ => .error (.of usage)

end RequestArguments

end Salvage
