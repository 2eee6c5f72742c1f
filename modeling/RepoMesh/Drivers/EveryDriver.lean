/-
# Every driver

The three protocol drivers have one honest outcome per conversation, where the steps of a run are fine.
-/
import RepoMesh.Drivers.AcpOutcome
import RepoMesh.Drivers.AppServerOutcome
import RepoMesh.Drivers.StreamJsonOutcome

namespace RepoMesh
namespace Drivers

/-- A result frame that declares success. -/
def successFrame : Json :=
  .obj [("type", .str "result"), ("is_error", .bool false), ("result", .str "done")]

end Drivers
end RepoMesh
