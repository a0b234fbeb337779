import Floodgate.Json.Record
import Floodgate.Resource.Candidates

/-!
# Identities in JSON

The identity of a request is a JSON record in which only the service must be given.
-/

set_option autoImplicit false

namespace Floodgate
namespace Identity

/-- The fields in the order of the array form. -/
def fields : List Json.Field :=
  [{ name := "appId" }, { name := "gatewayGroup" }, { name := "service" }, { name := "path" },
    { name := "method" }]

def ofRecord? (r : Json.Record) : Option Identity := do
  return {
    app := ← r.optional "appId" Json.string?
    group := ← r.optional "gatewayGroup" Json.string?
    service := ← r.required "service" Json.string?
    path := ← r.optional "path" Json.string?
    method := ← r.optional "method" Json.string? }

/-- The identity that a JSON value spells out. -/
def ofJson? (j : Json) : Option Identity := do ofRecord? (← Json.Record.ofJson? fields j)

end Identity
end Floodgate
