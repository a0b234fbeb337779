import Floodgate.Resource.Basic

/-!
# The resources of a request

A request is covered by up to five resources, from the path as called by its application to the
global resource. Rules are looked up along this list, most specific first. A rule for the service
default holds for each service by itself: traffic that matches it is counted under the service,
which is what `bind` says.
-/

set_option autoImplicit false

namespace Floodgate

/-- Who asks for what, as found out before admission. -/
structure Identity where
  app : Option String := none
  group : Option String := none
  service : String
  path : Option String := none
  method : Option String := none
  deriving DecidableEq, Repr

namespace Identity

/-- The resources that cover a request, most specific first. A blank or reserved service name is
covered by the global resource alone. -/
def candidates (i : Identity) : List Resource :=
  match Resource.ofParts? none (some i.service) none with
  | some (.service name) =>
    let forApp :=
      match Resource.ofParts? i.app (some name) i.path with
      | some (.api (some app) s p) => [Resource.api (some app) s p]
      | _ => []
    let forPath :=
      match Resource.ofParts? none (some name) i.path with
      | some (.api app s p) => [Resource.api app s p]
      | _ => []
    forApp ++ forPath ++ [.service name, .serviceDefault, .global]
  | _ => [.global]

end Identity

namespace Resource

/-- The resource that traffic is counted under when a rule for `matched` applies: the resource
itself, but for the service default the request's own service. -/
def bind (matched : Resource) (candidates : List Resource) : Resource :=
  if matched.scope = .serviceDefault then
    (candidates.find? fun c => c.scope = .service).getD .serviceDefault
  else
    matched

end Resource
end Floodgate
