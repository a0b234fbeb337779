import Floodgate.Text.Blank

/-!
# Resources

A resource is what traffic is counted under and what rules are written for: everything, any one
service, one service, one path of a service, one path of a service called by one application. The
five make a hierarchy of four scopes. `Resource.ofParts?` builds a resource from the three names a
document or a request gives; two service names are reserved for the first two scopes.

Resources are ordered, least specific scope first, then by application, service and path. A resource
without an application comes before those with one.
-/

set_option autoImplicit false

namespace Floodgate

/-- How much a resource covers, widest first. -/
inductive Scope where
  | global
  | serviceDefault
  | service
  | api
  deriving DecidableEq, Repr

/-- What traffic is counted under. -/
inductive Resource where
  | global
  /-- Each service that has no resource of its own. -/
  | serviceDefault
  | service (name : String)
  /-- One path of a service, called by one application or by any. -/
  | api (app : Option String) (service : String) (path : String)
  deriving DecidableEq, Repr

/-- The position of a scope, counted from the widest. -/
def Scope.rank : Scope → Nat
  | .global => 0
  | .serviceDefault => 1
  | .service => 2
  | .api => 3

def Scope.code : Scope → String
  | .global => "global"
  | .serviceDefault => "service_default"
  | .service => "service"
  | .api => "api"

def Scope.all : List Scope := [.global, .serviceDefault, .service, .api]

instance : Ord Scope := ⟨compareOn Scope.rank⟩

namespace Resource

def scope : Resource → Scope
  | .global => .global
  | .serviceDefault => .serviceDefault
  | .service _ => .service
  | .api .. => .api

/-- The one service a resource belongs to. -/
def serviceName? : Resource → Option String
  | .service s => some s
  | .api _ s _ => some s
  | _ => none

def app? : Resource → Option String
  | .api app _ _ => app
  | _ => none

def path? : Resource → Option String
  | .api _ _ p => some p
  | _ => none

/-! ## The order -/

/-- Widest scope first, then by application, service and path, each by code points. -/
def order : Resource → Resource → Ordering :=
  compareLex (compareOn scope)
    (compareLex (compareOn app?) (compareLex (compareOn serviceName?) (compareOn path?)))

instance : Ord Resource := ⟨order⟩

/-- At most as specific, as a test for sorting. -/
def atMost (a b : Resource) : Bool := (order a b).isLE

def sort (rs : List Resource) : List Resource := rs.mergeSort atMost

/-! ## Building a resource from names -/

/-- The service name that stands for the global resource. -/
def globalName : String := "_global"

/-- The service name that stands for the service default. -/
def serviceDefaultName : String := "service_default"

def isReserved (service : String) : Bool := service = globalName || service = serviceDefaultName

/-- The resource named by an application, a service and a path, each possibly absent. Names are
trimmed, a blank name counts as absent. A reserved service name stands alone or for nothing; an
application needs a path, a path needs a service. -/
def ofParts? (app service path : Option String) : Option Resource :=
  match app.bind Text.nonBlank?, service.bind Text.nonBlank?, path.bind Text.nonBlank? with
  | none, some s, none =>
    some (if s = globalName then .global
      else if s = serviceDefaultName then .serviceDefault
      else .service s)
  | app, some s, some p => if isReserved s then none else some (.api app s p)
  | _, _, _ => none

end Resource
end Floodgate
