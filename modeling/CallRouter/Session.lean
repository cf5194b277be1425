import CallRouter.Json.Basic
import CallRouter.Message.Role

namespace CallRouter

abbrev Announcement := List (Role × List String)

namespace Announcement

def enabledFeatures (role : Json) : List String :=
  match role.dict? >>= fun role => Dict.get? role "features" with
  | some (.dict features) =>
    (features.filter fun (_, enabled) => enabled == .bool true).map (·.1)
  | _ => []

def ofDetails (details : Dict) : Announcement :=
  match details.get? "roles" with
  | some (.dict roles) =>
    roles.filterMap fun (name, role) =>
      match Role.ofName? name with
      | some known => if known.isRouter then none else some (known, enabledFeatures role)
      | none => none
  | _ => []

end Announcement

inductive Session.State where
  | establishing
  | established
  | closing
  deriving DecidableEq, Repr, Inhabited

structure Session where
  state : Session.State := .establishing
  realm : Option String := none
  roles : Announcement := []
  messages : Nat := 0
  deriving DecidableEq, Repr, Inhabited

namespace Session

def hasRole (session : Session) (role : Role) : Bool :=
  session.roles.any fun announced => announced.1 == role

def supports (session : Session) (role : Role) (feature : String) : Bool :=
  session.roles.any fun announced => announced.1 == role && announced.2.contains feature

def join (session : Session) (realm : String) (roles : Announcement) : Session :=
  { session with realm := some realm, roles, state := .established }

end Session

end CallRouter
