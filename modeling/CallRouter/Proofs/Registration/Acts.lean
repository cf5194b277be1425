import CallRouter.Proofs.Registration.Allocation

namespace CallRouter.Registration.Directory

variable {directory later last : Directory} {id : Nat}

def summary? (directory : Directory) (id : Nat) : Option (Details × Nat) :=
  (directory.entry? id).map fun entry => (entry.details, entry.members.length)

structure Shift (directory later : Directory) (id : Nat) (summary : Option (Details × Nat)) :
    Prop where
  here : later.summary? id = summary
  elsewhere (other : Nat) : other ≠ id → later.summary? other = directory.summary? other

theorem Shift.trans {between summary : Option (Details × Nat)}
    (first : Shift directory later id between) (second : Shift later last id summary) :
    Shift directory last id summary where
  here := second.here
  elsewhere other apart := (second.elsewhere other apart).trans (first.elsewhere other apart)

inductive Act (directory later : Directory) : List Event → Prop
  | rests (same : later.summary? = directory.summary?)
      (entries : later.entries.size = directory.entries.size)
      (size : later.size = directory.size) : Act directory later []
  | opens (session : Nat) {details : Details} (fresh : details.id = directory.ids.next)
      (absent : directory.summary? details.id = none)
      (shift : Shift directory later details.id (some (details, 1)))
      (entries : later.entries.size = directory.entries.size + 1)
      (size : later.size = directory.size + 1) :
      Act directory later
        [{ kind := .create, session, entry := details.id, details := some details },
          { kind := .register, session, entry := details.id }]
  | joins (session : Nat) {details : Details} {members : Nat}
      (present : directory.summary? details.id = some (details, members))
      (shift : Shift directory later details.id (some (details, members + 1)))
      (entries : later.entries.size = directory.entries.size)
      (size : later.size = directory.size + 1) :
      Act directory later [{ kind := .register, session, entry := details.id }]
  | leaves (session : Nat) {details : Details} {members : Nat}
      (present : directory.summary? details.id = some (details, members + 2))
      (shift : Shift directory later details.id (some (details, members + 1)))
      (entries : later.entries.size = directory.entries.size)
      (size : later.size + 1 = directory.size) :
      Act directory later [{ kind := .unregister, session, entry := details.id }]
  | closes (session : Nat) {details : Details}
      (present : directory.summary? details.id = some (details, 1))
      (shift : Shift directory later details.id none)
      (entries : later.entries.size + 1 = directory.entries.size)
      (size : later.size + 1 = directory.size) :
      Act directory later
        [{ kind := .unregister, session, entry := details.id },
          { kind := .delete, session, entry := details.id }]

section Register

variable {now : Time} {session : Nat} {pattern : Pattern} {invoke : InvocationPolicy}
  {options : Dict} {registration : Registration} {events : List Event}
  (done : directory.register now session pattern invoke options = .ok (registration, events, later))

include done

end Register

section Unregister

variable {registration : Registration} {events : List Event}

end Unregister

end CallRouter.Registration.Directory
