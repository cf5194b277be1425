import CallRouter.Proofs.Registration.Acts
import CallRouter.Proofs.Registration.Chronicle
import CallRouter.Proofs.Registration.Ownership

namespace CallRouter.Registration.Directory

variable {directory later : Directory} {events new : List Event} {id count more : Nat}

def published (directory : Directory) : Request → List Event
  | .register now session pattern invoke options =>
    match directory.register now session pattern invoke options with
    | .ok (_, events, _) => events
    | .error _ => []
  | .unregister id =>
    match directory.unregister id with
    | .ok (_, events, _) => events
    | .error _ => []
  | .closeSession session => (directory.closeSession session).1
  | .select _ _ => []

def Told (id : Nat) (summary : Option (Details × Nat)) (events : List Event) : Prop :=
  match summary with
  | some (details, members) => details.id = id ∧ Chronicle details events members
  | none => events = [] ∨ Completed id events

structure Chronicled (directory : Directory) (events : List Event) (count : Nat) : Prop where
  told (id : Nat) : Told id (directory.summary? id) (about id events)
  heard : ∀ event ∈ events, event.entry ≤ count
  paired : Paired events
  entries : tally .create events = tally .delete events + directory.entries.size
  size : tally .register events = tally .unregister events + directory.size

theorem Chronicled.mono (chronicled : Chronicled directory events count) (grown : count ≤ more) :
    Chronicled directory events more :=
  { chronicled with heard := fun event member => (chronicled.heard event member).trans grown }

end CallRouter.Registration.Directory
