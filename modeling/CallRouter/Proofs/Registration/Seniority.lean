import CallRouter.Proofs.Registration.Ownership
import CallRouter.Proofs.Registration.Reachable

namespace CallRouter.Registration.Directory

variable {directory later : Directory} {log : List Nat}

def made (directory : Directory) : Request → List Nat
  | .register now session pattern invoke options =>
    match directory.register now session pattern invoke options with
    | .ok (registration, _, _) => [registration.id]
    | .error _ => []
  | _ => []

end CallRouter.Registration.Directory
