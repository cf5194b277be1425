import CallRouter.Dealer.Basic

namespace CallRouter.Dealer

def chosen {α : Type} [Inhabited α] (choice : Except UnknownOption (Option α)) :
    Except Refusal α :=
  match choice with
  | .ok choice => .ok (choice.getD default)
  | .error unknown => .error (.ofUnknownOption unknown)

def register? (dealer : Dealer) (now : Time) (session : Nat) (options : Dict) (uri : String) :
    Except Refusal (Registration × Dealer) := do
  let policy ← chosen (options.choice MatchPolicy.ofName Dict.Key.match_)
  let invoke ← chosen (options.choice InvocationPolicy.ofName Dict.Key.invoke)
  if !Uri.isProcedure policy uri || Uri.isReserved uri then throw (.invalidUri uri)
  let (registration, events, directory) ←
    dealer.directory.register now session ⟨policy, uri⟩ invoke options
  let statistics := dealer.statistics.attach [uri]
  return (registration, { dealer with directory, statistics }.publish events)

def register (dealer : Dealer) (now : Time) (session request : Nat) (options : Dict)
    (uri : String) : Dealer :=
  match dealer.register? now session options uri with
  | .ok (registration, dealer) =>
    dealer.send session (.registered request registration.id) none
  | .error refusal => dealer.refuse session .register request refusal

/-- Takes out a registration of the session itself; those of others are as good as absent. -/
def unregister? (dealer : Dealer) (session registration : Nat) : Except Refusal Dealer := do
  if (dealer.directory.registration? registration).any fun owned => owned.session == session then
    let (_, events, directory) ← dealer.directory.unregister registration
    return { dealer with directory }.publish events
  else throw (.noSuchRegistration registration)

def unregister (dealer : Dealer) (session request registration : Nat) : Dealer :=
  match dealer.unregister? session registration with
  | .ok dealer => dealer.send session (.unregistered request none) none
  | .error refusal => dealer.refuse session .unregister request refusal

end CallRouter.Dealer
