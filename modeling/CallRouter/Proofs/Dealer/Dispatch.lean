import CallRouter.Proofs.Dealer.Turns
import Mathlib.Data.List.Forall2

namespace CallRouter.Dealer

def Serves (peers : Peers) (receiveProgress : Bool) (registration : Registration)
    (target : Call.Target) : Prop :=
  target =
    { registration := registration.id
      callee := registration.session
      pattern := registration.pattern
      invocation := target.invocation
      progressive := receiveProgress &&
        peers.supports registration.session .callee Feature.progressiveCallResults }

theorem drawTargets_serve (peers : Peers) (receiveProgress : Bool) (dealer : Dealer)
    (registrations : List Registration) :
    List.Forall₂ (Serves peers receiveProgress) registrations
      (drawTargets peers receiveProgress dealer registrations).1 := by
  induction registrations generalizing dealer with
  | nil => exact .nil
  | cons registration rest ih => exact .cons rfl (ih _)

theorem serves_of_mem {peers : Peers} {receiveProgress : Bool} {registrations : List Registration}
    {targets : List Call.Target}
    (serve : List.Forall₂ (Serves peers receiveProgress) registrations targets)
    {target : Call.Target} (member : target ∈ targets) :
    ∃ registration ∈ registrations, Serves peers receiveProgress registration target := by
  induction serve with
  | nil => cases member
  | @cons registration first registrations targets serves _ ih =>
    rcases List.mem_cons.mp member with rfl | later
    · exact ⟨registration, by simp, serves⟩
    · obtain ⟨other, inside, also⟩ := ih later
      exact ⟨other, by simp [inside], also⟩

theorem drawTargets_frame (peers : Peers) (receiveProgress : Bool) (dealer : Dealer)
    (registrations : List Registration) :
    (drawTargets peers receiveProgress dealer registrations).2 =
      { dealer with
        drawn := (drawTargets peers receiveProgress dealer registrations).2.drawn } := by
  induction registrations generalizing dealer with
  | nil => rfl
  | cons registration rest ih =>
    have frame := ih (dealer.drawRequestId peers registration.session).2
    exact frame

def tracking (number : Nat) : Nat → List Call.Target → Keyed (Nat × Nat) (Nat × Nat) →
    Keyed (Nat × Nat) (Nat × Nat)
  | _, [], tracked => tracked
  | index, target :: rest, tracked =>
    tracking number (index + 1) rest (tracked.insert target.key (number, index))

theorem track_eq (number index : Nat) (targets : List Call.Target) (dealer : Dealer) :
    track number index targets dealer =
      { dealer with tracked := tracking number index targets dealer.tracked } := by
  induction targets generalizing index dealer with
  | nil => rfl
  | cons target rest ih => exact ih (index + 1) _

theorem find?_tracking_of_notMem {number index : Nat} {targets : List Call.Target}
    {tracked : Keyed (Nat × Nat) (Nat × Nat)} {key : Nat × Nat}
    (absent : key ∉ targets.map Call.Target.key) :
    (tracking number index targets tracked).find? key = tracked.find? key := by
  induction targets generalizing index tracked with
  | nil => rfl
  | cons target rest ih =>
    simp only [List.map_cons, List.mem_cons, not_or] at absent
    have other : target.key ≠ key := fun same => absent.1 same.symm
    rw [tracking, ih absent.2, Keyed.find?_insert, if_neg other]

theorem find?_tracking_cases {number index : Nat} {targets : List Call.Target}
    {tracked : Keyed (Nat × Nat) (Nat × Nat)} {key value : Nat × Nat}
    (found : (tracking number index targets tracked).find? key = some value) :
    (∃ i target, targets[i]? = some target ∧ target.key = key ∧ value = (number, index + i)) ∨
      tracked.find? key = some value := by
  induction targets generalizing index tracked with
  | nil => exact .inr found
  | cons target rest ih =>
    rcases ih found with ⟨i, later, located, same, rfl⟩ | before
    · exact .inl ⟨i + 1, later, located, same, by rw [Nat.add_right_comm, Nat.add_assoc]⟩
    · rw [Keyed.find?_insert] at before
      split at before
      · rename_i same
        exact .inl ⟨0, target, rfl, same, (Option.some.inj before).symm⟩
      · exact .inr before

theorem find?_tracking_of_located {number index i : Nat} {targets : List Call.Target}
    {target : Call.Target} {tracked : Keyed (Nat × Nat) (Nat × Nat)}
    (apart : (targets.map Call.Target.key).Nodup) (located : targets[i]? = some target) :
    (tracking number index targets tracked).find? target.key = some (number, index + i) := by
  induction targets generalizing index i tracked with
  | nil => cases located
  | cons first rest ih =>
    rw [List.map_cons, List.nodup_cons] at apart
    cases i with
    | zero =>
      obtain rfl : first = target := by simpa using located
      rw [tracking, find?_tracking_of_notMem apart.1, Keyed.find?_insert_self, Nat.add_zero]
    | succ i =>
      have deeper : (tracking number (index + 1) rest (tracked.insert first.key (number, index))).find?
          target.key = some (number, index + 1 + i) := ih apart.2 located
      rw [tracking, deeper, Nat.add_right_comm, Nat.add_assoc]

def newCall (dealer : Dealer) (peers : Peers) (now : Time) (caller request : Nat) (uri : String)
    (options : Call.Options) (registrations : List Registration) : Call :=
  { caller, request, procedure := uri, options, started := now
    targets := (drawTargets peers options.receiveProgress dealer registrations).1 }

def invocations (peers : Peers) (options : Options) (call : Call) (payload : Payload) :
    List (Nat × Rpc) :=
  call.targets.map fun target =>
    (target.callee, .invocation target.invocation target.registration
      (invocationDetails peers options call target) payload)

theorem invocations_eq (peers : Peers) (call : Call) (payload : Payload) (number : Nat)
    (targets : List Call.Target) (dealer : Dealer) :
    targets.foldl (fun dealer target =>
      (dealer.record target.pattern .invocation).send target.callee
        (.invocation target.invocation target.registration
          (invocationDetails peers dealer.options call target) payload) (some number)) dealer =
    { dealer with
      statistics := recording dealer.statistics
        (targets.map fun target => (target.pattern, .invocation))
      effects := dealer.effects ++
        mailing number (invocations peers dealer.options { call with targets } payload) } := by
  induction targets generalizing dealer with
  | nil => simp [invocations]
  | cons target rest ih =>
    rw [List.foldl_cons, ih]
    have same (targets : List Call.Target) : invocationDetails peers dealer.options
        { call with targets } = invocationDetails peers dealer.options call := rfl
    simp [send_eq, record, recording, invocations, same]

theorem dispatch_eq (dealer : Dealer) (peers : Peers) (now : Time) (caller request : Nat)
    (uri : String) (options : Call.Options) (registrations : List Registration)
    (payload : Payload) :
    let call := dealer.newCall peers now caller request uri options registrations
    dealer.dispatch peers now caller request uri options registrations payload =
      { dealer with
        calls := dealer.calls ++ [call]
        tracked := tracking dealer.calls.length 0 call.targets dealer.tracked
        cancelable := if peers.supports caller .caller Feature.callCanceling then
          dealer.cancelable.insert (caller, request) dealer.calls.length else dealer.cancelable
        drawn := (drawTargets peers options.receiveProgress dealer registrations).2.drawn
        statistics := recording (recording dealer.statistics (call.noteAt 0 .attempt))
          (call.targets.map fun target => (target.pattern, .invocation))
        effects := dealer.effects ++
          mailing dealer.calls.length (invocations peers dealer.options call payload) } := by
  intro call
  have frame := drawTargets_frame peers options.receiveProgress dealer registrations
  have targets : (drawTargets peers options.receiveProgress dealer registrations).1 =
    call.targets := rfl
  simp only [dispatch, track_eq, recordCall_eq, invocations_eq]
  rw [frame, targets]
  rfl

end CallRouter.Dealer
