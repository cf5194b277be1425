import CallRouter.Proofs.Dealer.Awaiting
import Mathlib.Data.List.Nodup
import Mathlib.Data.List.TakeDrop

namespace CallRouter.Dealer

variable {peers : Peers} {operation : Operation} {dealer later : Dealer} {call : Call}

def issued (dealer : Dealer) : List (Nat × Nat) :=
  dealer.calls.flatMap fun call => call.targets.map Call.Target.key

def draws (dealer : Dealer) (session : Nat) : Nat := (dealer.drawn.find? session).getD 0

theorem mem_issued {number index : Nat} {target : Call.Target}
    (found : dealer.calls[number]? = some call) (located : call.targets[index]? = some target) :
    target.key ∈ dealer.issued :=
  List.mem_flatMap.mpr ⟨call, List.mem_of_getElem? found,
    List.mem_map_of_mem (List.mem_of_getElem? located)⟩

theorem keys_nodup (distinct : dealer.issued.Nodup) {number : Nat}
    (found : dealer.calls[number]? = some call) : (call.targets.map Call.Target.key).Nodup :=
  (List.nodup_flatMap.mp distinct).1 call (List.mem_of_getElem? found)

theorem place_of_key (distinct : dealer.issued.Nodup) {number index other place : Nat}
    {holder : Call} {target also : Call.Target} (found : dealer.calls[number]? = some call)
    (located : call.targets[index]? = some target) (held : dealer.calls[other]? = some holder)
    (there : holder.targets[place]? = some also) (same : also.key = target.key) :
    (other, place) = (number, index) := by
  have disjoint := List.pairwise_iff_getElem.mp (List.nodup_flatMap.mp distinct).2
  obtain ⟨bound, rfl⟩ := List.getElem?_eq_some_iff.mp found
  obtain ⟨bound', rfl⟩ := List.getElem?_eq_some_iff.mp held
  have mine := List.mem_map_of_mem (f := Call.Target.key) (List.mem_of_getElem? located)
  have others := List.mem_map_of_mem (f := Call.Target.key) (List.mem_of_getElem? there)
  rcases Nat.lt_trichotomy other number with less | rfl | more
  · exact absurd (same ▸ mine) (disjoint other number bound' bound less others)
  · have equal : (dealer.calls[other].targets.map Call.Target.key)[place]? =
        (dealer.calls[other].targets.map Call.Target.key)[index]? := by
      simp [located, there, same]
    have bound : place < (dealer.calls[other].targets.map Call.Target.key).length := by
      simpa using (List.getElem?_eq_some_iff.mp there).1
    rw [(List.getElem?_inj bound (keys_nodup distinct found)).mp equal]
  · exact absurd (same ▸ others) (disjoint number other bound bound' more mine)

theorem issued_turn {number : Nat} {event : Call.Event}
    (found : dealer.calls[number]? = some call) :
    (dealer.turn number call event).issued = dealer.issued := by
  have same := Call.keys_of_origin (Call.origin_turn call event)
  have unchanged : (dealer.calls.set number (call.turn event).call).map
      (fun call => call.targets.map Call.Target.key) =
        dealer.calls.map fun call => call.targets.map Call.Target.key := by
    rw [List.map_set, same, ← List.map_set, set_of_found found]
  rw [issued, issued, List.flatMap_def, List.flatMap_def]
  exact congrArg List.flatten unchanged

theorem issued_moves (moves : Moves peers operation dealer later) :
    later.issued = dealer.issued ∧ later.drawn = dealer.drawn := by
  induction moves with
  | refl => exact ⟨rfl, rfl⟩
  | tail _ move ih =>
    obtain ⟨issues, draws⟩ := ih
    cases move with
    | aside aside => exact ⟨by rw [issued, aside.calls]; exact issues, aside.drawn.trans draws⟩
    | turn found cause => exact ⟨(issued_turn found).trans issues, draws⟩
    | retire closing => exact ⟨issues, draws⟩

theorem Dispatches.issued (dispatches : Dispatches peers dealer operation call later) :
    later.issued = dealer.issued ++ call.targets.map Call.Target.key := by
  simp [Dealer.issued, dispatches.calls]

theorem Dispatches.unissued (dispatches : Dispatches peers dealer operation call later)
    (distinct : later.issued.Nodup) {key : Nat × Nat} (known : key ∈ dealer.issued) :
    key ∉ call.targets.map Call.Target.key := by
  rw [dispatches.issued] at distinct
  exact fun new => (List.nodup_append.mp distinct).2.2 key known key new rfl

def handedOut (dealer : Dealer) (peers : Peers) (session : Nat) : List (Nat × Nat) :=
  (List.range (dealer.draws session)).map fun count => (session, peers.requestId session count)

theorem handedOut_drawRequestId (dealer : Dealer) (peers : Peers) (session other : Nat) :
    (dealer.drawRequestId peers session).2.handedOut peers other =
      dealer.handedOut peers other ++
        if session = other then [(session, (dealer.drawRequestId peers session).1)] else [] := by
  simp only [handedOut, draws, drawRequestId, Keyed.find?_insert]
  by_cases here : session = other
  · simp [here, List.range_succ]
  · simp [here]

theorem handedOut_drawTargets (peers : Peers) (receiveProgress : Bool) (session : Nat)
    (registrations : List Registration) (dealer : Dealer) :
    (drawTargets peers receiveProgress dealer registrations).2.handedOut peers session =
      dealer.handedOut peers session ++
        ((drawTargets peers receiveProgress dealer registrations).1.map Call.Target.key).filter
          fun key => key.1 = session := by
  induction registrations generalizing dealer with
  | nil => simp [drawTargets]
  | cons registration rest ih =>
    simp only [drawTargets, ih, handedOut_drawRequestId, List.map_cons, Call.Target.key,
      List.append_assoc]
    by_cases here : registration.session = session <;> simp [here]

/-- For each session, the invocations were made with all the ids that it handed out. -/
def Drawn (peers : Peers) (dealer : Dealer) : Prop :=
  ∀ session, (dealer.issued.filter fun key => key.1 = session) = dealer.handedOut peers session

theorem drawn_moves (drawn : dealer.Drawn peers) (moves : Moves peers operation dealer later) :
    later.Drawn peers := by
  intro session
  obtain ⟨issues, draws⟩ := issued_moves moves
  rw [issues, drawn, handedOut, handedOut, Dealer.draws, Dealer.draws, draws]

theorem handedOut_dispatch (dispatches : Dispatches peers dealer operation call later)
    (session : Nat) : later.handedOut peers session = dealer.handedOut peers session ++
      (call.targets.map Call.Target.key).filter fun key => key.1 = session := by
  cases dispatches with
  | @dispatch now draw caller request _ _ uri payload terms _ registrations chosen reads valid
      agreed resolved choice any =>
    have frame := chooseRegistrations_frame choice
    have before : chosen.handedOut peers session = dealer.handedOut peers session := by rw [frame]; rfl
    rw [← before]
    have drawn : (chosen.dispatch peers now caller request uri terms registrations payload).drawn =
        (drawTargets peers terms.receiveProgress chosen registrations).2.drawn := by
      rw [dispatch_eq]
    have after := handedOut_drawTargets peers terms.receiveProgress session registrations chosen
    simp only [handedOut, draws, drawn] at after ⊢
    exact after

theorem issued_step (linked : dealer.Linked) (peers : Peers) (operation : Operation) :
    dealer.issued <+: (dealer.step peers operation).issued := by
  rcases step_cases linked peers operation with moves | ⟨call, dispatches⟩
  · exact (issued_moves moves).1.symm ▸ List.prefix_rfl
  · rw [dispatches.issued]
    exact List.prefix_append _ _

theorem issued_run (peers : Peers) (options : Options) (before after : List Operation) :
    (run peers options before).issued <+: (run peers options (before ++ after)).issued := by
  induction after using List.reverseRecOn with
  | nil => exact (List.append_nil before).symm ▸ List.prefix_rfl
  | append_singleton after operation ih =>
    rw [← List.append_assoc, run_concat]
    exact ih.trans (issued_step (linked_run peers options _) peers operation)

theorem drawn_run (peers : Peers) (options : Options) (operations : List Operation) :
    (run peers options operations).Drawn peers := by
  induction operations using List.reverseRecOn with
  | nil => exact fun _ => rfl
  | append_singleton operations operation ih =>
    rw [run_concat]
    rcases step_cases (linked_run peers options operations) peers operation with
      moves | ⟨call, dispatches⟩
    · exact drawn_moves ih moves
    · intro session
      rw [dispatches.issued, List.filter_append, handedOut_dispatch dispatches, ih]

/-- The request ids that sessions have handed out are valid, and none was handed out twice. -/
structure DrawsOnce (peers : Peers) (dealer : Dealer) : Prop where
  valid : ∀ session count, count < dealer.draws session →
    isValidId (peers.requestId session count) = true
  once : ∀ session first second, first < second → second < dealer.draws session →
    peers.requestId session first ≠ peers.requestId session second

theorem drawsOnce_obliging (room : ∀ entry ∈ dealer.drawn.entries, entry.2 ≤ maxId) :
    dealer.DrawsOnce obliging := by
  have few (session : Nat) : dealer.draws session ≤ maxId := by
    rw [draws]
    cases found : dealer.drawn.find? session with
    | none => exact Nat.zero_le _
    | some count => exact room _ ((Keyed.find?_eq_some_iff _).mp found)
  exact
    { valid := fun _ count _ => isValidId_requestIdAfter count
      once := by
        intro session first second less bound
        have below := Nat.lt_of_lt_of_le bound (few session)
        simp only [obliging, requestIdAfter]
        rw [Nat.mod_eq_of_lt below, Nat.mod_eq_of_lt (Nat.lt_trans less below)]
        omega }

section Once

variable (once : dealer.DrawsOnce peers) (drawn : dealer.Drawn peers)

include once drawn

theorem DrawsOnce.issued_nodup : dealer.issued.Nodup := by
  rw [List.nodup_iff_count_le_one]
  intro key
  have apart : (dealer.handedOut peers key.1).Nodup := by
    refine List.Nodup.map_on ?_ List.nodup_range
    intro first bound second bound' same
    rw [List.mem_range] at bound bound'
    have same := (Prod.mk.inj same).2
    by_contra differ
    rcases Nat.lt_or_gt_of_ne differ with less | more
    · exact once.once _ _ _ less bound' same
    · exact once.once _ _ _ more bound same.symm
  have same : List.count key dealer.issued = List.count key (dealer.handedOut peers key.1) := by
    rw [← drawn, List.count_filter (by simp)]
  rw [same]
  exact List.nodup_iff_count_le_one.mp apart key

theorem DrawsOnce.isValidId {key : Nat × Nat} (member : key ∈ dealer.issued) :
    isValidId key.2 = true := by
  have listed : key ∈ dealer.handedOut peers key.1 := by
    rw [← drawn]
    exact List.mem_filter.mpr ⟨member, by simp⟩
  obtain ⟨count, bound, same⟩ := List.mem_map.mp listed
  rw [← same]
  exact once.valid _ count (List.mem_range.mp bound)

end Once

theorem DrawsOnce.of_prefix {options : Options} {before after : List Operation}
    (once : (run peers options (before ++ after)).DrawsOnce peers) :
    (run peers options before).DrawsOnce peers := by
  have count (operations : List Operation) (session : Nat) :
      (run peers options operations).draws session =
        ((run peers options operations).issued.filter fun key => key.1 = session).length := by
    simp [drawn_run peers options operations session, handedOut]
  have fewer (session : Nat) : (run peers options before).draws session ≤
      (run peers options (before ++ after)).draws session := by
    rw [count, count]
    exact ((issued_run peers options before after).filter _).length_le
  exact
    { valid := fun session index bound =>
        once.valid session index (Nat.lt_of_lt_of_le bound (fewer session))
      once := fun session first second less bound =>
        once.once session first second less (Nat.lt_of_lt_of_le bound (fewer session)) }

theorem drawsFresh_step (linked : dealer.Linked)
    (distinct : (dealer.step peers operation).issued.Nodup) :
    DrawsFresh dealer (dealer.step peers operation) := by
  intro other member
  rcases step_cases linked peers operation with moves | ⟨call, dispatches⟩
  · simp [← length_moves moves] at member
  · rw [dispatches.calls, List.drop_left, List.mem_singleton] at member
    subst member
    have apart := distinct
    rw [dispatches.issued] at apart
    refine ⟨(List.nodup_append.mp apart).2.1, fun target among => ?_⟩
    rw [Option.eq_none_iff_forall_ne_some]
    rintro ⟨number, index⟩ tracked
    -- What is tracked belongs to an earlier call, which drew its invocations before.
    obtain ⟨holder, also, held, tracks, same⟩ := linked.tracked tracked
    have before : target.key ∈ dealer.issued := same ▸ mem_issued held tracks.located
    exact dispatches.unissued distinct before (List.mem_map_of_mem among)

end CallRouter.Dealer
