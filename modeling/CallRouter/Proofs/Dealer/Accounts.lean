import CallRouter.Proofs.Dealer.Counting
import CallRouter.Proofs.Dealer.Told
import CallRouter.Proofs.Ledger

namespace CallRouter

namespace Call

variable {call later : Call}

def Event.note? : Event → Option (Nat × Occurrence)
  | .result index _ elapsed => some (index, .completion elapsed)
  | .failure index .. => some (index, .failure)
  | .cancellation _ | .timeout => some (0, .cancellation)
  | .progress _ | .loss _ | .abandonment => none

theorem recorded_turn (call : Call) (event : Event) : (call.turn event).recorded =
    event.note?.elim [] fun note => call.noteAt note.1 note.2 := by
  cases event with
  | failure index details error payload =>
    simp only [turn, Event.note?, Option.elim]
    split
    · rfl
    · split <;> rfl
  | cancellation mode => cases mode <;> rfl
  | _ => rfl

theorem sent_not_invocation {event : Event} (admits : call.Admits event) {session : Nat} {rpc : Rpc}
    (member : (session, rpc) ∈ (call.turn event).sent) : rpc.kind ≠ .invocation := by
  intro invoked
  have noticed : (session, rpc) ∈ (call.turn event).notices :=
    List.mem_filter.mpr ⟨member, by simp [invoked, Message.Kind.isReply]⟩
  cases stirs_turn admits with
  | rest silent => simp [silent] at noticed
  | stop mode reason opened heard =>
    rw [heard] at noticed
    obtain ⟨target, -, same⟩ := List.mem_map.mp noticed
    obtain ⟨-, rfl⟩ := Prod.mk.inj same
    cases invoked

end Call

namespace Dealer

open Statistics Statistics.Counter

variable {peers : Peers} {operation : Operation} {dealer later : Dealer} {call : Call}
  {number : Nat} {name : String}

def targets (dealer : Dealer) : List Call.Target := dealer.calls.flatMap (·.targets)

def procedure? (dealer : Dealer) (place : Nat × Nat) : Option String := do
  let call ← dealer.calls[place.1]?
  let target ← call.targets[place.2]?
  return target.pattern.uri

def awaitedOf (dealer : Dealer) (name : String) : Nat :=
  dealer.tracked.values.countP fun place => dealer.procedure? place == some name

section Origins

theorem origins_turn (found : dealer.calls[number]? = some call) (event : Call.Event) :
    (dealer.turn number call event).calls.map Call.origin = dealer.calls.map Call.origin := by
  show (dealer.calls.set number (call.turn event).call).map Call.origin = _
  rw [List.map_set, Call.origin_turn, ← List.map_set, set_of_found found]

variable (same : later.calls.map Call.origin = dealer.calls.map Call.origin)

include same

theorem targets_of_origins :
    later.targets.map Call.Target.origin = dealer.targets.map Call.Target.origin := by
  have shown (dealer : Dealer) : dealer.targets.map Call.Target.origin =
      (dealer.calls.map Call.origin).flatMap (·.targets) := by
    rw [targets, List.map_flatMap, List.flatMap_map]
    rfl
  rw [shown, shown, same]

theorem countP_targets_of_origins {counts : Call.Target → Bool}
    (alike : ∀ target, counts target.origin = counts target) :
    later.targets.countP counts = dealer.targets.countP counts := by
  have shown (targets : List Call.Target) :
      targets.countP counts = (targets.map Call.Target.origin).countP counts := by
    rw [List.countP_map]
    exact List.countP_congr fun target _ => by rw [Function.comp_apply, alike]
  rw [shown later.targets, targets_of_origins same, ← shown]

theorem countsFor_of_origins (path : List String) :
    (later.calls.countP fun call => call.countsFor path) =
      dealer.calls.countP fun call => call.countsFor path := by
  have shown (calls : List Call) : (calls.countP fun call => call.countsFor path) =
      (calls.map Call.origin).countP fun call => call.countsFor path := by
    rw [List.countP_map]
    exact List.countP_congr fun call _ => by rw [Function.comp_apply, Call.countsFor_origin]
  rw [shown later.calls, same, ← shown]

theorem procedure?_of_origins : later.procedure? = dealer.procedure? := by
  have shown (dealer : Dealer) (place : Nat × Nat) : dealer.procedure? place = (do
      let call ← (dealer.calls.map Call.origin)[place.1]?
      let target ← call.targets[place.2]?
      return target.pattern.uri) := by
    simp only [procedure?, List.getElem?_map]
    cases dealer.calls[place.1]? with
    | none => rfl
    | some call =>
      simp only [Option.map_some, Call.origin, bind, Option.bind_some, List.getElem?_map]
      cases call.targets[place.2]? <;> rfl
  funext place
  rw [shown, shown, same]

end Origins

def records (recorded : List (Pattern × Occurrence)) : Records :=
  recorded.map fun note => ([note.1.uri], note.2)

theorem subtotal_note (call : Call) (counter : Counter) (index : Nat) (occurrence : Occurrence)
    (path : List String) : counter.subtotal path (records (call.noteAt index occurrence)) =
      if call.targets[index]?.any fun target => path.isPrefixOf [target.pattern.uri] then
        counter.amount occurrence else 0 := by
  unfold Call.noteAt records
  cases call.targets[index]? with
  | none => rfl
  | some target => simp [Counter.subtotal_cons]

theorem isPrefixOf_single (name other : String) : [name].isPrefixOf [other] = (other == name) := by
  simp [List.isPrefixOf, BEq.comm]

theorem subtotal_turn (call : Call) (event : Call.Event) (counter : Counter) (path : List String) :
    counter.subtotal path (records (call.turn event).recorded) =
      event.note?.elim 0 fun note =>
        if call.targets[note.1]?.any fun target => path.isPrefixOf [target.pattern.uri] then
          counter.amount note.2 else 0 := by
  rw [Call.recorded_turn]
  cases event.note? with
  | none => rfl
  | some note => exact subtotal_note call counter note.1 note.2 path

theorem subtotal_turn_eq_zero {counter : Counter} (before : counter = attempted ∨ counter = invoked)
    (call : Call) (event : Call.Event) (path : List String) :
    counter.subtotal path (records (call.turn event).recorded) = 0 := by
  rw [subtotal_turn]
  rcases before with rfl | rfl <;> cases event <;> simp [Call.Event.note?, amount]

structure Accounted (dealer : Dealer) (records : Records) : Prop where
  root : (dealer.statistics.counters? []).isSome = true
  agrees : dealer.statistics.Agrees records
  ofProcedures : dealer.statistics.OfProcedures records
  attempts : ∀ name, attempted.subtotal [name] records =
    dealer.calls.countP fun call => call.countsFor [name]
  invocations : ∀ name, invoked.subtotal [name] records =
    dealer.targets.countP fun target => target.pattern.uri == name
  answers : ∀ name, completed.subtotal [name] records + errored.subtotal [name] records +
    dealer.awaitedOf name ≤ dealer.targets.countP fun target => target.pattern.uri == name

theorem accounted_initial (options : Options) : ({ options } : Dealer).Accounted [] where
  root := rfl
  agrees := agrees_empty _
  ofProcedures := by simp [OfProcedures]
  attempts := by simp
  invocations := by simp [targets]
  answers := by simp [awaitedOf, Keyed.values, Keyed.empty]

section Recording

variable {statistics : Statistics} {books : Records}

theorem counter_recording (root : (statistics.counters? []).isSome = true)
    (recorded : List (Pattern × Occurrence)) (counter : Counter) (path : List String) :
    counter.read ((recording statistics recorded).node path) = counter.read (statistics.node path) +
      UInt64.ofNat (counter.subtotal path (records recorded)) := by
  induction recorded generalizing statistics with
  | nil => simp [records]
  | cons note recorded ih =>
    have rest : counter.read ((recording statistics (note :: recorded)).node path) = _ :=
      ih (isSome_record note.2 root)
    have here : records (note :: recorded) = ([note.1.uri], note.2) :: records recorded := rfl
    rw [rest, node_record root, here, subtotal_cons, UInt64.ofNat_add, ← UInt64.add_assoc]
    split <;> simp [read_count]

theorem agrees_recording (root : (statistics.counters? []).isSome = true)
    (agrees : statistics.Agrees books) (recorded : List (Pattern × Occurrence)) :
    (recording statistics recorded).Agrees (books ++ records recorded) := by
  intro counter path
  rw [counter_recording root, agrees counter path, subtotal_append, UInt64.ofNat_add]

theorem ofProcedures_recording (ofProcedures : statistics.OfProcedures books)
    (recorded : List (Pattern × Occurrence)) :
    (recording statistics recorded).OfProcedures (books ++ records recorded) := by
  induction recorded generalizing statistics books with
  | nil => simpa [records] using ofProcedures
  | cons note recorded ih =>
    have first : (statistics.record [note.1.uri] note.2).OfProcedures
        (books ++ [([note.1.uri], note.2)]) := by
      intro record member
      rcases List.mem_append.mp member with before | new
      · obtain ⟨name, same, there⟩ := ofProcedures record before
        exact ⟨name, same, isSome_record note.2 there⟩
      · obtain rfl := List.mem_singleton.mp new
        refine ⟨note.1.uri, rfl, ?_⟩
        rw [counters_record, Option.isSome_map]
        exact isSome_attach statistics _
    have rest := ih first
    rwa [List.append_assoc] at rest

end Recording

theorem accounted_aside {books : Records} (accounted : dealer.Accounted books)
    (aside : dealer.Aside later) : later.Accounted books := by
  have same : later.calls.map Call.origin = dealer.calls.map Call.origin := by rw [aside.calls]
  exact
    { root := aside.statistics.kept [] accounted.root
      agrees := accounted.agrees.extends aside.statistics
      ofProcedures := fun record member => by
        obtain ⟨name, here, there⟩ := accounted.ofProcedures record member
        exact ⟨name, here, aside.statistics.kept _ there⟩
      attempts := fun name => by rw [accounted.attempts, countsFor_of_origins same]
      invocations := fun name => by rw [targets, aside.calls]; exact accounted.invocations name
      answers := fun name => by
        rw [awaitedOf, aside.tracked, procedure?_of_origins same, targets, aside.calls]
        exact accounted.answers name }

theorem countP_filter_values {m : Keyed (Nat × Nat) (Nat × Nat)} {key value : Nat × Nat}
    (keep : Nat × Nat → Nat × Nat → Bool) (counts : Nat × Nat → Bool)
    (found : m.find? key = some value) (gone : keep key value = false) :
    (m.filter keep).values.countP counts + (if counts value then 1 else 0) ≤
      m.values.countP counts := by
  obtain ⟨before, after, split⟩ := List.append_of_mem ((Keyed.find?_eq_some_iff m).mp found)
  simp only [Keyed.values, Keyed.filter, split, List.filter_append, List.filter_cons, gone,
    List.map_append, List.map_cons, List.countP_append, List.countP_cons]
  have first := (List.filter_sublist (p := fun entry => keep entry.1 entry.2) (l := before)).map
    (·.2) |>.countP_le (p := counts)
  have last := (List.filter_sublist (p := fun entry => keep entry.1 entry.2) (l := after)).map
    (·.2) |>.countP_le (p := counts)
  simp only [Bool.false_eq_true, if_false]
  omega

theorem awaitedOf_turn_le (found : dealer.calls[number]? = some call) (event : Call.Event)
    (name : String) : (dealer.turn number call event).awaitedOf name ≤ dealer.awaitedOf name := by
  rw [awaitedOf, awaitedOf, procedure?_of_origins (origins_turn found event)]
  exact (List.filter_sublist.map _).countP_le

theorem awaitedOf_turn_lt {event : Call.Event} {index : Nat} {target : Call.Target}
    (found : dealer.calls[number]? = some call)
    (tracks : dealer.Tracks number call index target)
    (released : target.key ∈ (call.turn event).released) (name : String) :
    (dealer.turn number call event).awaitedOf name +
        (if target.pattern.uri == name then 1 else 0) ≤ dealer.awaitedOf name := by
  rw [awaitedOf, awaitedOf, procedure?_of_origins (origins_turn found event)]
  have procedure : dealer.procedure? (number, index) = some target.pattern.uri := by
    simp [procedure?, found, tracks.located]
  have fewer := countP_filter_values (fun key _ => !(call.turn event).released.contains key)
    (fun place => dealer.procedure? place == some name) tracks.tracked (by simpa using released)
  simpa [procedure, turn, releasing] using fewer

theorem answers_turn {event : Call.Event} (found : dealer.calls[number]? = some call)
    (cause : Cause peers dealer number call operation event) (name : String) :
    completed.subtotal [name] (records (call.turn event).recorded) +
        errored.subtotal [name] (records (call.turn event).recorded) +
          (dealer.turn number call event).awaitedOf name ≤ dealer.awaitedOf name := by
  have less := awaitedOf_turn_le found event name
  rw [subtotal_turn, subtotal_turn]
  cases cause with
  | @result index target now draw message options payload tracks =>
    have about : (Call.Event.result index payload (now - call.started)).index? = some index := rfl
    have fewer := awaitedOf_turn_lt found tracks
      (Call.released_of_index about tracks.located) name
    simp only [Call.Event.note?, Option.elim_some, tracks.located, Option.any_some,
      isPrefixOf_single, amount, ite_self]
    omega
  | @failure index target now draw message details error payload tracks =>
    have about : (Call.Event.failure index details error payload).index? = some index := rfl
    have fewer := awaitedOf_turn_lt found tracks
      (Call.released_of_index about tracks.located) name
    simp only [Call.Event.note?, Option.elim_some, tracks.located, Option.any_some,
      isPrefixOf_single, amount, ite_self]
    omega
  | cancellation | timeout => simpa [Call.Event.note?, amount] using less
  | _ => simpa [Call.Event.note?] using less

theorem accounted_turn {books : Records} (accounted : dealer.Accounted books) {event : Call.Event}
    (found : dealer.calls[number]? = some call)
    (cause : Cause peers dealer number call operation event) :
    (dealer.turn number call event).Accounted (books ++ records (call.turn event).recorded) := by
  have same := origins_turn found event
  have alike (name : String) : ((dealer.turn number call event).targets.countP fun target =>
      target.pattern.uri == name) =
        dealer.targets.countP fun target => target.pattern.uri == name :=
    countP_targets_of_origins same fun _ => rfl
  exact
    { root := isSome_recording accounted.root _
      agrees := agrees_recording accounted.root accounted.agrees _
      ofProcedures := ofProcedures_recording accounted.ofProcedures _
      attempts := fun name => by
        rw [subtotal_append, accounted.attempts, countsFor_of_origins same,
          subtotal_turn_eq_zero (.inl rfl), Nat.add_zero]
      invocations := fun name => by
        rw [subtotal_append, accounted.invocations, alike, subtotal_turn_eq_zero (.inr rfl),
          Nat.add_zero]
      answers := fun name => by
        have before := accounted.answers name
        have now := answers_turn found cause name
        rw [alike, subtotal_append, subtotal_append]
        omega }

section Dispatch

theorem countP_insert_le (m : Keyed (Nat × Nat) (Nat × Nat)) (key value : Nat × Nat)
    (counts : Nat × Nat → Bool) : (m.insert key value).values.countP counts ≤
      m.values.countP counts + if counts value then 1 else 0 := by
  simp only [Keyed.values, Keyed.insert]
  induction m.entries with
  | nil => simp [Keyed.put, List.countP_cons]
  | cons entry entries ih =>
    rw [Keyed.put]
    split
    · simp only [List.map_cons, List.countP_cons]
      omega
    · simp only [List.map_cons, List.countP_cons]
      omega

theorem countP_tracking_le {counts : Nat × Nat → Bool} {index : Nat} {targets : List Call.Target}
    {tracked : Keyed (Nat × Nat) (Nat × Nat)}
    (about : ∀ i target, targets[i]? = some target →
      counts (number, index + i) = (target.pattern.uri == name)) :
    (tracking number index targets tracked).values.countP counts ≤
      tracked.values.countP counts + targets.countP fun target => target.pattern.uri == name := by
  induction targets generalizing index tracked with
  | nil => simp [tracking]
  | cons target rest ih =>
    have later : ∀ i other, rest[i]? = some other →
        counts (number, index + 1 + i) = (other.pattern.uri == name) := by
      intro i other located
      rw [Nat.add_assoc, Nat.add_comm 1]
      exact about (i + 1) other located
    have inserted := countP_insert_le tracked target.key (number, index) counts
    have following : (tracking number (index + 1) rest
        (tracked.insert target.key (number, index))).values.countP counts ≤ _ := ih later
    have here : counts (number, index) = (target.pattern.uri == name) := about 0 target rfl
    rw [here] at inserted
    rw [tracking, List.countP_cons]
    omega

theorem subtotal_invocations (counter : Counter) (targets : List Call.Target) :
    counter.subtotal [name] (records (targets.map fun target => (target.pattern, .invocation))) =
      counter.amount .invocation * targets.countP fun target => target.pattern.uri == name := by
  induction targets with
  | nil => simp [records]
  | cons target targets ih =>
    simp only [records, List.map_cons, subtotal_cons, isPrefixOf_single, List.countP_cons] at ih ⊢
    rw [ih, Nat.mul_add]
    split <;> omega

theorem awaitedOf_dispatch_le (linked : dealer.Linked)
    (dispatches : Dispatches peers dealer operation call later) :
    later.awaitedOf name ≤ dealer.awaitedOf name +
      call.targets.countP fun target => target.pattern.uri == name := by
  let counts (place : Nat × Nat) : Bool := later.procedure? place == some name
  have fresh (i : Nat) (target : Call.Target) (located : call.targets[i]? = some target) :
      counts (dealer.calls.length, 0 + i) = (target.pattern.uri == name) := by
    simp [counts, procedure?, dispatches.calls, located]
  have grown : (tracking dealer.calls.length 0 call.targets dealer.tracked).values.countP counts ≤
      dealer.tracked.values.countP counts + _ := countP_tracking_le fresh
  have kept : dealer.tracked.values.countP counts = dealer.awaitedOf name := by
    apply List.countP_congr
    intro place member
    obtain ⟨⟨key, found⟩, among, rfl⟩ := List.mem_map.mp member
    obtain ⟨other, -, held, -⟩ := linked.tracked ((Keyed.find?_eq_some_iff _).mpr among)
    have bound := (List.getElem?_eq_some_iff.mp held).1
    simp [counts, procedure?, dispatches.calls, List.getElem?_append_left bound]
  rw [← dispatches.tracked, kept] at grown
  exact grown

theorem accounted_dispatch {books : Records} (linked : dealer.Linked)
    (accounted : dealer.Accounted books)
    (dispatches : Dispatches peers dealer operation call later) :
    later.Accounted (books ++ records (call.noteAt 0 .attempt) ++
      records (call.targets.map fun target => (target.pattern, .invocation))) := by
  have grown : later.targets = dealer.targets ++ call.targets := by
    simp [targets, dispatches.calls]
  have root := isSome_recording accounted.root (call.noteAt 0 .attempt)
  exact
    { root := by
        rw [dispatches.statistics]
        exact isSome_recording root _
      agrees := by
        rw [dispatches.statistics]
        exact agrees_recording root (agrees_recording accounted.root accounted.agrees _) _
      ofProcedures := by
        rw [dispatches.statistics]
        exact ofProcedures_recording (ofProcedures_recording accounted.ofProcedures _) _
      attempts := fun name => by
        rw [subtotal_append, subtotal_append, accounted.attempts, subtotal_note,
          subtotal_invocations, dispatches.calls, List.countP_append, List.countP_singleton]
        simp only [amount, Nat.zero_mul, Nat.add_zero]
        rfl
      invocations := fun name => by
        rw [subtotal_append, subtotal_append, accounted.invocations, subtotal_note,
          subtotal_invocations, grown, List.countP_append]
        simp [amount]
      answers := fun name => by
        have before := accounted.answers name
        have more : later.awaitedOf name ≤ _ := awaitedOf_dispatch_le linked dispatches
        rw [grown, List.countP_append]
        simp only [subtotal_append, subtotal_note, subtotal_invocations, amount, ite_self,
          Nat.zero_mul, Nat.add_zero]
        omega }

end Dispatch

theorem accounted_moves {books : Records} (accounted : dealer.Accounted books)
    (moves : Moves peers operation dealer later) : ∃ books, later.Accounted books := by
  induction moves with
  | refl => exact ⟨books, accounted⟩
  | tail _ move ih =>
    obtain ⟨books, accounted⟩ := ih
    cases move with
    | aside aside => exact ⟨books, accounted_aside accounted aside⟩
    | turn found cause => exact ⟨_, accounted_turn accounted found cause⟩
    | retire closing => exact ⟨books, { accounted with }⟩

theorem accounted_run (peers : Peers) (options : Options) (operations : List Operation) :
    ∃ books, (run peers options operations).Accounted books := by
  induction operations using List.reverseRecOn with
  | nil => exact ⟨[], accounted_initial options⟩
  | append_singleton operations operation ih =>
    obtain ⟨books, accounted⟩ := ih
    have linked := linked_run peers options operations
    rw [run_concat]
    rcases step_cases linked peers operation with moves | ⟨call, dispatches⟩
    · exact accounted_moves accounted moves
    · exact ⟨_, accounted_dispatch linked accounted dispatches⟩

end Dealer

end CallRouter
