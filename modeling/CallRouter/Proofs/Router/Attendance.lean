import CallRouter.Proofs.Dealer.Teardown
import CallRouter.Proofs.Router.Sending
import CallRouter.Proofs.Wire.Cutting
import CallRouter.Router.Reception

namespace CallRouter

open Message.Registry (standard)

namespace Router

section Ahead

def ahead (router : Router) (effects : List Effect) : Router :=
  { router with effects := effects ++ router.effects }

variable (router : Router) (effects : List Effect) (id : Nat) (session : Session)

theorem ahead_cleared : ahead { router with effects := [] } router.effects = router := by
  simp [ahead]

theorem send_ahead (kind : Message.Kind) (fields : List Json) :
    (router.ahead effects).send id kind fields = (router.send id kind fields).ahead effects := by
  unfold send
  cases standard.build kind fields <;> simp [ahead]

theorem withDealer_ahead (dealer : Dealer) :
    (router.ahead effects).withDealer dealer = (router.withDealer dealer).ahead effects := by
  have relayed (all : List Effect) (router : Router) :
      all.foldl relay (router.ahead effects) = (all.foldl relay router).ahead effects := by
    induction all generalizing router with
    | nil => rfl
    | cons effect all ih =>
      have one : (router.ahead effects).relay effect = (router.relay effect).ahead effects := by
        cases effect <;> simp [relay, ahead, measure]
      rw [List.foldl_cons, List.foldl_cons, one, ih]
  exact relayed dealer.effects { router with dealer := { dealer with effects := [] } }

def answerAhead (answer : Disposition × Router) (effects : List Effect) : Disposition × Router :=
  (answer.1, answer.2.ahead effects)

theorem abort_ahead (reason : ErrorUri) (text : String) :
    (router.ahead effects).abort id session reason text =
      answerAhead (router.abort id session reason text) effects := by
  have sent := send_ahead (router.measure (·.increment .errors reason.uri)) effects id .abort
    [.dict [(Dict.Key.message, .text text)], .text reason.uri]
  exact congrArg (fun later : Router => (Disposition.close,
    later.setSession id { session with state := .closing })) sent

theorem reject_ahead (request : Option (Message.Kind × Nat)) (error : ProtocolError) :
    (router.ahead effects).reject id session request error =
      answerAhead (router.reject id session request error) effects := by
  unfold reject
  split
  · exact congrArg (Disposition.keepOpen, ·) (send_ahead (router.measure
      (·.increment .errors ErrorUri.invalidArgument.uri)) effects id _ _)
  · exact abort_ahead router effects id session _ _

theorem hello_ahead (message : Message) :
    (router.ahead effects).hello id session message =
      answerAhead (router.hello id session message) effects := by
  have same : (router.ahead effects).identity = router.identity := rfl
  unfold hello
  rw [same]
  dsimp only
  by_cases other : (message.text? 0).getD "" ≠ router.identity.realm
  · rw [if_pos other, if_pos other]
    exact abort_ahead router effects id session _ _
  · rw [if_neg other, if_neg other]
    by_cases none : (Announcement.ofDetails ((message.dict? 1).getD [])).isEmpty = true
    · rw [if_pos none, if_pos none]
      exact abort_ahead router effects id session _ _
    · rw [if_neg none, if_neg none]
      exact congrArg (Disposition.keepOpen, ·) (send_ahead
        ((router.setSession id (session.join _ _)).measure (·.increment .sessionsActive ""))
          effects id _ _)

theorem goodbye_ahead (message : Message) :
    (router.ahead effects).goodbye id session message =
      answerAhead (router.goodbye id session message) effects := by
  unfold goodbye
  split
  · rfl
  · rw [send_ahead]
    rfl

theorem route_ahead (now : Time) (draw : Nat) (message : Message) :
    (router.ahead effects).route now draw id session message =
      answerAhead (router.route now draw id session message) effects := by
  unfold route
  split
  · exact abort_ahead router effects id session _ _
  · have same : (router.ahead effects).dealer.handle (router.ahead effects).peers now draw id
        message = router.dealer.handle router.peers now draw id message := rfl
    rw [same]
    split
    · exact congrArg (Disposition.keepOpen, ·) (withDealer_ahead router effects _)
    · split
      · exact abort_ahead router effects id session _ _
      · rfl

theorem dispatch_ahead (now : Time) (draw : Nat) (message : Message) :
    (router.ahead effects).dispatch now draw id session message =
      answerAhead (router.dispatch now draw id session message) effects := by
  unfold dispatch
  split
  · rfl
  · rfl
  · exact hello_ahead router effects id session message
  · exact abort_ahead router effects id session _ _
  · exact abort_ahead router effects id session _ _
  · exact goodbye_ahead router effects id session message
  · exact route_ahead router effects id session now draw message

theorem handle_ahead (now : Time) (draw : Nat) (raw : List Json) :
    (router.ahead effects).handle now draw id raw =
      answerAhead (router.handle now draw id raw) effects := by
  unfold handle
  have same : (router.ahead effects).sessions = router.sessions := rfl
  rw [same]
  cases router.sessions.find? id with
  | none => rfl
  | some session =>
    dsimp only
    cases standard.parse raw with
    | error error => exact reject_ahead (router.setSession id _) effects id _ _ error
    | ok message =>
      have dispatched := dispatch_ahead (router.setSession id (heard session)) effects id
        (heard session) now draw message
      exact congrArg (fun answer : Disposition × Router =>
        (answer.1, (answer.2.measure fun metrics =>
          (metrics.increment .messages message.kind.name).observe message.kind.name
            (.zero false)).gauge)) dispatched

theorem rejectBytes_ahead (error : ProtocolError) :
    (router.ahead effects).rejectBytes id error =
      answerAhead (router.rejectBytes id error) effects := by
  unfold rejectBytes
  have same : (router.ahead effects).sessions = router.sessions := rfl
  rw [same]
  split
  · rfl
  · exact abort_ahead router effects id _ _ _

end Ahead

abbrev Arrivals := List (Time × Except ProtocolError (List Json))

inductive Ending where
  | waiting
  | closed
  | broken (error : ProtocolError)
  deriving DecidableEq

structure Attendance where
  router : Router
  ending : Ending := .waiting
  handled : Nat := 0

/--
Handles the values that arrive from a session one by one, up to and including those that are
answered by closing the session, or up to an error. A number is drawn for each.
-/
def attend (router : Router) (draws : Nat → Nat) (id : Nat) : Arrivals → Attendance
  | [] => { router }
  | (_, .error error) :: _ => { router, ending := .broken error }
  | (now, .ok raw) :: rest =>
    match router.handle now (draws 0) id raw with
    | (.close, router) => { router, ending := .closed, handled := 1 }
    | (.keepOpen, router) =>
      let attendance := router.attend (fun k => draws (k + 1)) id rest
      { attendance with handled := attendance.handled + 1 }

namespace Attendance

def answered (attendance : Attendance) (id : Nat) : Router :=
  match attendance.ending with
  | .broken error => (attendance.router.rejectBytes id error).2
  | _ => attendance.router

def ahead (attendance : Attendance) (effects : List Effect) : Attendance :=
  { attendance with router := attendance.router.ahead effects }

theorem answered_ahead (attendance : Attendance) (effects : List Effect) (id : Nat) :
    (attendance.ahead effects).answered id = (attendance.answered id).ahead effects := by
  obtain ⟨router, ending, handled⟩ := attendance
  cases ending with
  | broken error => exact congrArg Prod.snd (rejectBytes_ahead router effects id error)
  | _ => rfl

end Attendance

variable {router : Router} {id : Nat}

theorem attend_ahead (router : Router) (effects : List Effect) (draws : Nat → Nat) (id : Nat)
    (arrivals : Arrivals) : (router.ahead effects).attend draws id arrivals =
      (router.attend draws id arrivals).ahead effects := by
  induction arrivals generalizing router draws with
  | nil => rfl
  | cons arrival rest ih =>
    obtain ⟨now, error | raw⟩ := arrival
    · rfl
    · simp only [attend, handle_ahead, answerAhead]
      cases router.handle now (draws 0) id raw with
      | mk disposition later =>
        cases disposition with
        | close => rfl
        | keepOpen =>
          simp only [ih]
          rfl

theorem attend_append {draws : Nat → Nat} {arrivals : Arrivals}
    (waits : (router.attend draws id arrivals).ending = .waiting) (more : Arrivals) :
    (router.attend draws id arrivals).handled = arrivals.length ∧
    (arrivals.map (·.2)).all Except.isOk = true ∧
    router.attend draws id (arrivals ++ more) =
      let next := (router.attend draws id arrivals).router.attend
        (fun k => draws (arrivals.length + k)) id more
      { next with handled := arrivals.length + next.handled } := by
  induction arrivals generalizing router draws with
  | nil => simp [attend]
  | cons arrival rest ih =>
    obtain ⟨now, error | raw⟩ := arrival
    · cases waits
    · simp only [attend, List.cons_append] at waits ⊢
      cases answer : router.handle now (draws 0) id raw with
      | mk disposition later =>
        rw [answer] at waits
        cases disposition with
        | close => cases waits
        | keepOpen =>
          obtain ⟨handled, fine, next⟩ := ih waits
          simp only [handled, next, List.map_cons, List.all_cons, fine, List.length_cons]
          refine ⟨trivial, rfl, ?_⟩
          simp only [Nat.add_right_comm _ 1]

theorem attend_resume {draws : Nat → Nat} {arrivals : Arrivals}
    (waits : (router.attend draws id arrivals).ending = .waiting) (more : Arrivals) :
    router.attend draws id (arrivals ++ more) =
      let first := router.attend draws id arrivals
      let next := { first.router with effects := [] }.attend (fun k => draws (first.handled + k)) id
        more
      { next.ahead first.router.effects with handled := first.handled + next.handled } := by
  obtain ⟨handled, -, next⟩ := attend_append waits more
  rw [next]
  dsimp only
  rw [handled]
  conv_lhs => rw [← ahead_cleared (router.attend draws id arrivals).router, attend_ahead]
  rfl

theorem attend_ended {draws : Nat → Nat} {arrivals : Arrivals}
    (ended : (router.attend draws id arrivals).ending ≠ .waiting) (more : Arrivals) :
    router.attend draws id (arrivals ++ more) = router.attend draws id arrivals := by
  induction arrivals generalizing router draws with
  | nil => exact absurd rfl ended
  | cons arrival rest ih =>
    obtain ⟨now, error | raw⟩ := arrival
    · rfl
    · simp only [attend, List.cons_append] at ended ⊢
      cases answer : router.handle now (draws 0) id raw with
      | mk disposition later =>
        rw [answer] at ended
        cases disposition with
        | close => rfl
        | keepOpen => simp only [ih ended]

section Receive

variable {reader rest : Wire.Reader} {now : Time} {draws : Nat → Nat} {later : Router}

theorem receive_waiting (router : Router) (now : Time) (draws : Nat → Nat) (id : Nat)
    (polled : reader.poll = (.ok none, rest)) :
    router.receive now draws id reader = ([], rest, router) := by
  rw [receive]
  split <;> simp_all

theorem receive_garbage (router : Router) (now : Time) (draws : Nat → Nat) (id : Nat)
    {error : ProtocolError} (polled : reader.poll = (.error error, rest)) :
    router.receive now draws id reader =
      ([.garbage error], rest, (router.rejectBytes id error).2) := by
  rw [receive]
  split <;> simp_all

theorem receive_close {raw : List Json} (polled : reader.poll = (.ok (some raw), rest))
    (answer : router.handle now (draws 0) id raw = (.close, later)) :
    router.receive now draws id reader = ([.message .close], rest, later) := by
  rw [receive]
  split <;> simp_all

theorem receive_keepOpen {raw : List Json} (polled : reader.poll = (.ok (some raw), rest))
    (answer : router.handle now (draws 0) id raw = (.keepOpen, later)) :
    router.receive now draws id reader =
      let received := later.receive now (fun k => draws (k + 1)) id rest
      (.message .keepOpen :: received.1, received.2) := by
  rw [receive]
  split <;> simp_all

def endingOf : Option Reception → Ending
  | none | some (.message .keepOpen) => .waiting
  | some (.message .close) => .closed
  | some (.garbage error) => .broken error

theorem endingOf_cons (receptions : List Reception) :
    endingOf (.message .keepOpen :: receptions).getLast? = endingOf receptions.getLast? := by
  cases receptions with
  | nil => rfl
  | cons first rest => rw [List.getLast?_cons_cons]

theorem receive_attend (router : Router) (now : Time) (draws : Nat → Nat) (id : Nat)
    (reader : Wire.Reader) :
    let attendance := router.attend draws id (reader.drain.1.map (now, ·))
    let received := router.receive now draws id reader
    received.2.2 = attendance.answered id ∧
      received.1.countP Reception.isMessage = attendance.handled ∧
      endingOf received.1.getLast? = attendance.ending ∧
      (attendance.ending = .waiting → received.2.1 = reader.drain.2) := by
  -- The induction is on what can be read; the router may stop before all of it is handled.
  fun_induction Wire.Reader.drain reader generalizing router draws with
  | case1 reader rest polled =>
    rw [receive_waiting router now draws id polled]
    exact ⟨rfl, rfl, rfl, fun _ => rfl⟩
  | case2 reader error rest polled =>
    rw [receive_garbage router now draws id polled]
    refine ⟨rfl, rfl, rfl, fun waits => ?_⟩
    cases waits
  | case3 reader raw rest polled results left drained ih =>
    simp only [List.map_cons, attend]
    cases answer : router.handle now (draws 0) id raw with
    | mk disposition later =>
      cases disposition with
      | close =>
        rw [receive_close polled answer]
        refine ⟨rfl, rfl, rfl, fun waits => ?_⟩
        cases waits
      | keepOpen =>
        obtain ⟨settled, counted, ending, kept⟩ := ih later (fun k => draws (k + 1))
        rw [drained] at settled counted ending kept
        rw [receive_keepOpen polled answer]
        refine ⟨settled, ?_, ?_, kept⟩
        · exact (List.countP_cons_of_pos rfl).trans (congrArg (· + 1) counted)
        · rw [← endingOf_cons] at ending
          exact ending

end Receive

structure Hosts (router : Router) (id : Nat) : Prop where
  settled : router.Settled
  linked : router.dealer.Linked
  known : ∃ session, router.sessions.find? id = some session
  alone : ∀ other, other ≠ id → router.sessions.find? other = none

def Ending.farewell : Ending → List Message
  | broken error => [abortion .protocolViolation error.message]
  | waiting | closed => []

namespace Hosts

theorem cleared (hosts : router.Hosts id) : { router with effects := [] }.Hosts id :=
  ⟨⟨hosts.settled.effects, hosts.settled.ids⟩, hosts.linked, hosts.known, hosts.alone⟩

theorem handle (hosts : router.Hosts id) (now : Time) (draw : Nat) (raw : List Json) :
    (router.handle now draw id raw).2.Hosts id := by
  obtain ⟨session, known⟩ := hosts.known
  obtain ⟨reaction, -, -, after, becomes⟩ := reacts_handle hosts.settled known now draw raw
  have settled := settled_step hosts.settled (.handle now draw id raw)
  rw [step] at settled
  refine ⟨settled, ?_, ⟨_, after⟩, ?_⟩
  · rw [becomes.dealer]
    apply Dealer.linked_clear
    cases reaction.routed with
    | none => exact hosts.linked
    | some message =>
      exact Dealer.linked_step hosts.linked router.peers (.handle now draw id message)
  · intro other apart
    rw [becomes.sessions, Function.update_of_ne apart]
    exact hosts.alone other apart

theorem rejectBytes (hosts : router.Hosts id) (error : ProtocolError) :
    (router.rejectBytes id error).2.Hosts id ∧
      (router.rejectBytes id error).2.effects = router.effects ++
        [.send id (abortion .protocolViolation error.message) none] := by
  obtain ⟨session, known⟩ := hosts.known
  have answer : router.rejectBytes id error =
      router.abort id session .protocolViolation error.message := by
    simp only [Router.rejectBytes, known]
  have settled := settled_step hosts.settled (.rejectBytes id error)
  rw [step, answer] at settled
  rw [answer, abort_eq] at *
  refine ⟨⟨settled, hosts.linked, ⟨closing session, by simp⟩, fun other apart => ?_⟩, rfl⟩
  rw [sessions_setSession, Function.update_of_ne apart]
  exact hosts.alone other apart

theorem attend (hosts : router.Hosts id) (draws : Nat → Nat) (arrivals : Arrivals) :
    (router.attend draws id arrivals).router.Hosts id := by
  induction arrivals generalizing router draws with
  | nil => exact hosts
  | cons arrival rest ih =>
    obtain ⟨now, error | raw⟩ := arrival
    · exact hosts
    · have next := hosts.handle now (draws 0) raw
      simp only [Router.attend]
      cases answer : router.handle now (draws 0) id raw with
      | mk disposition later =>
        rw [answer] at next
        cases disposition with
        | close => exact next
        | keepOpen => exact ih next _

theorem answered {attendance : Attendance} (hosts : attendance.router.Hosts id) :
    (attendance.answered id).Hosts id ∧ (attendance.answered id).effects =
      attendance.router.effects ++ attendance.ending.farewell.map (.send id · none) := by
  obtain ⟨router, ending, handled⟩ := attendance
  cases ending with
  | broken error => exact hosts.rejectBytes error
  | waiting | closed => exact ⟨hosts, (List.append_nil _).symm⟩

theorem forget (hosts : router.Hosts id) :
    (∀ other, (router.forgetSession id).sessions.find? other = none) ∧
      (router.forgetSession id).dealer.directory.ownedBy id = [] := by
  have sessions : (router.closeSession id).sessions = router.sessions := by
    unfold closeSession
    dsimp only
    split <;> simp
  have dealer : (router.closeSession id).dealer =
      { router.dealer.closeSession id with effects := [] } := by
    unfold closeSession
    dsimp only
    split <;> simp
  constructor
  · intro other
    by_cases same : other = id
    · subst same
      simp [forgetSession, Keyed.find?_erase]
    · simpa [forgetSession, sessions, Keyed.find?_erase, Ne.symm same] using hosts.alone other same
  · obtain ⟨ids, owned, directory⟩ :=
      (Dealer.closes_closeSession router.dealer id).directory hosts.linked
    have left : (router.forgetSession id).dealer.directory =
        (router.closeSession id).dealer.directory := by
      simp only [forgetSession]
    rw [left, dealer]
    dsimp only
    rw [directory]
    exact Registration.Directory.ownedBy_of_closed owned

end Hosts

end Router

namespace Wire.Reader

open Router (Arrivals)

def arrivals (reader : Reader) : List (Time × Bytes) → Arrivals
  | [] => []
  | (now, bytes) :: chunks =>
    let (results, reader) := (reader.extend bytes).drain
    results.map (now, ·) ++ if results.all Except.isOk then reader.arrivals chunks else []

theorem arrivals_results (reader : Reader) (chunks : List (Time × Bytes)) :
    (reader.arrivals chunks).map (·.2) = (reader.receive (chunks.map (·.2))).1 := by
  induction chunks generalizing reader with
  | nil => rfl
  | cons chunk chunks ih =>
    obtain ⟨now, bytes⟩ := chunk
    simp only [arrivals, List.map_append, List.map_map, List.map_cons, receive]
    split
    · simp only [ih]
      simp [Function.comp_def]
    · simp [Function.comp_def]

theorem arrivals_prefix (reader : Reader) (before : List (Time × Bytes)) (now : Time)
    (bytes more : Bytes) (after : List (Time × Bytes)) :
    reader.arrivals (before ++ [(now, bytes)]) <+:
      reader.arrivals (before ++ (now, bytes ++ more) :: after) := by
  induction before generalizing reader with
  | nil =>
    simp only [List.nil_append, arrivals, ite_self, List.append_nil]
    refine List.IsPrefix.trans ?_ (List.prefix_append _ _)
    rw [← extend_extend]
    by_cases fine : Fine (reader.extend bytes).drain.1
    · rw [(drain_pause fine more).2, List.map_append]
      exact List.prefix_append _ _
    · rw [drain_broken fine more]
  | cons chunk before ih =>
    obtain ⟨earlier, first⟩ := chunk
    simp only [List.cons_append, arrivals]
    split
    · exact List.prefix_append_right_inj _ |>.mpr (ih _)
    · exact List.prefix_rfl

end Wire.Reader

end CallRouter
