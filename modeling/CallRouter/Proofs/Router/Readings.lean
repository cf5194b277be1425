import CallRouter.Proofs.Number.Whole
import CallRouter.Proofs.Router.Reactions
import Mathlib.Algebra.GroupWithZero.Nat

/-!
What the router reports of itself in numbers without a label. A step that leaves the dealer and the
sessions as they are leaves these numbers as well, and any other step brings them up to date.
-/

namespace CallRouter

namespace Metrics

variable (metrics : Metrics) (metric other : Metric) (label text : String) (value : Binary64)

theorem amount_set : (metrics.set metric label value).amount other text =
    if metric = other ∧ label = text then .finite value else metrics.amount other text := by
  rw [amount, set, Keyed.find?_insert]
  simp only [Prod.mk.injEq]
  split <;> rfl

theorem amount_add : (metrics.add metric label value).amount other text =
    if metric = other ∧ label = text then (metrics.amount other text).plus value
    else metrics.amount other text := by
  rw [amount, add, Keyed.find?_insert]
  simp only [Prod.mk.injEq]
  split
  · rename_i same
    rw [same.1, same.2]
    rfl
  · rfl

end Metrics

def Amount.adding (total : Amount) (counts : List Nat) : Amount :=
  counts.foldl (fun total (count : Nat) => total.plus (Metrics.whole count)) total

theorem Amount.adding_append (total : Amount) (counts more : List Nat) :
    total.adding (counts ++ more) = (total.adding counts).adding more := List.foldl_append

theorem Amount.zero_adding {counts : List Nat} (small : counts.sum ≤ 2 ^ 53) :
    zero.adding counts = finite (Metrics.whole counts.sum) := by
  induction counts using List.reverseRecOn with
  | nil => rfl
  | append_singleton counts count ih =>
    rw [List.sum_append_nat, List.sum_singleton] at small ⊢
    rw [adding_append, ih (by omega)]
    exact (Metrics.plus_whole (by omega) (by omega) (by omega)).trans (by push_cast; rfl)

theorem Dealer.directory_checkTimeouts (dealer : Dealer) (peers : Peers) (now : Time) :
    (dealer.checkTimeouts peers now).2.directory = dealer.directory := by
  rw [checkTimeouts_eq]
  generalize dealer.awaited = sessions
  induction sessions generalizing dealer with
  | nil => rfl
  | cons session sessions ih =>
    exact (ih _).trans (directory_turns (checkTimeout_turns dealer now session))

namespace Router

variable {router later : Router} {id : Nat} {session : Session} {operation : Operation}

def reading (router : Router) (metric : Metric) : Option Amount :=
  router.metrics.map (·.amount metric "")

def ShowsAlike (router later : Router) : Prop :=
  ∀ metric : Metric, metric.label? = none → later.reading metric = router.reading metric

theorem ShowsAlike.refl (router : Router) : router.ShowsAlike router := fun _ _ => rfl

theorem ShowsAlike.trans {third : Router} (first : router.ShowsAlike later)
    (second : later.ShowsAlike third) : router.ShowsAlike third :=
  fun metric single => (second metric single).trans (first metric single)

theorem ShowsAlike.isSome (alike : router.ShowsAlike later) :
    later.metrics.isSome = router.metrics.isSome := by
  simpa [reading] using congrArg Option.isSome (alike .connections rfl)

theorem showsAlike_measure (router : Router) {change : Metrics → Metrics}
    (spares : ∀ metrics metric, Metric.label? metric = none →
      (change metrics).amount metric "" = metrics.amount metric "") :
    router.ShowsAlike (router.measure change) := by
  intro metric single
  simp [reading, measure, Function.comp_def, spares _ metric single]

theorem amount_increment_labelled {counted : Metric} (labelled : counted.label? ≠ none)
    (label : String) (metrics : Metrics) (metric : Metric) (single : metric.label? = none) :
    (metrics.increment counted label).amount metric "" = metrics.amount metric "" := by
  have apart : ¬ (counted = metric ∧ label = "") := by
    rintro ⟨rfl, -⟩
    exact labelled single
  rw [Metrics.increment, Metrics.amount_add, if_neg apart]

theorem showsAlike_increment (router : Router) {counted : Metric}
    (labelled : counted.label? ≠ none) (label : String) :
    router.ShowsAlike (router.measure (·.increment counted label)) :=
  router.showsAlike_measure (amount_increment_labelled labelled label)

theorem showsAlike_send (router : Router) (id : Nat) (kind : Message.Kind) (fields : List Json) :
    router.ShowsAlike (router.send id kind fields) := by
  unfold send
  split <;> exact .refl _

theorem showsAlike_withDealer (router : Router) (dealer : Dealer) :
    router.ShowsAlike (router.withDealer dealer) := by
  have relayed (effects : List Effect) (router : Router) :
      router.ShowsAlike (effects.foldl relay router) := by
    induction effects generalizing router with
    | nil => exact .refl _
    | cons effect effects ih =>
      refine ShowsAlike.trans ?_ (ih _)
      cases effect with
      | send => exact .refl _
      | publish event => exact showsAlike_increment _ (by decide) event.topic
  exact relayed dealer.effects { router with dealer := { dealer with effects := [] } }

def hasJoined (router : Router) (id : Nat) : Bool :=
  (router.sessions.find? id).any fun session => session.realm.isSome

theorem hasJoined_of_sessions {after : Session}
    (sessions : later.sessions.find? = Function.update router.sessions.find? id (some after)) :
    later.hasJoined = Function.update router.hasJoined id after.realm.isSome := by
  funext other
  by_cases same : other = id
  · subst same
    simp [hasJoined, sessions]
  · simp [hasJoined, sessions, same]

theorem hasJoined_of_known (known : router.sessions.find? id = some session) :
    router.hasJoined id = session.realm.isSome := by
  rw [hasJoined, known, Option.any_some]

structure Keeps (router later : Router) : Prop where
  alike : router.ShowsAlike later
  joined : later.hasJoined = router.hasJoined

theorem Keeps.trans {third : Router} (first : router.Keeps later) (second : later.Keeps third) :
    router.Keeps third :=
  ⟨first.alike.trans second.alike, second.joined.trans first.joined⟩

theorem keeps_withDealer (router : Router) (dealer : Dealer) :
    router.Keeps (router.withDealer dealer) where
  alike := showsAlike_withDealer _ _
  joined := by
    unfold hasJoined
    rw [sessions_withDealer]

structure Rests (router later : Router) : Prop extends Keeps router later where
  dealer : later.dealer = router.dealer

theorem Rests.refl (router : Router) : router.Rests router := ⟨⟨.refl _, rfl⟩, rfl⟩

theorem Rests.trans {third : Router} (first : router.Rests later) (second : later.Rests third) :
    router.Rests third :=
  ⟨first.toKeeps.trans second.toKeeps, second.dealer.trans first.dealer⟩

theorem rests_setSession {after : Session} (realm : after.realm.isSome = router.hasJoined id) :
    router.Rests (router.setSession id after) where
  alike := .refl _
  dealer := rfl
  joined := by
    rw [hasJoined_of_sessions (sessions_setSession router id after), realm,
      Function.update_eq_self]

theorem rests_increment (router : Router) {counted : Metric} (labelled : counted.label? ≠ none)
    (label : String) : router.Rests (router.measure (·.increment counted label)) :=
  ⟨⟨showsAlike_increment router labelled label, rfl⟩, rfl⟩

theorem rests_send (router : Router) (id : Nat) (kind : Message.Kind) (fields : List Json) :
    router.Rests (router.send id kind fields) := by
  unfold send
  split <;> exact ⟨⟨.refl _, rfl⟩, rfl⟩

theorem rests_abort (known : router.sessions.find? id = some session) (reason : ErrorUri)
    (text : String) : router.Rests (router.abort id session reason text).2 := by
  have labelled : Metric.errors.label? ≠ none := by decide
  have sent := (router.rests_increment labelled reason.uri).trans
    (rests_send _ id .abort [.dict [(Dict.Key.message, .text text)], .text reason.uri])
  have realm : session.realm.isSome = router.hasJoined id := (hasJoined_of_known known).symm
  rw [← sent.joined] at realm
  exact sent.trans (rests_setSession realm)

theorem rests_reject (known : router.sessions.find? id = some session)
    (request : Option (Message.Kind × Nat)) (error : ProtocolError) :
    router.Rests (router.reject id session request error).2 := by
  unfold reject
  split
  · have labelled : Metric.errors.label? ≠ none := by decide
    exact (router.rests_increment labelled _).trans (rests_send _ _ _ _)
  · exact rests_abort known _ _

theorem rests_goodbye (known : router.sessions.find? id = some session) (message : Message) :
    router.Rests (router.goodbye id session message).2 := by
  have realm : session.realm.isSome = router.hasJoined id := (hasJoined_of_known known).symm
  unfold goodbye
  split
  · exact rests_setSession realm
  · have sent := router.rests_send id .goodbye [.dict [], .text ErrorUri.goodbyeAndOut.uri]
    rw [← sent.joined] at realm
    exact sent.trans (rests_setSession realm)

theorem keeps_route (known : router.sessions.find? id = some session) (now : Time) (draw : Nat)
    (message : Message) : router.Keeps (router.route now draw id session message).2 := by
  unfold route
  split
  · exact (rests_abort known _ _).toKeeps
  split
  · exact keeps_withDealer _ _
  · split
    · exact (rests_abort known _ _).toKeeps
    · exact (Rests.refl _).toKeeps

inductive Recounts (router : Router) (id : Nat) (session : Session) (later : Router) : Prop
  | goesOn (keeps : router.Keeps later) : Recounts router id session later
  | joins (state : session.state = .establishing)
      (alike : (router.measure (·.increment .sessionsActive "")).ShowsAlike later)
      (joined : later.hasJoined = Function.update router.hasJoined id true) :
      Recounts router id session later

theorem recounts_hello (known : router.sessions.find? id = some session)
    (state : session.state = .establishing) (message : Message) :
    router.Recounts id session (router.hello id session message).2 := by
  unfold hello
  dsimp only
  split
  · exact .goesOn (rests_abort known _ _).toKeeps
  split
  · exact .goesOn (rests_abort known _ _).toKeeps
  · refine .joins state (showsAlike_send _ _ _ _) ((rests_send _ _ _ _).joined.trans ?_)
    exact hasJoined_of_sessions (sessions_setSession _ _ _)

theorem recounts_dispatch (known : router.sessions.find? id = some session) (now : Time)
    (draw : Nat) (message : Message) :
    router.Recounts id session (router.dispatch now draw id session message).2 := by
  unfold dispatch
  split
  · exact .goesOn (Rests.refl _).toKeeps
  · have realm : (closing session).realm.isSome = router.hasJoined id :=
      (hasJoined_of_known known).symm
    exact .goesOn (rests_setSession realm).toKeeps
  · exact recounts_hello known ‹_› message
  · exact .goesOn (rests_abort known _ _).toKeeps
  · exact .goesOn (rests_abort known _ _).toKeeps
  · exact .goesOn (rests_goodbye known message).toKeeps
  · exact .goesOn (keeps_route known now draw message)

inductive Tells (router : Router) : Operation → Router → Prop
  | rests {operation : Operation} {later : Router} (rests : router.Rests later)
      (unswept : ∀ now, operation ≠ .sweep now) (stays : ∀ id, operation ≠ .closeSession id) :
      Tells router operation later
  | handles {now : Time} {draw id : Nat} {raw : List Json} {handled : Router}
      (keeps : router.Keeps handled) : Tells router (.handle now draw id raw) handled.gauge
  | joins {now : Time} {draw id : Nat} {raw : List Json} {session : Session} {handled : Router}
      (known : router.sessions.find? id = some session) (state : session.state = .establishing)
      (alike : (router.measure (·.increment .sessionsActive "")).ShowsAlike handled)
      (joined : handled.hasJoined = Function.update router.hasJoined id true) :
      Tells router (.handle now draw id raw) handled.gauge
  | sweeps {now : Time} {swept : Router} (keeps : router.Keeps swept)
      (directory : swept.dealer.directory = router.dealer.directory) :
      Tells router (.sweep now) (swept.measure fun metrics =>
        (metrics.add .callTimeouts "" (Metrics.whole (router.sweep now).1)).set
          .pendingInvocations "" (Metrics.whole swept.dealer.pending))
  | leaves {id : Nat} {closed : Router} (member : router.hasJoined id = true)
      (keeps : (router.measure (·.decrement .sessionsActive "")).Keeps closed) :
      Tells router (.closeSession id) closed.gauge
  | ends {id : Nat} {closed : Router} (stranger : router.hasJoined id = false)
      (keeps : router.Keeps closed) : Tells router (.closeSession id) closed.gauge

theorem tells_handle (router : Router) (now : Time) (draw id : Nat) (raw : List Json) :
    router.Tells (.handle now draw id raw) (router.handle now draw id raw).2 := by
  unfold handle
  cases known : router.sessions.find? id with
  | none => exact .rests (.refl _) (by simp) (by simp)
  | some session =>
    have heard : router.Rests (router.setSession id (heard session)) :=
      rests_setSession (hasJoined_of_known known).symm
    have found : (router.setSession id (Router.heard session)).sessions.find? id =
        some (Router.heard session) := Keyed.find?_insert_self _ _ _
    dsimp only
    cases Message.Registry.standard.parse raw with
    | error error => exact .rests (heard.trans (rests_reject found _ _)) (by simp) (by simp)
    | ok message =>
      have counted (handled : Router) : handled.Keeps (handled.measure fun metrics =>
          (metrics.increment .messages message.kind.name).observe message.kind.name
            (.zero false)) :=
        ⟨handled.showsAlike_measure (amount_increment_labelled (by decide) _), rfl⟩
      cases recounts_dispatch found now draw message with
      | goesOn keeps => exact .handles ((heard.toKeeps.trans keeps).trans (counted _))
      | joins state alike joined =>
        rw [heard.joined] at joined
        exact .joins known state (ShowsAlike.trans alike (counted _).alike) joined

theorem tells_sweep (router : Router) (now : Time) :
    router.Tells (.sweep now) (router.sweep now).2 := by
  let dealer := (router.dealer.checkTimeouts router.peers now).2
  have pending : (router.withDealer dealer).dealer.pending = dealer.pending := by
    rw [dealer_withDealer]
    rfl
  have directory : (router.withDealer dealer).dealer.directory = router.dealer.directory := by
    rw [dealer_withDealer]
    exact Dealer.directory_checkTimeouts _ _ _
  have tells : router.Tells (.sweep now) _ := .sweeps (router.keeps_withDealer dealer) directory
  rwa [pending] at tells

theorem tells_closeSession (router : Router) (id : Nat) :
    router.Tells (.closeSession id) (router.closeSession id) := by
  unfold closeSession
  dsimp only
  split
  · rename_i member
    exact .leaves member (keeps_withDealer _ _)
  · rename_i stranger
    exact .ends (Bool.eq_false_iff.mpr stranger) (keeps_withDealer _ _)

theorem tells_step (router : Router) (operation : Operation) :
    router.Tells operation (router.step operation) := by
  cases operation with
  | connect id =>
    refine .rests ?_ (by simp) (by simp)
    simp only [step]
    split
    · rename_i new
      have unknown : router.sessions.find? id = none := by
        simpa [Keyed.contains] using (Bool.and_eq_true_iff.mp new).2
      exact rests_setSession (by rw [hasJoined, unknown]; rfl)
    · exact .refl _
  | handle now draw id raw => exact router.tells_handle now draw id raw
  | rejectBytes id error =>
    refine .rests ?_ (by simp) (by simp)
    simp only [step, rejectBytes]
    cases known : router.sessions.find? id with
    | none => exact .refl _
    | some session => exact rests_abort known _ _
  | sweep now => exact router.tells_sweep now
  | farewell id =>
    refine .rests ?_ (by simp) (by simp)
    simp only [step]
    split
    · exact rests_send _ _ _ _
    · exact .refl _
  | closeSession id => exact router.tells_closeSession id

structure Gauged (router : Router) : Prop where
  registrations : router.reading .registrations =
    some (.finite (Metrics.whole router.dealer.directory.size))
  pending : router.reading .pendingInvocations =
    some (.finite (Metrics.whole router.dealer.pending))

theorem Gauged.isSome (gauged : router.Gauged) : router.metrics.isSome = true := by
  simpa [reading] using congrArg Option.isSome gauged.registrations

theorem gauged_gauge (kept : router.metrics.isSome = true) : router.gauge.Gauged := by
  obtain ⟨metrics, kept⟩ := Option.isSome_iff_exists.mp kept
  constructor <;> simp [reading, gauge, measure, kept, Metrics.amount_set]

theorem reading_gauge (router : Router) {metric : Metric} (apart : metric ≠ .registrations)
    (also : metric ≠ .pendingInvocations) :
    router.gauge.reading metric = router.reading metric := by
  simp [reading, gauge, measure, Function.comp_def, Metrics.amount_set, apart.symm, also.symm]

theorem Tells.gauged (tells : router.Tells operation later) (gauged : router.Gauged) :
    later.Gauged := by
  have kept (change : Metrics → Metrics) : (router.measure change).metrics.isSome = true := by
    simpa [measure] using gauged.isSome
  cases tells with
  | rests rests =>
    constructor
    · rw [rests.alike _ rfl, rests.dealer, gauged.registrations]
    · rw [rests.alike _ rfl, rests.dealer, gauged.pending]
  | handles keeps | ends stranger keeps =>
    exact gauged_gauge (keeps.alike.isSome.trans gauged.isSome)
  | joins known state alike => exact gauged_gauge (alike.isSome.trans (kept _))
  | @sweeps now swept keeps directory =>
    obtain ⟨metrics, some⟩ := Option.isSome_iff_exists.mp (keeps.alike.isSome.trans gauged.isSome)
    have registrations := (keeps.alike .registrations rfl).trans gauged.registrations
    constructor
    · simpa [reading, measure, some, Metrics.amount_set, Metrics.amount_add, directory]
        using registrations
    · simp [reading, measure, some, Metrics.amount_set]
  | leaves member keeps => exact gauged_gauge (keeps.alike.isSome.trans (kept _))

def expired (router : Router) : Operation → List Nat
  | .sweep now => [(router.sweep now).1]
  | _ => []

def expirations (router : Router) : List Operation → List Nat
  | [] => []
  | operation :: operations =>
    router.expired operation ++ (router.step operation).expirations operations

theorem expirations_concat (router : Router) (operations : List Operation)
    (operation : Operation) : router.expirations (operations ++ [operation]) =
      router.expirations operations ++ (operations.foldl step router).expired operation := by
  induction operations generalizing router with
  | nil => simp [expirations]
  | cons first operations ih => simp [expirations, ih]

theorem Tells.timeouts (tells : router.Tells operation later) :
    later.reading .callTimeouts =
      (router.reading .callTimeouts).map (·.adding (router.expired operation)) := by
  have same : router.reading .callTimeouts = (router.reading .callTimeouts).map (·.adding []) := by
    simp [Amount.adding]
  have gauge (router : Router) :
      router.gauge.reading .callTimeouts = router.reading .callTimeouts :=
    reading_gauge _ (by decide) (by decide)
  have counted (step : Binary64) :
      (router.measure (·.add .sessionsActive "" step)).reading .callTimeouts =
        router.reading .callTimeouts := by
    simp [reading, measure, Function.comp_def, Metrics.amount_add]
  cases tells with
  | rests rests unswept stays =>
    have none : router.expired operation = [] := by
      cases operation with
      | sweep now => exact absurd rfl (unswept now)
      | _ => rfl
    rw [none, ← same, rests.alike _ rfl]
  | handles keeps | ends stranger keeps =>
    exact ((gauge _).trans (keeps.alike _ rfl)).trans same
  | joins known state alike => exact ((gauge _).trans (alike _ rfl)).trans ((counted _).trans same)
  | leaves member keeps =>
    exact ((gauge _).trans (keeps.alike _ rfl)).trans ((counted _).trans same)
  | sweeps keeps =>
    rw [← keeps.alike _ rfl]
    simp [reading, measure, Function.comp_def, Metrics.amount_set, Metrics.amount_add, expired,
      Amount.adding]

inductive Moves (router : Router) : Operation → Router → Prop
  | joins {now : Time} {draw id : Nat} {raw : List Json} {session : Session} {later : Router}
      (known : router.sessions.find? id = some session) (state : session.state = .establishing)
      (joined : later.hasJoined = Function.update router.hasJoined id true)
      (more : later.reading .sessionsActive =
        (router.reading .sessionsActive).map (·.plus (Metrics.whole 1))) :
      Moves router (.handle now draw id raw) later
  | leaves {id : Nat} {later : Router} (member : router.hasJoined id = true)
      (joined : later.hasJoined = router.hasJoined)
      (fewer : later.reading .sessionsActive =
        (router.reading .sessionsActive).map (·.plus (Metrics.whole (-1)))) :
      Moves router (.closeSession id) later
  | stays {operation : Operation} {later : Router} (joined : later.hasJoined = router.hasJoined)
      (same : later.reading .sessionsActive = router.reading .sessionsActive)
      (strangers : ∀ id, operation = .closeSession id → router.hasJoined id = false) :
      Moves router operation later

theorem Tells.moves (tells : router.Tells operation later) : router.Moves operation later := by
  have gauge (router : Router) :
      router.gauge.reading .sessionsActive = router.reading .sessionsActive :=
    reading_gauge _ (by decide) (by decide)
  cases tells with
  | rests rests unswept stays =>
    exact .stays rests.joined (rests.alike _ rfl) fun id same => absurd same (stays id)
  | handles keeps => exact .stays keeps.joined ((gauge _).trans (keeps.alike _ rfl)) (by simp)
  | joins known state alike joined =>
    refine .joins known state joined ?_
    rw [gauge, alike _ rfl]
    simp [reading, measure, Metrics.increment, Metrics.amount_add, Function.comp_def]
  | sweeps keeps directory =>
    refine .stays keeps.joined ?_ (by simp)
    rw [← keeps.alike _ rfl]
    simp [reading, measure, Metrics.amount_set, Metrics.amount_add, Function.comp_def]
  | leaves member keeps =>
    refine .leaves member keeps.joined ?_
    rw [gauge, keeps.alike _ rfl]
    simp [reading, measure, Metrics.decrement, Metrics.amount_add, Function.comp_def]
  | ends stranger keeps =>
    refine .stays keeps.joined ((gauge _).trans (keeps.alike _ rfl)) ?_
    intro id same
    exact Operation.closeSession.inj same ▸ stranger

end Router

end CallRouter
