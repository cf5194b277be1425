import CallRouter.Proofs.Dealer.Silence
import CallRouter.Proofs.Router.Sending

namespace CallRouter

open Message.Registry (standard)

theorem Rpc.kind_ne_welcome (rpc : Rpc) : rpc.kind ≠ .welcome := by
  cases rpc <;> simp [Rpc.kind]

inductive Session.State.Advances : Session.State → Session.State → Prop
  | stays (state : Session.State) : Advances state state
  | joins : Advances .establishing .established
  | fails : Advances .establishing .closing
  | ends : Advances .established .closing

theorem Session.State.advances_closing (state : Session.State) : state.Advances .closing := by
  cases state with
  | establishing => exact .fails
  | established => exact .ends
  | closing => exact .stays _

namespace Dealer

variable {dealer : Dealer} {id : Nat}

theorem hushed_initial (id : Nat) (options : Options) : Hushed id 0 { options } where
  toLinked := linked_initial options
  owned := rfl
  apart := by simp
  unselected := by simp

theorem hushed_clear (hushed : Hushed id 0 dealer) : Hushed id 0 { dealer with effects := [] } where
  toLinked := linked_clear hushed.toLinked
  owned := hushed.owned
  apart := hushed.apart
  unselected := hushed.unselected

end Dealer

namespace Router

variable {router later : Router} {id : Nat} {session : Session} {operation : Operation}
  {sessions : Nat → Option Session} {work : List Dealer.Operation} {sent : List (Nat × Message)}
  {identity : Identity} {options : Dealer.Options} {metrics : Option Metrics}
  {operations : List Operation}

def received (router : Router) (id : Nat) : List Message :=
  inbox id (Effect.messages router.effects)

inductive Joins (realm : String) (session : Session) (id : Nat) (details : Dict) :
    Operation → Prop
  | hello {now : Time} {draw : Nat} {raw : List Json} (state : session.state = .establishing)
      (reads : standard.parse raw = .ok ⟨.hello, [.text realm, .dict details]⟩)
      (some : Announcement.ofDetails details ≠ []) :
      Joins realm session id details (.handle now draw id raw)

inductive Passage (router : Router) (session : Session) (id : Nat) (operation : Operation) :
    Session → List Message → Prop
  | joins {after : Session} {details : Dict}
      (joins : Joins router.identity.realm session id details operation)
      (state : after.state = .established) (roles : after.roles = Announcement.ofDetails details) :
      Passage router session id operation after [router.welcome id]
  | goesOn {after : Session} {sent : List Message} (roles : after.roles = session.roles)
      (state : after.state = session.state) (early : session.state = .establishing → sent = [])
      (unwelcome : ∀ message ∈ sent, message.kind ≠ .welcome) :
      Passage router session id operation after sent
  | ends {after : Session} {sent : List Message} (roles : after.roles = session.roles)
      (state : after.state = .closing) (unwelcome : ∀ message ∈ sent, message.kind ≠ .welcome) :
      Passage router session id operation after sent

theorem Fate.passage {after : Option Session} {sent : List Message}
    (fate : router.Fate id operation after sent) (known : router.sessions.find? id = some session) :
    ∃ later, after = some later ∧ router.Passage session id operation later sent := by
  cases fate with
  | stays => exact ⟨session, known, .goesOn rfl rfl (fun _ => rfl) (by simp)⟩
  | opens valid new => simp [known] at new
  | rejects found =>
    obtain rfl := Option.some.inj (known.symm.trans found)
    exact ⟨_, rfl, .ends rfl rfl (by simp [abortion])⟩
  | parts found state =>
    obtain rfl := Option.some.inj (known.symm.trans found)
    exact ⟨_, rfl, .goesOn rfl rfl (by simp [state]) (by simp)⟩
  | reacts found reacts =>
    obtain rfl := Option.some.inj (known.symm.trans found)
    refine ⟨_, rfl, ?_⟩
    cases reacts with
    | correct state fails recovered =>
      exact .goesOn rfl rfl (by simp [state]) (by simp [correction])
    | abort why => exact .ends rfl rfl (by simp [abortion])
    | late state reads => exact .goesOn rfl rfl (fun _ => rfl) (by simp)
    | aborted state reads kind => exact .ends rfl rfl (by simp)
    | join state reads some => exact .joins (.hello state reads some) rfl rfl
    | part state reads kind =>
      refine .ends rfl rfl ?_
      split <;> simp [leave]
    | route state reads kind allowed => exact .goesOn rfl rfl (by simp [state]) (by simp)

theorem Joins.establishing {realm : String} {details : Dict}
    (joins : Joins realm session id details operation) : session.state = .establishing := by
  cases joins with
  | hello state => exact state

theorem Joins.details_eq {realm : String} {details other : Dict}
    (joins : Joins realm session id details operation)
    (again : Joins realm session id other operation) : other = details := by
  cases joins with
  | hello state reads =>
    cases again with
    | hello _ also =>
      have same := Except.ok.inj (also.symm.trans reads)
      injection same with _ fields
      injection fields with _ fields
      injection fields with dict
      injection dict

theorem Joins.established (settled : router.Settled) {details : Dict}
    (known : router.sessions.find? id = some session)
    (joins : Joins router.identity.realm session id details operation) :
    ∃ after, (router.step operation).sessions.find? id = some after ∧
      after.state = .established := by
  cases joins with
  | @hello now draw raw state reads some =>
    obtain ⟨reaction, reacts, -, found, -⟩ := reacts_handle settled known now draw raw
    refine ⟨reaction.session, found, ?_⟩
    cases reacts with
    | join => rfl
    | abort why =>
      cases why <;> simp_all [Message.text?, Message.dict?, Message.field?, Json.text?, Json.dict?]
    | _ => simp_all

theorem Reacts.close_iff {raw : List Json} {reaction : Reaction}
    (reacts : Reacts router id session raw reaction) :
    reaction.disposition = .close ↔ reaction.session.state = .closing := by
  cases reacts with
  | correct state | route state => simp [state]
  | join state reads some => simp [Session.join]
  | late state => simp [state]
  | abort | aborted | part => simp [closing]

theorem Reacts.routed_eq_none {raw : List Json} {reaction : Reaction}
    (reacts : Reacts router id session raw reaction) (state : session.state ≠ .established) :
    reaction.routed = none := by
  cases reacts with
  | route established => exact absurd established state
  | _ => rfl

theorem passage_step (settled : router.Settled)
    (known : router.sessions.find? id = some session) (operation : Operation) :
    ∃ after own, (router.step operation).sessions.find? id = some after ∧
      router.Passage session id operation after own := by
  obtain ⟨own, fate⟩ := fate_step settled operation id
  obtain ⟨after, found, passage⟩ := fate.passage known
  exact ⟨after, own, found, passage⟩

theorem Passage.advances {after : Session} {sent : List Message}
    (passage : router.Passage session id operation after sent) :
    session.state.Advances after.state := by
  cases passage with
  | joins joins state roles => exact joins.establishing ▸ state ▸ .joins
  | goesOn roles state => exact state ▸ .stays _
  | ends roles state => exact state ▸ session.state.advances_closing

theorem established_of_acts (acts : router.Acts operation sessions work sent) :
    ∀ asked ∈ work, asked.IsFrom id →
      ∃ session, router.sessions.find? id = some session ∧ session.state = .established := by
  intro asked member own
  cases asked with
  | handle now draw other message =>
    obtain rfl : other = id := own
    obtain ⟨session, raw, known, state, -⟩ := acts.handled member
    exact ⟨session, known, state⟩
  | checkTimeout | closeSession => cases own

theorem inbox_of_unconcerned {effects : List Effect}
    (unconcerned : ∀ effect ∈ effects, ¬ effect.Concerns id) :
    inbox id (Effect.messages effects) = [] := by
  simp only [inbox, List.map_eq_nil_iff, List.filter_eq_nil_iff, Effect.messages]
  intro message member
  obtain ⟨effect, among, same⟩ := List.mem_filterMap.mp member
  cases effect with
  | publish event => cases same
  | send receiver message call =>
    obtain rfl := Option.some.inj same
    simpa [Effect.Concerns] using unconcerned _ among

theorem received_step (settled : router.Settled) (ids : router.dealer.ValidIds)
    (operation : Operation) (id : Nat) :
    ∃ dealt own, router.Fate id operation ((router.step operation).sessions.find? id) own ∧
      (router.step operation).received id = router.received id ++ (dealt ++ own) ∧
      (∀ message ∈ dealt, message.kind ≠ .welcome) ∧
      (router.dealer.Hushed id 0 →
        (∀ session, router.sessions.find? id = some session → session.state ≠ .established) →
          dealt = [] ∧ (router.step operation).dealer.Hushed id 0) := by
  obtain ⟨sessions, work, sent, acts, becomes⟩ := step_acts settled operation
  have delivers := Dealer.delivers_work ids router.isValidId_draws work (isValid_of_acts acts)
  let worked := work.foldl (Dealer.step router.peers) router.dealer
  refine ⟨inbox id (Effect.messages worked.effects), inbox id sent, ?_, ?_, ?_, ?_⟩
  · rw [becomes.sessions]
    exact acts.fate id
  · simp [received, becomes.messages, worked]
  · rw [delivers.sent, settled.effects]
    intro message member
    simp only [Effect.messages_nil, List.nil_append, inbox, List.mem_map, List.mem_filter] at member
    obtain ⟨_, ⟨⟨⟨_, rpc⟩, _, rfl⟩, _⟩, rfl⟩ := member
    exact rpc.kind_ne_welcome
  · intro hushed alone
    -- The dealer does nothing for a session that has not joined, so it tells it nothing.
    have foreign : ∀ asked ∈ work, ¬ asked.IsFrom id := by
      intro asked member own
      obtain ⟨session, known, state⟩ := established_of_acts acts asked member own
      exact alone session known state
    have hushes : Dealer.Hushes id 0 router.dealer worked :=
      Dealer.hushes_run hushed work foreign
    obtain ⟨new, grown, silent⟩ := hushes.effects
    rw [settled.effects, List.nil_append] at grown
    rw [becomes.dealer]
    exact ⟨by rw [grown, inbox_of_unconcerned silent], Dealer.hushed_clear hushes.hushed⟩

/-- How far the session with an id has come, given which details it has joined with, if any. -/
inductive Standing (router : Router) (id : Nat) (joined : Dict → Prop) : Prop
  | stranger (never : ∀ details, ¬ joined details)
      (apart : ∀ session, router.sessions.find? id = some session →
        session.roles = [] ∧ session.state ≠ .established)
      (hushed : router.dealer.Hushed id 0)
      (early : (∀ session, router.sessions.find? id = some session →
        session.state = .establishing) → router.received id = [])
      (unwelcome : ∀ message ∈ router.received id, message.kind ≠ .welcome) :
      Standing router id joined
  | member {session : Session} {details : Dict} {first : Message} {rest : List Message}
      (known : router.sessions.find? id = some session) (entered : joined details)
      (only : ∀ other, joined other → other = details)
      (roles : session.roles = Announcement.ofDetails details)
      (state : session.state ≠ .establishing) (received : router.received id = first :: rest)
      (welcome : first.kind = .welcome) (once : ∀ message ∈ rest, message.kind ≠ .welcome) :
      Standing router id joined

def JoinsIn (router : Router) (id : Nat) (details : Dict) (operation : Operation) : Prop :=
  ∃ session, router.sessions.find? id = some session ∧
    Joins router.identity.realm session id details operation

theorem joinsIn_iff (known : router.sessions.find? id = some session) {details : Dict} :
    router.JoinsIn id details operation ↔
      Joins router.identity.realm session id details operation := by
  simp [JoinsIn, known]

theorem standing_step (settled : router.Settled) (ids : router.dealer.ValidIds)
    {joined : Dict → Prop} (standing : router.Standing id joined) (operation : Operation) :
    (router.step operation).Standing id fun details =>
      joined details ∨ router.JoinsIn id details operation := by
  obtain ⟨dealt, own, fate, received, others, apart⟩ := received_step settled ids operation id
  cases standing with
  | stranger never alone hushed early unwelcome =>
    obtain ⟨rfl, hushed⟩ := apart hushed fun session known => (alone session known).2
    rw [List.nil_append] at received
    -- Unless the step is the one that the session joins in, it stays a stranger.
    have stays (alone : ∀ after, (router.step operation).sessions.find? id = some after →
        after.roles = [] ∧ after.state ≠ .established)
        (early : (∀ after, (router.step operation).sessions.find? id = some after →
          after.state = .establishing) → (router.step operation).received id = [])
        (greets : ∀ message ∈ own, message.kind ≠ .welcome) :
        (router.step operation).Standing id fun details =>
          joined details ∨ router.JoinsIn id details operation := by
      refine .stranger ?_ alone hushed early ?_
      · rintro details (already | ⟨session, known, joins⟩)
        · exact never details already
        · obtain ⟨after, found, state⟩ := joins.established settled known
          exact (alone after found).2 state
      · rw [received]
        intro message member
        exact (List.mem_append.mp member).elim (unwelcome message) (greets message)
    cases known : router.sessions.find? id with
    | none =>
      have quiet : router.received id = [] := early (by simp [known])
      generalize (router.step operation).sessions.find? id = after at fate stays
      cases fate with
      | stays => exact stays (by simp [known]) (by simp [received, quiet]) (by simp)
      | opens => exact stays (by simp) (by simp [received, quiet]) (by simp)
      | reacts found | rejects found | parts found => simp [known] at found
    | some session =>
      obtain ⟨roles, state⟩ := alone session known
      obtain ⟨after, found, passage⟩ := fate.passage known
      cases passage with
      | @joins details joins established announced =>
        have before : router.received id = [] := early (by simp [known, joins.establishing])
        rw [before, List.nil_append] at received
        have only : ∀ other, joined other ∨ router.JoinsIn id other operation →
            other = details := by
          rintro other (already | again)
          · exact absurd already (never other)
          · exact joins.details_eq ((joinsIn_iff known).mp again)
        exact .member found (.inr ((joinsIn_iff known).mpr joins)) only announced
          (by simp [established]) received rfl (by simp)
      | goesOn same kept quiet unwelcome =>
        refine stays ?_ ?_ unwelcome
        · simp [found, same, kept, roles, state]
        · intro establishing
          have before : session.state = .establishing := kept ▸ establishing after found
          rw [received, early (by simp [known, before]), quiet before]
          rfl
      | ends same closed unwelcome =>
        refine stays ?_ ?_ unwelcome
        · simp [found, same, closed, roles]
        · simp [found, closed]
  | @member session details first rest known already only roles state before welcome once =>
    have only : ∀ other, joined other ∨ router.JoinsIn id other operation → other = details := by
      rintro other (before | again)
      · exact only other before
      · exact absurd ((joinsIn_iff known).mp again).establishing state
    obtain ⟨after, found, passage⟩ := fate.passage known
    have later (greets : ∀ message ∈ own, message.kind ≠ .welcome) :
        ∀ message ∈ rest ++ (dealt ++ own), message.kind ≠ .welcome := by
      simp only [List.mem_append]
      rintro message (old | new | added)
      · exact once message old
      · exact others message new
      · exact greets message added
    rw [before, List.cons_append] at received
    cases passage with
    | joins joins => exact absurd joins.establishing state
    | goesOn same kept early unwelcome =>
      exact .member found (.inl already) only (same.trans roles) (kept ▸ state) received welcome
        (later unwelcome)
    | ends same closed unwelcome =>
      exact .member found (.inl already) only (same.trans roles) (by simp [closed]) received welcome
        (later unwelcome)

theorem Standing.early {joined : Dict → Prop} (standing : router.Standing id joined)
    (known : router.sessions.find? id = some session) (state : session.state = .establishing) :
    router.received id = [] := by
  cases standing with
  | stranger never alone hushed early => exact early (by simp [known, state])
  | member there entered only roles later =>
    obtain rfl := Option.some.inj (known.symm.trans there)
    exact absurd state later

theorem advances_step (settled : router.Settled) (ids : router.dealer.ValidIds)
    {joined : Dict → Prop} (standing : router.Standing id joined)
    (known : router.sessions.find? id = some session) (operation : Operation) :
    ∃ after, (router.step operation).sessions.find? id = some after ∧
      session.state.Advances after.state ∧
      (session.state ≠ .established → after.state = .established →
        (∃ details, Joins router.identity.realm session id details operation) ∧
          router.received id = [] ∧ (router.step operation).received id = [router.welcome id]) := by
  obtain ⟨dealt, own, fate, received, -, apart⟩ := received_step settled ids operation id
  obtain ⟨after, found, passage⟩ := fate.passage known
  refine ⟨after, found, passage.advances, fun before established => ?_⟩
  cases passage with
  | @joins details joins =>
    have early : router.received id = [] := standing.early known joins.establishing
    have unheard : dealt = [] := by
      cases standing with
      | stranger never alone hushed =>
        exact (apart hushed fun other there => (alone other there).2).1
      | member there entered only roles later =>
        obtain rfl := Option.some.inj (known.symm.trans there)
        exact absurd joins.establishing later
    refine ⟨⟨details, joins⟩, early, ?_⟩
    rw [received, early, unheard]
    rfl
  | goesOn same kept => exact absurd (kept.symm.trans established) before
  | ends same closed => simp [closed] at established

theorem answers_of_known (settled : router.Settled)
    (known : router.sessions.find? id = some session) (now : Time) (draw : Nat) (raw : List Json) :
    ∃ after, (router.handle now draw id raw).2.sessions.find? id = some after ∧
      ((router.handle now draw id raw).1 = .close ↔ after.state = .closing) ∧
      (session.state ≠ .established →
        (router.handle now draw id raw).2.dealer = router.dealer) := by
  obtain ⟨reaction, reacts, disposition, found, becomes⟩ := reacts_handle settled known now draw raw
  refine ⟨reaction.session, found, ?_, fun state => ?_⟩
  · rw [disposition, reacts.close_iff]
  · rw [reacts.routed_eq_none state] at becomes
    exact (becomes.quiet settled).1

section Runs

variable (identity : Identity) (options : Dealer.Options) (metrics : Option Metrics)

theorem identity_run (operations : List Operation) :
    (run identity options metrics operations).identity = identity := by
  induction operations using List.reverseRecOn with
  | nil => rfl
  | append_singleton operations operation ih =>
    obtain ⟨_, _, _, _, becomes⟩ :=
      step_acts (settled_run identity options metrics operations) operation
    rw [run_concat, becomes.identity, ih]

def Joined (operations : List Operation) (id : Nat) (details : Dict) : Prop :=
  ∃ before operation session, before ++ [operation] <+: operations ∧
    (run identity options metrics before).sessions.find? id = some session ∧
    Joins identity.realm session id details operation

theorem joined_concat_iff (operations : List Operation) (operation : Operation) (id : Nat)
    (details : Dict) :
    Joined identity options metrics (operations ++ [operation]) id details ↔
      Joined identity options metrics operations id details ∨
        (run identity options metrics operations).JoinsIn id details operation := by
  unfold Joined JoinsIn
  rw [identity_run]
  constructor
  · rintro ⟨before, last, session, within, known, joins⟩
    rcases List.prefix_concat_iff.mp within with same | earlier
    · obtain ⟨rfl, only⟩ := List.append_inj' same rfl
      obtain rfl := List.singleton_inj.mp only
      exact .inr ⟨session, known, joins⟩
    · exact .inl ⟨before, last, session, earlier, known, joins⟩
  · rintro (⟨before, last, session, within, known, joins⟩ | ⟨session, known, joins⟩)
    · exact ⟨before, last, session, within.trans (List.prefix_append _ _), known, joins⟩
    · exact ⟨operations, operation, session, List.prefix_rfl, known, joins⟩

theorem standing_run (operations : List Operation) (id : Nat) :
    (run identity options metrics operations).Standing id
      (Joined identity options metrics operations id) := by
  induction operations using List.reverseRecOn with
  | nil =>
    have never : ∀ details, ¬ Joined identity options metrics [] id details := by
      rintro details ⟨before, operation, session, within, -⟩
      simpa using within.length_le
    have absent : (run identity options metrics []).sessions.find? id = none := by
      simp [run, Keyed.find?, Keyed.empty, Keyed.lookup]
    have quiet : (run identity options metrics []).received id = [] := rfl
    exact .stranger never (by simp [absent]) (Dealer.hushed_initial id options) (fun _ => quiet)
      (by simp [quiet])
  | append_singleton operations operation ih =>
    have next := standing_step (settled_run identity options metrics operations)
      (validIds_run identity options metrics operations) ih operation
    simp only [← joined_concat_iff] at next
    rw [run_concat]
    exact next

theorem closing_run {operations : List Operation} {id : Nat} {session : Session}
    (known : (run identity options metrics operations).sessions.find? id = some session)
    (state : session.state = .closing) (more : List Operation) :
    ∃ after, (run identity options metrics (operations ++ more)).sessions.find? id = some after ∧
      after.state = .closing := by
  induction more using List.reverseRecOn with
  | nil => exact ⟨session, by rwa [List.append_nil], state⟩
  | append_singleton more operation ih =>
    obtain ⟨before, found, closed⟩ := ih
    rw [← List.append_assoc, run_concat]
    obtain ⟨after, own, there, passage⟩ :=
      passage_step (settled_run identity options metrics _) found operation
    refine ⟨after, there, ?_⟩
    cases passage with
    | joins joins => simp [joins.establishing] at closed
    | goesOn same kept => rw [kept, closed]
    | ends same ended => exact ended

end Runs

/--
The life of a session, whatever it sends and whatever else happens. It joins the realm at most once,
with a HELLO that announces a role, and is then welcomed, which is the first thing that it hears.
Once it is closing it stays so, and each of its messages closes the connection. Unless it has
joined, nothing that it sends reaches the dealer.
-/
theorem session_life_cycle (identity : Identity) (options : Dealer.Options)
    (metrics : Option Metrics) (operations : List Operation) (id : Nat) (session : Session)
    (known : (run identity options metrics operations).sessions.find? id = some session) :
    let router := run identity options metrics operations
    (∀ operation, ∃ after, (router.step operation).sessions.find? id = some after ∧
      session.state.Advances after.state ∧
      (session.state ≠ .established → after.state = .established →
        (∃ details, Joins identity.realm session id details operation) ∧
          router.received id = [] ∧ (router.step operation).received id = [router.welcome id])) ∧
    (session.state = .closing → ∀ more, ∃ after,
      (run identity options metrics (operations ++ more)).sessions.find? id = some after ∧
        after.state = .closing) ∧
    (∀ now draw raw, ∃ after, (router.handle now draw id raw).2.sessions.find? id = some after ∧
      ((router.handle now draw id raw).1 = .close ↔ after.state = .closing) ∧
      (session.state ≠ .established → (router.handle now draw id raw).2.dealer = router.dealer)) ∧
    (session.state = .establishing → router.received id = []) ∧
    (session.state = .established → ∃ details,
      Joined identity options metrics operations id details) ∧
    (∀ details, Joined identity options metrics operations id details → ∃ first rest,
      router.received id = first :: rest ∧ first.kind = .welcome ∧
        ∀ message ∈ rest, message.kind ≠ .welcome) ∧
    ((∀ details, ¬ Joined identity options metrics operations id details) →
      ∀ message ∈ router.received id, message.kind ≠ .welcome) := by
  intro router
  have settled : router.Settled := settled_run identity options metrics operations
  have ids : router.dealer.ValidIds := validIds_run identity options metrics operations
  have standing := standing_run identity options metrics operations id
  refine ⟨fun operation => ?_, fun state => closing_run _ _ _ known state,
    fun now draw raw => answers_of_known settled known now draw raw,
    fun state => standing.early known state, fun state => ?_, fun details joined => ?_,
    fun never => ?_⟩
  · rw [← identity_run identity options metrics operations]
    exact advances_step settled ids standing known operation
  · cases standing with
    | stranger never alone => exact absurd state (alone session known).2
    | member there entered => exact ⟨_, entered⟩
  · cases standing with
    | stranger never => exact absurd joined (never details)
    | member there entered only roles later received welcome once =>
      exact ⟨_, _, received, welcome, once⟩
  · cases standing with
    | stranger _ _ _ _ unwelcome => exact unwelcome
    | member there entered => exact absurd entered (never _)

theorem session_life_cycle_over_rejoining :
    let hello : Operation := .handle 0 0 1
      [.ofNat 1, .text "realm1", .dict [("roles", .dict [("callee", .dict [])])]]
    let operations : List Operation :=
      [.connect 1, .connect 2, hello,
        .handle 0 0 1 [.ofNat 64, .ofNat 1, .dict [], .text "sum"],
        .handle 0 0 1 [.ofNat 6, .dict [], .text "wamp.close.close_realm"], hello]
    let router := run {} {} none operations
    (router.sessions.find? 1).map Session.state = some .closing ∧
      (∀ more, ∃ after, (run {} {} none (operations ++ more)).sessions.find? 1 = some after ∧
        after.state = .closing) ∧
      (router.received 1).map Message.kind = [.welcome, .registered, .goodbye] ∧
      ∃ first rest, router.received 1 = first :: rest ∧ first.kind = .welcome ∧
        ∀ message ∈ rest, message.kind ≠ .welcome := by
  intro hello operations router
  have joined : Joined {} {} none operations 1
      [("roles", .dict [("callee", .dict [])])] :=
    ⟨[.connect 1, .connect 2], hello, {}, ⟨_, rfl⟩, by decide +kernel,
      .hello rfl (by decide +kernel) (by decide +kernel)⟩
  have known : router.sessions.find? 1 = some
      { state := .closing, realm := some "realm1", roles := [(.callee, [])], messages := 4 } := by
    decide +kernel
  obtain ⟨-, closing, -, -, -, welcomed, -⟩ := session_life_cycle {} {} none operations 1 _ known
  exact ⟨by rw [known]; rfl, closing rfl, by decide +kernel, welcomed _ joined⟩

end Router

end CallRouter
