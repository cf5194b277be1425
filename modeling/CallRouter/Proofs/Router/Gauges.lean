import CallRouter.Proofs.Router.LifeCycle
import CallRouter.Proofs.Router.Readings

namespace CallRouter.Router

variable {router : Router} {id : Nat} {operation : Operation}

def welcomed (router : Router) : Finset Nat :=
  (((Effect.messages router.effects).filter fun message => message.2.kind = .welcome).map
    (·.1)).toFinset

theorem mem_welcomed_iff : id ∈ router.welcomed ↔
    ∃ message ∈ router.received id, message.kind = .welcome := by
  simp only [welcomed, received, inbox, List.mem_toFinset, List.mem_map, List.mem_filter,
    decide_eq_true_eq]
  constructor
  · rintro ⟨⟨_, message⟩, ⟨member, kind⟩, rfl⟩
    exact ⟨message, ⟨_, ⟨member, rfl⟩, rfl⟩, kind⟩
  · rintro ⟨_, ⟨⟨_, message⟩, ⟨member, rfl⟩, rfl⟩, kind⟩
    exact ⟨_, ⟨member, kind⟩, rfl⟩

theorem Fate.hasJoined {after : Option Session} {sent : List Message}
    (fate : router.Fate id operation after sent) :
    after.any (fun session => session.realm.isSome) =
      (router.hasJoined id || sent.any fun message => message.kind == .welcome) := by
  cases fate with
  | stays => simp [Router.hasJoined]
  | opens valid new => simp [Router.hasJoined, new]
  | rejects known => simp [hasJoined_of_known known, closing, abortion]
  | parts known state => simp [hasJoined_of_known known]
  | reacts known reacts =>
    rw [hasJoined_of_known known]
    cases reacts with
    | correct => simp [Router.heard, correction]
    | abort => simp [Router.heard, closing, abortion]
    | late | route => simp [Router.heard]
    | aborted => simp [Router.heard, closing]
    | join => simp [Session.join, welcome]
    | part =>
      split <;> simp [Router.heard, closing, leave]

section Runs

variable (identity : Identity) (options : Dealer.Options) (metrics : Option Metrics)

theorem hasJoined_run (operations : List Operation) (id : Nat) :
    (run identity options metrics operations).hasJoined id =
      ((run identity options metrics operations).received id).any fun message =>
        message.kind == .welcome := by
  induction operations using List.reverseRecOn with
  | nil => rfl
  | append_singleton operations operation ih =>
    obtain ⟨dealt, own, fate, received, others, -⟩ :=
      received_step (settled_run identity options metrics operations)
        (validIds_run identity options metrics operations) operation id
    have unwelcome : (dealt.any fun message => message.kind == .welcome) = false := by
      simpa using others
    rw [run_concat, received, List.any_append, List.any_append, unwelcome, ← ih, Bool.false_or]
    exact fate.hasJoined

theorem hasJoined_eq_welcomed (operations : List Operation) (id : Nat) :
    (run identity options metrics operations).hasJoined id = true ↔
      id ∈ (run identity options metrics operations).welcomed := by
  rw [hasJoined_run, mem_welcomed_iff]
  simp

theorem hasJoined_of_establishing {operations : List Operation} {id : Nat} {session : Session}
    (known : (run identity options metrics operations).sessions.find? id = some session)
    (state : session.state = .establishing) :
    (run identity options metrics operations).hasJoined id = false := by
  have standing := standing_run identity options metrics operations id
  rw [hasJoined_run, standing.early known state]
  rfl

end Runs

def Operation.closes? : Operation → Option Nat
  | closeSession id => some id
  | _ => none

theorem Operation.closes?_eq_some_iff :
    operation.closes? = some id ↔ operation = .closeSession id := by
  cases operation <;> simp [closes?]

def Operation.handles? : Operation → Option Nat
  | handle _ _ id _ => some id
  | _ => none

def closed (operations : List Operation) : Finset Nat :=
  (operations.filterMap Operation.closes?).toFinset

/-- A session is closed at most once, and nothing that it sends is handled after that. -/
def Orderly (operations : List Operation) : Prop :=
  operations.Pairwise fun earlier later => ∀ id, earlier.closes? = some id →
    later.closes? ≠ some id ∧ later.handles? ≠ some id

theorem orderly_concat_iff (operations : List Operation) (operation : Operation) :
    Orderly (operations ++ [operation]) ↔ Orderly operations ∧
      ∀ id ∈ closed operations, operation.closes? ≠ some id ∧ operation.handles? ≠ some id := by
  simp only [Orderly, List.pairwise_append, List.pairwise_singleton, List.mem_singleton, true_and,
    closed, List.mem_toFinset, List.mem_filterMap]
  refine and_congr_right fun _ => ⟨?_, ?_⟩
  · rintro apart id ⟨earlier, member, closes⟩
    exact apart earlier member operation rfl id closes
  · rintro apart earlier member _ rfl id closes
    exact apart id ⟨earlier, member, closes⟩

theorem closed_concat (operations : List Operation) (operation : Operation) :
    closed (operations ++ [operation]) = closed operations ∪ operation.closes?.toList.toFinset := by
  rw [closed, List.filterMap_append, List.toFinset_append]
  cases closes : operation.closes? <;> simp [closed, closes]

def measured (identity : Identity) (options : Dealer.Options) (operations : List Operation) :
    Router :=
  run identity options (some .empty) operations

def present (identity : Identity) (options : Dealer.Options) (operations : List Operation) :
    Finset Nat :=
  (measured identity options operations).welcomed \ closed operations

section Measured

variable {identity : Identity} {options : Dealer.Options} {operations : List Operation}

theorem measured_concat (operation : Operation) :
    measured identity options (operations ++ [operation]) =
      (measured identity options operations).step operation :=
  run_concat _ _ _ _ _

theorem mem_present_iff : id ∈ present identity options operations ↔
    (measured identity options operations).hasJoined id = true ∧ id ∉ closed operations := by
  rw [present, Finset.mem_sdiff, measured, hasJoined_eq_welcomed]

theorem present_of_joins
    (joined : (measured identity options (operations ++ [operation])).hasJoined =
      Function.update (measured identity options operations).hasJoined id true)
    (stays : operation.closes? = none) (unclosed : id ∉ closed operations) :
    present identity options (operations ++ [operation]) =
      insert id (present identity options operations) := by
  ext other
  rw [Finset.mem_insert, mem_present_iff, mem_present_iff, joined, closed_concat, stays]
  by_cases same : other = id
  · subst same
    simp [unclosed]
  · simp [same]

theorem present_of_kept
    (kept : (measured identity options (operations ++ [operation])).hasJoined =
      (measured identity options operations).hasJoined) :
    present identity options (operations ++ [operation]) =
      present identity options operations \ operation.closes?.toList.toFinset := by
  ext other
  rw [Finset.mem_sdiff, mem_present_iff, mem_present_iff, kept, closed_concat, Finset.mem_union,
    not_or, and_assoc]

theorem sessionsActive_measured (orderly : Orderly operations)
    (few : ∀ before, before <+: operations → (present identity options before).card ≤ 2 ^ 53) :
    (measured identity options operations).reading .sessionsActive =
      some (.finite (Metrics.whole (present identity options operations).card)) := by
  induction operations using List.reverseRecOn with
  | nil => rfl
  | append_singleton operations operation ih =>
    obtain ⟨orderly, apart⟩ := (orderly_concat_iff operations operation).mp orderly
    have within := List.prefix_append operations [operation]
    have before := ih orderly fun earlier inside => few earlier (inside.trans within)
    have bound := few operations within
    have after := few (operations ++ [operation]) List.prefix_rfl
    have moves := (tells_step (measured identity options operations) operation).moves
    rw [← measured_concat] at moves
    generalize next : measured identity options (operations ++ [operation]) = later at moves
    cases moves with
    | @joins now draw id raw session later known state joined more =>
      subst next
      have unclosed : id ∉ closed operations := fun member => (apart id member).2 rfl
      have absent : id ∉ present identity options operations := by
        rw [mem_present_iff, measured, hasJoined_of_establishing identity options _ known state]
        simp
      rw [present_of_joins joined rfl unclosed, Finset.card_insert_of_notMem absent] at after ⊢
      rw [more, before, Option.map_some, Metrics.plus_whole (by omega) (by decide) (by omega)]
      rfl
    | @leaves id later member kept fewer =>
      subst next
      have unclosed : id ∉ closed operations := fun member => (apart id member).1 rfl
      have count := Finset.card_erase_add_one (mem_present_iff.mpr ⟨member, unclosed⟩)
      rw [← Finset.sdiff_singleton_eq_erase] at count
      rw [present_of_kept kept, fewer, before, Option.map_some,
        Metrics.plus_whole (by omega) (by decide) (by omega), ← count]
      simp [Operation.closes?]
    | stays kept same strangers =>
      subst next
      -- A session that is closed without having joined was not counted.
      have apart : Disjoint (present identity options operations)
          operation.closes?.toList.toFinset := by
        rw [Finset.disjoint_right]
        intro id closes inside
        have closing := Operation.closes?_eq_some_iff.mp (show _ = some id by simpa using closes)
        have member := (mem_present_iff.mp inside).1
        rw [strangers id closing] at member
        cases member
      rw [same, before, present_of_kept kept, apart.sdiff_eq_left]

theorem gauged_measured : (measured identity options operations).Gauged := by
  induction operations using List.reverseRecOn with
  | nil => exact ⟨rfl, rfl⟩
  | append_singleton operations operation ih =>
    rw [measured_concat]
    exact (tells_step _ operation).gauged ih

theorem callTimeouts_measured : (measured identity options operations).reading .callTimeouts =
    some (Amount.zero.adding ((measured identity options []).expirations operations)) := by
  induction operations using List.reverseRecOn with
  | nil => rfl
  | append_singleton operations operation ih =>
    rw [measured_concat, (tells_step _ operation).timeouts, ih, expirations_concat,
      Amount.adding_append, Option.map_some]
    rfl

end Measured

/--
What the router reports of itself is what is there. After every run the numbers of registrations and
of invocations without answer are those of the dealer. As long as no session is closed twice, or
heard after that, the number of sessions is that of the ones that were welcomed and not closed; and
the number of timeouts is the sum of what the sweeps found. These numbers are not negative, and they
are exact up to `2 ^ 53`, as far as a binary64 counts.
-/
theorem gauges_follow_state (identity : Identity) (options : Dealer.Options)
    (operations : List Operation) (orderly : Orderly operations) :
    let router := measured identity options operations
    let timeouts := (measured identity options []).expirations operations
    router.reading .registrations =
      some (.finite (Metrics.whole router.dealer.directory.registrations.size)) ∧
    router.reading .pendingInvocations =
      some (.finite (Metrics.whole router.dealer.tracked.size)) ∧
    ((∀ before, before <+: operations → (present identity options before).card ≤ 2 ^ 53) →
      router.reading .sessionsActive =
        some (.finite (Metrics.whole (present identity options operations).card))) ∧
    router.reading .callTimeouts = some (Amount.zero.adding timeouts) ∧
    (timeouts.sum ≤ 2 ^ 53 →
      router.reading .callTimeouts = some (.finite (Metrics.whole timeouts.sum))) ∧
    ∀ n : Nat, (Metrics.whole n).negative = false ∧
      (n ≤ 2 ^ 53 → (Metrics.whole n).units = n * (1 <<< 1074 : Nat)) := by
  intro router timeouts
  have gauged : router.Gauged := gauged_measured
  have total : router.reading .callTimeouts = some (Amount.zero.adding timeouts) :=
    callTimeouts_measured
  refine ⟨gauged.registrations, gauged.pending, sessionsActive_measured orderly, total,
    fun small => ?_, fun n => ⟨Metrics.negative_whole n, fun small => Metrics.units_whole ?_⟩⟩
  · rw [total, Amount.zero_adding small]
  · rwa [Int.natAbs_natCast]

theorem gauges_follow_state_over_timeout :
    let hello (role : String) : List Json :=
      [.ofNat 1, .text "realm1", .dict [("roles", .dict [(role, .dict [])])]]
    let call (request : Nat) (options : Dict) : List Json :=
      [.ofNat 48, .ofNat request, .dict options, .text "sum"]
    let operations : List Operation :=
      [.connect 1, .connect 2, .connect 3, .handle 0 0 1 (hello "callee"),
        .handle 0 0 2 (hello "caller"), .handle 0 0 3 (hello "caller"),
        .handle 0 0 1 [.ofNat 64, .ofNat 1, .dict [], .text "sum"],
        .handle 0 0 2 (call 1 [("timeout", .ofNat 1)]), .handle 0 0 2 (call 2 []),
        .handle 0 0 3 (call 1 []), .handle 0 0 3 (call 2 []),
        .sweep (Time.milliseconds 2), .closeSession 2]
    let router := measured {} {} operations
    Orderly operations ∧
      (∀ before, before <+: operations → (present {} {} before).card ≤ 2 ^ 53) ∧
      router.reading .registrations = some (.finite (Metrics.whole 1)) ∧
      router.reading .pendingInvocations = some (.finite (Metrics.whole 2)) ∧
      router.reading .sessionsActive = some (.finite (Metrics.whole 2)) ∧
      router.reading .callTimeouts = some (.finite (Metrics.whole 1)) := by
  intro hello call operations router
  have orderly : Orderly operations := by simp [Orderly, operations, Operation.closes?]
  have few : ∀ before, before <+: operations → (present {} {} before).card ≤ 2 ^ 53 := by
    have listed : ∀ before ∈ operations.inits, (present {} {} before).card ≤ 2 ^ 53 := by
      decide +kernel
    exact fun before within => listed before ((List.mem_inits _ _).mpr within)
  have expired : (measured {} {} []).expirations operations = [1] := by decide +kernel
  have sizes : (measured {} {} operations).dealer.directory.registrations.size = 1 ∧
      (measured {} {} operations).dealer.tracked.size = 2 ∧
      (present {} {} operations).card = 2 := by decide +kernel
  obtain ⟨registrations, pending, sessions, -, timeouts, -⟩ :=
    gauges_follow_state {} {} operations orderly
  rw [sizes.1] at registrations
  rw [sizes.2.1] at pending
  rw [sizes.2.2] at sessions
  rw [expired] at timeouts
  exact ⟨orderly, few, registrations, pending, sessions few, timeouts (by decide)⟩

end CallRouter.Router
