import CallRouter.Proofs.Identifier.Cycle
import CallRouter.Proofs.Registration.Numbered

namespace CallRouter.Registration.Directory

variable {directory later : Directory} {registration : Registration} {events : List Event}
  {now : Time} {session : Nat} {pattern : Pattern} {invoke : InvocationPolicy} {options : Dict}

def demands (directory : Directory) : Request → List (Nat → Bool)
  | .register now session pattern invoke options =>
    match directory.register now session pattern invoke options with
    | .error _ => []
    | .ok _ =>
      match directory.entryOf? pattern with
      | some _ => [directory.isInUse]
      | none =>
        [directory.isInUse, (directory.opened (directory.opening now pattern invoke)).isInUse]
  | _ => []

def taken (directory : Directory) : Request → List Nat
  | .register now session pattern invoke options =>
    match directory.register now session pattern invoke options with
    | .error _ => []
    | .ok (registration, _, _) =>
      match directory.entryOf? pattern with
      | some _ => [registration.id]
      | none => [registration.entry, registration.id]
  | _ => []

def demandsOf (directory : Directory) : List Request → List (Nat → Bool)
  | [] => []
  | request :: requests => directory.demands request ++ (directory.apply request).demandsOf requests

def takenBy (directory : Directory) : List Request → List Nat
  | [] => []
  | request :: requests => directory.taken request ++ (directory.apply request).takenBy requests

theorem ids_unregister {id : Nat}
    (done : directory.unregister id = .ok (registration, events, later)) :
    later.ids = directory.ids := by
  obtain ⟨_, rfl⟩ := unregister_eq_ok done
  split <;> rfl

theorem ids_unregisterAll (directory : Directory) (ids : List Nat) :
    (unregisterAll ids directory).2.ids = directory.ids :=
  unregisterAll_preserves (·.ids = directory.ids) rfl
    (fun kept done => (ids_unregister done).trans kept) ids

theorem allocateAll_demands (directory : Directory) (request : Request) :
    directory.ids.allocateAll (directory.demands request) =
      (directory.taken request, (directory.apply request).ids) := by
  cases request with
  | register now session pattern invoke options =>
    cases held : directory.entryOf? pattern with
    | none =>
      simp only [demands, taken, apply, register, held]
      rfl
    | some entry =>
      simp only [demands, taken, apply, register, held]
      by_cases shared : (entry.invoke.isShared && entry.invoke == invoke) = true
      · simp only [shared, if_true]
        rfl
      · simp only [shared, Bool.false_eq_true, if_false]
        rfl
  | unregister id =>
    simp only [demands, taken, apply, Allocator.allocateAll]
    cases done : directory.unregister id with
    | error refusal => rfl
    | ok answer =>
      obtain ⟨registration, events, later⟩ := answer
      simp only [ids_unregister done]
  | closeSession session =>
    simp only [demands, taken, apply, Allocator.allocateAll, closeSession, ids_unregisterAll]
  | select entry draw => rfl

theorem allocateAll_demandsOf (directory : Directory) (requests : List Request) :
    directory.ids.allocateAll (directory.demandsOf requests) =
      (directory.takenBy requests, (requests.foldl apply directory).ids) := by
  induction requests generalizing directory with
  | nil => rfl
  | cons request requests ih =>
    simp only [demandsOf, Allocator.allocateAll_append, allocateAll_demands, ih, takenBy,
      List.foldl_cons]

theorem takenBy_append (directory : Directory) (requests more : List Request) :
    directory.takenBy (requests ++ more) =
      directory.takenBy requests ++ (requests.foldl apply directory).takenBy more := by
  induction requests generalizing directory with
  | nil => rfl
  | cons request requests ih =>
    simp only [List.cons_append, takenBy, ih, List.foldl_cons, List.append_assoc]

theorem numbered_foldl (numbered : directory.Numbered) (requests : List Request) :
    (requests.foldl apply directory).Numbered := by
  induction requests generalizing directory with
  | nil => exact numbered
  | cons request requests ih => exact ih (numbered_apply numbered request)

section Register

variable (done : directory.register now session pattern invoke options =
  .ok (registration, events, later))

include done

theorem joined_by_register : ∃ (before : Directory) (entry : Entry),
    before.registrations = directory.registrations ∧
      registration = (before.join session entry options).1 ∧
      later = (before.join session entry options).2 := by
  cases held : directory.entryOf? pattern with
  | none =>
    simp only [register, held] at done
    obtain ⟨rfl, -, rfl⟩ := done
    exact ⟨directory.opened (directory.opening now pattern invoke), _, rfl, rfl, rfl⟩
  | some entry =>
    simp only [register, held] at done
    split at done
    · obtain ⟨rfl, -, rfl⟩ := done
      exact ⟨directory, entry, rfl, rfl, rfl⟩
    · cases done

theorem registration_registered (id : Nat) : later.registration? id =
    if registration.id = id then some registration else directory.registration? id := by
  obtain ⟨before, entry, same, rfl, rfl⟩ := joined_by_register done
  have kept : directory.registration? id = before.registration? id := by
    rw [registration?, ← same, registration?]
  rw [kept]
  exact registration_join id

theorem next_registered : later.ids.next = nextId registration.id := by
  obtain ⟨before, entry, -, rfl, rfl⟩ := joined_by_register done
  rfl

theorem mem_taken :
    registration.id ∈ directory.taken (.register now session pattern invoke options) := by
  simp only [taken, done]
  split <;> simp

end Register

theorem registration_of_apply {request : Request} {id : Nat} {live : Registration}
    (unused : id ∉ directory.taken request)
    (found : (directory.apply request).registration? id = some live) :
    directory.registration? id = some live := by
  cases request with
  | register now session pattern invoke options =>
    cases done : directory.register now session pattern invoke options with
    | error refusal => simpa only [apply, done] using found
    | ok answer =>
      obtain ⟨registration, events, later⟩ := answer
      have other : registration.id ≠ id := fun same => unused (same ▸ mem_taken done)
      rwa [apply, done, registration_registered done, if_neg other] at found
  | unregister other =>
    cases done : directory.unregister other with
    | error refusal => simpa only [apply, done] using found
    | ok answer =>
      obtain ⟨registration, events, later⟩ := answer
      simp only [apply, done] at found
      exact ((registration_unregister done).mp found).2
  | closeSession session => exact ((registration_unregisterAll _).mp found).2
  | select entry draw => exact found

theorem registration_of_foldl {requests : List Request} {id : Nat} {live : Registration}
    (unused : id ∉ directory.takenBy requests)
    (found : (requests.foldl apply directory).registration? id = some live) :
    directory.registration? id = some live := by
  induction requests generalizing directory with
  | nil => exact found
  | cons request requests ih =>
    rw [takenBy, List.mem_append, not_or] at unused
    exact registration_of_apply unused.1 (ih unused.2 found)

/--
Whatever is in use at each call, as long as it leaves an id free, the loop of every call ends with
the first free id after the one handed out before, beginning with 1. Wherever the loop stands, no id
is handed out twice within as many of its steps as there are ids. So the id of a registration is
taken for nothing else before the loop has come round to it: until then it names that registration,
and once it has ceased to, it names nothing.
-/
theorem ids_come_in_cycles :
    (∀ calls : List (Nat → Bool),
      (∀ inUse ∈ calls, ∃ id, isValidId id = true ∧ inUse id = false) →
      ∃ found steps later, Allocator.Runs {} calls found steps later ∧
        Allocator.allocateAll {} calls = (found, later) ∧ Allocator.InTurn 1 calls found ∧
        ∀ id ∈ found, 1 ≤ id ∧ id ≤ maxId) ∧
    (∀ before earlier count between calls found steps later,
      Allocator.Runs {} before earlier count between →
      Allocator.Runs between calls found steps later → steps ≤ maxId → found.Nodup) ∧
    ∀ (before : List Request) now session pattern invoke options registration events
        (directory : Directory),
      (before.foldl apply {}).register now session pattern invoke options =
        .ok (registration, events, directory) →
      ∀ requests : List Request,
        ((∀ inUse ∈ directory.demandsOf requests, ∃ id, isValidId id = true ∧ inUse id = false) →
          ∃ steps, Allocator.Runs directory.ids (directory.demandsOf requests)
            (directory.takenBy requests) steps (requests.foldl apply directory).ids) ∧
        ∀ steps, Allocator.Runs directory.ids (directory.demandsOf requests)
            (directory.takenBy requests) steps (requests.foldl apply directory).ids →
          steps < maxId →
          (registration.id :: directory.takenBy requests).Nodup ∧
          ∀ earlier after live, requests = earlier ++ after →
            (requests.foldl apply directory).registration? registration.id = some live →
            live = registration ∧
              (earlier.foldl apply directory).registration? registration.id =
                some registration := by
  have fresh : isValidId ({} : Allocator).next = true := by decide
  refine ⟨?_, ?_, ?_⟩
  · intro calls room
    obtain ⟨found, steps, later, runs⟩ := Allocator.exists_runs fresh room
    refine ⟨found, steps, later, runs, runs.allocateAll_eq fresh, runs.inTurn fresh, ?_⟩
    intro id member
    exact (isValidId_iff id).mp (runs.valid_found fresh member)
  · intro before earlier count between calls found steps later past runs few
    exact runs.nodup (past.valid_later fresh) few
  · intro before now session pattern invoke options registration events directory done requests
    have valid := valid_of_register (numbered_foldl numbered_empty before) done
    have next := next_registered done
    have onward : isValidId directory.ids.next = true := next ▸ isValidId_nextId registration.id
    constructor
    · intro room
      obtain ⟨found, steps, later, runs⟩ := Allocator.exists_runs onward room
      obtain ⟨rfl, rfl⟩ := Prod.mk.inj
        ((allocateAll_demandsOf directory requests).symm.trans (runs.allocateAll_eq onward))
      exact ⟨steps, runs⟩
    · intro steps runs few
      have unused := runs.not_mem_of_next valid next few
      refine ⟨List.nodup_cons.mpr ⟨unused, runs.nodup onward few.le⟩, ?_⟩
      rintro earlier after live rfl named
      rw [takenBy_append, List.mem_append, not_or] at unused
      rw [List.foldl_append] at named
      have between := registration_of_foldl unused.2 named
      have first := registration_of_foldl unused.1 between
      rw [registration_registered done, if_pos rfl] at first
      obtain rfl := Option.some.inj first
      exact ⟨rfl, between⟩

def occupied : Directory :=
  Directory.apply {} (.register 0 1 ⟨.exact, "app.echo"⟩ .single [])

def succeeded : List Request :=
  [.unregister 2, .register 0 2 ⟨.exact, "app.echo"⟩ .single []]

theorem ids_come_in_cycles_of_largest_free :
    (∃ steps later, Allocator.Runs {} [(· != maxId), fun _ => false] [maxId, 1] steps later) ∧
    (Allocator.Runs {} [(· == 1), fun _ => false] [2, 3] 3 ⟨4⟩ ∧ [2, 3].Nodup) ∧
    ∃ registration events,
      Directory.register {} 0 1 ⟨.exact, "app.echo"⟩ .single [] =
        .ok (registration, events, occupied) ∧ registration.id = 2 ∧
      (∃ steps, Allocator.Runs occupied.ids (occupied.demandsOf succeeded) [3, 4] steps ⟨5⟩) ∧
      Allocator.Runs occupied.ids (occupied.demandsOf succeeded) [3, 4] 2 ⟨5⟩ ∧
      (succeeded.foldl apply occupied).registration? 2 = none := by
  obtain ⟨ends, distinct, stale⟩ := ids_come_in_cycles
  refine ⟨?_, ?_, ?_⟩
  · have room : ∀ inUse ∈ [(· != maxId), fun _ => false],
        ∃ id, isValidId id = true ∧ inUse id = false := by
      intro inUse member
      refine ⟨maxId, by decide, ?_⟩
      rcases List.mem_pair.mp member with rfl | rfl <;> simp
    obtain ⟨found, steps, later, runs, -, turn, -⟩ := ends _ room
    obtain - | @⟨_, _, _, _, _, id, first, rest⟩ := turn
    obtain rfl : id = maxId := by simpa using first.free
    obtain - | @⟨_, _, _, _, passed, id, next, rest⟩ := rest
    cases rest
    have straight : passed = 0 := by
      by_contra used
      cases next.used 0 (Nat.pos_of_ne_zero used)
    rw [straight] at next
    have anew : id = 1 := next.place.trans (by decide)
    exact ⟨steps, later, anew ▸ runs⟩
  · have runs : Allocator.Runs {} [(· == 1), fun _ => false] [2, 3] 3 ⟨4⟩ :=
      .cons (.taken rfl (.free rfl)) (.cons (.free rfl) (.nil _))
    exact ⟨runs, distinct [] [] 0 {} _ _ _ _ (.nil {}) runs (by decide)⟩
  · obtain ⟨settles, names⟩ := stale [] 0 1 ⟨.exact, "app.echo"⟩ .single [] _ _ occupied rfl
      succeeded
    have room : ∀ inUse ∈ occupied.demandsOf succeeded,
        ∃ id, isValidId id = true ∧ inUse id = false := by
      intro inUse member
      refine ⟨maxId, by decide, ?_⟩
      rcases List.mem_pair.mp member with rfl | rfl <;> rfl
    have runs : Allocator.Runs occupied.ids (occupied.demandsOf succeeded) [3, 4] 2 ⟨5⟩ :=
      .cons (.free rfl) (.cons (.free rfl) (.nil _))
    refine ⟨_, _, rfl, rfl, settles room, runs, ?_⟩
    rw [Option.eq_none_iff_forall_ne_some]
    intro live named
    cases ((names 2 runs (by decide)).2 [succeeded[0]] [succeeded[1]] live rfl named).2

end CallRouter.Registration.Directory
