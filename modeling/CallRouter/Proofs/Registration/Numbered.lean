import CallRouter.Proofs.Registration.Ownership
import CallRouter.Proofs.Registration.Reachable

namespace CallRouter.Registration.Directory

variable {directory later : Directory}

structure Numbered (directory : Directory) : Prop where
  valid : ∀ id registration, directory.registration? id = some registration →
    isValidId registration.id = true
  next : isValidId directory.ids.next = true

theorem numbered_empty : Numbered {} where
  valid := by
    rintro id registration ⟨⟩
  next := by decide

theorem numbered_join (numbered : directory.Numbered) (session : Nat) (entry : Entry)
    (options : Dict) : (directory.join session entry options).2.Numbered where
  valid := by
    intro id registration found
    rw [registration_join] at found
    split at found
    · obtain rfl := Option.some.inj found
      exact Allocator.search_valid numbered.next
    · exact numbered.valid id registration found
  next := isValidId_nextId _

theorem numbered_opened (numbered : directory.Numbered) (entry : Entry) :
    (directory.opened entry).Numbered where
  valid := numbered.valid
  next := isValidId_nextId _

theorem numbered_unregister (numbered : directory.Numbered) {id : Nat}
    {registration : Registration} {events : List Event}
    (done : directory.unregister id = .ok (registration, events, later)) : later.Numbered where
  valid := by
    intro other live found
    exact numbered.valid other live ((registration_unregister done).mp found).2
  next := by
    obtain ⟨_, rfl⟩ := unregister_eq_ok done
    split <;> exact numbered.next

theorem numbered_unregisterAll (numbered : directory.Numbered) (ids : List Nat) :
    (unregisterAll ids directory).2.Numbered :=
  unregisterAll_preserves Numbered numbered (fun kept done => numbered_unregister kept done) ids

theorem numbered_register (numbered : directory.Numbered) {now : Time} {session : Nat}
    {pattern : Pattern} {invoke : InvocationPolicy} {options : Dict} {registration : Registration}
    {events : List Event}
    (done : directory.register now session pattern invoke options =
      .ok (registration, events, later)) : later.Numbered := by
  rcases (register_eq_ok_iff directory now session pattern invoke options).mp ⟨_, done⟩ with
    new | ⟨entry, held, shared, same⟩
  · obtain ⟨_, _, made⟩ := register_of_new directory now session invoke options new
    rw [made] at done
    obtain ⟨-, -, rfl⟩ := done
    exact numbered_join (numbered_opened numbered _) session _ options
  · obtain ⟨_, _, made⟩ := register_of_shared now session options held shared same
    rw [made] at done
    obtain ⟨-, -, rfl⟩ := done
    exact numbered_join numbered session entry options

theorem valid_of_register (numbered : directory.Numbered) {now : Time} {session : Nat}
    {pattern : Pattern} {invoke : InvocationPolicy} {options : Dict} {registration : Registration}
    {events : List Event}
    (done : directory.register now session pattern invoke options =
      .ok (registration, events, later)) : isValidId registration.id = true := by
  simp only [register] at done
  split at done
  · split at done
    · obtain ⟨rfl, -, -⟩ := done
      exact Allocator.search_valid numbered.next
    · cases done
  · obtain ⟨rfl, -, -⟩ := done
    exact Allocator.search_valid (isValidId_nextId _)

theorem numbered_apply (numbered : directory.Numbered) (request : Request) :
    (directory.apply request).Numbered := by
  cases request with
  | register now session pattern invoke options =>
    simp only [apply]
    cases done : directory.register now session pattern invoke options with
    | error refusal => exact numbered
    | ok answer => exact numbered_register numbered done
  | unregister id =>
    simp only [apply]
    cases done : directory.unregister id with
    | error refusal => exact numbered
    | ok answer => exact numbered_unregister numbered done
  | closeSession session => exact numbered_unregisterAll numbered _
  | select entry draw => exact { valid := numbered.valid, next := numbered.next }

end CallRouter.Registration.Directory
