import CallRouter.Proofs.Registration.Ownership
import CallRouter.Proofs.Registration.Allocation
import CallRouter.Proofs.Registration.Lookup
import Mathlib.Data.List.Rotate

/-!
Registrations that are invoked in turn stand in a queue. Whoever is invoked goes to its end; those
that come and go leave the others in their order.
-/

namespace CallRouter.Registration

namespace Entry

variable {entry : Entry} {id : Nat}

/-- The members from the one whose turn it is on. -/
def queue (entry : Entry) : List Nat := entry.members.rotate entry.cursor

theorem mem_queue : id ∈ entry.queue ↔ id ∈ entry.members := List.mem_rotate

theorem nodup_queue (distinct : entry.members.Nodup) : entry.queue.Nodup :=
  List.nodup_rotate.mpr distinct

theorem exists_turn (bound : entry.cursor ≤ entry.members.length) :
    ∃ before after, entry.members = before ++ after ∧ entry.cursor = before.length :=
  ⟨_, _, (List.take_append_drop entry.cursor _).symm, (List.length_take_of_le bound).symm⟩

theorem filter_queue_add (bound : entry.cursor ≤ entry.members.length) {keep : Nat → Bool}
    (left : keep id = false) : (entry.add id).queue.filter keep = entry.queue.filter keep := by
  obtain ⟨before, after, members, cursor⟩ := exists_turn bound
  have longer : (entry.add id).queue = after ++ [id] ++ before := by
    rw [queue, add, members, cursor, List.append_assoc]
    exact List.rotate_append_length_eq before (after ++ [id])
  rw [longer, queue, members, cursor, List.rotate_append_length_eq]
  simp [left]

theorem queue_remove (bound : entry.cursor ≤ entry.members.length)
    (distinct : entry.members.Nodup) (id : Nat) :
    (entry.remove id).queue = entry.queue.filter fun other => other ≠ id := by
  obtain ⟨before, after, members, cursor⟩ := exists_turn bound
  have left : (entry.remove id).members =
      before.filter (fun other => other ≠ id) ++ after.filter fun other => other ≠ id := by
    rw [Directory.members_remove distinct, members, List.filter_append]
  have turn : (entry.remove id).cursor = (before.filter fun other => other ≠ id).length := by
    simp only [remove, members, cursor]
    by_cases member : id ∈ before
    · have earlier := List.idxOf_lt_length_of_mem member
      have sole := (List.nodup_append.mp (members ▸ distinct)).1
      have fewer := List.length_erase_of_mem member
      rw [List.idxOf_append_of_mem member, if_pos earlier, ← fewer, sole.erase_eq_filter]
      congr 2
      funext other
      by_cases same : other = id <;> simp [same]
    · have others : before.filter (fun other => other ≠ id) = before := by
        rw [List.filter_eq_self]
        intro other inside
        rw [decide_eq_true_eq]
        rintro rfl
        exact member inside
      rw [List.idxOf_append_of_notMem member, if_neg (by omega), others]
  rw [queue, left, turn, queue, members, cursor, List.rotate_append_length_eq,
    List.rotate_append_length_eq, List.filter_append]

theorem pick?_of_turn (turn : entry.invoke = .roundRobin) (draw : Nat) :
    entry.pick? draw = entry.queue.head? := by
  simp only [pick?, place, turn]
  by_cases none : entry.members = []
  · simp [queue, none]
  · have bound := Nat.mod_lt entry.cursor (List.length_pos_of_ne_nil none)
    rw [← List.head?_rotate bound, List.rotate_mod]
    rfl

theorem queue_advance (turn : entry.invoke = .roundRobin) :
    entry.advance.queue = entry.queue.rotate 1 := by
  simp only [queue, advance, turn]
  rw [List.rotate_mod, ← List.rotate_rotate, List.rotate_mod]

end Entry

namespace Directory

variable {directory later : Directory} {id : Nat} {before after : Entry}

def Ordered (before after : Entry) : Prop :=
  ∀ keep : Nat → Bool,
    (∀ one, keep one = true → one ∈ before.members ∧ one ∈ after.members) →
      after.queue.filter keep = before.queue.filter keep

theorem ordered_of_filter {left : Nat → Bool} (queue : after.queue = before.queue.filter left) :
    Ordered before after := by
  intro keep both
  rw [queue, List.filter_filter]
  apply List.filter_congr
  intro one _
  cases kept : keep one with
  | false => rfl
  | true =>
    have stays := Entry.mem_queue.mpr (both one kept).2
    rw [queue, List.mem_filter] at stays
    exact stays.2

section Removal

variable (wellFormed : directory.WellFormed)

include wellFormed

theorem queue_unregister {removed : Nat} {registration : Registration} {events : List Event}
    (done : directory.unregister removed = .ok (registration, events, later))
    (found : later.entry? id = some after) :
    ∃ before, directory.entry? id = some before ∧ after.invoke = before.invoke ∧
      after.queue = before.queue.filter fun other => other ≠ removed := by
  have consistent := wellFormed.toConsistent
  obtain ⟨live, changed⟩ := unregister_eq_ok done
  have deprived : entry? (directory.deprived removed registration) id = some after := by
    rw [changed] at found
    split at found
    · exact (entry_drop.mp found).2
    · exact found
  obtain ⟨before, held, rfl⟩ := entry_deprived.mp deprived
  refine ⟨before, held, ?_⟩
  by_cases here : id = registration.entry
  · rw [if_pos here]
    exact ⟨rfl, Entry.queue_remove (consistent.cursor id before held)
      (consistent.nodup_members held) removed⟩
  · rw [if_neg here]
    refine ⟨rfl, ?_⟩
    rw [eq_comm, List.filter_eq_self]
    intro other inside
    rw [decide_eq_true_eq]
    rintro rfl
    obtain ⟨also, found, points⟩ := (consistent.mem_members held).mp (Entry.mem_queue.mp inside)
    obtain rfl := Option.some.inj (live.symm.trans found)
    exact here points.symm

theorem queue_unregisterAll (ids : List Nat)
    (found : entry? (unregisterAll ids directory).2 id = some after) :
    ∃ before, directory.entry? id = some before ∧ after.invoke = before.invoke ∧
      after.queue = before.queue.filter fun other => other ∉ ids := by
  induction ids generalizing directory with
  | nil => exact ⟨after, found, rfl, by simp⟩
  | cons removed ids ih =>
    cases done : directory.unregister removed with
    | error refusal =>
      simp only [unregisterAll, done] at found
      obtain ⟨before, held, invoke, queue⟩ := ih wellFormed found
      refine ⟨before, held, invoke, ?_⟩
      rw [queue]
      apply List.filter_congr
      intro other inside
      obtain ⟨live, found, -⟩ :=
        (wellFormed.toConsistent.mem_members held).mp (Entry.mem_queue.mp inside)
      have apart : other ≠ removed := by
        rintro rfl
        rw [registration_of_refused done] at found
        cases found
      simp [apart]
    | ok answer =>
      obtain ⟨registration, events, between⟩ := answer
      simp only [unregisterAll, done] at found
      obtain ⟨middle, held, invoke, queue⟩ := ih (wellFormed_unregister wellFormed done) found
      obtain ⟨before, first, same, left⟩ := queue_unregister wellFormed done held
      refine ⟨before, first, invoke.trans same, ?_⟩
      rw [queue, left, List.filter_filter]
      apply List.filter_congr
      intro other _
      by_cases same : other = removed <;> simp [same]

end Removal

inductive Turned (before after : Entry) : List Nat → Prop
  | kept (ordered : Ordered before after) : Turned before after []
  | passed {first : Nat} {rest : List Nat} (queue : before.queue = first :: rest)
      (turned : after.queue = rest ++ [first]) : Turned before after [first]

def Current (directory : Directory) : Request → Prop
  | .select entry _ => directory.entry? entry.id = some entry
  | _ => True

def picked (directory : Directory) (id : Nat) : Request → List Nat
  | .select entry draw =>
    if entry.id = id then ((directory.select entry draw).1.map (·.id)).toList else []
  | _ => []

theorem select_of_turn (wellFormed : directory.WellFormed) {entry : Entry}
    (held : directory.entry? id = some entry) (turn : entry.invoke = .roundRobin) (draw : Nat) :
    ((directory.select entry draw).1.map (·.id)) = entry.queue.head? := by
  obtain ⟨registration, chosen, -⟩ := wellFormed.select_exists held draw
  have found := chosen
  rw [select, Entry.pick?_of_turn turn] at found
  obtain ⟨first, front, live⟩ := Option.bind_eq_some_iff.mp found
  rw [chosen, front, Option.map_some, wellFormed.registrationId first registration live]

theorem turned_register (wellFormed : directory.WellFormed) {now : Time} {session : Nat}
    {pattern : Pattern} {invoke : InvocationPolicy} {options : Dict}
    {answer : Registration × List Event × Directory} (room : directory.HasRoom pattern)
    (done : directory.register now session pattern invoke options = .ok answer)
    (held : directory.entry? id = some before)
    (found : entry? answer.2.2 id = some after) :
    after.invoke = before.invoke ∧ Ordered before after := by
  have consistent := wellFormed.toConsistent
  have unused : directory.allocate.1 ∉ directory.usedIds := by
    refine (consistent.allocate ?_).2
    rw [HasRoom] at room
    split at room <;> omega
  rcases (register_eq_ok_iff directory now session pattern invoke options).mp ⟨_, done⟩ with
    new | ⟨entry, shared, both, same⟩
  · obtain ⟨_, _, made⟩ := register_of_new directory now session invoke options new
    rw [made] at done
    obtain ⟨-, -, rfl⟩ := done
    obtain ⟨middle, between, rfl⟩ := entry_join.mp found
    have apart : (directory.opening now pattern invoke).id ≠ id := by
      rintro rfl
      exact unused ((mem_usedIds _ _).mpr (.inl ⟨before, held⟩))
    rw [entry_opened, if_neg apart, held] at between
    obtain rfl := Option.some.inj between
    rw [if_neg apart.symm]
    exact ⟨rfl, fun _ _ => rfl⟩
  · obtain ⟨_, _, made⟩ := register_of_shared now session options shared both same
    rw [made] at done
    obtain ⟨-, -, rfl⟩ := done
    obtain ⟨middle, between, rfl⟩ := entry_join.mp found
    obtain rfl := Option.some.inj (held.symm.trans between)
    split
    · refine ⟨rfl, ?_⟩
      intro keep both
      apply Entry.filter_queue_add (consistent.cursor id before held)
      -- An id that is not in use is no member.
      by_contra kept
      have member := (both _ (Bool.eq_true_of_not_eq_false kept)).1
      obtain ⟨live, registered, -⟩ := (consistent.mem_members held).mp member
      exact unused ((mem_usedIds _ _).mpr (.inr ⟨live, registered⟩))
    · exact ⟨rfl, fun _ _ => rfl⟩

theorem turned_apply (wellFormed : directory.WellFormed) {request : Request}
    (ends : directory.Ends request) (current : directory.Current request)
    (held : directory.entry? id = some before) (turn : before.invoke = .roundRobin)
    (found : entry? (directory.apply request) id = some after) :
    after.invoke = .roundRobin ∧ Turned before after (directory.picked id request) := by
  cases request with
  | register now session pattern invoke options =>
    simp only [apply] at found
    cases done : directory.register now session pattern invoke options with
    | error refusal =>
      simp only [done] at found
      obtain rfl := Option.some.inj (held.symm.trans found)
      exact ⟨turn, .kept fun _ _ => rfl⟩
    | ok answer =>
      simp only [done] at found
      obtain ⟨invoke, ordered⟩ := turned_register wellFormed (ends ⟨_, done⟩) done held found
      exact ⟨invoke.trans turn, .kept ordered⟩
  | unregister removed =>
    simp only [apply] at found
    cases done : directory.unregister removed with
    | error refusal =>
      simp only [done] at found
      obtain rfl := Option.some.inj (held.symm.trans found)
      exact ⟨turn, .kept fun _ _ => rfl⟩
    | ok answer =>
      simp only [done] at found
      obtain ⟨also, same, invoke, queue⟩ := queue_unregister wellFormed done found
      obtain rfl := Option.some.inj (held.symm.trans same)
      exact ⟨invoke.trans turn, .kept (ordered_of_filter queue)⟩
  | closeSession session =>
    obtain ⟨also, same, invoke, queue⟩ := queue_unregisterAll wellFormed _ found
    obtain rfl := Option.some.inj (held.symm.trans same)
    exact ⟨invoke.trans turn, .kept (ordered_of_filter queue)⟩
  | select entry draw =>
    obtain ⟨also, same, rfl⟩ := entry_updateEntry.mp found
    obtain rfl := Option.some.inj (held.symm.trans same)
    by_cases here : entry.id = id
    · subst here
      obtain rfl := Option.some.inj (held.symm.trans current)
      rw [if_pos rfl, picked, if_pos rfl, select_of_turn wellFormed held turn]
      refine ⟨(internal_advance.invoke before).trans turn, ?_⟩
      cases queue : before.queue with
      | nil =>
        rw [Entry.queue, List.rotate_eq_nil_iff] at queue
        exact absurd queue (wellFormed.inhabited _ before held)
      | cons first rest =>
        refine .passed queue ?_
        rw [Entry.queue_advance turn, queue, List.rotate_cons_succ, List.rotate_zero]
    · rw [if_neg fun same => here same.symm, picked, if_neg here]
      exact ⟨turn, .kept fun _ _ => rfl⟩

end Directory

end CallRouter.Registration
