import CallRouter.Proofs.Call.Cancellation
import CallRouter.Proofs.Dealer.NoneLost
import Mathlib.Algebra.BigOperators.Intervals
import Mathlib.Algebra.Order.BigOperators.Group.Finset

namespace CallRouter.Dealer

open Statistics

variable {peers : Peers} {operation : Operation} {dealer later : Dealer} {call : Call}
  {number : Nat} {path : List String}

theorem isSome_recording {statistics : Statistics}
    (there : (statistics.counters? path).isSome = true) (recorded : List (Pattern × Occurrence)) :
    ((recording statistics recorded).counters? path).isSome = true := by
  induction recorded generalizing statistics with
  | nil => exact there
  | cons note recorded ih => exact ih (isSome_record note.2 there)

theorem read_recording {read : Counters → UInt64} {what : Occurrence} (counts : Counts read what)
    {statistics : Statistics} (root : (statistics.counters? []).isSome = true)
    (recorded : List (Pattern × Occurrence)) (path : List String) :
    read ((recording statistics recorded).node path) = read (statistics.node path) +
      UInt64.ofNat (recorded.countP fun note => path.isPrefixOf [note.1.uri] && note.2 = what) := by
  induction recorded generalizing statistics with
  | nil => simp
  | cons note recorded ih =>
    have rest := ih (isSome_record note.2 root : ((statistics.record [note.1.uri] note.2).counters?
      []).isSome = true)
    rw [node_record root] at rest
    refine rest.trans ?_
    rw [List.countP_cons]
    by_cases above : path.isPrefixOf [note.1.uri] = true
    · rw [if_pos above, counts.count]
      by_cases same : note.2 = what
      · simp only [above, same, decide_true, Bool.and_self, if_true, UInt64.ofNat_add,
          UInt64.add_assoc]
        exact congrArg _ (UInt64.add_comm _ _)
      · simp [above, same]
    · simp [above]

def tally (dealer : Dealer) (path : List String) (share : Nat → Nat) : Nat :=
  ∑ number ∈ Finset.range dealer.calls.length,
    if dealer.calls[number]?.any (·.countsFor path) then share number else 0

structure Counted (dealer : Dealer) (cancellations : Nat → Nat) : Prop where
  root : (dealer.statistics.counters? []).isSome = true
  attempted : ∀ path,
    (dealer.statistics.node path).attempted = UInt64.ofNat (dealer.tally path fun _ => 1)
  canceled : ∀ path,
    (dealer.statistics.node path).canceled = UInt64.ofNat (dealer.tally path cancellations)
  ahead : ∀ number, dealer.calls.length ≤ number → cancellations number = 0

theorem counted_initial (options : Options) : ({ options } : Dealer).Counted fun _ => 0 := by
  have nothing (path : List String) : ({ options } : Dealer).statistics.node path = {} :=
    node_empty _ path
  exact
    { root := rfl
      attempted := fun path => by simp [nothing, tally]
      canceled := fun path => by simp [nothing, tally]
      ahead := fun _ _ => rfl }

theorem tally_congr {share share' : Nat → Nat}
    (length : later.calls.length = dealer.calls.length)
    (same : ∀ {number : Nat} {call : Call}, dealer.calls[number]? = some call →
      ∃ after, later.calls[number]? = some after ∧ after.origin = call.origin ∧
        share' number = share number) :
    later.tally path share' = dealer.tally path share := by
  rw [tally, tally, length]
  refine Finset.sum_congr rfl fun number inside => ?_
  have found := List.getElem?_eq_getElem (Finset.mem_range.mp inside)
  obtain ⟨after, there, origin, equal⟩ := same found
  simp only [found, there, Option.any_some, Call.countsFor_of_origin origin, equal]

theorem tally_one_more (found : dealer.calls[number]? = some call) (share : Nat → Nat) :
    dealer.tally path (fun other => share other + if other = number then 1 else 0) =
      dealer.tally path share + if call.countsFor path then 1 else 0 := by
  have bound := (List.getElem?_eq_some_iff.mp found).1
  have single : (∑ other ∈ Finset.range dealer.calls.length,
      if dealer.calls[other]?.any (·.countsFor path) then if other = number then 1 else 0 else 0) =
        if call.countsFor path then 1 else 0 := by
    rw [Finset.sum_eq_single number]
    · simp [found]
    · intro other _ apart
      simp [apart]
    · intro outside
      exact absurd (Finset.mem_range.mpr bound) outside
  rw [tally, tally, ← single, ← Finset.sum_add_distrib]
  refine Finset.sum_congr rfl fun other _ => ?_
  split <;> rfl

theorem tally_append (appended : later.calls = dealer.calls ++ [call]) (share : Nat → Nat) :
    later.tally path share = dealer.tally path share +
      if call.countsFor path then share dealer.calls.length else 0 := by
  rw [tally, tally, appended, List.length_append, List.length_singleton, Finset.sum_range_succ]
  congr 1
  · refine Finset.sum_congr rfl fun number inside => ?_
    rw [List.getElem?_append_left (Finset.mem_range.mp inside)]
  · simp

theorem tally_le {share share' : Nat → Nat}
    (less : ∀ {number : Nat} {call : Call}, dealer.calls[number]? = some call →
      call.countsFor path = true → share number ≤ share' number) :
    dealer.tally path share ≤ dealer.tally path share' := by
  refine Finset.sum_le_sum fun number inside => ?_
  have found := List.getElem?_eq_getElem (Finset.mem_range.mp inside)
  simp only [found, Option.any_some]
  split
  · rename_i counts
    exact less found counts
  · exact Nat.le_refl _

theorem tally_one_le (dealer : Dealer) (path : List String) :
    (dealer.tally path fun _ => 1) ≤ dealer.calls.length := by
  calc dealer.tally path (fun _ => 1)
      ≤ ∑ _number ∈ Finset.range dealer.calls.length, 1 :=
        Finset.sum_le_sum fun number _ => by split <;> simp
    _ = dealer.calls.length := by rw [← Finset.card_eq_sum_ones, Finset.card_range]

theorem counted_aside {cancellations : Nat → Nat} (counted : dealer.Counted cancellations)
    (aside : dealer.Aside later) : later.Counted cancellations where
  root := aside.statistics.kept [] counted.root
  attempted path := by
    rw [aside.statistics.same, counted.attempted, tally, tally, aside.calls]
  canceled path := by
    rw [aside.statistics.same, counted.canceled, tally, tally, aside.calls]
  ahead := aside.calls ▸ counted.ahead

theorem counted_turn {cancellations : Nat → Nat} (counted : dealer.Counted cancellations)
    (found : dealer.calls[number]? = some call) (event : Call.Event) :
    (dealer.turn number call event).Counted fun other =>
      cancellations other + if other = number ∧ event.isCancellation then 1 else 0 := by
  have same (share : Nat → Nat) (path : List String) :
      (dealer.turn number call event).tally path share = dealer.tally path share := by
    apply tally_congr (by simp [turn])
    intro other holder held
    rw [getElem?_turn found]
    by_cases here : number = other
    · subst here
      obtain rfl : call = holder := Option.some.inj (found.symm.trans held)
      exact ⟨_, if_pos rfl, Call.origin_turn call event, rfl⟩
    · exact ⟨holder, by rw [if_neg here, held], rfl, rfl⟩
  exact
    { root := isSome_recording counted.root _
      attempted := fun path => by
        have recorded := read_recording counts_attempted counted.root (call.turn event).recorded path
        rw [Call.attempts_turn, counted.attempted] at recorded
        rw [same]
        simpa [turn] using recorded
      canceled := fun path => by
        have recorded := read_recording counts_canceled counted.root (call.turn event).recorded path
        rw [Call.cancellations_turn, counted.canceled, ← UInt64.ofNat_add] at recorded
        rw [same]
        cases cancels : event.isCancellation with
        | false => simpa [turn, cancels] using recorded
        | true =>
          simp only [and_true]
          rw [tally_one_more found]
          simpa [turn, cancels] using recorded
      ahead := fun other beyond => by
        have bound := (List.getElem?_eq_some_iff.mp found).1
        simp only [turn, List.length_set] at beyond
        rw [counted.ahead other beyond, if_neg]
        rintro ⟨rfl, -⟩
        omega }

theorem read_dispatch {read : Counters → UInt64} {what : Occurrence} (counts : Counts read what)
    (root : (dealer.statistics.counters? []).isSome = true) (other : Occurrence.invocation ≠ what)
    (dispatches : Dispatches peers dealer operation call later) (path : List String) :
    read (later.statistics.node path) = read (dealer.statistics.node path) +
      UInt64.ofNat ((call.noteAt 0 .attempt).countP fun note =>
        path.isPrefixOf [note.1.uri] && note.2 = what) := by
  have invoked : (call.targets.map fun target => (target.pattern, Occurrence.invocation)).countP
      (fun note => path.isPrefixOf [note.1.uri] && note.2 = what) = 0 := by
    simp [List.countP_eq_zero, other]
  rw [dispatches.statistics, read_recording counts (isSome_recording root _), invoked,
    read_recording counts root]
  simp

theorem counted_dispatch {cancellations : Nat → Nat} (counted : dealer.Counted cancellations)
    (dispatches : Dispatches peers dealer operation call later) : later.Counted cancellations where
  root := by
    rw [dispatches.statistics]
    exact isSome_recording (isSome_recording counted.root _) _
  attempted path := by
    rw [read_dispatch counts_attempted counted.root (by simp) dispatches,
      Call.countP_noteAt_first, counted.attempted, tally_append dispatches.calls, UInt64.ofNat_add]
  canceled path := by
    rw [read_dispatch counts_canceled counted.root (by simp) dispatches,
      Call.countP_noteAt call 0 (by simp), counted.canceled, tally_append dispatches.calls,
      counted.ahead _ (Nat.le_refl _)]
    simp
  ahead number beyond := by
    rw [dispatches.calls, List.length_append, List.length_singleton] at beyond
    exact counted.ahead number (by omega)

end CallRouter.Dealer
