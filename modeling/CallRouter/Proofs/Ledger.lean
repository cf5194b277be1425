import CallRouter.Proofs.Statistics
import Mathlib.Algebra.BigOperators.Group.Finset.Piecewise
import Mathlib.Algebra.GroupWithZero.Nat

/-!
A counter of a node says how much was recorded on the node itself and on those below it. Counters are
words of 64 bits, so they say it up to multiples of their size.
-/

namespace CallRouter.Statistics

variable {statistics later : Statistics} {path : List String}

inductive Counter where
  | attempted
  | invoked
  | completed
  | errored
  | canceled
  | durationMicros
  deriving DecidableEq

abbrev Records := List (List String × Occurrence)

namespace Counter

def read : Counter → Counters → UInt64
  | attempted, counters => counters.attempted
  | invoked, counters => counters.invoked
  | completed, counters => counters.completed
  | errored, counters => counters.errored
  | canceled, counters => counters.canceled
  | durationMicros, counters => counters.durationMicros

def amount : Counter → Occurrence → Nat
  | attempted, .attempt => 1
  | invoked, .invocation => 1
  | completed, .completion _ => 1
  | errored, .failure => 1
  | canceled, .cancellation => 1
  | durationMicros, .completion nanoseconds => nanoseconds / 1000
  | _, _ => 0

def subtotal (counter : Counter) (path : List String) (records : Records) : Nat :=
  ((records.filter fun record => path.isPrefixOf record.1).map fun record =>
    counter.amount record.2).sum

variable {counter : Counter}

theorem read_count (counter : Counter) (counters : Counters) (occurrence : Occurrence) :
    counter.read (counters.count occurrence) =
      counter.read counters + UInt64.ofNat (counter.amount occurrence) := by
  cases counter <;> cases occurrence <;> simp [read, amount, Counters.count]

@[simp] theorem subtotal_nil : counter.subtotal path [] = 0 := rfl

theorem subtotal_append (records more : Records) :
    counter.subtotal path (records ++ more) =
      counter.subtotal path records + counter.subtotal path more := by
  simp [subtotal]

theorem subtotal_cons (record : List String × Occurrence) (records : Records) :
    counter.subtotal path (record :: records) =
      (if path.isPrefixOf record.1 then counter.amount record.2 else 0) +
        counter.subtotal path records := by
  by_cases above : path.isPrefixOf record.1 <;> simp [subtotal, above]

end Counter

def Agrees (statistics : Statistics) (records : Records) : Prop :=
  ∀ (counter : Counter) (path : List String),
    counter.read (statistics.node path) = UInt64.ofNat (counter.subtotal path records)

theorem agrees_empty (missedLimit : Nat) : (Statistics.empty missedLimit).Agrees [] := by
  intro counter path
  rw [node_empty]
  cases counter <;> rfl

theorem Agrees.extends {records : Records} (agrees : statistics.Agrees records)
    (more : statistics.Extends later) : later.Agrees records := by
  intro counter path
  rw [more.same]
  exact agrees counter path

theorem Agrees.record {records : Records} (agrees : statistics.Agrees records)
    {recorded : List String} (occurrence : Occurrence)
    (above : ∀ path, path.isPrefixOf recorded = true →
      ((statistics.attach recorded).counters? path).isSome = true) :
    (statistics.record recorded occurrence).Agrees (records ++ [(recorded, occurrence)]) := by
  intro counter path
  rw [Counter.subtotal_append, UInt64.ofNat_add, ← agrees counter path, Counter.subtotal_cons]
  cases covers : path.isPrefixOf recorded with
  | true =>
    rw [node_record_of_found occurrence (above path covers), if_pos covers, counter.read_count]
    simp
  | false =>
    rw [node_record_of_apart occurrence covers]
    simp

section Tree

inductive Grown : Statistics → Records → Prop
  | root (missedLimit : Nat) : Grown (Statistics.empty missedLimit) []
  | child {statistics : Statistics} {records : Records} {parent : List String}
      (grown : Grown statistics records) (there : (statistics.counters? parent).isSome = true)
      (label : String) : Grown (statistics.attach (parent ++ [label])) records
  | record {statistics : Statistics} {records : Records} {path : List String}
      (grown : Grown statistics records) (there : (statistics.counters? path).isSome = true)
      (occurrence : Occurrence) :
      Grown (statistics.record path occurrence) (records ++ [(path, occurrence)])
  | miss {statistics : Statistics} {records : Records} (grown : Grown statistics records)
      (name : String) : Grown (statistics.recordMissed name) records

def Closed (statistics : Statistics) : Prop :=
  ∀ path label, (statistics.counters? (path ++ [label])).isSome = true →
    (statistics.counters? path).isSome = true

theorem Closed.above (closed : statistics.Closed) {above : List String} (within : above <+: path)
    (there : (statistics.counters? path).isSome = true) :
    (statistics.counters? above).isSome = true := by
  obtain ⟨rest, rfl⟩ := within
  induction rest using List.reverseRecOn with
  | nil => simpa using there
  | append_singleton rest label ih =>
    rw [← List.append_assoc] at there
    exact ih (closed _ label there)

theorem counters_record_isSome (recorded : List String) (occurrence : Occurrence) :
    ((statistics.record recorded occurrence).counters? path).isSome =
      ((statistics.attach recorded).counters? path).isSome := by
  rw [counters_record, Option.isSome_map]

theorem attach_of_there (there : (statistics.counters? path).isSome = true) :
    statistics.attach path = statistics := by
  simp [attach, Keyed.contains, show (statistics.nodes.find? path).isSome = true from there]

theorem closed_of_grown {records : Records} (grown : Grown statistics records) :
    statistics.Closed := by
  induction grown with
  | root missedLimit =>
    intro path label there
    have absent : (Statistics.empty missedLimit).counters? (path ++ [label]) = none :=
      (Keyed.find?_insert Keyed.empty [] (path ++ [label]) ({} : Counters)).trans
        (if_neg (by simp))
    simp [absent] at there
  | @child statistics records parent grown present label ih =>
    intro path last there
    have kept := (extends_attach statistics (parent ++ [label])).kept path
    rw [counters_attach] at there
    split at there
    · rename_i new
      obtain ⟨rfl, -⟩ := List.append_inj' new.1 rfl
      exact kept present
    · exact kept (ih path last there)
  | record grown present occurrence ih =>
    intro path label there
    rw [counters_record_isSome, attach_of_there present] at there ⊢
    exact ih path label there
  | miss grown name ih =>
    intro path label there
    unfold recordMissed at there ⊢
    split at there <;> split <;> exact ih path label there

theorem agrees_of_grown {records : Records} (grown : Grown statistics records) :
    statistics.Agrees records := by
  induction grown with
  | root missedLimit => exact agrees_empty missedLimit
  | child grown present label ih => exact ih.extends (extends_attach _ _)
  | record grown present occurrence ih =>
    refine ih.record occurrence fun path covers => ?_
    rw [attach_of_there present]
    exact (closed_of_grown grown).above (List.isPrefixOf_iff_prefix.mp covers) present
  | miss grown name ih => exact ih.extends (extends_recordMissed _ name)

end Tree

def OfProcedures (statistics : Statistics) (records : Records) : Prop :=
  ∀ record ∈ records, ∃ name, record.1 = [name] ∧ (statistics.counters? [name]).isSome = true

section Procedures

variable {records : Records}

def procedures (statistics : Statistics) : Keyed (List String) Counters :=
  statistics.nodes.filter fun path _ => path ≠ []

theorem sum_subtotals (ofProcedures : statistics.OfProcedures records) (counter : Counter) :
    (statistics.procedures.keys.map fun path => counter.subtotal path records).sum =
      counter.subtotal [] records := by
  induction records with
  | nil => simp
  | cons record records ih =>
    have rest := ih fun other member => ofProcedures other (List.mem_cons_of_mem _ member)
    obtain ⟨name, here, there⟩ := ofProcedures record List.mem_cons_self
    have listed : [name] ∈ statistics.procedures.keys := by
      obtain ⟨counters, found⟩ := Option.isSome_iff_exists.mp there
      exact (Keyed.mem_keys_iff _ _).mpr ⟨counters, (Keyed.find?_filter ..).mpr ⟨found, by simp⟩⟩
    have only : ∀ path ∈ statistics.procedures.keys,
        (if path.isPrefixOf record.1 then counter.amount record.2 else 0) =
          if path = [name] then counter.amount record.2 else 0 := by
      intro path member
      obtain ⟨counters, found⟩ := (Keyed.mem_keys_iff _ _).mp member
      have below : path ≠ [] := by simpa using ((Keyed.find?_filter ..).mp found).2
      simp only [here, isPrefixOf_singleton, below, or_false]
    have distinct : statistics.procedures.keys.Nodup := statistics.procedures.distinct
    have once : (statistics.procedures.keys.map fun path =>
        if path.isPrefixOf record.1 then counter.amount record.2 else 0).sum =
          counter.amount record.2 := by
      rw [List.map_congr_left only, ← List.sum_toFinset _ distinct, Finset.sum_ite_eq',
        if_pos (List.mem_toFinset.mpr listed)]
    simp only [Counter.subtotal_cons, List.sum_map_add, rest, once]
    simp

theorem ofNat_sum {α : Type} (items : List α) (share : α → Nat) :
    UInt64.ofNat (items.map fun item => (UInt64.ofNat (share item)).toNat).sum =
      UInt64.ofNat (items.map share).sum := by
  induction items with
  | nil => rfl
  | cons item items ih =>
    rw [List.map_cons, List.sum_cons, UInt64.ofNat_add, ih, UInt64.ofNat_toNat, ← UInt64.ofNat_add]
    rfl

theorem total_eq_sum (agrees : statistics.Agrees records)
    (ofProcedures : statistics.OfProcedures records) (counter : Counter) :
    counter.read statistics.total = UInt64.ofNat
      (statistics.procedures.values.map fun counters => (counter.read counters).toNat).sum := by
  have values : (statistics.procedures.values.map fun counters => (counter.read counters).toNat) =
      statistics.procedures.keys.map fun path =>
        (UInt64.ofNat (counter.subtotal path records)).toNat := by
    rw [Keyed.values, Keyed.keys, List.map_map, List.map_map]
    apply List.map_congr_left
    rintro ⟨path, counters⟩ member
    have found := ((Keyed.find?_filter ..).mp ((Keyed.find?_eq_some_iff _).mpr member)).1
    have same : statistics.node path = counters := by
      rw [node, show statistics.counters? path = some counters from found, Option.getD_some]
    rw [Function.comp_apply, Function.comp_apply, ← agrees counter path, same]
  rw [values, ofNat_sum, sum_subtotals ofProcedures]
  exact agrees counter []

end Procedures

end CallRouter.Statistics
