import CallRouter.Statistics

namespace CallRouter.Statistics

variable {statistics later last : Statistics} {path : List String}

def node (statistics : Statistics) (path : List String) : Counters :=
  (statistics.counters? path).getD {}

theorem node_empty (missedLimit : Nat) (path : List String) :
    (Statistics.empty missedLimit).node path = {} := by
  have entries : (Statistics.empty missedLimit).counters? path =
      if [] = path then some {} else Keyed.empty.find? path :=
    Keyed.find?_insert Keyed.empty [] path ({} : Counters)
  rw [node, entries]
  split <;> rfl

structure Extends (statistics later : Statistics) : Prop where
  same : ∀ path, later.node path = statistics.node path
  kept : ∀ path, (statistics.counters? path).isSome = true → (later.counters? path).isSome = true

theorem extends_refl (statistics : Statistics) : statistics.Extends statistics :=
  ⟨fun _ => rfl, fun _ => id⟩

theorem extends_trans (first : statistics.Extends later) (second : later.Extends last) :
    statistics.Extends last :=
  ⟨fun path => (second.same path).trans (first.same path),
    fun path held => second.kept path (first.kept path held)⟩

theorem counters_attach (statistics : Statistics) (path other : List String) :
    (statistics.attach path).counters? other =
      if path = other ∧ statistics.counters? path = none then some {}
      else statistics.counters? other := by
  cases found : statistics.nodes.find? path with
  | some counters => simp [attach, Keyed.contains, counters?, found]
  | none => simp [attach, Keyed.contains, counters?, found, Keyed.find?_insert]

theorem extends_attach (statistics : Statistics) (path : List String) :
    statistics.Extends (statistics.attach path) := by
  constructor
  · intro other
    rw [node, node, counters_attach]
    split
    · rename_i fresh
      rw [← fresh.1, fresh.2]
      rfl
    · rfl
  · intro other held
    rw [counters_attach]
    split
    · rfl
    · exact held

theorem isSome_attach (statistics : Statistics) (path : List String) :
    ((statistics.attach path).counters? path).isSome = true := by
  rw [counters_attach]
  cases found : statistics.counters? path <;> simp

theorem extends_recordMissed (statistics : Statistics) (name : String) :
    statistics.Extends (statistics.recordMissed name) := by
  unfold recordMissed
  split <;> exact ⟨fun _ => rfl, fun _ => id⟩

theorem counters_record (statistics : Statistics) (recorded path : List String)
    (occurrence : Occurrence) :
    (statistics.record recorded occurrence).counters? path =
      ((statistics.attach recorded).counters? path).map fun counters =>
        if path.isPrefixOf recorded then counters.count occurrence else counters :=
  Keyed.find?_map _ _ _

theorem isSome_record {recorded : List String} (occurrence : Occurrence)
    (held : (statistics.counters? path).isSome = true) :
    ((statistics.record recorded occurrence).counters? path).isSome = true := by
  rw [counters_record, Option.isSome_map]
  exact (extends_attach statistics recorded).kept path held

theorem node_record_of_found {recorded : List String} (occurrence : Occurrence)
    (held : ((statistics.attach recorded).counters? path).isSome = true) :
    (statistics.record recorded occurrence).node path =
      if path.isPrefixOf recorded then (statistics.node path).count occurrence
      else statistics.node path := by
  obtain ⟨counters, found⟩ := Option.isSome_iff_exists.mp held
  have same := (extends_attach statistics recorded).same path
  rw [node, found, Option.getD_some] at same
  rw [node, counters_record, found, Option.map_some, Option.getD_some, same]

theorem node_record_of_apart {recorded : List String} (occurrence : Occurrence)
    (apart : path.isPrefixOf recorded = false) :
    (statistics.record recorded occurrence).node path = statistics.node path := by
  rw [node, counters_record]
  simp only [apart]
  rw [← (extends_attach statistics recorded).same path, node]
  cases (statistics.attach recorded).counters? path <;> rfl

theorem isPrefixOf_singleton {name : String} :
    path.isPrefixOf [name] = true ↔ path = [name] ∨ path = [] := by
  rw [List.isPrefixOf_iff_prefix, ← List.nil_append [name], List.prefix_concat_iff,
    List.prefix_nil]

theorem node_record (root : (statistics.counters? []).isSome = true) (name : String)
    (occurrence : Occurrence) (path : List String) :
    (statistics.record [name] occurrence).node path =
      if path.isPrefixOf [name] then (statistics.node path).count occurrence
      else statistics.node path := by
  by_cases above : path.isPrefixOf [name] = true
  · apply node_record_of_found
    rcases isPrefixOf_singleton.mp above with rfl | rfl
    · exact isSome_attach statistics [name]
    · exact (extends_attach statistics [name]).kept [] root
  · rw [if_neg above, node_record_of_apart occurrence (Bool.eq_false_iff.mpr above)]

structure Counts (read : Counters → UInt64) (what : Occurrence) : Prop where
  count : ∀ counters occurrence, read (counters.count occurrence) =
    read counters + if occurrence = what then 1 else 0

theorem counts_attempted : Counts Counters.attempted .attempt where
  count counters occurrence := by cases occurrence <;> simp [Counters.count]

theorem counts_canceled : Counts Counters.canceled .cancellation where
  count counters occurrence := by cases occurrence <;> simp [Counters.count]

end CallRouter.Statistics
