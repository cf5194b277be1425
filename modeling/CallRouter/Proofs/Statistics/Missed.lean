import CallRouter.Statistics
import Mathlib.Algebra.GroupWithZero.Nat
import Mathlib.Data.List.Induction

namespace CallRouter

section Names

variable {items names : List String} {name item : String}

theorem eraseDups_concat (names : List String) (name : String) :
    (names ++ [name]).eraseDups =
      if name ∈ names then names.eraseDups else names.eraseDups ++ [name] := by
  rw [List.eraseDups_append]
  by_cases known : name ∈ names <;> simp [List.removeAll, known, List.eraseDups_cons]

theorem countP_mem_cons (fresh : item ∉ items) (names : List String) :
    names.countP (· ∈ item :: items) = names.count item + names.countP (· ∈ items) := by
  induction names with
  | nil => rfl
  | cons name names ih =>
    rw [List.countP_cons, List.countP_cons, List.count_cons, ih]
    by_cases same : name = item
    · simp [same, fresh]
      omega
    · simp [same]
      omega

theorem sum_count (distinct : items.Nodup) (names : List String) :
    (items.map (names.count ·)).sum = names.countP (· ∈ items) := by
  induction items with
  | nil => simp
  | cons item items ih =>
    obtain ⟨fresh, distinct⟩ := List.nodup_cons.mp distinct
    rw [List.map_cons, List.sum_cons, ih distinct, countP_mem_cons fresh]

end Names

namespace Keyed

variable {κ ν : Type} [DecidableEq κ]

theorem values_eq (m : Keyed κ ν) (default : ν) :
    m.values = m.keys.map fun key => (m.find? key).getD default := by
  simp only [values, keys, List.map_map]
  apply List.map_congr_left
  intro entry member
  simp [(find?_eq_some_iff m).mpr (show (entry.1, entry.2) ∈ m.entries from member)]

theorem keys_adjust (m : Keyed κ ν) (key : κ) (default : ν) (change : ν → ν) :
    (m.adjust key default change).keys = if key ∈ m.keys then m.keys else m.keys ++ [key] :=
  keys_put key _ m.entries

theorem contains_iff (m : Keyed κ ν) (key : κ) : m.contains key = true ↔ key ∈ m.keys := by
  rw [contains, Option.isSome_iff_exists, mem_keys_iff]

end Keyed

namespace Statistics

variable {limit : Nat} {names : List String} {name : String} {statistics : Statistics}

def ofMissed (limit : Nat) (names : List String) : Statistics :=
  names.foldl recordMissed (empty limit)

def tracked (limit : Nat) (names : List String) : List String := names.eraseDups.take limit

theorem tracked_of_kept (kept : name ∈ tracked limit names ∨ limit ≤ (tracked limit names).length) :
    tracked limit (names ++ [name]) = tracked limit names := by
  unfold tracked at kept ⊢
  rw [eraseDups_concat]
  split
  · rfl
  · rename_i new
    refine List.take_append_of_le_length ?_
    rcases kept with known | full
    · exact absurd (List.mem_eraseDups.mp (List.mem_of_mem_take known)) new
    · rw [List.length_take] at full
      omega

section Room

variable (new : name ∉ tracked limit names) (room : (tracked limit names).length < limit)

include new room

theorem tracked_of_room :
    name ∉ names ∧ tracked limit (names ++ [name]) = tracked limit names ++ [name] := by
  have few : names.eraseDups.length < limit := by
    rw [tracked, List.length_take] at room
    omega
  have all : tracked limit names = names.eraseDups := List.take_of_length_le (Nat.le_of_lt few)
  rw [all, List.mem_eraseDups] at new
  refine ⟨new, ?_⟩
  rw [all, tracked, eraseDups_concat, if_neg new]
  exact List.take_of_length_le (by simp; omega)

end Room

structure Tracks (limit : Nat) (names : List String) (statistics : Statistics) : Prop where
  bound : statistics.missedLimit = limit
  keys : statistics.missed.keys = tracked limit names
  counts : ∀ name ∈ tracked limit names,
    statistics.missedCount name = UInt64.ofNat (names.count name)
  overflow : statistics.overflow = UInt64.ofNat (names.countP (· ∉ tracked limit names))

theorem tracks_empty (limit : Nat) : Tracks limit [] (empty limit) where
  bound := rfl
  keys := by simp [tracked, empty, Keyed.keys, Keyed.empty]
  counts := by simp [tracked]
  overflow := rfl

theorem missedCount_adjust (statistics : Statistics) (name other : String) :
    { statistics with missed := statistics.missed.adjust name 0 (· + 1) }.missedCount other =
      statistics.missedCount other + UInt64.ofNat ([name].count other) := by
  simp only [missedCount, Keyed.adjust, Keyed.find?_insert]
  by_cases same : name = other
  · simp [same]
  · simp [same]

section Step

variable (tracks : Tracks limit names statistics)

include tracks

theorem Tracks.untracked (other : name ∉ tracked limit names) :
    statistics.missedCount name = 0 := by
  rw [← tracks.keys, ← Keyed.contains_iff, Keyed.contains, Option.not_isSome_iff_eq_none] at other
  rw [missedCount, other]
  rfl

theorem Tracks.known (known : name ∈ tracked limit names) :
    Tracks limit (names ++ [name])
      { statistics with missed := statistics.missed.adjust name 0 (· + 1) } where
  bound := tracks.bound
  keys := by rw [tracked_of_kept (.inl known), Keyed.keys_adjust, tracks.keys, if_pos known]
  counts other member := by
    rw [tracked_of_kept (.inl known)] at member
    rw [missedCount_adjust, tracks.counts other member, List.count_append, UInt64.ofNat_add]
  overflow := by
    rw [tracked_of_kept (.inl known), List.countP_append]
    simpa [known] using tracks.overflow

theorem Tracks.new (new : name ∉ tracked limit names)
    (room : (tracked limit names).length < limit) :
    Tracks limit (names ++ [name])
      { statistics with missed := statistics.missed.adjust name 0 (· + 1) } := by
  obtain ⟨unheard, grown⟩ := tracked_of_room new room
  refine ⟨tracks.bound, ?_, fun other member => ?_, ?_⟩
  · rw [grown, Keyed.keys_adjust, tracks.keys, if_neg new]
  · rw [missedCount_adjust, List.count_append, UInt64.ofNat_add]
    rw [grown, List.mem_append, List.mem_singleton] at member
    rcases member with old | rfl
    · rw [tracks.counts other old]
    · rw [tracks.untracked new, List.count_eq_zero.mpr unheard]
      rfl
  · have same : ∀ other ∈ names, (other ∉ tracked limit (names ++ [name])) =
        (other ∉ tracked limit names) := by
      intro other heard
      have apart : other ≠ name := fun same => unheard (same ▸ heard)
      simp [grown, apart]
    rw [List.countP_append, List.countP_congr (q := (· ∉ tracked limit names))]
    · simpa [grown] using tracks.overflow
    · intro other heard
      simp [same other heard]

theorem Tracks.full (new : name ∉ tracked limit names)
    (full : limit ≤ (tracked limit names).length) :
    Tracks limit (names ++ [name]) { statistics with overflow := statistics.overflow + 1 } where
  bound := tracks.bound
  keys := by rw [tracked_of_kept (.inr full), ← tracks.keys]
  counts other member := by
    rw [tracked_of_kept (.inr full)] at member
    have apart : name ≠ other := fun same => new (same ▸ member)
    show statistics.missedCount other = _
    rw [tracks.counts other member, List.count_append]
    simp [apart]
  overflow := by
    rw [tracked_of_kept (.inr full), List.countP_append, UInt64.ofNat_add, ← tracks.overflow]
    simp [new]

theorem tracks_record (name : String) :
    Tracks limit (names ++ [name]) (statistics.recordMissed name) := by
  have counted : (statistics.missed.contains name ||
      decide (statistics.missed.size < statistics.missedLimit)) = true ↔
        name ∈ tracked limit names ∨ (tracked limit names).length < limit := by
    rw [Bool.or_eq_true, Keyed.contains_iff, decide_eq_true_iff, ← Keyed.length_keys, tracks.keys,
      tracks.bound]
  unfold recordMissed
  by_cases known : name ∈ tracked limit names
  · rw [if_pos (counted.mpr (.inl known))]
    exact tracks.known known
  · by_cases room : (tracked limit names).length < limit
    · rw [if_pos (counted.mpr (.inr room))]
      exact tracks.new known room
    · rw [if_neg (fun one => (counted.mp one).elim known room)]
      exact tracks.full known (Nat.le_of_not_lt room)

end Step

theorem tracks_ofMissed (limit : Nat) (names : List String) :
    Tracks limit names (ofMissed limit names) := by
  induction names using List.reverseRecOn with
  | nil => exact tracks_empty limit
  | append_singleton names name ih =>
    rw [ofMissed, List.foldl_append]
    exact tracks_record ih name

/--
The counters of missing procedures are exact as long as they do not leave 64 bits. A name that is
one of the first ones, up to the limit, has as many misses as there were calls of it, and any other
name has none. The misses of the other names are counted together, so that none is lost.
-/
theorem missed_names_are_counted (limit : Nat) (names : List String)
    (few : names.length < 2 ^ 64) :
    (∀ name, ((ofMissed limit names).missedCount name).toNat =
      if name ∈ tracked limit names then names.count name else 0) ∧
    (ofMissed limit names).missed.size = min limit names.eraseDups.length ∧
    (ofMissed limit names).overflow.toNat = names.countP (· ∉ tracked limit names) ∧
    ((ofMissed limit names).missed.values.map UInt64.toNat).sum +
      (ofMissed limit names).overflow.toNat = names.length := by
  have tracks : Tracks limit names (ofMissed limit names) := tracks_ofMissed limit names
  generalize ofMissed limit names = statistics at tracks ⊢
  have exact {count : Nat} (bound : count ≤ names.length) : (UInt64.ofNat count).toNat = count :=
    UInt64.toNat_ofNat_of_lt' (Nat.lt_of_le_of_lt bound few)
  have counts : ∀ name, (statistics.missedCount name).toNat =
      if name ∈ tracked limit names then names.count name else 0 := by
    intro name
    split
    · rename_i member
      rw [tracks.counts name member, exact List.count_le_length]
    · rename_i other
      rw [tracks.untracked other]
      rfl
  have overflow : statistics.overflow.toNat = names.countP (· ∉ tracked limit names) := by
    rw [tracks.overflow]
    exact exact List.countP_le_length
  refine ⟨counts, ?_, overflow, ?_⟩
  · rw [← Keyed.length_keys, tracks.keys, tracked, List.length_take]
  · have distinct : (tracked limit names).Nodup := tracks.keys ▸ statistics.missed.distinct
    have each : statistics.missed.values.map UInt64.toNat =
        (tracked limit names).map (names.count ·) := by
      rw [Keyed.values_eq _ 0, tracks.keys, List.map_map]
      apply List.map_congr_left
      intro name member
      have count := counts name
      rw [if_pos member] at count
      exact count
    rw [each, overflow, sum_count distinct,
      List.length_eq_countP_add_countP (· ∈ tracked limit names)]
    simp

theorem missed_names_are_counted_of_third_name :
    let statistics := ofMissed 2 ["sum", "log", "pow", "sum", "exp", "pow"]
    (["sum", "log", "pow", "exp"].map fun name => (statistics.missedCount name).toNat) =
        [2, 1, 0, 0] ∧
      statistics.missed.size = 2 ∧ statistics.overflow.toNat = 3 := by
  intro statistics
  obtain ⟨counts, size, overflow, -⟩ := missed_names_are_counted 2
    ["sum", "log", "pow", "sum", "exp", "pow"] (by decide)
  refine ⟨?_, ?_, ?_⟩
  · simp only [List.map_cons, List.map_nil, statistics, counts]
    decide +kernel
  · exact size.trans (by decide +kernel)
  · exact overflow.trans (by decide +kernel)

end Statistics

end CallRouter
