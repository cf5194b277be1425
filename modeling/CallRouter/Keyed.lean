namespace CallRouter

/-- A finite map: a list of entries with distinct keys. -/
structure Keyed (κ ν : Type) where
  entries : List (κ × ν)
  distinct : (entries.map (·.1)).Nodup

namespace Keyed

variable {κ ν : Type}

def empty : Keyed κ ν := ⟨[], by simp⟩

instance : Inhabited (Keyed κ ν) := ⟨empty⟩

def keys (m : Keyed κ ν) : List κ := m.entries.map (·.1)

def values (m : Keyed κ ν) : List ν := m.entries.map (·.2)

def size (m : Keyed κ ν) : Nat := m.entries.length

@[ext] theorem ext {m n : Keyed κ ν} (same : m.entries = n.entries) : m = n := by
  cases m; cases n; simp_all

def filter (m : Keyed κ ν) (keep : κ → ν → Bool) : Keyed κ ν :=
  ⟨m.entries.filter fun (k, v) => keep k v,
    List.Nodup.sublist ((List.filter_sublist).map _) m.distinct⟩

def map (m : Keyed κ ν) (change : κ → ν → ν) : Keyed κ ν :=
  ⟨m.entries.map fun (k, v) => (k, change k v), by simpa [Function.comp_def] using m.distinct⟩

@[simp] theorem mem_filter (m : Keyed κ ν) (keep : κ → ν → Bool) (key : κ) (value : ν) :
    (key, value) ∈ (m.filter keep).entries ↔ (key, value) ∈ m.entries ∧ keep key value := by
  simp [filter]

theorem filter_filter (m : Keyed κ ν) (keep also : κ → ν → Bool) :
    (m.filter keep).filter also = m.filter fun k v => keep k v && also k v := by
  apply ext
  simp [filter, List.filter_filter, Bool.and_comm]

theorem filter_true (m : Keyed κ ν) : (m.filter fun _ _ => true) = m := by
  apply ext
  simp [filter]

theorem keys_map (m : Keyed κ ν) (change : κ → ν → ν) : (m.map change).keys = m.keys := by
  simp [keys, map, Function.comp_def]

theorem length_keys (m : Keyed κ ν) : m.keys.length = m.size := List.length_map _

variable [DecidableEq κ]

def lookup (key : κ) : List (κ × ν) → Option ν
  | [] => none
  | (k, v) :: rest => if k = key then some v else lookup key rest

def put (key : κ) (value : ν) : List (κ × ν) → List (κ × ν)
  | [] => [(key, value)]
  | (k, v) :: rest => if k = key then (key, value) :: rest else (k, v) :: put key value rest

theorem keys_put (key : κ) (value : ν) (entries : List (κ × ν)) :
    (put key value entries).map (·.1) =
      if key ∈ entries.map (·.1) then entries.map (·.1) else entries.map (·.1) ++ [key] := by
  induction entries with
  | nil => simp [put]
  | cons entry rest ih =>
    obtain ⟨k, v⟩ := entry
    by_cases same : k = key
    · simp [put, same]
    · have other : ¬ key = k := fun h => same h.symm
      simp only [put, same, ↓reduceIte, List.map_cons, ih, List.mem_cons, other, false_or]
      split <;> simp

theorem put_distinct {key : κ} {value : ν} {entries : List (κ × ν)}
    (distinct : (entries.map (·.1)).Nodup) : ((put key value entries).map (·.1)).Nodup := by
  rw [keys_put]
  split
  · exact distinct
  · rename_i absent
    rw [List.nodup_append]
    refine ⟨distinct, by simp, ?_⟩
    intro a member b single equal
    simp only [List.mem_singleton] at single
    exact absent (single ▸ equal ▸ member)

theorem put_new {key : κ} {entries : List (κ × ν)} (new : lookup key entries = none) {value : ν} :
    put key value entries = entries ++ [(key, value)] := by
  induction entries with
  | nil => rfl
  | cons entry rest ih =>
    obtain ⟨k, v⟩ := entry
    by_cases same : k = key
    · simp [lookup, same] at new
    · rw [lookup, if_neg same] at new
      rw [put, if_neg same, ih new]
      rfl

def find? (m : Keyed κ ν) (key : κ) : Option ν := lookup key m.entries

def contains (m : Keyed κ ν) (key : κ) : Bool := (m.find? key).isSome

/-- Sets the value of a key; a new key goes to the end. -/
def insert (m : Keyed κ ν) (key : κ) (value : ν) : Keyed κ ν :=
  ⟨put key value m.entries, put_distinct m.distinct⟩

def erase (m : Keyed κ ν) (key : κ) : Keyed κ ν := m.filter fun k _ => k ≠ key

def adjust (m : Keyed κ ν) (key : κ) (default : ν) (change : ν → ν) : Keyed κ ν :=
  m.insert key (change ((m.find? key).getD default))

theorem lookup_put (key other : κ) (value : ν) (entries : List (κ × ν)) :
    lookup other (put key value entries) =
      if key = other then some value else lookup other entries := by
  induction entries with
  | nil => simp [put, lookup]
  | cons entry rest ih =>
    obtain ⟨k, v⟩ := entry
    by_cases same : k = key
    · subst same
      by_cases here : k = other <;> simp [put, lookup, here]
    · by_cases here : k = other
      · have apart : ¬ key = other := fun h => same (here.trans h.symm)
        subst here
        simp [put, lookup, same, apart]
      · simp [put, lookup, same, here, ih]

theorem find?_insert (m : Keyed κ ν) (key other : κ) (value : ν) :
    (m.insert key value).find? other = if key = other then some value else m.find? other :=
  lookup_put key other value m.entries

@[simp] theorem find?_insert_self (m : Keyed κ ν) (key : κ) (value : ν) :
    (m.insert key value).find? key = some value := by simp [find?_insert]

theorem lookup_eq_some_iff {entries : List (κ × ν)} (distinct : (entries.map (·.1)).Nodup)
    {key : κ} {value : ν} : lookup key entries = some value ↔ (key, value) ∈ entries := by
  induction entries with
  | nil => simp [lookup]
  | cons entry rest ih =>
    obtain ⟨k, v⟩ := entry
    simp only [List.map_cons, List.nodup_cons] at distinct
    by_cases here : k = key
    · subst here
      have absent : (k, value) ∉ rest := fun member =>
        distinct.1 (List.mem_map_of_mem (f := (·.1)) member)
      simp [lookup, absent, eq_comm]
    · have apart : ¬ key = k := fun h => here h.symm
      simp [lookup, here, apart, ih distinct.2]

theorem find?_eq_some_iff (m : Keyed κ ν) {key : κ} {value : ν} :
    m.find? key = some value ↔ (key, value) ∈ m.entries :=
  lookup_eq_some_iff m.distinct

theorem mem_keys_iff (m : Keyed κ ν) (key : κ) : key ∈ m.keys ↔ ∃ value, m.find? key = some value := by
  simp [keys, find?_eq_some_iff]

theorem mem_values_filter {m : Keyed κ ν} {keep : κ → ν → Bool} {value : ν} :
    value ∈ (m.filter keep).values ↔ ∃ key, m.find? key = some value ∧ keep key value = true := by
  simp [values, filter, find?_eq_some_iff]

theorem entries_insert {m : Keyed κ ν} {key : κ} (new : m.find? key = none) (value : ν) :
    (m.insert key value).entries = m.entries ++ [(key, value)] :=
  put_new new

theorem keys_insert {m : Keyed κ ν} {key : κ} (new : m.find? key = none) (value : ν) :
    (m.insert key value).keys = m.keys ++ [key] := by
  rw [keys, entries_insert new, List.map_append]
  rfl

theorem keys_erase (m : Keyed κ ν) (key : κ) :
    (m.erase key).keys = m.keys.filter fun other => other ≠ key := by
  rw [keys, keys, List.filter_map]
  rfl

theorem find?_filter (m : Keyed κ ν) (keep : κ → ν → Bool) (key : κ) (value : ν) :
    (m.filter keep).find? key = some value ↔ m.find? key = some value ∧ keep key value := by
  simp [find?_eq_some_iff]

theorem find?_erase (m : Keyed κ ν) (key other : κ) :
    (m.erase key).find? other = if key = other then none else m.find? other := by
  apply Option.ext
  intro value
  by_cases same : key = other
  · simp [erase, find?_filter, same]
  · have apart : other ≠ key := fun h => same h.symm
    simp [erase, find?_filter, same, apart]

theorem lookup_map (change : κ → ν → ν) (key : κ) (entries : List (κ × ν)) :
    lookup key (entries.map fun (k, v) => (k, change k v)) =
      (lookup key entries).map (change key) := by
  induction entries with
  | nil => rfl
  | cons entry rest ih =>
    obtain ⟨k, v⟩ := entry
    by_cases here : k = key
    · subst here
      simp [lookup]
    · simp [lookup, here, ih]

theorem filter_congr (m : Keyed κ ν) {keep also : κ → ν → Bool}
    (agree : ∀ key value, m.find? key = some value → keep key value = also key value) :
    m.filter keep = m.filter also := by
  apply ext
  apply List.filter_congr
  intro entry member
  exact agree entry.1 entry.2 ((find?_eq_some_iff m).mpr member)

theorem find?_map (m : Keyed κ ν) (change : κ → ν → ν) (key : κ) :
    (m.map change).find? key = (m.find? key).map (change key) :=
  lookup_map change key m.entries

end Keyed

end CallRouter
