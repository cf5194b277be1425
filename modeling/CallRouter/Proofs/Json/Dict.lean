import Mathlib.Algebra.GroupWithZero.Nat
import Mathlib.Data.Char
import Mathlib.Data.List.Lex
import Mathlib.Data.String.Basic
import CallRouter.Json.Basic

namespace CallRouter.Dict

theorem keyBefore_iff_lt {a b : List Char} : keyBefore a b ↔ a < b := by
  induction a generalizing b with
  | nil => cases b <;> simp [keyBefore]
  | cons c a ih =>
    cases b with
    | nil => simp [keyBefore]
    | cons d b =>
      rw [List.cons_lt_cons_iff, ← ih, keyBefore]
      by_cases same : c = d
      · simp [same]
      · simp only [same, if_false, decide_eq_true_eq, false_and, or_false]
        exact Iff.rfl

def IsOrdered (dict : Dict) : Prop := dict.Pairwise fun a b => a.1 < b.1

instance (dict : Dict) : Decidable dict.IsOrdered :=
  inferInstanceAs (Decidable (dict.Pairwise fun a b => a.1 < b.1))

theorem insert_cons {key : String} {value : Json} {entry : String × Json} {dict : Dict} :
    insert key value (entry :: dict) =
      if entry.1 = key then (key, value) :: dict
      else if key < entry.1 then (key, value) :: entry :: dict
      else entry :: insert key value dict := by
  have order : keyBefore key.toList entry.1.toList ↔ key < entry.1 :=
    keyBefore_iff_lt.trans String.lt_iff_toList_lt.symm
  simp only [insert, order]

theorem mem_insert {key : String} {value : Json} {dict : Dict} {entry : String × Json}
    (member : entry ∈ insert key value dict) : entry = (key, value) ∨ entry ∈ dict := by
  induction dict with
  | nil => exact .inl (List.mem_singleton.mp member)
  | cons first dict ih =>
    rw [insert_cons] at member
    split at member
    · exact (List.mem_cons.mp member).imp_right (List.mem_cons_of_mem _)
    · split at member
      · exact List.mem_cons.mp member
      · rcases List.mem_cons.mp member with rfl | later
        · exact .inr List.mem_cons_self
        · exact (ih later).imp_right (List.mem_cons_of_mem _)

theorem ordered_insert {dict : Dict} (ordered : dict.IsOrdered) (key : String) (value : Json) :
    (insert key value dict).IsOrdered := by
  induction dict with
  | nil => exact List.pairwise_singleton _ _
  | cons entry dict ih =>
    obtain ⟨first, later⟩ := List.pairwise_cons.mp ordered
    rw [insert_cons]
    split
    · rename_i same
      exact List.pairwise_cons.mpr ⟨same ▸ first, later⟩
    · rename_i other
      split
      · rename_i before
        refine List.pairwise_cons.mpr ⟨fun present member => ?_, ordered⟩
        rcases List.mem_cons.mp member with rfl | behind
        · exact before
        · exact before.trans (first present behind)
      · rename_i behind
        have before : entry.1 < key := lt_of_le_of_ne (not_lt.mp behind) other
        refine List.pairwise_cons.mpr ⟨fun present member => ?_, ih later⟩
        rcases mem_insert member with rfl | old
        · exact before
        · exact first present old

theorem ordered_ofEntries (entries : List (String × Json)) : (ofEntries entries).IsOrdered := by
  have kept : ∀ (rest : List (String × Json)) (dict : Dict), dict.IsOrdered →
      IsOrdered (rest.foldl (fun dict entry => insert entry.1 entry.2 dict) dict) := by
    intro rest
    induction rest with
    | nil => exact fun dict ordered => ordered
    | cons entry rest ih => exact fun dict ordered => ih _ (ordered_insert ordered _ _)
  exact kept entries [] List.Pairwise.nil

theorem sum_insert_le (weight : String × Json → Nat) (key : String) (value : Json) (dict : Dict) :
    ((insert key value dict).map weight).sum ≤ weight (key, value) + (dict.map weight).sum := by
  induction dict with
  | nil => exact Nat.le_refl _
  | cons entry dict ih =>
    rw [insert_cons]
    split
    · simp only [List.map_cons, List.sum_cons]
      omega
    · split
      · exact Nat.le_refl _
      · simp only [List.map_cons, List.sum_cons]
        omega

theorem sum_ofEntries_le (weight : String × Json → Nat) (entries : List (String × Json)) :
    ((ofEntries entries).map weight).sum ≤ (entries.map weight).sum := by
  have grown : ∀ (rest : List (String × Json)) (dict : Dict),
      ((rest.foldl (fun dict entry => insert entry.1 entry.2 dict) dict).map weight).sum ≤
        (rest.map weight).sum + (dict.map weight).sum := by
    intro rest
    induction rest with
    | nil => simp
    | cons entry rest ih =>
      intro dict
      have later := ih (insert entry.1 entry.2 dict)
      have first : _ ≤ weight entry + _ := sum_insert_le weight entry.1 entry.2 dict
      rw [List.foldl_cons, List.map_cons, List.sum_cons]
      omega
  exact grown entries []

theorem insert_last {dict : Dict} {key : String} {value : Json}
    (last : ∀ entry ∈ dict, entry.1 < key) : insert key value dict = dict ++ [(key, value)] := by
  induction dict with
  | nil => rfl
  | cons entry dict ih =>
    have before := last entry List.mem_cons_self
    rw [insert_cons, if_neg before.ne, if_neg before.asymm,
      ih fun earlier member => last earlier (List.mem_cons_of_mem _ member)]
    rfl

theorem ofEntries_of_ordered {entries : Dict} (ordered : entries.IsOrdered) :
    ofEntries entries = entries := by
  have grown : ∀ (rest done : Dict), IsOrdered (done ++ rest) →
      rest.foldl (fun dict entry => insert entry.1 entry.2 dict) done = done ++ rest := by
    intro rest
    induction rest with
    | nil => simp
    | cons entry rest ih =>
      intro done ordered
      have last : ∀ earlier ∈ done, earlier.1 < entry.1 := fun earlier member =>
        (List.pairwise_append.mp ordered).2.2 earlier member entry List.mem_cons_self
      rw [List.foldl_cons, insert_last last, ih (done ++ [entry]) (by simpa using ordered)]
      simp
  exact grown entries [] ordered

end CallRouter.Dict
