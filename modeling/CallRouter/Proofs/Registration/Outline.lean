import CallRouter.Proofs.Json.Size
import CallRouter.Proofs.Message.Valid
import CallRouter.Proofs.Registration.Lookup
import CallRouter.Registration.Meta

namespace CallRouter.Registration

open Json
open MetaProcedure (entryOrNull)

namespace Directory

def sketch (directory : Directory) (entry : Entry) : Json :=
  .list [entry.details.json, MetaProcedure.ids entry.members,
    MetaProcedure.ids ((directory.members entry).map (·.session))]

def outline (directory : Directory) : Json :=
  .list [MetaProcedure.ids directory.names.values,
    .list (directory.entries.values.map directory.sketch)]

variable {directory : Directory} {entry : Entry}

theorem size_sketch_le {id : Nat} (held : directory.entry? id = some entry) :
    (directory.sketch entry).size ≤ directory.outline.size := by
  have listed : entry ∈ directory.entries.values :=
    List.mem_map_of_mem (f := (·.2)) ((Keyed.find?_eq_some_iff _).mp held)
  have part := size_le_sizes (List.mem_map_of_mem (f := directory.sketch) listed)
  have whole := sizes_le_size_list (directory.entries.values.map directory.sketch)
  rw [outline, size_list, sizes_cons, sizes_cons]
  omega

theorem size_details_le (entry : Entry) (directory : Directory) :
    entry.details.json.size ≤ (directory.sketch entry).size := by
  rw [sketch, size_list, sizes_cons]
  omega

theorem size_id_le (entry : Entry) : (Json.ofNat entry.id).size ≤ entry.details.json.size :=
  size_of_get? (show Dict.get? _ "id" = some (Json.ofNat entry.id) from rfl)

theorem size_entryOrNull_le {found : Option Entry}
    (held : ∀ entry ∈ found, ∃ id, directory.entry? id = some entry) :
    (entryOrNull found).size ≤ directory.outline.size + 4 := by
  cases found with
  | none => exact Nat.le_add_left 4 _
  | some entry =>
    obtain ⟨id, held⟩ := held entry rfl
    have outlined := size_sketch_le held
    have detailed := size_details_le entry directory
    have named := size_id_le entry
    rw [entryOrNull]
    omega

theorem sizes_entryIds (directory : Directory) :
    sizes ((directory.entryIds .exact).map .ofNat) + sizes ((directory.entryIds .byPrefix).map .ofNat)
      + sizes ((directory.entryIds .wildcard).map .ofNat) =
    sizes (directory.names.values.map .ofNat) := by
  have sorted (policy : MatchPolicy) : sizes ((directory.entryIds policy).map .ofNat) =
      sizes ((directory.names.filter fun pattern _ => pattern.policy == policy).values.map .ofNat) :=
    sizes_perm ((List.mergeSort_perm _ _).map _)
  simp only [sorted, Keyed.filter, Keyed.values]
  induction directory.names.entries with
  | nil => rfl
  | cons name names ih =>
    obtain ⟨⟨policy, uri⟩, id⟩ := name
    cases policy <;> simp at ih ⊢ <;> omega

end Directory

namespace MetaProcedure

variable {directory : Directory}

theorem size_ids_le (values : List Nat) : (ids values).size ≤ 2 + sizes (values.map .ofNat) :=
  size_list_le _

theorem sizes_le_size_ids (values : List Nat) : sizes (values.map .ofNat) ≤ (ids values).size :=
  sizes_le_size_list _

theorem held_of_named {args : List Json} {entry : Entry}
    (found : named directory args = .ok entry) : ∃ id, directory.entry? id = some entry := by
  unfold named at found
  dsimp only at found
  split at found
  · rename_i held
    obtain rfl := Except.ok.inj found
    exact ⟨_, held⟩
  · cases found

theorem size_list_answer_le (directory : Directory) :
    (Json.dict [("exact", ids (directory.entryIds .exact)),
      ("prefix", ids (directory.entryIds .byPrefix)),
      ("wildcard", ids (directory.entryIds .wildcard))]).size ≤ directory.outline.size + 64 := by
  have exact := size_ids_le (directory.entryIds .exact)
  have byPrefix := size_ids_le (directory.entryIds .byPrefix)
  have wildcard := size_ids_le (directory.entryIds .wildcard)
  have split := directory.sizes_entryIds
  have names := sizes_le_size_ids directory.names.values
  have keys : String.utf8Len (quote "exact".toList) = 7 ∧ String.utf8Len (quote "prefix".toList) = 8 ∧
      String.utf8Len (quote "wildcard".toList) = 10 := by decide
  rw [size_dict, entrySizes_cons, entrySizes_cons, entrySizes_cons, keys.1, keys.2.1, keys.2.2,
    entrySizes_nil, Directory.outline, size_list, sizes_cons]
  omega

theorem size_answer_le {procedure : MetaProcedure} {args : List Json} {answer : Json}
    (given : procedure.answer directory args = .ok answer) :
    answer.size ≤ directory.outline.size + 64 := by
  unfold MetaProcedure.answer at given
  split at given
  · cases given
  · cases procedure with
    | list =>
      obtain rfl := Except.ok.inj given
      exact size_list_answer_le directory
    | lookup =>
      obtain ⟨policy, -, same⟩ := Rpc.bind_eq_ok_iff.mp given
      obtain rfl := Except.ok.inj same
      refine Nat.le_trans (Directory.size_entryOrNull_le fun entry found => ?_)
        (Nat.add_le_add_left (by decide) _)
      obtain ⟨id, -, held⟩ := Option.bind_eq_some_iff.mp found
      exact ⟨id, held⟩
    | match_ =>
      obtain rfl := Except.ok.inj given
      refine Nat.le_trans (Directory.size_entryOrNull_le fun entry found => ?_)
        (Nat.add_le_add_left (by decide) _)
      exact (Directory.covers_of_lookup found).1
    | get =>
      obtain ⟨entry, found, same⟩ := Rpc.bind_eq_ok_iff.mp given
      obtain rfl := Except.ok.inj same
      obtain ⟨id, held⟩ := held_of_named found
      exact Nat.le_trans (Directory.size_details_le entry directory)
        (Nat.le_add_right_of_le (Directory.size_sketch_le held))
    | listCallees =>
      obtain ⟨entry, found, same⟩ := Rpc.bind_eq_ok_iff.mp given
      obtain rfl := Except.ok.inj same
      obtain ⟨id, held⟩ := held_of_named found
      have outlined := Directory.size_sketch_le held
      rw [Directory.sketch, size_list, sizes_cons, sizes_cons, sizes_cons] at outlined
      omega
    | countCallees =>
      obtain ⟨entry, found, same⟩ := Rpc.bind_eq_ok_iff.mp given
      obtain rfl := Except.ok.inj same
      obtain ⟨id, held⟩ := held_of_named found
      have outlined := Directory.size_sketch_le held
      have digits := size_ofNat_le_succ entry.members.length
      have counted := length_le_sizes (entry.members.map Json.ofNat)
      have listed := sizes_le_size_ids entry.members
      rw [List.length_map] at counted
      rw [Directory.sketch, size_list, sizes_cons, sizes_cons, sizes_cons] at outlined
      omega

end MetaProcedure

end CallRouter.Registration
