import CallRouter.Proofs.Registration.Reachable
import CallRouter.Registration.Meta

namespace CallRouter.Registration.Directory

variable {directory : Directory}

theorem narrowest_mem {entries : List Entry} {entry : Entry}
    (found : narrowest entries = some entry) : entry ∈ entries := by
  induction entries generalizing entry with
  | nil => cases found
  | cons first rest ih =>
    simp only [narrowest] at found
    cases chosen : narrowest rest with
    | none =>
      simp only [chosen] at found
      obtain rfl := Option.some.inj found
      exact List.mem_cons_self
    | some other =>
      simp only [chosen] at found
      split at found
      · obtain rfl := Option.some.inj found
        exact List.mem_cons_of_mem _ (ih chosen)
      · obtain rfl := Option.some.inj found
        exact List.mem_cons_self

theorem narrowest_exists {entries : List Entry} (some : entries ≠ []) :
    ∃ entry, narrowest entries = Option.some entry := by
  cases entries with
  | nil => exact absurd rfl some
  | cons first rest =>
    simp only [narrowest]
    split
    · exact ⟨first, rfl⟩
    · split
      · exact ⟨_, rfl⟩
      · exact ⟨_, rfl⟩

theorem covers_of_lookup {uri : String} {entry : Entry}
    (found : directory.lookup uri = some entry) :
    (∃ id, directory.entry? id = some entry) ∧ entry.pattern.covers uri = true := by
  obtain ⟨named, covers⟩ := List.mem_filter.mp (narrowest_mem found)
  obtain ⟨id, _, held⟩ := List.mem_filterMap.mp named
  exact ⟨⟨id, held⟩, covers⟩

theorem Consistent.lookup_exists (consistent : directory.Consistent) {id : Nat} {entry : Entry}
    (held : directory.entry? id = some entry) {uri : String}
    (covers : entry.pattern.covers uri = true) :
    ∃ other, directory.lookup uri = some other := by
  apply narrowest_exists
  apply List.ne_nil_of_mem (a := entry)
  have named := (consistent.named entry.pattern id).mpr ⟨entry, held, rfl⟩
  have listed : id ∈ directory.names.values :=
    List.mem_map_of_mem (f := (·.2)) ((Keyed.find?_eq_some_iff _).mp named)
  exact List.mem_filter.mpr ⟨List.mem_filterMap.mpr ⟨id, listed, held⟩, covers⟩

theorem resolve_of_foreign {uri : String} {offers : Bool}
    (foreign : offers = true → MetaProcedure.ofUri? uri = none) :
    directory.resolve uri offers = (directory.lookup uri).map Destination.entry := by
  cases offers with
  | true => simp [resolve, foreign rfl]
  | false => simp [resolve]

theorem live_of_members {entry : Entry} {registration : Registration}
    (member : registration ∈ directory.members entry) :
    ∃ id, directory.registration? id = some registration := by
  obtain ⟨id, _, live⟩ := List.mem_filterMap.mp member
  exact ⟨id, live⟩

theorem live_of_select {entry : Entry} {draw : Nat} {registration : Registration}
    (chosen : (directory.select entry draw).1 = some registration) :
    ∃ id, directory.registration? id = some registration := by
  obtain ⟨id, _, live⟩ := Option.bind_eq_some_iff.mp chosen
  exact ⟨id, live⟩

theorem place_lt {entry : Entry} (some : entry.members ≠ []) (draw : Nat) :
    entry.place draw < entry.members.length := by
  have positive := List.length_pos_of_ne_nil some
  cases invoke : entry.invoke with
  | single | first => simpa [Entry.place, invoke] using positive
  | last =>
    simp only [Entry.place, invoke]
    omega
  | random | roundRobin =>
    simp only [Entry.place, invoke]
    exact Nat.mod_lt _ positive

theorem WellFormed.select_exists (wellFormed : directory.WellFormed) {id : Nat} {entry : Entry}
    (held : directory.entry? id = some entry) (draw : Nat) :
    ∃ registration, (directory.select entry draw).1 = some registration ∧
      directory.registration? registration.id = some registration := by
  have bound := place_lt (wellFormed.inhabited id entry held) draw
  have member : entry.members[entry.place draw] ∈ entry.members := List.getElem_mem bound
  obtain ⟨registration, live, _⟩ := (wellFormed.toConsistent.mem_members held).mp member
  have same := wellFormed.registrationId _ registration live
  refine ⟨registration, ?_, same.symm ▸ live⟩
  simp [select, Entry.pick?, List.getElem?_eq_getElem bound, live]

end CallRouter.Registration.Directory
