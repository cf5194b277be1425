import CallRouter.Proofs.Registration.Rotation

namespace CallRouter.Registration.Directory

variable {directory first last : Directory} {id : Nat} {entry : Entry} {stays : Entry → Prop}
  {picks : List Nat}

/--
Requests one after the other under which an entry stays as it is said to, and the registrations of
the entry that they select.
-/
inductive Segment (id : Nat) (stays : Entry → Prop) : Directory → List Nat → Directory → Prop
  | start {directory : Directory} (stayed : ∃ entry ∈ directory.entry? id, stays entry) :
      Segment id stays directory [] directory
  | next {first directory : Directory} {picks : List Nat}
      (segment : Segment id stays first picks directory) (request : Request)
      (ends : directory.Ends request) (current : directory.Current request)
      (stayed : ∃ entry ∈ entry? (directory.apply request) id, stays entry) :
      Segment id stays first (picks ++ directory.picked id request) (directory.apply request)

def next? (directory : Directory) (id draw : Nat) : Option Nat :=
  directory.entry? id >>= fun entry => (directory.select entry draw).1.map (·.id)

namespace Segment

theorem induct (segment : Segment id stays first picks last) (wellFormed : first.WellFormed)
    (live : first.entry? id = some entry) (turn : entry.invoke = .roundRobin)
    (holds : List Nat → Entry → Prop) (start : holds [] entry)
    (step : ∀ {picks picked before after}, stays before → stays after → before.members.Nodup →
      Turned before after picked → holds picks before → holds (picks ++ picked) after) :
    last.WellFormed ∧ ∃ now, last.entry? id = some now ∧ stays now ∧ now.invoke = .roundRobin ∧
      holds picks now := by
  induction segment with
  | start stayed =>
    obtain ⟨also, held, same⟩ := stayed
    obtain rfl := Option.some.inj (live.symm.trans held)
    exact ⟨wellFormed, entry, live, same, turn, start⟩
  | next segment request ends current stayed ih =>
    obtain ⟨after, found, same⟩ := stayed
    obtain ⟨wellFormed, before, held, stayed, turn, holding⟩ := ih
    obtain ⟨turn, turned⟩ := turned_apply wellFormed ends current held turn found
    have distinct := wellFormed.toConsistent.nodup_members held
    exact ⟨wellFormed_apply wellFormed request ends, _, found, same, turn,
      step stayed same distinct turned holding⟩

end Segment

theorem isChain_concat {items rest : List Nat} {front : Nat}
    (chain : (items ++ front :: rest).IsChain (· ≠ ·)) (some : rest ≠ []) (absent : front ∉ rest) :
    (items ++ front :: rest ++ [front]).IsChain (· ≠ ·) := by
  rw [List.isChain_append]
  refine ⟨chain, .singleton front, ?_⟩
  intro final last also same
  obtain rfl := Option.some.inj same
  obtain ⟨former, latter, rfl⟩ := (List.eq_nil_or_concat' rest).resolve_left some
  rw [← List.cons_append, ← List.append_assoc, Option.mem_def, List.getLast?_concat] at last
  obtain rfl := Option.some.inj last
  rintro rfl
  exact absent List.mem_concat_self

variable {x y : Nat}

def isEither (x y one : Nat) : Bool := one == x || one == y

/-- Of the last selections and the queue, those that are one of two are so by turns. -/
def Alternating (x y : Nat) (picks : List Nat) (entry : Entry) : Prop :=
  ((picks ++ entry.queue).filter (isEither x y)).IsChain (· ≠ ·)

theorem alternating_turned {before after : Entry} {picked : List Nat} (apart : x ≠ y)
    (stayed : x ∈ before.members ∧ y ∈ before.members)
    (stays : x ∈ after.members ∧ y ∈ after.members) (distinct : before.members.Nodup)
    (turned : Turned before after picked) (alternating : Alternating x y picks before) :
    Alternating x y (picks ++ picked) after := by
  cases turned with
  | kept ordered =>
    rw [Alternating, List.append_nil, List.filter_append, ordered, ← List.filter_append]
    · exact alternating
    · intro one either
      rw [isEither, Bool.or_eq_true, beq_iff_eq, beq_iff_eq] at either
      rcases either with rfl | rfl
      · exact ⟨stayed.1, stays.1⟩
      · exact ⟨stayed.2, stays.2⟩
  | @passed front rest queue turned =>
    have queued : x ∈ front :: rest ∧ y ∈ front :: rest := by
      rwa [← queue, Entry.mem_queue, Entry.mem_queue]
    have absent : front ∉ rest := by
      have sole := Entry.nodup_queue distinct
      rw [queue] at sole
      exact (List.nodup_cons.mp sole).1
    rw [Alternating, queue] at alternating
    rw [Alternating, turned]
    cases either : isEither x y front with
    | false =>
      simpa [List.filter_append, List.filter_cons, either] using alternating
    | true =>
      simp only [List.filter_append, List.filter_cons, either, if_true, List.filter_nil]
        at alternating ⊢
      rw [List.append_assoc, List.singleton_append, ← List.cons_append, ← List.append_assoc]
      apply isChain_concat alternating
      · -- The other one of the two is still in the queue.
        rw [isEither, Bool.or_eq_true, beq_iff_eq, beq_iff_eq] at either
        rcases either with rfl | rfl
        · have other := (List.mem_cons.mp queued.2).resolve_left apart.symm
          exact List.ne_nil_of_mem (List.mem_filter.mpr ⟨other, by simp [isEither]⟩)
        · have other := (List.mem_cons.mp queued.1).resolve_left apart
          exact List.ne_nil_of_mem (List.mem_filter.mpr ⟨other, by simp [isEither]⟩)
      · exact fun member => absent (List.mem_filter.mp member).1

theorem count_of_alternating (apart : x ≠ y) (alternating : Alternating x y picks entry)
    {before between after : List Nat} (selected : picks = before ++ x :: (between ++ x :: after))
    (absent : x ∉ between) : between.count y = 1 := by
  have others : between.filter (isEither x y) = List.replicate (between.count y) y := by
    rw [← List.filter_beq]
    apply List.filter_congr
    intro one member
    have other : one ≠ x := by
      rintro rfl
      exact absent member
    simp [isEither, other]
  rw [Alternating, List.filter_append] at alternating
  have chain := (List.isChain_append.mp alternating).1
  rw [selected, List.filter_append, List.filter_cons_of_pos (by simp [isEither]),
    List.filter_append, List.filter_cons_of_pos (by simp [isEither]), others] at chain
  have middle := (List.isChain_append.mp chain).2.1
  cases count : between.count y with
  | zero =>
    rw [count, List.replicate_zero, List.nil_append, List.isChain_cons_cons] at middle
    exact absurd rfl middle.1
  | succ more =>
    cases more with
    | zero => rfl
    | succ more =>
      rw [count, List.replicate_succ, List.replicate_succ, List.cons_append, List.cons_append,
        List.isChain_cons_cons, List.isChain_cons_cons] at middle
      exact absurd rfl middle.2.1

theorem rotated_turned {before after : Entry} {picked queue : List Nat}
    (same : after.members = before.members) (turned : Turned before after picked)
    (rotated : queue ++ picks = picks ++ before.queue) :
    queue ++ (picks ++ picked) = picks ++ picked ++ after.queue := by
  cases turned with
  | kept ordered =>
    have unmoved := ordered (fun one => one ∈ before.members) (by simp [same])
    rw [List.filter_eq_self.mpr, List.filter_eq_self.mpr] at unmoved
    · rw [List.append_nil, unmoved, rotated]
    · simp [Entry.mem_queue]
    · simp [Entry.mem_queue, same]
  | @passed front rest first turned =>
    rw [first] at rotated
    rw [turned, ← List.append_assoc, rotated]
    simp

section Next

variable {directory : Directory} (wellFormed : directory.WellFormed)
  (live : directory.entry? id = some entry) (turn : entry.invoke = .roundRobin)

include wellFormed live turn

theorem next_of_live (draw : Nat) : directory.next? id draw = entry.queue.head? := by
  rw [next?, live, Option.bind_eq_bind, Option.bind_some, select_of_turn wellFormed live turn]

theorem next_unregisterAll (ids : List Nat) (draw : Nat) :
    (unregisterAll ids directory).2.next? id draw = entry.queue.find? fun one => one ∉ ids := by
  have later := wellFormed_unregisterAll wellFormed ids
  cases found : entry? (unregisterAll ids directory).2 id with
  | none =>
    rw [next?, found, eq_comm]
    change _ = none
    rw [List.find?_eq_none]
    intro one queued left
    rw [decide_eq_true_eq] at left
    obtain ⟨registration, registered, points⟩ :=
      (wellFormed.toConsistent.mem_members live).mp (Entry.mem_queue.mp queued)
    have stays := (registration_unregisterAll ids).mpr ⟨left, registered⟩
    obtain ⟨holder, held, -⟩ := later.pointers one registration stays
    rw [points, found] at held
    cases held
  | some after =>
    obtain ⟨before, held, invoke, queue⟩ := queue_unregisterAll wellFormed ids found
    obtain rfl := Option.some.inj (live.symm.trans held)
    rw [next_of_live later found (invoke.trans turn), queue, List.head?_filter]

theorem next_unregister (removed draw : Nat) :
    (directory.apply (.unregister removed)).next? id draw =
      entry.queue.find? fun one => one ≠ removed := by
  have alone : directory.apply (.unregister removed) = (unregisterAll [removed] directory).2 := by
    simp only [apply, unregisterAll]
    cases directory.unregister removed <;> rfl
  rw [alone, next_unregisterAll wellFormed live turn]
  simp only [List.mem_singleton, ne_eq]

end Next

theorem queue_of_head (bound : entry.cursor ≤ entry.members.length)
    (distinct : entry.members.Nodup) {first : Nat} {before after : List Nat}
    (members : entry.members = before ++ first :: after) (head : entry.queue.head? = some first) :
    entry.queue = first :: (after ++ before) := by
  obtain ⟨former, latter, whole, cursor⟩ := Entry.exists_turn bound
  have queue : entry.queue = latter ++ former := by
    rw [Entry.queue, whole, cursor, List.rotate_append_length_eq]
  have sole := members ▸ distinct
  rw [List.nodup_middle, List.nodup_cons, List.mem_append, not_or] at sole
  obtain ⟨⟨early, late⟩, -⟩ := sole
  rw [members] at whole
  rw [queue] at head ⊢
  cases latter with
  | nil =>
    obtain ⟨rest, rfl⟩ := List.head?_eq_some_iff.mp head
    have same : before ++ first :: after = [] ++ first :: rest := by rw [whole, List.append_nil]; rfl
    obtain ⟨rfl, -, rfl⟩ := (List.append_cons_inj_of_notMem early late).mp same
    rw [List.nil_append, List.append_nil]
  | cons front rest =>
    obtain rfl := Option.some.inj head
    obtain ⟨rfl, -, rfl⟩ := (List.append_cons_inj_of_notMem early late).mp whole
    rfl

/--
However the directory came about, a registration that stays is selected once between two selections
of another one that does, and while the members stay the same each is selected once, in the order in
which they were made, before any is again. If one is taken out whose turn it is, the turn goes to
the one that was registered after it, and to the first one after the last; to take out another one
leaves the turn where it is.
-/
theorem turns_are_fair {directory : Directory} (reachable : Reachable directory)
    (live : directory.entry? id = some entry) (turn : entry.invoke = .roundRobin) :
    (∀ x y, x ≠ y → ∀ picks last,
      Segment id (fun now => x ∈ now.members ∧ y ∈ now.members) directory picks last →
        ∀ before between after, picks = before ++ x :: (between ++ x :: after) → x ∉ between →
          between.count y = 1) ∧
    (∀ picks last, Segment id (fun now => now.members = entry.members) directory picks last →
      picks.length = entry.members.length → picks.IsRotated entry.members ∧ picks.Nodup) ∧
    ∀ draw, ∃ first ∈ entry.members, directory.next? id draw = some first ∧
      (∀ other, other ≠ first →
        (directory.apply (.unregister other)).next? id draw = some first) ∧
      ∀ before after, entry.members = before ++ first :: after →
        (directory.apply (.unregister first)).next? id draw = (after ++ before).head? := by
  have wellFormed := wellFormed_of_reachable reachable
  have distinct := wellFormed.toConsistent.nodup_members live
  have bound := wellFormed.cursor id entry live
  refine ⟨?_, ?_, ?_⟩
  · intro x y apart picks last segment before between after selected absent
    have start : Alternating x y [] entry :=
      List.Pairwise.isChain ((Entry.nodup_queue distinct).filter _)
    obtain ⟨-, now, -, -, -, alternating⟩ :=
      segment.induct wellFormed live turn (Alternating x y) start (alternating_turned apart)
    exact count_of_alternating apart alternating selected absent
  · intro picks last segment count
    obtain ⟨-, now, -, -, -, rotated⟩ := segment.induct wellFormed live turn
      (fun picks now => entry.queue ++ picks = picks ++ now.queue) (List.append_nil _)
      fun stayed stays _ turned rotated => rotated_turned (stays.trans stayed.symm) turned rotated
    have whole := List.append_inj_left rotated (by rw [count]; exact List.length_rotate _ _)
    rw [← whole]
    exact ⟨List.IsRotated.forall _ _, Entry.nodup_queue distinct⟩
  · intro draw
    obtain ⟨first, rest, queue⟩ := List.exists_cons_of_ne_nil (l := entry.queue) (by
      rw [Entry.queue, ne_eq, List.rotate_eq_nil_iff]
      exact wellFormed.inhabited id entry live)
    have head : entry.queue.head? = some first := by rw [queue]; rfl
    refine ⟨first, Entry.mem_queue.mp (queue ▸ List.mem_cons_self), ?_, ?_, ?_⟩
    · rw [next_of_live wellFormed live turn, head]
    · intro other apart
      rw [next_unregister wellFormed live turn, queue]
      exact List.find?_cons_of_pos (by simpa using apart.symm)
    · intro before after members
      have whole := queue_of_head bound distinct members head
      have others : ∀ one ∈ after ++ before, one ≠ first := by
        have sole := Entry.nodup_queue distinct
        rw [whole, List.nodup_cons] at sole
        rintro one member rfl
        exact sole.1 member
      rw [next_unregister wellFormed live turn, whole, ← List.head?_filter,
        List.filter_cons_of_neg (by simp), List.filter_eq_self.mpr]
      simpa using others

def shared : Directory :=
  [1, 2, 3].foldl (fun directory session =>
    directory.apply (.register 0 session ⟨.exact, "app.echo"⟩ .roundRobin [])) {}

def selection (members : List Nat) (cursor : Nat) : Request :=
  .select ⟨1, ⟨.exact, "app.echo"⟩, .roundRobin, 0, members, cursor⟩ 0

def churn : List Request :=
  [selection [2, 3, 4] 0, selection [2, 3, 4] 1,
    .register 0 4 ⟨.exact, "app.echo"⟩ .roundRobin [], .closeSession 2,
    selection [2, 4, 5] 1, selection [2, 4, 5] 2, selection [2, 4, 5] 0]

theorem turns_are_fair_under_churn :
    Segment 1 (fun now => 2 ∈ now.members ∧ 4 ∈ now.members) shared [2, 3, 4, 5, 2]
      (churn.foldl apply shared) ∧
    [3, 4, 5].count 4 = 1 ∧
    (shared.apply (.unregister 2)).next? 1 0 = some 3 := by
  have reachable : Reachable shared :=
    reachable_foldl ([1, 2, 3].map fun session =>
      .register 0 session ⟨.exact, "app.echo"⟩ .roundRobin []) (by decide)
  have live : shared.entry? 1 = some ⟨1, ⟨.exact, "app.echo"⟩, .roundRobin, 0, [2, 3, 4], 0⟩ := by
    decide +kernel
  obtain ⟨fair, -, following⟩ := turns_are_fair reachable live rfl
  have room : ((churn.take 2).foldl apply shared).HasRoom ⟨.exact, "app.echo"⟩ := by
    unfold HasRoom
    decide +kernel
  have joined : Segment 1 (fun now => 2 ∈ now.members ∧ 4 ∈ now.members) shared [2, 3]
      ((churn.take 3).foldl apply shared) :=
    .next (.next (.next (.start (by decide +kernel))
      churn[0] trivial (by rfl) (by decide +kernel))
      churn[1] trivial (by rfl) (by decide +kernel))
      churn[2] (fun _ => room) trivial (by decide +kernel)
  have segment : Segment 1 (fun now => 2 ∈ now.members ∧ 4 ∈ now.members) shared [2, 3, 4, 5, 2]
      (churn.foldl apply shared) :=
    .next (.next (.next (.next joined
      churn[3] trivial trivial (by decide +kernel))
      churn[4] trivial (by rfl) (by decide +kernel))
      churn[5] trivial (by rfl) (by decide +kernel))
      churn[6] trivial (by rfl) (by decide +kernel)
  refine ⟨segment, fair 2 4 (by decide) _ _ segment [] [3, 4, 5] [] rfl (by decide), ?_⟩
  obtain ⟨first, -, turn, -, after⟩ := following 0
  have two : shared.next? 1 0 = some 2 := by decide +kernel
  obtain rfl := Option.some.inj (two.symm.trans turn)
  exact after [] [3, 4] rfl

end CallRouter.Registration.Directory
