import CallRouter.Proofs.Router.Attendance
import CallRouter.Proofs.Server.Writing

namespace CallRouter

open Router (Attendance Ending Hosts inbox)

namespace Router.Attendance

variable {attendance : Attendance} {id : Nat}

def queued (attendance : Attendance) (id : Nat) : List Message :=
  inbox id (Effect.messages attendance.router.effects) ++ attendance.ending.farewell

theorem inbox_answered (hosts : attendance.router.Hosts id) :
    inbox id (Effect.messages (attendance.answered id).effects) = attendance.queued id := by
  have farewell : Effect.messages (attendance.ending.farewell.map (.send id · none)) =
      attendance.ending.farewell.map (id, ·) := by
    rw [← messages_map_send (attendance.ending.farewell.map (id, ·)), List.map_map]
    rfl
  rw [hosts.answered.2, Effect.messages_append, farewell, inbox_append, inbox_map, if_pos rfl,
    queued]

theorem answered_of_waiting (waits : attendance.ending = .waiting) :
    attendance.answered id = attendance.router := by
  rw [answered, waits]

theorem queued_ahead {first : Attendance} (waits : first.ending = .waiting) (next : Attendance)
    (handled : Nat) (id : Nat) :
    ({ next.ahead first.router.effects with handled } : Attendance).queued id =
      first.queued id ++ next.queued id := by
  have sent : (next.router.ahead first.router.effects).effects =
      first.router.effects ++ next.router.effects := rfl
  simp only [queued, Attendance.ahead, sent, waits, Ending.farewell, Effect.messages_append,
    inbox_append, List.append_nil, List.append_assoc]

end Router.Attendance

namespace Server

def serve (server : Server) (draws : Nat → Nat) (id : Nat) (chunks : List (Time × Wire.Bytes)) :
    Server :=
  chunks.foldl (fun server (now, bytes) =>
    server.receive now (fun k => draws (server.totals.messages + k)) id bytes) server

variable {server : Server} {id : Nat} {connection : Connection} {now : Time}

structure Holds (server : Server) (id : Nat) (connection : Connection) : Prop where
  connections : server.connections = .only id connection
  hosts : server.router.Hosts id
  quiet : server.router.effects = []

structure Vacant (server : Server) (id : Nat) : Prop where
  connections : server.connections = .empty
  sessions : ∀ other, server.router.sessions.find? other = none
  registrations : server.router.dealer.directory.ownedBy id = []
  quiet : server.router.effects = []

theorem vacant_release (hosts : server.router.Hosts id) (errors : Nat) :
    (server.release id errors).Vacant id := by
  obtain ⟨sessions, registrations⟩ := hosts.forget
  exact ⟨rfl, sessions, registrations, rfl⟩

theorem Vacant.drop (vacant : server.Vacant id) (now : Time) : server.drop now id = server := by
  rw [Server.drop, finish_vacant vacant.connections, clear, ← vacant.quiet]

theorem Vacant.serve (vacant : server.Vacant id) (draws : Nat → Nat)
    (chunks : List (Time × Wire.Bytes)) : server.serve draws id chunks = server := by
  induction chunks with
  | nil => rfl
  | cons chunk chunks ih =>
    obtain ⟨now, bytes⟩ := chunk
    have ignored : server.receive now (fun k => draws (server.totals.messages + k)) id bytes =
        server := by
      rw [receive, vacant.connections]
      rfl
    rw [Server.serve, List.foldl_cons]
    dsimp only
    rw [ignored]
    exact ih

section Serving

variable (server id now) in
def taken (attendance : Attendance) (reader : Wire.Reader) : Server :=
  { server with
    router := attendance.answered id
    totals := { server.totals with messages := server.totals.messages + attendance.handled }
    connections := .only id ⟨reader, now⟩ }

theorem receive_eq_finish (single : server.connections = .only id connection) (now : Time)
    (draws : Nat → Nat) (bytes : Wire.Bytes) :
    let drained := (connection.reader.extend bytes).drain
    let attendance := server.router.attend draws id (drained.1.map (now, ·))
    ∃ reader, (attendance.ending = .waiting → reader = drained.2) ∧
      server.receive now draws id bytes =
        (server.taken id now attendance reader).finish now
          (if attendance.ending = .closed then [id] else [])
          (attendance.ending.farewell.map fun _ => id) := by
  intro drained attendance
  obtain ⟨answered, counted, ending, rest⟩ :=
    Router.receive_attend server.router now draws id (connection.reader.extend bytes)
  unfold receive
  rw [find?_of_single single]
  cases received : server.router.receive now draws id (connection.reader.extend bytes) with
  | mk receptions left =>
    obtain ⟨reader, router⟩ := left
    rw [received] at answered counted ending rest
    refine ⟨reader, rest, ?_⟩
    change router = attendance.answered id at answered
    change _ = attendance.handled at counted
    change _ = attendance.ending at ending
    rw [taken, ← ending, ← answered, ← counted]
    dsimp only
    rw [single, Keyed.insert_only, received]
    dsimp only
    rcases receptions.getLast? with _ | (_ | _) | error <;> rfl

theorem finish_cases {ending broken : List Nat} (now : Time)
    (single : server.connections = .only id connection) (hosts : server.router.Hosts id)
    (own : ∀ other ∈ ending ++ broken, other = id) :
    (ending = [] ∧ ∃ connection, (server.finish now ending broken).Holds id connection) ∨
      (server.finish now ending broken).Vacant id := by
  obtain ⟨failed, written, active, few, flushed⟩ := flush_single single now
  have failedOwn : ∀ other ∈ failed, other = id := by
    rcases few with rfl | rfl <;> simp
  have finished := finish_single single flushed rfl fun other member => by
    rw [← List.append_assoc, List.mem_append] at member
    exact member.elim (own other) (failedOwn other)
  rw [finished]
  by_cases stays : ending ++ (broken ++ failed) = []
  · rw [if_pos stays]
    exact .inl ⟨(List.append_eq_nil_iff.mp stays).1, _, rfl, hosts.cleared, rfl⟩
  · rw [if_neg stays]
    have left : { server.clear with
      written, connections := .only id { connection with active } }.router.Hosts id := hosts.cleared
    exact .inr (vacant_release left _)

theorem own_of_ending (ending : Ending) (id : Nat) :
    ∀ other ∈ (if ending = .closed then [id] else []) ++ ending.farewell.map fun _ => id,
      other = id := by
  cases ending <;> simp [Ending.farewell]

theorem Holds.receive (holds : server.Holds id connection) (now : Time) (draws : Nat → Nat)
    (bytes : Wire.Bytes) :
    (∃ connection, (server.receive now draws id bytes).Holds id connection) ∨
      (server.receive now draws id bytes).Vacant id := by
  obtain ⟨reader, -, finished⟩ := receive_eq_finish holds.connections now draws bytes
  rw [finished]
  exact (finish_cases now rfl (holds.hosts.attend draws _).answered.1
    (own_of_ending _ id)).imp_left And.right

theorem Holds.drop (holds : server.Holds id connection) (now : Time) :
    (server.drop now id).Vacant id :=
  (finish_cases now holds.connections holds.hosts (by simp)).resolve_left
    fun stays => nomatch stays.1

theorem Holds.serve_drop (holds : server.Holds id connection) (draws : Nat → Nat)
    (chunks : List (Time × Wire.Bytes)) (last : Time) :
    ((server.serve draws id chunks).drop last id).Vacant id := by
  induction chunks generalizing server connection with
  | nil => exact holds.drop last
  | cons chunk chunks ih =>
    obtain ⟨now, bytes⟩ := chunk
    rcases holds.receive now (fun k => draws (server.totals.messages + k)) bytes with
      ⟨next, still⟩ | vacant
    · exact ih still
    · have rest := vacant.serve draws chunks
      rw [serve, List.foldl_cons, ← serve]
      dsimp only
      rw [rest, vacant.drop]
      exact vacant

def served (server : Server) (id : Nat) (attendance : Attendance) (pieces : List Wire.Bytes) :
    Server :=
  { server with
    router := { attendance.answered id with effects := [] }
    totals := { server.totals with messages := server.totals.messages + attendance.handled }
    written := server.written ++ pieces.map (id, ·) }

theorem Holds.receive_of_encodes (holds : server.Holds id connection) (now : Time)
    (draws : Nat → Nat) (bytes : Wire.Bytes) {pieces : List Wire.Bytes} :
    let drained := (connection.reader.extend bytes).drain
    let attendance := server.router.attend draws id (drained.1.map (now, ·))
    (attendance.queued id).mapM server.mode.encode = .ok pieces →
      server.receive now draws id bytes =
        if attendance.ending = .waiting then
          { server.served id attendance pieces with connections := .only id ⟨drained.2, now⟩ }
        else (server.served id attendance pieces).release id attendance.ending.farewell.length := by
  intro drained attendance encodes
  obtain ⟨reader, rest, finished⟩ := receive_eq_finish holds.connections now draws bytes
  change attendance.ending = .waiting → reader = drained.2 at rest
  change _ = (server.taken id now attendance reader).finish now _ _ at finished
  have hosts : attendance.router.Hosts id := holds.hosts.attend draws _
  rw [← Attendance.inbox_answered hosts] at encodes
  have single : (server.taken id now attendance reader).connections = .only id ⟨reader, now⟩ := rfl
  have flushed := flush_of_encodes single encodes
  have own := own_of_ending attendance.ending id
  rw [← List.append_nil (attendance.ending.farewell.map _)] at own
  rw [finished, finish_single single flushed rfl own]
  cases ending : attendance.ending with
  | waiting =>
    rw [rest ending]
    rfl
  | closed => rfl
  | broken error => rfl

theorem release_served_served (server : Server) (connections : Keyed Nat Connection) (id : Nat)
    (first next : Attendance) (pieces more : List Wire.Bytes) :
    (({ server.served id first pieces with connections }).served id next more).release id
        next.ending.farewell.length =
      (server.served id
        { next.ahead first.router.effects with handled := first.handled + next.handled }
        (pieces ++ more)).release id next.ending.farewell.length := by
  have answered : ({ next.ahead first.router.effects with
      handled := first.handled + next.handled } : Attendance).answered id =
        (next.answered id).ahead first.router.effects :=
    next.answered_ahead first.router.effects id
  simp only [release, served, answered, List.map_append, List.append_assoc, Nat.add_assoc]
  rfl

theorem Holds.serve_drop_of_encodes (holds : server.Holds id connection) (draws : Nat → Nat)
    (chunks : List (Time × Wire.Bytes)) (last : Time) {attendance : Attendance}
    {pieces : List Wire.Bytes}
    (attended : server.router.attend (fun k => draws (server.totals.messages + k)) id
      (connection.reader.arrivals chunks) = attendance)
    (encodes : (attendance.queued id).mapM server.mode.encode = .ok pieces) :
    (server.serve draws id chunks).drop last id =
      (server.served id attendance pieces).release id attendance.ending.farewell.length := by
  induction chunks generalizing server connection attendance pieces with
  | nil =>
    subst attended
    have flushed : server.flush last = ([], server.clear) := by
      rw [flush_eq, holds.quiet]
      rfl
    have queued : ({ router := server.router : Attendance }).queued id = [] := by
      rw [Attendance.queued, holds.quiet]
      rfl
    rw [Wire.Reader.arrivals, Router.attend] at encodes ⊢
    rw [queued] at encodes
    obtain rfl : [] = pieces := Except.ok.inj encodes
    change server.finish last [id] [] = _
    rw [finish_single holds.connections flushed holds.connections (by simp), if_neg (by simp)]
    have written : server.written = server.written ++ [].map (id, ·) := (List.append_nil _).symm
    rw [served, ← written]
    rfl
  | cons chunk chunks ih =>
    obtain ⟨now, bytes⟩ := chunk
    let numbers (k : Nat) := draws (server.totals.messages + k)
    let drained := (connection.reader.extend bytes).drain
    let first := server.router.attend numbers id (drained.1.map (now, ·))
    let rest := if drained.1.all Except.isOk then drained.2.arrivals chunks else []
    change server.router.attend numbers id (drained.1.map (now, ·) ++ rest) = _ at attended
    change ((server.receive now numbers id bytes).serve draws id chunks).drop last id = _
    have hosts : first.router.Hosts id := holds.hosts.attend _ _
    -- What the session is sent for this chunk is written before the next comes in, so the effects
    -- of the chunks before are not there when the next is handled.
    by_cases waits : first.ending = .waiting
    · obtain ⟨-, fine, -⟩ := Router.attend_append waits []
      have goesOn : rest = drained.2.arrivals chunks :=
        if_pos (by simpa [Function.comp_def] using fine)
      rw [goesOn, Router.attend_resume waits] at attended
      subst attended
      rw [Attendance.queued_ahead waits] at encodes
      obtain ⟨before, after, own, others, rfl⟩ := mapM_append_eq_ok encodes
      rw [holds.receive_of_encodes now numbers bytes own, if_pos waits]
      let later : Server :=
        { server.served id first before with connections := .only id ⟨drained.2, now⟩ }
      have still : later.Holds id ⟨drained.2, now⟩ := ⟨rfl, hosts.answered.1.cleared, rfl⟩
      have resumed : later.router.attend (fun k => draws (later.totals.messages + k)) id
            (drained.2.arrivals chunks) =
          { first.router with effects := [] }.attend (fun k => numbers (first.handled + k)) id
            (drained.2.arrivals chunks) := by
        simp only [later, served, Attendance.answered_of_waiting waits, Nat.add_assoc, numbers]
      exact (ih still resumed others).trans (release_served_served ..)
    · rw [Router.attend_ended waits rest] at attended
      subst attended
      rw [holds.receive_of_encodes now _ bytes encodes, if_neg waits]
      have left : (server.served id first pieces).router.Hosts id := hosts.answered.1.cleared
      have vacant := vacant_release left first.ending.farewell.length
      rw [vacant.serve, vacant.drop]

theorem connect?_eq_some {opened : Server} {start : Time}
    (vacant : server.connections = .empty) (accepted : server.connect? start id = some opened) :
    opened =
      { server with
        totals := { server.totals with connections := server.totals.connections + 1 }
        router := (server.router.openSession id).measure fun metrics =>
          (metrics.increment .connections "").increment .connectionsActive ""
        connections := .only id ⟨{ mode := server.mode }, start⟩ } := by
  unfold connect? at accepted
  split at accepted
  · cases accepted
  · rw [vacant] at accepted
    exact (Option.some.inj accepted).symm

theorem holds_of_connect? {opened : Server} {start : Time} (vacant : server.connections = .empty)
    (fresh : server.router.sessions = .empty) (quiet : server.router.effects = [])
    (resting : server.router.dealer.effects = []) (linked : server.router.dealer.Linked)
    (valid : isValidId id = true) (accepted : server.connect? start id = some opened) :
    opened.Holds id ⟨{ mode := server.mode }, start⟩ := by
  have known (other : Nat) : opened.router.sessions.find? other =
      if id = other then some {} else none := by
    rw [connect?_eq_some vacant accepted]
    change (server.router.sessions.insert id {}).find? other = _
    rw [Keyed.find?_insert, fresh]
    rfl
  have settled : opened.router.Settled := by
    refine ⟨?_, fun other session found => ?_⟩
    · rw [connect?_eq_some vacant accepted]
      exact resting
    · rw [known] at found
      split at found
      · subst_vars
        exact valid
      · cases found
  rw [connect?_eq_some vacant accepted] at known settled ⊢
  refine ⟨rfl, ⟨settled, linked, ⟨{}, ?_⟩, fun other apart => ?_⟩, quiet⟩
  · rw [known, if_pos rfl]
  · rw [known, if_neg (Ne.symm apart)]

/--
A connection that is the only one is served as its session would be if the values read from the
stream of its bytes were handled one after the other, up to those that are answered by closing or to
an error. If all messages for the session can be encoded, then their bytes are written, with those
of the farewell after an error, and nothing else; and what arrives after the end has no effect. When
the other side has closed the connection, nothing of the session is left.
-/
theorem serves_only_connection {server opened : Server} {start : Time} {id : Nat}
    (vacant : server.connections = .empty) (fresh : server.router.sessions = .empty)
    (quiet : server.router.effects = []) (resting : server.router.dealer.effects = [])
    (linked : server.router.dealer.Linked) (valid : isValidId id = true)
    (accepted : server.connect? start id = some opened) (draws : Nat → Nat)
    (chunks : List (Time × Wire.Bytes)) (last : Time) :
    let reader : Wire.Reader := { mode := server.mode }
    let arrivals := reader.arrivals chunks
    let attendance :=
      opened.router.attend (fun k => draws (server.totals.messages + k)) id arrivals
    let queued := inbox id (Effect.messages attendance.router.effects) ++ attendance.ending.farewell
    let final := (opened.serve draws id chunks).drop last id
    arrivals.map (·.2) = (reader.extend (chunks.map (·.2)).flatten).drain.1 ∧
    (∀ pieces, queued.mapM server.mode.encode = .ok pieces →
      final.written = server.written ++ pieces.map (id, ·) ∧
      (attendance.ending ≠ .waiting → ∀ (before : List (Time × Wire.Bytes)) (now : Time)
        (bytes : Wire.Bytes), chunks = before ++ [(now, bytes)] →
          ∀ (more : Wire.Bytes) (after : List (Time × Wire.Bytes)) (later : Time),
            (opened.serve draws id (before ++ (now, bytes ++ more) :: after)).drop later id =
              final)) ∧
    final.connections = .empty ∧ (∀ other, final.router.sessions.find? other = none) ∧
      final.router.dealer.directory.ownedBy id = [] := by
  intro reader arrivals attendance queued final
  have holds := holds_of_connect? vacant fresh quiet resting linked valid accepted
  have opening := connect?_eq_some vacant accepted
  have same : opened.mode = server.mode ∧ opened.totals.messages = server.totals.messages ∧
      opened.written = server.written := by
    rw [opening]
    exact ⟨rfl, rfl, rfl⟩
  obtain ⟨mode, messages, written⟩ := same
  refine ⟨?_, fun pieces encodes => ?_, ?_⟩
  · rw [Wire.Reader.arrivals_results, Wire.Reader.receive_eq (Wire.Reader.waits_empty server.mode)]
  · rw [← mode] at encodes
    have ends (stream : List (Time × Wire.Bytes)) (last : Time)
        (same : opened.router.attend (fun k => draws (server.totals.messages + k)) id
          (reader.arrivals stream) = attendance) :
        (opened.serve draws id stream).drop last id =
          (opened.served id attendance pieces).release id attendance.ending.farewell.length := by
      rw [← messages] at same
      exact holds.serve_drop_of_encodes draws stream last same encodes
    have served : final = _ := ends chunks last rfl
    refine ⟨?_, fun ended before now bytes cut more after later => ?_⟩
    · rw [served, ← written]
      rfl
    · obtain ⟨extra, longer⟩ := reader.arrivals_prefix before now bytes more after
      rw [served]
      apply ends
      rw [← longer, ← cut]
      exact Router.attend_ended ended extra
  · have gone := holds.serve_drop draws chunks last
    exact ⟨gone.connections, gone.sessions, gone.registrations⟩

theorem serves_only_connection_of_garbage :
    let line (raw : List Json) := Wire.utf8 ((Json.list raw).compact ++ "\n")
    let stream :=
      line [.ofNat 1, .text "realm1", .dict [("roles", .dict [("callee", .dict [])])]] ++
      line [.ofNat 64, .ofNat 1, .dict [], .text "sum"] ++ Wire.utf8 "no list\n" ++
      line [.ofNat 64, .ofNat 2, .dict [], .text "product"]
    let chunks := [(0, stream.take 60), (1, stream.drop 60)]
    let draws (_ : Nat) := 0
    ∃ opened, connect? { mode := .lines } 0 1 = some opened ∧
      let arrivals := Wire.Reader.arrivals { mode := .lines } chunks
      let attendance := opened.router.attend draws 1 arrivals
      let queued :=
        inbox 1 (Effect.messages attendance.router.effects) ++ attendance.ending.farewell
      let final := (opened.serve draws 1 chunks).drop 2 1
      attendance.ending = .broken .json ∧
      queued.map (·.kind) = [.welcome, .registered, .abort] ∧
      (∃ pieces, queued.mapM Wire.Mode.lines.encode = .ok pieces ∧
        final.written = pieces.map (1, ·)) ∧
      final.router.dealer.directory.ownedBy 1 = [] := by
  intro line stream chunks draws
  refine ⟨_, rfl, ?_⟩
  intro arrivals attendance queued final
  have linked : (default : Dealer).Linked := Dealer.linked_initial {}
  obtain ⟨-, written, -, -, left⟩ := @serves_only_connection { mode := .lines } _ 0 1 rfl rfl rfl
    rfl linked (by decide) rfl draws chunks 2
  have encodes : (queued.mapM Wire.Mode.lines.encode).isOk = true := by decide +kernel
  obtain ⟨pieces, encoded⟩ : ∃ pieces, queued.mapM Wire.Mode.lines.encode = .ok pieces := by
    cases all : queued.mapM Wire.Mode.lines.encode with
    | error error =>
      rw [all] at encodes
      cases encodes
    | ok pieces => exact ⟨pieces, rfl⟩
  exact ⟨by decide +kernel, by decide +kernel, ⟨pieces, encoded, (written pieces encoded).1⟩, left⟩

end Serving

end Server

end CallRouter
