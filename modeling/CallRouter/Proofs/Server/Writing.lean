import CallRouter.Proofs.Router.Reactions
import CallRouter.Server

namespace CallRouter

open Router (inbox)

namespace Keyed

variable {κ ν : Type} [DecidableEq κ] (key : κ) (value : ν)

def only (key : κ) (value : ν) : Keyed κ ν := empty.insert key value

theorem find?_only (other : κ) :
    (only key value).find? other = if key = other then some value else none :=
  find?_insert empty key other value

theorem insert_only (next : ν) : (only key value).insert key next = only key next := by
  apply ext
  simp [only, insert, empty, put]

theorem erase_only : (only key value).erase key = empty := by
  apply ext
  simp [only, insert, empty, put, erase, filter]

end Keyed

theorem mapM_append_eq_ok {α β ε : Type} {f : α → Except ε β} {items more : List α} {all : List β}
    (done : (items ++ more).mapM f = .ok all) : ∃ first last, items.mapM f = .ok first ∧
      more.mapM f = .ok last ∧ all = first ++ last := by
  rw [List.mapM_append] at done
  cases ahead : items.mapM f with
  | error error => simp [ahead, bind, Except.bind] at done
  | ok first =>
    cases rest : more.mapM f with
    | error error => simp [ahead, rest, bind, Except.bind] at done
    | ok last =>
      simp only [ahead, rest, bind, Except.bind, pure, Except.pure, Except.ok.injEq] at done
      exact ⟨first, last, rfl, rfl, done.symm⟩

namespace Server

variable {server : Server} {id : Nat} {connection : Connection} {now : Time}

section Writing

def writeEffect (now : Time) : List Nat × Server → Effect → List Nat × Server
  | (broken, server), .publish _ => (broken, server)
  | (broken, server), .send id message _ =>
    if broken.contains id then (broken, server)
    else
      match server.write now id message with
      | .ok server => (broken, server)
      | .error _ => (broken ++ [id], server)

theorem flush_eq (server : Server) (now : Time) :
    server.flush now = server.router.effects.foldl (writeEffect now)
      ([], { server with router := { server.router with effects := [] } }) := by
  unfold flush
  congr 1
  funext state effect
  cases effect <;> rfl

theorem find?_of_single (single : server.connections = .only id connection) :
    server.connections.find? id = some connection := by
  rw [single, Keyed.find?_only, if_pos rfl]

theorem writeEffect_aside (single : server.connections = .only id connection) {effect : Effect}
    (aside : inbox id (Effect.messages [effect]) = []) (broken : List Nat) :
    writeEffect now (broken, server) effect = (broken, server) := by
  cases effect with
  | publish event => rfl
  | send other message about =>
    have apart : id ≠ other := by
      rintro rfl
      simp [inbox, Effect.messages, Effect.message?] at aside
    simp [writeEffect, write, single, Keyed.find?_only, apart]

theorem writeEffect_broken (single : server.connections = .only id connection) (effect : Effect) :
    writeEffect now ([id], server) effect = ([id], server) := by
  cases effect with
  | publish event => rfl
  | send other message about =>
    by_cases same : other = id
    · simp [writeEffect, same]
    · simp [writeEffect, write, single, Keyed.find?_only, Ne.symm same]

theorem writeEffect_send (single : server.connections = .only id connection) (message : Message)
    (about : Option Nat) : writeEffect now ([], server) (.send id message about) =
      match server.mode.encode message with
      | .error _ => ([id], server)
      | .ok bytes =>
        ([], { server with
          written := server.written ++ [(id, bytes)]
          connections := .only id { connection with active := now } }) := by
  have found := find?_of_single single
  simp only [writeEffect, write, found, List.contains_nil, Bool.false_eq_true, if_false]
  cases server.mode.encode message with
  | error error => rfl
  | ok bytes => simp only [Except.map, single, Keyed.insert_only]

theorem aside_or_send (id : Nat) (effect : Effect) :
    inbox id (Effect.messages [effect]) = [] ∨
      ∃ message about, effect = .send id message about := by
  cases effect with
  | publish event => exact .inl rfl
  | send other message about =>
    by_cases same : other = id
    · exact .inr ⟨message, about, by rw [same]⟩
    · exact .inl (by simp [inbox, Effect.messages, Effect.message?, same])

theorem inbox_cons (id : Nat) (effect : Effect) (effects : List Effect) :
    inbox id (Effect.messages (effect :: effects)) =
      inbox id (Effect.messages [effect]) ++ inbox id (Effect.messages effects) := by
  rw [← List.singleton_append, Effect.messages_append, Router.inbox_append]

theorem foldl_broken (single : server.connections = .only id connection) (effects : List Effect) :
    effects.foldl (writeEffect now) ([id], server) = ([id], server) := by
  induction effects with
  | nil => rfl
  | cons effect effects ih => rw [List.foldl_cons, writeEffect_broken single, ih]

theorem foldl_writeEffect (now : Time) (effects : List Effect)
    (single : server.connections = .only id connection) :
    ∃ broken written active, (broken = [] ∨ broken = [id]) ∧
      effects.foldl (writeEffect now) ([], server) =
        (broken, { server with written, connections := .only id { connection with active } }) := by
  have same {server : Server} {connection : Connection}
      (single : server.connections = .only id connection) : server =
      { server with written := server.written, connections := .only id connection } := by
    rw [← single]
  induction effects generalizing server connection with
  | nil => exact ⟨[], server.written, connection.active, .inl rfl, congrArg ([], ·) (same single)⟩
  | cons effect effects ih =>
    rw [List.foldl_cons]
    rcases aside_or_send id effect with aside | ⟨message, about, rfl⟩
    · rw [writeEffect_aside single aside]
      exact ih single
    · rw [writeEffect_send single]
      cases server.mode.encode message with
      | error error =>
        exact ⟨[id], server.written, connection.active, .inr rfl,
          (foldl_broken single effects).trans (congrArg ([id], ·) (same single))⟩
      | ok bytes =>
        have next : ({ server with
            written := server.written ++ [(id, bytes)]
            connections := .only id { connection with active := now } } : Server).connections =
          .only id { connection with active := now } := rfl
        have rest := ih next
        exact rest

theorem foldl_writeEffect_of_encodes {reader : Wire.Reader} {effects : List Effect}
    {pieces : List Wire.Bytes} (single : server.connections = .only id ⟨reader, now⟩)
    (encodes : (inbox id (Effect.messages effects)).mapM server.mode.encode = .ok pieces) :
    effects.foldl (writeEffect now) ([], server) =
      ([], { server with written := server.written ++ pieces.map (id, ·) }) := by
  induction effects generalizing server pieces with
  | nil =>
    cases encodes
    simp
  | cons effect effects ih =>
    rw [List.foldl_cons]
    rw [inbox_cons] at encodes
    rcases aside_or_send id effect with aside | ⟨message, about, rfl⟩
    · rw [writeEffect_aside single aside]
      rw [aside, List.nil_append] at encodes
      exact ih single encodes
    · have own : inbox id (Effect.messages [.send id message about]) = [message] := by
        simp [inbox, Effect.messages, Effect.message?]
      obtain ⟨first, rest, one, others, rfl⟩ := mapM_append_eq_ok encodes
      rw [own, List.mapM_cons, List.mapM_nil] at one
      rw [writeEffect_send single]
      cases encoded : server.mode.encode message with
      | error error => simp [encoded, bind, Except.bind] at one
      | ok bytes =>
        obtain rfl : [bytes] = first := by
          simpa [encoded, bind, Except.bind, pure, Except.pure] using one
        have next : ({ server with
            written := server.written ++ [(id, bytes)]
            connections := .only id ⟨reader, now⟩ } : Server).connections =
          .only id ⟨reader, now⟩ := rfl
        refine (ih next others).trans ?_
        simp [single]

def clear (server : Server) : Server :=
  { server with router := { server.router with effects := [] } }

theorem flush_single (single : server.connections = .only id connection) (now : Time) :
    ∃ broken written active, (broken = [] ∨ broken = [id]) ∧
      server.flush now = (broken, { server.clear with
        written, connections := .only id { connection with active } }) := by
  rw [flush_eq]
  have cleared : server.clear.connections = .only id connection := single
  exact foldl_writeEffect now server.router.effects cleared

theorem flush_of_encodes {reader : Wire.Reader} {pieces : List Wire.Bytes}
    (single : server.connections = .only id ⟨reader, now⟩)
    (encodes : (inbox id (Effect.messages server.router.effects)).mapM server.mode.encode =
      .ok pieces) :
    server.flush now =
      ([], { server.clear with written := server.written ++ pieces.map (id, ·) }) := by
  rw [flush_eq]
  have cleared : server.clear.connections = .only id ⟨reader, now⟩ := single
  exact foldl_writeEffect_of_encodes cleared encodes

theorem flush_vacant (vacant : server.connections = .empty) (now : Time) :
    server.flush now = ([], server.clear) := by
  have ignored (effect : Effect) :
      writeEffect now ([], server.clear) effect = ([], server.clear) := by
    have none (other : Nat) : server.clear.connections.find? other = none := by
      rw [clear, vacant]
      rfl
    cases effect <;> simp [writeEffect, write, none]
  rw [flush_eq]
  change server.router.effects.foldl (writeEffect now) ([], server.clear) = _
  induction server.router.effects with
  | nil => rfl
  | cons effect effects ih => rw [List.foldl_cons, ignored, ih]

end Writing

section Finishing

def release (server : Server) (id errors : Nat) : Server :=
  { server with
    router := { (server.router.forgetSession id).measure (·.decrement .connectionsActive "") with
      effects := [] }
    connections := .empty
    totals := { server.totals with errors := server.totals.errors + errors } }

theorem eraseDups_of_own {ids : List Nat} (own : ∀ other ∈ ids, other = id) :
    ids.eraseDups = if ids = [] then [] else [id] := by
  cases ids with
  | nil => rfl
  | cons first others =>
    obtain rfl := own first List.mem_cons_self
    have none : others.filter (fun other => !other == first) = [] := by
      simpa using fun other member => own other (List.mem_cons_of_mem _ member)
    rw [List.eraseDups_cons, none]
    rfl

theorem finish_single {ending broken failed : List Nat} {later : Server} {left : Connection}
    (single : server.connections = .only id connection)
    (flushed : server.flush now = (failed, later)) (kept : later.connections = .only id left)
    (own : ∀ other ∈ ending ++ (broken ++ failed), other = id) :
    server.finish now ending broken =
      if ending ++ (broken ++ failed) = [] then later
      else later.release id (if broken ++ failed = [] then 0 else 1) := by
  have size : server.connections.size = 1 := by
    rw [single]
    rfl
  have failing := eraseDups_of_own fun other member => own other (List.mem_append_right _ member)
  have gone : (ending ++ (broken ++ failed).eraseDups).eraseDups =
      if ending ++ (broken ++ failed) = [] then [] else [id] := by
    have all : ∀ other ∈ ending ++ (broken ++ failed).eraseDups, other = id := by
      intro other member
      apply own
      simpa [List.mem_eraseDups] using member
    have none : ending ++ (broken ++ failed).eraseDups = [] ↔
        ending ++ (broken ++ failed) = [] := by
      rw [failing]
      by_cases unbroken : broken ++ failed = [] <;> simp [unbroken]
    rw [eraseDups_of_own all]
    simp only [none]
  rw [finish, size, settle, flushed]
  dsimp only
  rw [gone]
  by_cases stays : ending ++ (broken ++ failed) = []
  · simp only [if_pos stays]
  · have present : later.connections.contains id = true := by
      simp [Keyed.contains, find?_of_single kept]
    have alone : later.connections.erase id = .empty := by rw [kept, Keyed.erase_only]
    simp only [if_neg stays, List.foldl_cons, List.foldl_nil]
    -- in the last round the connection has gone, so that what its session leaves behind for others
    -- is not written
    rw [disconnect, if_pos present, settle, flush_vacant alone, failing]
    by_cases unbroken : broken ++ failed = [] <;> simp [release, clear, alone, unbroken]

theorem finish_vacant (vacant : server.connections = .empty) (now : Time) (id : Nat) :
    server.finish now [id] [] = server.clear := by
  have size : server.connections.size = 0 := by
    rw [vacant]
    rfl
  have absent : server.connections.contains id = false := by
    rw [vacant]
    rfl
  rw [finish, size, settle, flush_vacant vacant]
  simp [settle, disconnect, clear, absent, List.eraseDups_cons]

end Finishing

end Server

end CallRouter
