import CallRouter.Proofs.Dealer.Growth
import CallRouter.Proofs.Wire.Size
import CallRouter.Proofs.Wire.Stream

/-!
Nothing in the dealer accounts for the length of what it sends. A call that was read from a frame may
be passed on with more about it than it came with, and its numbers may be printed at greater length,
so that it no longer fits a frame.
-/

namespace CallRouter

open Json

namespace Dealer

open Wire (Frame Mode Reader maxPayloadSize rawFields)

/--
Whatever the dealer has done, what it sends because of a message is bounded by the frame that the
message was read from. Printed anew, the message takes at most six times the bytes of the payload,
and at most 20 more than these bytes for each binary64 number in it. What is sent on behalf of a call
takes at most 128 more than that, and what answers a request at most twice that and 256; the answer
of a procedure of the dealer itself is bounded by the directory. What is within the limit of a frame
is encoded.
-/
theorem sent_messages_are_bounded (peers : Peers) (options : Options) (operations : List Operation)
    (now : Time) (draw session : Nat) (word : session < 2 ^ 64) (frame : Frame) (raw : List Json)
    (read : rawFields frame.payload = .ok raw) (message : Message)
    (parsed : Message.Registry.standard.parse raw = .ok message) :
    let dealer := run peers options operations
    let later := dealer.step peers (.handle now draw session message)
    let size := min (6 * frame.payload.length) (frame.payload.length + 20 * message.floats)
    ∀ receiver sent about, .send receiver sent about ∈ later.effects.drop dealer.effects.length →
      sent.size ≤ dealer.allowance size sent about ∧
        (dealer.allowance size sent about ≤ maxPayloadSize.toNat →
          ∃ bytes, Mode.binary.encode sent = .ok bytes) := by
  intro dealer later size receiver sent about member
  obtain ⟨rfl, -⟩ := Message.Registry.parse_eq_ok_iff.mp parsed
  have printed : message.size ≤ size := Wire.size_of_rawFields read
  have handled := handled_step (linked_run peers options operations) peers now draw session message
  obtain ⟨new, grown, within⟩ := bounded_of_handled parsed word handled
  rw [grown, List.drop_left] at member
  have bound := (within receiver sent about member).trans (dealer.allowance_mono printed sent about)
  exact ⟨bound, fun room => Wire.encode_of_size (Nat.le_trans bound room)⟩

def prefixRegistration : Message :=
  ⟨.register,
    [.ofNat 1, .dict [(Dict.Key.match_, .text MatchPolicy.byPrefix.name)], .text "com.a"]⟩

def prefixedCall (args : List Json) : Message :=
  ⟨.call, [.ofNat 1, .dict [], .text "com.a.b", .list args]⟩

def forwardedCall (args : List Json) : Message :=
  ⟨.invocation, [.ofNat 1, .ofNat 2, .dict [(Dict.Key.procedure, .text "com.a.b")], .list args]⟩

theorem effects_of_prefixedCall (args : List Json) :
    let dealer := run obliging {} [.handle 0 0 1 prefixRegistration]
    let later := dealer.step obliging (.handle 0 0 2 (prefixedCall args))
    later.effects.drop dealer.effects.length = [.send 1 (forwardedCall args) (some 0)] := rfl

theorem size_prefixedCall (args : List Json) :
    (prefixedCall args).size = 20 + (Json.list args).size := by
  have front : 1 + (Json.ofNat Message.Kind.call.code).size + 1 +
      sizes [.ofNat 1, .dict [], .text "com.a.b"] = 19 := by decide
  rw [Message.size_eq]
  simp only [prefixedCall, sizes_cons, sizes_nil] at front ⊢
  omega

theorem size_forwardedCall (args : List Json) :
    (forwardedCall args).size = 33 + (Json.list args).size := by
  have front : 1 + (Json.ofNat Message.Kind.invocation.code).size + 1 +
      sizes [.ofNat 1, .ofNat 2, .dict [(Dict.Key.procedure, .text "com.a.b")]] = 32 := by decide
  rw [Message.size_eq]
  simp only [forwardedCall, sizes_cons, sizes_nil] at front ⊢
  omega

theorem sent_messages_are_bounded_of_call :
    let frame : Frame := { payload := Wire.utf8 "[48,1,\x7b\x7d,\"com.a.b\",[1e15]]" }
    let args : List Json := [.number (.float ⟨false, 8000000000000000, -3⟩)]
    let call := prefixedCall args
    let invocation := forwardedCall args
    rawFields frame.payload = .ok call.raw ∧ call.IsValid ∧ frame.payload.length = 26 ∧
      call.size = 40 ∧ invocation.size ≤ 26 + 20 + 128 ∧
      ∃ bytes, Mode.binary.encode invocation = .ok bytes := by
  intro frame args call invocation
  have found : Json.ofText "[48,1,\x7b\x7d,\"com.a.b\",[1e15]]" = some (.list call.raw) := by
    decide +kernel
  have read : rawFields frame.payload = .ok call.raw := by
    simp only [frame, rawFields, Wire.fromUTF8?_utf8, found, Message.raw]
  have valid : call.IsValid := rfl
  have length : frame.payload.length = 26 := by decide +kernel
  obtain ⟨bound, encodes⟩ := sent_messages_are_bounded obliging {}
    [.handle 0 0 1 prefixRegistration] 0 0 2 (by decide) frame call.raw read call valid 1 invocation
    (some 0) (effects_of_prefixedCall _ ▸ List.mem_singleton_self _)
  rw [length, show call.floats = 1 from rfl] at bound encodes
  exact ⟨read, valid, length, by decide +kernel, bound, encodes (by decide)⟩

def longTexts (length : Nat) : List Json :=
  List.replicate 8 (.text (String.ofList (List.replicate length 'x')))

theorem size_longTexts (length : Nat) : (Json.list (longTexts length)).size = 8 * length + 25 := by
  have text : (Json.text (String.ofList (List.replicate length 'x'))).size = 2 + length := by
    rw [size_text, String.toList_ofList, escapedSize_replicate]
  have each := sizes_replicate 8 (.text (String.ofList (List.replicate length 'x')))
  rw [longTexts, List.replicate_succ, size_list, ← List.replicate_succ, each, text]
  omega

theorem carries_prefixedCall {length : Nat} (fits : 8 * length + 45 ≤ maxPayloadSize.toNat) :
    Mode.binary.Carries (prefixedCall (longTexts length)) where
  plain := by
    have plain : IsPlain (maxLevels - 1) (.list (longTexts length)) := by
      refine .list fun item member => ?_
      rw [List.eq_of_mem_replicate member]
      exact .text _ _
    refine .list ?_
    simp only [Message.raw, prefixedCall, List.forall_mem_cons]
    exact ⟨by decide, by decide, by decide, .text _ _, plain, by simp⟩
  fits _ := by
    rw [Wire.length_compact]
    have size := size_prefixedCall (longTexts length)
    rw [size_longTexts, Message.size] at size
    omega

theorem isValid_prefixedCall (args : List Json) : (prefixedCall args).IsValid := rfl

theorem arrives_of_carries {message : Message} (carries : Mode.binary.Carries message) :
    ∃ bytes, Reader.poll ⟨.binary, bytes⟩ = (.ok (some message.raw), ⟨.binary, []⟩) := by
  obtain ⟨bytes, -, -, arrives⟩ := Wire.encode_arrives carries
  exact ⟨bytes, by simpa using arrives []⟩

/-- A call that fits a frame, and the invocation that it leads to, which does not. -/
theorem accepted_call_is_not_forwarded :
    let dealer := run obliging {} [.handle 0 0 1 prefixRegistration]
    let call := prefixedCall (longTexts 2097145)
    let invocation := forwardedCall (longTexts 2097145)
    (∀ message ∈ [prefixRegistration, call], message.IsValid ∧
      ∃ bytes, Reader.poll ⟨.binary, bytes⟩ = (.ok (some message.raw), ⟨.binary, []⟩)) ∧
    .send 1 invocation (some 0) ∈
      (dealer.step obliging (.handle 0 0 2 call)).effects.drop dealer.effects.length ∧
    Mode.binary.encode invocation = .error (.frameTooLarge 16777218 maxPayloadSize) := by
  intro dealer call invocation
  have registers : Mode.binary.Carries prefixRegistration :=
    ⟨by decide, fun _ => by decide +kernel⟩
  have calls : Mode.binary.Carries call := carries_prefixedCall (by decide)
  have size : invocation.size = 16777218 := by
    rw [size_forwardedCall, size_longTexts]
  have limit : maxPayloadSize.toNat = 16777216 := rfl
  refine ⟨?_, ?_, ?_⟩
  · simp only [List.forall_mem_cons]
    exact ⟨⟨rfl, arrives_of_carries registers⟩,
      ⟨isValid_prefixedCall _, arrives_of_carries calls⟩, by simp⟩
  · rw [effects_of_prefixedCall]
    exact List.mem_singleton_self _
  · rw [Wire.encode_too_large (by omega) (by omega), size]
    rfl

end Dealer

end CallRouter
