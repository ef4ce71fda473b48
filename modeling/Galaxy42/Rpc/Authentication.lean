import Galaxy42.Lib.Steps
import Galaxy42.Rpc.Session

/-!
# What an RPC session executes

A session executes the messages that its client has sent, in their order and each of them once, as long as
their HMACs verify under the key of the session. It stops at the first one that does not. It does not matter
in which pieces the octets arrive and are read (`executed_of_run`).

Between the handlers, the octets that were read are those of the messages executed so far, and what the
buffers hold of the next one (`Framed`). So nothing that was left in a buffer can be taken for a part of a
message.

A message is read in three parts into three buffers, which are used again for the next one, and one of which
gets its length from what was read into another. `ReadSoFar` says how the octets of the message being read are
spread over them when a read is under way: all of the buffers before, and of this one as much as was filled.
The four handlers are gone through once. While a message is executed the registered functions may be called
(`Executing`), which may do anything to what they work on, but not to the session.

The HMAC is that of libsodium, as a parameter: what is executed is what has an HMAC that verifies, and nothing
is assumed of how hard it is to make one. The example lets a message arrive in two pieces and be read in four.
-/

namespace Galaxy42

open Toolkit Program

/-! ### Messages as they are sent -/

/-- A message of a client, and the HMAC that comes with it. The message may be empty, as only its length is
bounded. -/
structure Frame where
  message : Bytes
  hmac : Bytes
  length_message : message.length < 65536
  length_hmac : hmac.length = 64

namespace Frame

/-- The octets that are sent: the length of the message, the message, and its HMAC. -/
def octets (f : Frame) : Bytes :=
  Octets.bigEndian 2 f.message.length ++ f.message ++ f.hmac

/-- The HMAC verifies over the message: the library says so of it, of the message and of the key. -/
def Verified {Json : Type} (lib : RpcLib Json) (key : Bytes) (f : Frame) : Prop :=
  lib.cryptoAuthVerify f.hmac f.message key = 0

end Frame

namespace Session

variable {Json τ : Type} {lib : RpcLib Json} {key arrived : Bytes} {s s' : Session Json τ}

/-- The octets that arrive in an event. -/
def Event.octets : Event Json τ → Bytes
  | .arrive chunk => chunk
  | .transfer _ | .fail _ | .written | .server _ _ => []

/-- The octets that arrived in a run. -/
def sent (trace : List (Session Json τ × Event Json τ)) : Bytes :=
  trace.flatMap fun p => p.2.octets

/-! ### The invariant -/

/-- What is read before a buffer, and belongs to the same message. -/
def before (s : Session Json τ) : ReadBuffer → Bytes
  | .dataSize => []
  | .receivedData => s.dataSize
  | .hmacAuthenticator => s.dataSize ++ s.receivedData

/-- The buffer for the message has the length that was read, when that is complete. The buffers for the length
and for the HMAC have lengths of their own, which do not change. -/
def Sized (s : Session Json τ) : ReadBuffer → Prop
  | .dataSize => True
  | _ => s.receivedData.length = Octets.toNat s.dataSize

/-- These octets are what was read of the message that is being read. -/
def ReadSoFar (s : Session Json τ) (rest : Bytes) : Prop :=
  match s.pending with
  | some (.read buffer filled) => s.Sized buffer ∧ filled ≤ (s.buffer buffer).length ∧
      rest = s.before buffer ++ (s.buffer buffer).take filled
  | some (.write _) => rest = []
  | none => True

/-- The arrays have their lengths, the key of the session has not changed, and the octets that have arrived
are those that were read and those that wait. This holds at any time, also while a handler runs. -/
structure WellFormed (key arrived : Bytes) (s : Session Json τ) : Prop where
  dataSize : s.dataSize.length = 2
  hmacAuthenticator : s.hmacAuthenticator.length = 64
  hmacKey : s.hmacKey = key
  arrived : s.consumed ++ s.inbox = arrived

/-- The state between two handlers. The octets that were read are those of the messages that were executed,
and behind them what was read of the next one. The functions were called with messages that were executed, in
the same order. -/
structure Framed (lib : RpcLib Json) (key arrived : Bytes) (s : Session Json τ) : Prop extends
    WellFormed key arrived s where
  frames : ∃ (frames : List Frame) (rest : Bytes), (∀ f ∈ frames, f.Verified lib key) ∧
    s.executed = frames.map Frame.message ∧ s.consumed = frames.flatMap Frame.octets ++ rest ∧ s.ReadSoFar rest
  calls : (s.calls.map Prod.snd).Sublist s.executed

/-- The state while a message is executed, where functions may still be called with these messages. No read is
under way, but the write of a response may be. -/
structure Executing (lib : RpcLib Json) (key arrived : Bytes) (more : List Bytes) (s : Session Json τ) : Prop extends
    WellFormed key arrived s where
  frames : ∃ frames : List Frame, (∀ f ∈ frames, f.Verified lib key) ∧
    s.executed = frames.map Frame.message ∧ s.consumed = frames.flatMap Frame.octets
  calls : (s.calls.map Prod.snd ++ more).Sublist s.executed
  pending : s.pending = none ∨ ∃ octets, s.pending = some (.write octets)

/-! ### Executing a message -/

namespace Executing

variable {more : List Bytes}

/-- When a message has been executed, nothing has been read of the next one. -/
private theorem framed (h : Executing lib key arrived [] s) : Framed lib key arrived s := by
  obtain ⟨frames, hverified, hexecuted, hconsumed⟩ := h.frames
  refine { toWellFormed := h.toWellFormed, calls := ?_, frames := ?_ }
  · refine ⟨frames, [], hverified, hexecuted, by rw [hconsumed, List.append_nil], ?_⟩
    rw [ReadSoFar]
    rcases h.pending with hnone | ⟨octets, hwrite⟩
    · rw [hnone]
      trivial
    · rw [hwrite]
  · have hcalls := h.calls
    rwa [List.append_nil] at hcalls

/-- No function need be called. -/
theorem of_more (h : Executing lib key arrived more s) : Executing lib key arrived [] s := by
  refine { h with calls := ?_ }
  rw [List.append_nil]
  exact (List.sublist_append_left _ _).trans h.calls

private theorem deleteMe : Preserves (Executing lib key arrived more) (deleteMe : Program Exn (Session Json τ) Unit) :=
  Preserves.modify fun _ h => { h with pending := .inl rfl }

private theorem getCommandId :
    Preserves (Executing lib key arrived more) (getCommandId : Program Exn (Session Json τ) String) :=
  Preserves.bind (Preserves.modify fun _ h => { h with }) fun _ =>
    Preserves.get_bind fun _ h => h

private theorem sendResponse (jsonResponse : Json) :
    Preserves (Executing lib key arrived more) (sendResponse lib jsonResponse : Program Exn (Session Json τ) Unit) := by
  refine Preserves.catching ?_ fun _ h hh => ?_
  · refine Preserves.bind (Preserves.fromExcept _) fun response => ?_
    refine Preserves.bind (Preserves.assertThat _) fun _ => ?_
    refine Preserves.bind (Preserves.modify fun _ h => { h with }) fun _ => ?_
    refine Preserves.bind (Preserves.checkThat _ _) fun _ => ?_
    refine Preserves.get_bind fun s hs => ?_
    refine Preserves.bind (Preserves.checkThat _ _) (fun _ => ?_) s hs
    exact Preserves.modify fun _ h => { h with pending := .inr ⟨_, rfl⟩ }
  · obtain rfl := Option.some.inj hh
    exact deleteMe

/-- The function that is called is the one that may still be called. -/
private theorem callRpcFunction (cmdName inputMessage : Bytes)
    (h : Executing lib key arrived [inputMessage] s) :
    Executing lib key arrived [] (finalState (callRpcFunction cmdName inputMessage) s) := by
  unfold Session.callRpcFunction
  rw [finalState_bind_of_ok (get_apply s)]
  cases s.rpcServer.rpcFunctionsMap cmdName with
  | none => exact h.of_more
  | some function =>
    rw [finalState_bind_of_ok (modify_apply _ s)]
    refine Preserves.zoom (fun _ _ h => { h with }) _ { h with calls := ?_ }
    rw [List.append_nil, List.map_append]
    exact h.calls

private theorem executeCommand (inputMessage : Bytes) (h : Executing lib key arrived [inputMessage] s) :
    Executing lib key arrived [] (finalState (executeCommand lib inputMessage) s) := by
  have hread : ∀ {α : Type} (r : Except Exn α), Preserves (Executing lib key arrived [inputMessage])
      (fromExcept r : Program Exn (Session Json τ) α) := fun r => Preserves.fromExcept r
  refine Preserves.finalState_bind_of_preserves (hread _) (fun _ h => h.of_more) (fun j s₁ h₁ => ?_) h
  refine Preserves.finalState_bind_of_preserves (hread _) (fun _ h => h.of_more) (fun cmd s₂ h₂ => ?_) h₁
  refine Preserves.finalState_bind_of_preserves (hread _) (fun _ h => h.of_more) (fun cmdName s₃ h₃ => ?_) h₂
  refine Preserves.finalState_bind (callRpcFunction cmdName inputMessage h₃) fun jsonResponse => ?_
  refine Preserves.bind getCommandId fun commandId => ?_
  refine Preserves.bind (Preserves.fromExcept _) fun jsonResponse => ?_
  refine Preserves.ite ?_ (Preserves.bind (Preserves.pure _) sendResponse)
  refine Preserves.bind (Preserves.fromExcept _) fun id => ?_
  exact Preserves.bind (Preserves.fromExcept _) sendResponse

end Executing

/-! ### Handlers -/

/-- The length that is read, as a number of 16 bits. Nothing is lost in it, as both octets fit. -/
theorem toNat_messageSize (high low : UInt8) :
    (UInt16.ofNat (high.toNat <<< 8) + low.toUInt16).toNat = Octets.toNat [high, low] := by
  have hhigh := high.toNat_lt
  have hlow := low.toNat_lt
  simp only [UInt16.toNat_add, UInt16.toNat_ofNat', UInt8.toNat_toUInt16, Nat.shiftLeft_eq,
    Octets.toNat_cons, Octets.toNat_nil, List.length_cons, List.length_nil]
  omega

/-- A buffer has just been filled. Its read has completed and its handler has not run, so that nothing is
under way. -/
structure Filled (lib : RpcLib Json) (key arrived : Bytes) (buffer : ReadBuffer) (s : Session Json τ) : Prop extends
    WellFormed key arrived s where
  frames : ∃ frames : List Frame, (∀ f ∈ frames, f.Verified lib key) ∧
    s.executed = frames.map Frame.message ∧
    s.consumed = frames.flatMap Frame.octets ++ (s.before buffer ++ s.buffer buffer)
  calls : (s.calls.map Prod.snd).Sublist s.executed
  sized : s.Sized buffer
  pending : s.pending = none

namespace Framed

/-- When nothing is under way, nothing more is said about what was read. -/
theorem withPending_none (h : Framed lib key arrived s) : Framed lib key arrived (s.withPending none) := by
  obtain ⟨frames, rest, hverified, hexecuted, hconsumed, -⟩ := h.frames
  exact { h with frames := ⟨frames, rest, hverified, hexecuted, hconsumed, trivial⟩ }

private theorem deleteMe : Preserves (Framed lib key arrived) (deleteMe : Program Exn (Session Json τ) Unit) :=
  Preserves.modify fun _ h => h.withPending_none

end Framed

namespace Filled

variable {buffer : ReadBuffer}

private theorem framed (h : Filled lib key arrived buffer s) : Framed lib key arrived s := by
  obtain ⟨frames, hverified, hexecuted, hconsumed⟩ := h.frames
  refine { toWellFormed := h.toWellFormed, calls := h.calls, frames := ?_ }
  refine ⟨frames, _, hverified, hexecuted, hconsumed, ?_⟩
  rw [ReadSoFar, h.pending]
  trivial

/-- Starting the read of the next buffer of the same message. -/
theorem asyncRead {next : ReadBuffer} (h : Filled lib key arrived buffer s) (hsized : s.Sized next)
    (hbefore : s.before next = s.before buffer ++ s.buffer buffer) :
    Framed lib key arrived (finalState (asyncRead next) s) := by
  obtain ⟨frames, hverified, hexecuted, hconsumed⟩ := h.frames
  refine { dataSize := h.dataSize, hmacAuthenticator := h.hmacAuthenticator, hmacKey := h.hmacKey,
           arrived := h.arrived, calls := h.calls, frames := ⟨frames, s.before next, hverified, hexecuted, ?_, ?_⟩ }
  · rw [hbefore]
    exact hconsumed
  · refine ⟨hsized, Nat.zero_le _, ?_⟩
    rw [List.take_zero, List.append_nil]
    rfl

/-- The length of a message starts the read of the message. -/
private theorem readHandlerSize (h : Filled lib key arrived .dataSize s) (bytesTransferred : ℕ) :
    Framed lib key arrived (finalState (readHandlerSize false bytesTransferred) s) := by
  unfold Session.readHandlerSize
  rw [finalState_bind_of_ok (get_apply s), if_neg Bool.false_ne_true]
  split
  · exact Framed.deleteMe s h.framed
  split
  · rename_i high low hsize
    rw [finalState_bind_of_ok (modify_apply _ s)]
    -- the buffer has the length that was read, and its content does not matter any more
    have hlength : ∀ buf : Bytes, (Buffer.resize buf (UInt16.ofNat (high.toNat <<< 8) +
        low.toUInt16).toNat 0).length = Octets.toNat s.dataSize := by
      intro buf
      rw [Buffer.length_resize, toNat_messageSize, hsize]
    refine Preserves.finalState_bind_of_preserves (J := fun s₁ => Filled lib key arrived .dataSize s₁ ∧
      s₁.receivedData.length = Octets.toNat s₁.dataSize) (Preserves.checkThat _ _)
      (fun _ h₁ => h₁.1.framed) (fun _ s₁ h₁ => ?_) ⟨{ h with }, hlength _⟩
    exact h₁.1.asyncRead h₁.2 (List.nil_append _).symm
  · exact h.framed

/-- The message starts the read of its HMAC. -/
private theorem readHandlerData (h : Filled lib key arrived .receivedData s) :
    Framed lib key arrived (finalState (readHandlerData false) s) :=
  h.asyncRead h.sized rfl

/-- The message and the HMAC that are in the buffers. The length of the message is below 65536, since it was
read from two octets. -/
def frame (h : Filled lib key arrived .hmacAuthenticator s) : Frame where
  message := s.receivedData
  hmac := s.hmacAuthenticator
  length_message := by
    have hsized : s.receivedData.length = Octets.toNat s.dataSize := h.sized
    have hlt := Octets.toNat_lt s.dataSize
    rw [h.dataSize] at hlt
    omega
  length_hmac := h.hmacAuthenticator

/-- They are what was read last. -/
private theorem octets_frame (h : Filled lib key arrived .hmacAuthenticator s) :
    h.frame.octets = s.before .hmacAuthenticator ++ s.buffer .hmacAuthenticator := by
  have hsized : s.receivedData.length = Octets.toNat s.dataSize := h.sized
  have hsize := Octets.bigEndian_toNat s.dataSize
  rw [h.dataSize, ← hsized] at hsize
  rw [Frame.octets, frame, hsize]
  rfl

/-- When the HMAC verifies, the message that is in the buffer may be executed. -/
private theorem executing (h : Filled lib key arrived .hmacAuthenticator s)
    (hret : lib.cryptoAuthVerify s.hmacAuthenticator s.receivedData s.hmacKey = 0) :
    Executing lib key arrived [s.receivedData]
      { s with executed := s.executed ++ [s.receivedData] } := by
  obtain ⟨frames, hverified, hexecuted, hconsumed⟩ := h.frames
  rw [h.hmacKey] at hret
  refine { toWellFormed := { h with }, pending := .inl h.pending, calls := ?_,
           frames := ⟨frames ++ [h.frame], ?_, ?_, ?_⟩ }
  · rintro f hf
    rcases List.mem_append.mp hf with hf | hf
    · exact hverified f hf
    · rw [List.mem_singleton.mp hf]
      exact hret
  · rw [List.map_append, ← hexecuted]
    rfl
  · rw [List.flatMap_append, List.flatMap_singleton, h.octets_frame]
    exact hconsumed
  · exact h.calls.append (List.Sublist.refl _)

/-- The HMAC is verified over the message that is in the buffer, and this message is executed. -/
private theorem readHandlerHmac (h : Filled lib key arrived .hmacAuthenticator s) :
    Framed lib key arrived (finalState (readHandlerHmac lib false) s) := by
  have hdelete : ∀ (e : Exn) (p : Program Exn (Session Json τ) Unit), some Session.deleteMe = some p →
      Preserves (Executing lib key arrived []) p := by
    rintro e p heq
    obtain rfl := Option.some.inj heq
    exact Executing.deleteMe
  unfold Session.readHandlerHmac
  rw [finalState_bind_of_ok (get_apply s), if_neg Bool.false_ne_true]
  dsimp only
  by_cases hret : lib.cryptoAuthVerify s.hmacAuthenticator s.receivedData s.hmacKey = 0
  · rw [if_neg (by rw [hret]; decide), finalState_bind_of_ok (a := ())
      (assertThat_eq_ok_iff.mpr ⟨hret, rfl⟩)]
    refine (Preserves.finalState_catching ?_ hdelete).framed
    unfold executeRpcCommand
    rw [finalState_bind_of_ok (modify_apply _ s)]
    exact Preserves.finalState_catching ((h.executing hret).executeCommand _) hdelete
  · split
    · exact Framed.deleteMe s h.framed
    · have habort : (assertThat (lib.cryptoAuthVerify s.hmacAuthenticator s.receivedData s.hmacKey = 0) :
          Program Exn (Session Json τ) Unit) s = .error .abort s := by rw [assertThat_apply, if_neg hret]
      rw [finalState_bind_of_error habort]
      exact h.framed

/-- Whatever has been filled, its handler goes on with the right operation. -/
private theorem readHandler (h : Filled lib key arrived buffer s) (bytesTransferred : ℕ) :
    Framed lib key arrived (finalState (readHandler lib buffer false bytesTransferred) s) := by
  cases buffer with
  | dataSize => exact h.readHandlerSize bytesTransferred
  | receivedData => exact h.readHandlerData
  | hmacAuthenticator => exact h.readHandlerHmac

end Filled

/-! ### Steps -/

/-- So many octets have been read into a buffer. The rest of it may still hold octets of the message before. -/
structure Reading (lib : RpcLib Json) (key arrived : Bytes) (buffer : ReadBuffer) (filled : ℕ)
    (s : Session Json τ) : Prop extends WellFormed key arrived s where
  frames : ∃ frames : List Frame, (∀ f ∈ frames, f.Verified lib key) ∧
    s.executed = frames.map Frame.message ∧
    s.consumed = frames.flatMap Frame.octets ++ (s.before buffer ++ (s.buffer buffer).take filled)
  calls : (s.calls.map Prod.snd).Sublist s.executed
  sized : s.Sized buffer

namespace Reading

variable {buffer : ReadBuffer} {filled : ℕ}

private theorem framed (h : Reading lib key arrived buffer filled s)
    (hfilled : filled ≤ (s.buffer buffer).length) :
    Framed lib key arrived (s.withPending (some (.read buffer filled))) := by
  obtain ⟨frames, hverified, hexecuted, hconsumed⟩ := h.frames
  refine { toWellFormed := { h with }, calls := h.calls,
           frames := ⟨frames, _, hverified, hexecuted, hconsumed, ?_⟩ }
  have hsized := h.sized
  cases buffer <;> exact ⟨hsized, hfilled, rfl⟩

private theorem complete (h : Reading lib key arrived buffer filled s)
    (hfilled : filled = (s.buffer buffer).length) :
    Filled lib key arrived buffer (s.withPending none) := by
  obtain ⟨frames, hverified, hexecuted, hconsumed⟩ := h.frames
  rw [hfilled, List.take_length] at hconsumed
  have hsized := h.sized
  refine { toWellFormed := { h with }, calls := h.calls, pending := rfl,
           frames := ⟨frames, hverified, hexecuted, ?_⟩, sized := ?_ }
  · cases buffer <;> exact hconsumed
  · cases buffer <;> exact hsized

/-- Reading one more piece. What the buffer held there does not matter. -/
private theorem received {n : ℕ} (h : Reading lib key arrived buffer filled s) (hn : n ≤ s.inbox.length)
    (hroom : filled + n ≤ (s.buffer buffer).length) :
    Reading lib key arrived buffer (filled + n) (s.received buffer filled n) ∧
      ((s.received buffer filled n).buffer buffer).length = (s.buffer buffer).length := by
  have hchunk : (s.inbox.take n).length = n := by
    rw [List.length_take, min_eq_left hn]
  have hfits : filled + (s.inbox.take n).length ≤ (s.buffer buffer).length := by
    rwa [hchunk]
  have hlength := Buffer.length_overwrite hfits
  have htake := Buffer.take_overwrite hfits
  rw [hchunk] at htake
  obtain ⟨frames, hverified, hexecuted, hconsumed⟩ := h.frames
  have hconsumed' : s.consumed ++ s.inbox.take n = frames.flatMap Frame.octets ++ (s.before buffer ++
      (Buffer.overwrite (s.buffer buffer) filled (s.inbox.take n)).take (filled + n)) := by
    rw [hconsumed, htake]
    simp only [List.append_assoc]
  have harrived : s.consumed ++ s.inbox.take n ++ s.inbox.drop n = arrived := by
    rw [List.append_assoc, List.take_append_drop, h.arrived]
  have hsized := h.sized
  cases buffer with
  | dataSize =>
    exact ⟨{ h with dataSize := hlength.trans h.dataSize, sized := trivial, arrived := harrived
                    frames := ⟨frames, hverified, hexecuted, hconsumed'⟩ }, hlength⟩
  | receivedData =>
    exact ⟨{ h with sized := hlength.trans hsized, arrived := harrived
                    frames := ⟨frames, hverified, hexecuted, hconsumed'⟩ }, hlength⟩
  | hmacAuthenticator =>
    exact ⟨{ h with hmacAuthenticator := hlength.trans h.hmacAuthenticator, sized := hsized
                    arrived := harrived, frames := ⟨frames, hverified, hexecuted, hconsumed'⟩ }, hlength⟩

end Reading

namespace Framed

variable {buffer : ReadBuffer} {filled : ℕ}

private theorem reading (h : Framed lib key arrived s) (hpending : s.pending = some (.read buffer filled)) :
    Reading lib key arrived buffer filled s := by
  obtain ⟨frames, rest, hverified, hexecuted, hconsumed, hrest⟩ := h.frames
  rw [ReadSoFar, hpending] at hrest
  obtain ⟨hsized, -, rfl⟩ := hrest
  exact { toWellFormed := h.toWellFormed, calls := h.calls, sized := hsized,
          frames := ⟨frames, hverified, hexecuted, hconsumed⟩ }

/-- However many octets the read that is under way is given. -/
private theorem transfer (n : ℕ) (h : Framed lib key arrived s) :
    Framed lib key arrived (finalState (transfer lib n) s) := by
  unfold Session.transfer
  rw [finalState_bind_of_ok (get_apply s)]
  split
  · rename_i buffer filled hpending
    split
    · rename_i hn
      obtain ⟨hread, hlength⟩ := (h.reading hpending).received hn.1 hn.2
      dsimp only
      split
      · rename_i hfull
        rw [finalState_bind_of_ok (set_apply s _)]
        exact (hread.complete (hfull.trans hlength.symm)).readHandler _
      · exact hread.framed (hn.2.trans_eq hlength.symm)
    · exact h
  · exact h

/-- The handler of a read that has failed. -/
private theorem readHandler_error (buffer : ReadBuffer) (bytesTransferred : ℕ) :
    Preserves (Framed lib key arrived) (readHandler (τ := τ) lib buffer true bytesTransferred) := by
  cases buffer with
  | dataSize => exact Preserves.get_bind fun s h => deleteMe s h
  | receivedData => exact deleteMe
  | hmacAuthenticator => exact Preserves.get_bind fun s h => deleteMe s h

/-- When a response has been written, the next message is read from its beginning. -/
private theorem writeHandler {octets : Bytes} (h : Framed lib key arrived s)
    (hpending : s.pending = some (.write octets)) :
    Framed lib key arrived (finalState (writeHandler false) (s.withPending none)) := by
  obtain ⟨frames, rest, hverified, hexecuted, hconsumed, hrest⟩ := h.frames
  rw [ReadSoFar, hpending] at hrest
  exact { h with frames := ⟨frames, rest, hverified, hexecuted, hconsumed, trivial, Nat.zero_le _, hrest⟩ }

/-- Whatever happens to a session. -/
theorem step (event : Event Json τ) (h : Framed lib key arrived s) (hstep : Stepped lib s event s') :
    Framed lib key (arrived ++ event.octets) s' := by
  rw [← hstep]
  cases event with
  | arrive chunk =>
    refine { h with arrived := ?_ }
    rw [← h.arrived, List.append_assoc]
    rfl
  | transfer n =>
    rw [Event.octets, List.append_nil]
    exact h.transfer n
  | fail bytesTransferred =>
    rw [Event.octets, List.append_nil, Event.run, finalState_bind_of_ok (get_apply s)]
    split
    · exact readHandler_error _ _ _ h.withPending_none
    · exact deleteMe _ h.withPending_none
    · exact h
  | written =>
    rw [Event.octets, List.append_nil, Event.run, finalState_bind_of_ok (get_apply s)]
    split
    · rename_i octets hpending
      exact h.writeHandler hpending
    · exact h
  | server rpcFunctionsMap app =>
    rw [Event.octets, List.append_nil]
    exact { h with }

end Framed

/-! ### Runs -/

variable (lib) in
/-- A session starts by reading the length of the first message. -/
private theorem framed_new (rpcServer : RpcServer Json τ) (dataSize : Vector UInt8 2)
    (hmacAuthenticator : Vector UInt8 64) (sessionId : ℕ) :
    Framed lib rpcServer.hmacKey [] (new rpcServer dataSize hmacAuthenticator sessionId) where
  dataSize := dataSize.length_toList
  hmacAuthenticator := hmacAuthenticator.length_toList
  hmacKey := rfl
  arrived := rfl
  frames := ⟨[], [], fun _ hf => absurd hf List.not_mem_nil, rfl, rfl, trivial, Nat.zero_le _, rfl⟩
  calls := List.Sublist.refl _

/-- The invariant along a run. -/
theorem Framed.run {trace : List (Session Json τ × Event Json τ)} (h : Framed lib key [] s)
    (hrun : Steps (Stepped lib) s trace s') : Framed lib key (sent trace) s' := by
  induction hrun with
  | nil => exact h
  | snoc _ hstep ih =>
    rw [sent, List.flatMap_append, List.flatMap_singleton]
    exact ih.step _ hstep

/-- In every run of a session, whatever arrives and in whatever pieces it arrives and is read, the messages
that were executed are the first ones that the client has sent, each of them once, and the HMAC that came with
each of them verifies over its octets under the key of the session. Functions were called with these messages
only. -/
theorem executed_of_run {rpcServer : RpcServer Json τ} {dataSize : Vector UInt8 2}
    {hmacAuthenticator : Vector UInt8 64} {sessionId : ℕ}
    {trace : List (Session Json τ × Event Json τ)}
    (hrun : Steps (Stepped lib) (new rpcServer dataSize hmacAuthenticator sessionId) trace s) :
    ∃ (frames : List Frame) (rest : Bytes), sent trace = frames.flatMap Frame.octets ++ rest ∧
      (∀ f ∈ frames, f.Verified lib rpcServer.hmacKey) ∧ s.executed = frames.map Frame.message ∧
      (s.calls.map Prod.snd).Sublist s.executed := by
  have h := (framed_new lib rpcServer dataSize hmacAuthenticator sessionId).run hrun
  obtain ⟨frames, rest, hverified, hexecuted, hconsumed, -⟩ := h.frames
  refine ⟨frames, rest ++ s.inbox, ?_, hverified, hexecuted, h.calls⟩
  rw [← h.arrived, hconsumed, List.append_assoc]

/-- Texts, and objects with texts as members, for the example. -/
inductive SampleJson where
  | text (value : String)
  | object (members : List (String × String))

/-- The message of the example. -/
def samplePing : Frame where
  message := ascii "\x7b\"cmd\":\"ping\"\x7d"
  hmac := [110, 115, 50, 70, 36, 93, 147, 63, 59, 217, 88, 170, 192, 70, 39, 225, 146, 58, 199, 208, 137, 187,
   207, 190, 16, 156, 237, 140, 203, 74, 198, 7, 188, 76, 165, 89, 118, 142, 247, 123, 156, 53, 56,
   253, 161, 94, 55, 192, 21, 245, 93, 65, 88, 94, 191, 175, 229, 252, 178, 171, 251, 127, 236, 201]
  length_message := by decide
  length_hmac := rfl

/-- The response to it. -/
def samplePong : Bytes :=
  ascii "\x7b\"cmd\":\"ping\",\"id\":\"1-srv500\",\"msg\":\"pong\",\"state\":\"ok\"\x7d"

/-- The HMAC of the response. -/
def samplePongHmac : Bytes :=
  [73, 130, 93, 123, 183, 145, 133, 70, 254, 201, 203, 37, 120, 216, 136, 49, 10, 44, 77, 129, 23,
   249, 2, 191, 20, 210, 29, 21, 243, 222, 229, 181, 172, 185, 236, 101, 207, 196, 24, 231, 250, 182,
   221, 96, 89, 231, 0, 203, 230, 54, 143, 252, 123, 96, 15, 34, 16, 103, 191, 33, 135, 225, 4, 63]

/-- The libraries, as far as the example uses them. -/
def sampleRpcLib : RpcLib SampleJson where
  cryptoAuth input key :=
    if input = samplePong ∧ key = List.replicate 32 0x42 then (samplePongHmac, 0) else ([], -1)
  cryptoAuthVerify hmac input key :=
    if input = samplePing.message ∧ key = List.replicate 32 0x42 ∧ hmac = samplePing.hmac then 0 else -1
  parse text :=
    if text = samplePing.message then .ok (.object [("cmd", "ping")])
    else .error (.invalidArgument "parse error")
  field
    | .object members, name => match members.lookup name with
      | some value => .ok (.text value)
      | none => .ok (.text "null")
    | .text _, _ => .error (.invalidArgument "type error")
  setField
    | .object members, name, .text value =>
      .ok (.object (members.takeWhile (·.1 < name) ++ (name, value) :: members.dropWhile (·.1 < name)))
    | _, _, _ => .error (.invalidArgument "type error")
  contains
    | .object members, name => (members.lookup name).isSome
    | .text _, _ => false
  getString
    | .text value => .ok (ascii value)
    | .object _ => .error (.invalidArgument "type error")
  ofString value := .text value
  dump
    | .object members => .ok (ascii "\x7b" ++ List.intercalate (ascii ",") (members.map fun m =>
        ascii "\"" ++ ascii m.1 ++ ascii "\":\"" ++ ascii m.2 ++ ascii "\"") ++ ascii "\x7d")
    | .text value => .ok (ascii "\"" ++ ascii value ++ ascii "\"")

/-- A server that knows one function. -/
def sampleRpcServer : RpcServer SampleJson Unit where
  rpcFunctionsMap cmdName :=
    if cmdName = ascii "ping" then
      some fun _ => pure (.object [("cmd", "ping"), ("msg", "pong"), ("state", "ok")])
    else none
  hmacKey := List.replicate 32 0x42
  app := ()

/-- A message that arrives in two pieces and is read in four is executed and answered. -/
theorem executed_of_run_example : ∃ (trace : List (Session SampleJson Unit × Event SampleJson Unit))
    (s : Session SampleJson Unit), sent trace = samplePing.octets ∧ s.executed = [samplePing.message] ∧
      s.pending = some (.write (Octets.bigEndian 2 samplePong.length ++ samplePong ++ samplePongHmac)) ∧
      ∃ (frames : List Frame) (rest : Bytes), sent trace = frames.flatMap Frame.octets ++ rest ∧
        (∀ f ∈ frames, f.Verified sampleRpcLib sampleRpcServer.hmacKey) ∧
        s.executed = frames.map Frame.message ∧ (s.calls.map Prod.snd).Sublist s.executed := by
  let start := new sampleRpcServer (Vector.replicate 2 0) (Vector.replicate 64 0) 1
  have hstart : Steps (Stepped sampleRpcLib) start [] start := .nil start
  have hrun := (((((hstart.snoc
    (o := .arrive (samplePing.octets.take 10)) rfl).snoc
    (o := .transfer 2) rfl).snoc
    (o := .transfer 8) rfl).snoc
    (o := .arrive (samplePing.octets.drop 10)) rfl).snoc
    (o := .transfer 6) rfl).snoc
    (o := .transfer 64) rfl
  exact ⟨_, _, by decide +kernel, by decide +kernel, by decide +kernel, executed_of_run hrun⟩

end Session

end Galaxy42
