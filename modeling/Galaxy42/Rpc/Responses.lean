import Galaxy42.Rpc.Authentication

/-!
# Responses of an RPC session

`send_response` puts the length of a response in front of it, and gives it to `async_write_some` together
with its HMAC. The socket may take only a part of the octets, and nobody writes the others: the next message
is read then. The HMAC is in a local array, which is gone when the socket takes the octets after
`send_response` has returned. A response that is too long for its length fails an assertion.

So the client receives the length, the response and the HMAC exactly when the length fits and is not zero,
the socket takes all octets, and it takes them at once or finds the HMAC still in memory (`responds_iff`).

What the socket does is a value with three parts (`Acceptance`): how many octets it takes, whether it does so
before `send_response` has returned, and what it finds in the place of the local array otherwise. All three
are outside of the program, and the condition is on them and on the response.

A client reads a length, so many octets, and an HMAC (`readFrame`). That it recovers the response is stated
for such a reader of what it has received before the next message is read, and not only for the octets.
-/

namespace Galaxy42

open Toolkit Program

namespace Session

variable {Json τ : Type} (lib : RpcLib Json)

/-! ### What the client receives -/

/-- How the socket takes the octets of `async_write_some`. -/
structure Acceptance where
  /-- How many octets it takes. -/
  count : ℕ
  /-- It takes them before `send_response` returns. -/
  atOnce : Bool
  /-- What is found later where the array with the HMAC was. -/
  stack : Vector UInt8 64

/-- The octets that the client receives of the write that is under way. -/
def delivered (s : Session Json τ) (acceptance : Acceptance) : Bytes :=
  match s.pending with
  | some (.write octets) =>
    (if acceptance.atOnce then octets else s.writeData ++ acceptance.stack.toList).take acceptance.count
  | _ => []

private theorem length_delivered_le (s : Session Json τ) (acceptance : Acceptance) :
    (s.delivered acceptance).length ≤ acceptance.count := by
  unfold delivered
  split
  · exact List.length_take_le _ _
  · exact Nat.zero_le _

/-- A reader of the framing takes a length of two octets, so many octets of text, and an HMAC. -/
def readFrame : Bytes → Option (Bytes × Bytes)
  | high :: low :: rest =>
    let size := high.toNat * 256 + low.toNat
    if rest.length = size + 64 then some (rest.take size, rest.drop size) else none
  | _ => none

/-- The client receives the length, the text and the HMAC, and recovers the text from them, before the next
message is read; or the text is too long, and the session is closed. The octets that the client has got are
read as a frame by the client's own rules. -/
def Responds (s : Session Json τ) (jsonResponse : Json) (text hmac : Bytes) (acceptance : Acceptance) :
    Prop :=
  if text.length ≤ 65535 then
    ∃ s₁ s₂, sendResponse lib jsonResponse s = .ok () s₁ ∧ Event.run lib .written s₁ = .ok () s₂ ∧
      s₂.pending = some (.read .dataSize 0) ∧
      s₁.delivered acceptance = Octets.bigEndian 2 text.length ++ text ++ hmac ∧
      readFrame (s₁.delivered acceptance) = some (text, hmac)
  else ∃ s₁, sendResponse lib jsonResponse s = .ok () s₁ ∧ s₁.pending = none

/-! ### How a response is sent -/

section

variable {lib} {s : Session Json τ} {jsonResponse : Json} {text hmac : Bytes}

/-- A response with a length that fits is put into the buffer and written. -/
private theorem sendResponse_of_le (hdump : lib.dump jsonResponse = .ok text)
    (hauth : lib.cryptoAuth text s.rpcServer.hmacKey = (hmac, 0)) (hne : text ≠ [])
    (hle : text.length ≤ 65535) :
    sendResponse lib jsonResponse s = .ok () { s with
      writeData := Octets.bigEndian 2 text.length ++ text
      pending := some (.write (Octets.bigEndian 2 text.length ++ text ++ hmac)) } := by
  simp [sendResponse, Program.catching, bind_apply, fromExcept, hdump, assertThat_apply, checkThat_apply,
    hauth, hne, hle]

/-- One that is too long aborts the process. -/
private theorem sendResponse_of_lt (hdump : lib.dump jsonResponse = .ok text) (hlt : 65535 < text.length) :
    sendResponse lib jsonResponse s = .error .abort s := by
  simp [sendResponse, Program.catching, bind_apply, fromExcept, hdump, assertThat_apply, not_le.mpr hlt]

/-- An empty one would close the session. -/
private theorem sendResponse_nil (hdump : lib.dump jsonResponse = .ok []) :
    ∃ s₁, sendResponse lib jsonResponse s = .ok () s₁ ∧ s₁.pending = none := by
  simp [sendResponse, Program.catching, bind_apply, fromExcept, hdump, assertThat_apply, checkThat_apply,
    deleteMe]

/-- A reader recovers a text with a length that fits. -/
private theorem readFrame_octets (hle : text.length ≤ 65535) (hlength : hmac.length = 64) :
    readFrame (Octets.bigEndian 2 text.length ++ text ++ hmac) = some (text, hmac) := by
  have hlt : text.length < 256 ^ 2 := hle.trans_lt (by decide)
  have hsize : (UInt8.ofNat (text.length / 256 % 256)).toNat * 256 +
      (UInt8.ofNat (text.length % 256)).toNat = text.length := by
    rw [Octets.toNat_ofNat_digit, Octets.toNat_ofNat_digit]
    omega
  simp only [Octets.bigEndian, pow_one, pow_zero, Nat.div_one, List.cons_append, List.nil_append]
  rw [readFrame]
  simp only [hsize, List.length_append, hlength]
  simp

/-- What was taken of some octets is what was meant exactly when all were taken and were those. -/
private theorem take_eq_iff_of_length_eq {octets meant : Bytes} (h : octets.length = meant.length)
    (count : ℕ) :
    octets.take count = meant ↔ meant.length ≤ count ∧ octets = meant := by
  constructor
  · intro htake
    have hlength := congrArg List.length htake
    rw [List.length_take] at hlength
    have hcount : meant.length ≤ count := by omega
    exact ⟨hcount, by rwa [List.take_of_length_le (by omega)] at htake⟩
  · rintro ⟨hcount, rfl⟩
    exact List.take_of_length_le hcount

/-- A response reaches the client exactly when its length fits and is not zero, and the socket takes all
octets, at once or while the HMAC is still in memory. The HMAC is a local variable of the function that starts
the writing, so octets of it that are taken later come from memory that is free. -/
theorem responds_iff (hdump : lib.dump jsonResponse = .ok text)
    (hauth : lib.cryptoAuth text s.rpcServer.hmacKey = (hmac, 0)) (hlength : hmac.length = 64)
    (acceptance : Acceptance) :
    Responds lib s jsonResponse text hmac acceptance ↔
      1 ≤ text.length ∧ text.length ≤ 65535 ∧ text.length + 66 ≤ acceptance.count ∧
        (acceptance.atOnce = true ∨ acceptance.stack.toList = hmac) := by
  unfold Responds
  split_ifs with hle
  · rcases eq_or_ne text [] with rfl | hne
    · obtain ⟨s', hsend, hpending⟩ := sendResponse_nil hdump (s := s)
      refine iff_of_false ?_ fun h => absurd h.1 (by decide)
      rintro ⟨s₁, s₂, hsend', -, -, hdelivered, -⟩
      obtain rfl := (EStateM.Result.ok.inj (hsend.symm.trans hsend')).2
      rw [delivered, hpending] at hdelivered
      simp [Octets.bigEndian] at hdelivered
    · have hsend := sendResponse_of_le hdump hauth hne hle (s := s)
      have hpos := List.length_pos_of_ne_nil hne
      let front := Octets.bigEndian 2 text.length ++ text
      have hfront : front.length = text.length + 2 := by
        rw [List.length_append, Octets.length_bigEndian, add_comm]
      have hmeant : (front ++ hmac).length = text.length + 66 := by
        rw [List.length_append, hfront, hlength]
      let found := if acceptance.atOnce then front ++ hmac else front ++ acceptance.stack.toList
      have hfound : found.length = (front ++ hmac).length := by
        dsimp only [found]
        split_ifs
        · rfl
        · simp only [List.length_append, Vector.length_toList, hlength]
      have hsame : found = front ++ hmac ↔ acceptance.atOnce = true ∨ acceptance.stack.toList = hmac := by
        dsimp only [found]
        split_ifs with hnow
        · exact iff_of_true rfl (.inl hnow)
        · rw [List.append_cancel_left_eq, or_iff_right hnow]
      have hiff := take_eq_iff_of_length_eq hfound acceptance.count
      rw [hmeant, hsame] at hiff
      constructor
      · rintro ⟨s₁, s₂, hsend', -, -, hdelivered, -⟩
        obtain rfl := (EStateM.Result.ok.inj (hsend.symm.trans hsend')).2
        exact ⟨hpos, hle, hiff.mp hdelivered⟩
      · rintro ⟨-, -, htaken⟩
        have hdelivered := hiff.mpr htaken
        refine ⟨_, _, hsend, rfl, rfl, hdelivered, ?_⟩
        rw [← readFrame_octets hle hlength]
        exact congrArg readFrame hdelivered
  · refine iff_of_false ?_ fun h => hle h.2.1
    rintro ⟨s₁, hsend, -⟩
    rw [sendResponse_of_lt hdump (not_le.mp hle)] at hsend
    cases hsend

end

/-! ### A response that is taken in two parts -/

/-- A new session. -/
private def sampleSession : Session SampleJson Unit :=
  new sampleRpcServer (Vector.replicate 2 0) (Vector.replicate 64 0) 1

/-- The response of the sample. -/
private def samplePongJson : SampleJson :=
  .object [("cmd", "ping"), ("id", "1-srv500"), ("msg", "pong"), ("state", "ok")]

private theorem dump_samplePongJson : sampleRpcLib.dump samplePongJson = .ok samplePong := by
  decide +kernel

private theorem cryptoAuth_samplePong :
    sampleRpcLib.cryptoAuth samplePong sampleSession.rpcServer.hmacKey = (samplePongHmac, 0) := by
  decide +kernel

/-- All octets are taken at once. -/
theorem responds_iff_example :
    Responds sampleRpcLib sampleSession samplePongJson samplePong samplePongHmac
      ⟨1000, true, Vector.replicate 64 0⟩ :=
  (responds_iff dump_samplePongJson cryptoAuth_samplePong rfl _).mpr
    ⟨by decide, by decide, by decide, .inl rfl⟩

/-- Only twenty octets are taken. -/
theorem not_responds : ¬ ∀ (lib : RpcLib SampleJson) (s : Session SampleJson Unit) (jsonResponse : SampleJson)
    (text hmac : Bytes) (acceptance : Acceptance), lib.dump jsonResponse = .ok text →
      lib.cryptoAuth text s.rpcServer.hmacKey = (hmac, 0) → hmac.length = 64 →
        Responds lib s jsonResponse text hmac acceptance := by
  intro h
  have hresponds := h sampleRpcLib sampleSession samplePongJson samplePong samplePongHmac
    ⟨20, true, Vector.replicate 64 0⟩ dump_samplePongJson cryptoAuth_samplePong rfl
  obtain ⟨s₁, s₂, hsend, -, -, hdelivered, -⟩ := hresponds
  have hlength : (Octets.bigEndian 2 samplePong.length ++ samplePong ++ samplePongHmac).length ≤ 20 := by
    rw [← hdelivered]
    exact length_delivered_le s₁ _
  revert hlength
  decide

end Session

end Galaxy42
