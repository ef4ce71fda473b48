import Galaxy42.Exceptions
import Galaxy42.Lib.Buffer
import Galaxy42.Lib.Steps
import Galaxy42.Lib.XorSum

/-!
# The shared memory socket

`c_turbosocket` passes messages from a client to a server through a header and one buffer in shared
memory. The flag `message_in` of the header tells whether there is a message. Both sides hold the mutex
while they work on the buffer, and wait on a condition variable when the flag is not as they need it; the
mutex is free during the wait. The steps of the model are the sections between these points. A wait may
end at any time.

The flag is tested once, in an `if`, so that a wait that ends early lets the client write over a message
that was not read, and lets the server read one that was not sent. The size zero stands for the size of
the whole buffer when it is read. In a run with neither, what was read and the message in the buffer are
always what was sent (`reliable_throughout_iff`, which has the exact condition too).

Two invariants are carried along a run. The first needs no assumption: only one side holds the mutex, and a
server that was given a buffer was given the size for the message that is there (`Consistent`). The second is
what the sides rely on when no wait ends early: a client that may write finds no message, and a server that
may read finds one (`Ready`). The property itself is kept by exactly those steps that do what the sides rely
on (`reliable_iff_fits`), and in the second invariant all steps do.

The client may write as often as it likes before it sends, and the two sides are any programs that call the
functions in turn. The header and the buffer of the other direction are separate ones, with the same code but
for the size.
-/

namespace Galaxy42

open Toolkit

namespace Turbosocket

/-! ### The states -/

/-- `m_size_of_single_buffer` -/
def sizeOfSingleBuffer : ℕ := 65 * 1024

/-- A message, as it is sent and as it is read. -/
structure Message where
  size : ℕ
  bytes : Bytes
  dstAddress : Block 16
  dstPort : UInt16

/-- Where the client is. -/
inductive Writer where
  /-- Not in a section. -/
  | outside
  /-- In `cond_full.wait`, without the mutex. -/
  | waiting
  /-- With the mutex, and a buffer to write to. -/
  | writing
  deriving DecidableEq, Repr

/-- Where the server is. -/
inductive Reader where
  /-- Not in a section. -/
  | outside
  /-- In `cond_empty.wait`, without the mutex. -/
  | waiting
  /-- With the mutex, and a buffer of a size to read from. -/
  | reading (size : ℕ)
  deriving DecidableEq, Repr

/-- Header and buffer of the direction from the client to the server, and where the two sides are. -/
structure State where
  /-- `message_in` -/
  messageIn : Bool
  /-- `data_size` -/
  dataSize : ℕ
  /-- `destination_ipv6` -/
  destinationIpv6 : Block 16
  /-- `destination_port` -/
  destinationPort : UInt16
  /-- The memory behind the header. -/
  buffer : Bytes
  writer : Writer
  reader : Reader
  /-- The messages that the client has sent. -/
  sent : List Message
  /-- The messages that the server has read. -/
  received : List Message

namespace State

variable (s : State)

/-- Nobody holds the mutex. -/
def Unlocked : Prop :=
  s.writer ≠ .writing ∧ (s.reader = .outside ∨ s.reader = .waiting)

/-- The first octets of the buffer, with the address and the port in the header. -/
def messageOf (size : ℕ) : Message :=
  ⟨size, s.buffer.take size, s.destinationIpv6, s.destinationPort⟩

/-- The size that the server is given. -/
def sizeForRead : ℕ :=
  if s.dataSize = 0 then sizeOfSingleBuffer else s.dataSize

/-! ### The sections -/

/-- `get_buffer_for_write_to_server`, up to its wait. -/
def getBufferForWriteToServer : State :=
  { s with writer := if s.messageIn then .waiting else .writing }

/-- `get_buffer_for_write_to_server`, behind its wait. -/
def writerWakes : State :=
  { s with writer := .writing }

/-- The client writes a piece into the buffer. -/
def fill (offset : ℕ) (piece : Bytes) : State :=
  { s with buffer := Buffer.overwrite s.buffer offset piece }

/-- `send_to_server` -/
def sendToServer (size : ℕ) (dstAddress : Block 16) (dstPort : UInt16) : State :=
  { s with
    messageIn := true
    dataSize := size
    destinationIpv6 := dstAddress
    destinationPort := dstPort
    writer := .outside
    sent := s.sent ++ [⟨size, s.buffer.take size, dstAddress, dstPort⟩] }

/-- `get_buffer_for_read_from_client`, up to its wait. -/
def getBufferForReadFromClient : State :=
  { s with reader := if s.messageIn then .reading s.sizeForRead else .waiting }

/-- `get_buffer_for_read_from_client`, behind its wait. -/
def readerWakes : State :=
  { s with reader := .reading s.sizeForRead }

/-- The server reads the message from a buffer of the size it was given, and calls
`received_from_client`. -/
def receivedFromClient (size : ℕ) : State :=
  { s with
    messageIn := false
    reader := .outside
    received := s.received ++ [s.messageOf size] }

end State

/-- The steps of the two sides. -/
inductive Act where
  | getBufferForWriteToServer
  | writerWakes
  | fill (offset : ℕ) (piece : Bytes)
  | sendToServer (size : ℕ) (dstAddress : Block 16) (dstPort : UInt16)
  | getBufferForReadFromClient
  | readerWakes
  | receivedFromClient

/-- The steps that can be taken. A wait may end whenever the mutex is free. -/
inductive Step : State → Act → State → Prop
  | getBufferForWriteToServer {s : State} (hlock : s.Unlocked) (hw : s.writer = .outside) :
      Step s .getBufferForWriteToServer s.getBufferForWriteToServer
  | writerWakes {s : State} (hlock : s.Unlocked) (hw : s.writer = .waiting) :
      Step s .writerWakes s.writerWakes
  | fill {s : State} {offset : ℕ} {piece : Bytes} (hw : s.writer = .writing)
      (hpiece : offset + piece.length ≤ sizeOfSingleBuffer) :
      Step s (.fill offset piece) (s.fill offset piece)
  | sendToServer {s : State} {size : ℕ} {dstAddress : Block 16} {dstPort : UInt16}
      (hw : s.writer = .writing) (hsize : size ≤ sizeOfSingleBuffer) :
      Step s (.sendToServer size dstAddress dstPort) (s.sendToServer size dstAddress dstPort)
  | getBufferForReadFromClient {s : State} (hlock : s.Unlocked) (hr : s.reader = .outside) :
      Step s .getBufferForReadFromClient s.getBufferForReadFromClient
  | readerWakes {s : State} (hlock : s.Unlocked) (hr : s.reader = .waiting) :
      Step s .readerWakes s.readerWakes
  | receivedFromClient {s : State} {size : ℕ} (hr : s.reader = .reading size) :
      Step s .receivedFromClient (s.receivedFromClient size)

namespace State

/-- The socket has been opened: there is no message, and nobody is in a section. -/
structure IsNew (s : State) : Prop where
  messageIn : s.messageIn = false
  writer : s.writer = .outside
  reader : s.reader = .outside
  sent : s.sent = []
  received : s.received = []

variable (s : State)

/-- The message that was sent and not read. -/
def inFlight : List Message :=
  if s.messageIn then [s.messageOf s.dataSize] else []

/-- What was read, and the message that is still there, are what was sent. Each message has its size, its
address and its port with it. -/
def Reliable : Prop :=
  s.sent = s.received ++ s.inFlight

/-- Only one side holds the mutex, and the server was given the size for the message that is there. It holds
in every run, also when a wait ends early. -/
structure Consistent : Prop where
  exclusive : s.writer = .writing → s.reader = .outside ∨ s.reader = .waiting
  size : ∀ size, s.reader = .reading size → size = s.sizeForRead

/-- The step does what the sides rely on: the client leaves the message that is there, if any, and sends only
when there is none, and the server reads when there is one, of a size other than zero. All other steps fit. -/
def Fits : Act → Prop
  | .fill offset piece => s.messageIn = true →
      (Buffer.overwrite s.buffer offset piece).take s.dataSize = s.buffer.take s.dataSize
  | .sendToServer _ _ _ => s.messageIn = false
  | .receivedFromClient => s.messageIn = true ∧ s.dataSize ≠ 0
  | _ => True

/-- The step is no early end of a wait, and sends no message of size zero. A wait may end early in the source,
as it is not in a loop. -/
def NotEarly : Act → Prop
  | .writerWakes => s.messageIn = false
  | .readerWakes => s.messageIn = true
  | .sendToServer size _ _ => size ≠ 0
  | _ => True

/-- What the sides rely on when no wait ends early. -/
structure Ready : Prop where
  writing : s.writer = .writing → s.messageIn = false
  reading : ∀ size, s.reader = .reading size → s.messageIn = true
  dataSize : s.messageIn = true → s.dataSize ≠ 0

end State

/-! ### What one step keeps -/

variable {s s' : State} {act : Act}

private theorem State.IsNew.consistent (h : s.IsNew) : s.Consistent where
  exclusive _ := .inl h.reader
  size _ hr := nomatch h.reader.symm.trans hr

private theorem State.IsNew.reliable (h : s.IsNew) : s.Reliable := by
  simp [State.Reliable, State.inFlight, h.messageIn, h.sent, h.received]

private theorem State.IsNew.ready (h : s.IsNew) : s.Ready where
  writing hw := nomatch h.writer.symm.trans hw
  reading _ hr := nomatch h.reader.symm.trans hr
  dataSize hin := nomatch h.messageIn.symm.trans hin

/-- The mutex keeps the two sides apart. -/
private theorem consistent_of_step (h : s.Consistent) (hstep : Step s act s') : s'.Consistent := by
  cases hstep with
  | getBufferForWriteToServer hlock hw => exact ⟨fun _ => hlock.2, h.size⟩
  | writerWakes hlock hw => exact ⟨fun _ => hlock.2, h.size⟩
  | fill hw hpiece => exact ⟨h.exclusive, h.size⟩
  | sendToServer hw hsize =>
    -- the server is not reading, so its size does not matter
    refine ⟨nofun, fun size hr => ?_⟩
    rcases h.exclusive hw with hout | hwait
    · exact nomatch hout.symm.trans hr
    · exact nomatch hwait.symm.trans hr
  | getBufferForReadFromClient hlock hr =>
    refine ⟨fun hwriting => absurd hwriting hlock.1, fun size hreading => ?_⟩
    rw [State.getBufferForReadFromClient] at hreading
    split at hreading
    · exact (Reader.reading.inj hreading).symm
    · exact nomatch hreading
  | readerWakes hlock hr =>
    exact ⟨fun hwriting => absurd hwriting hlock.1, fun size hreading =>
      (Reader.reading.inj hreading).symm⟩
  | receivedFromClient hr => exact ⟨fun _ => .inl rfl, nofun⟩

/-- What was sent stays in order exactly when the step is one that the sides rely on. -/
private theorem reliable_iff_fits (hcons : s.Consistent) (h : s.Reliable) (hstep : Step s act s') :
    s'.Reliable ↔ s.Fits act := by
  cases hstep with
  | getBufferForWriteToServer hlock hw => exact iff_of_true h trivial
  | writerWakes hlock hw => exact iff_of_true h trivial
  | @fill offset piece hw hpiece =>
    cases hin : s.messageIn with
    | false =>
      refine iff_of_true ?_ (fun hin' => nomatch hin.symm.trans hin')
      simpa [State.Reliable, State.inFlight, State.fill, hin] using h
    | true =>
      -- the message that is there begins with the octets that the buffer has now
      simp only [State.Reliable, State.inFlight, hin, if_true] at h
      simp only [State.Reliable, State.inFlight, State.fill, State.Fits, hin, if_true, h,
        State.messageOf, List.append_cancel_left_eq, List.cons.injEq, Message.mk.injEq, and_true,
        true_and, forall_true_left]
      exact eq_comm
  | @sendToServer size dstAddress dstPort hw hsize =>
    cases hin : s.messageIn with
    | false =>
      refine iff_of_true ?_ hin
      simp only [State.Reliable, State.inFlight, hin, Bool.false_eq_true, if_false,
        List.append_nil] at h
      simp [State.Reliable, State.inFlight, State.sendToServer, State.messageOf, h]
    | true =>
      -- two messages were sent since the last one that was read, and only one is there
      refine iff_of_false (fun hafter => ?_) (fun hin' => nomatch hin.symm.trans hin')
      simp only [State.Reliable, State.inFlight, hin, if_true] at h
      have hlength := congrArg List.length hafter
      simp [State.inFlight, State.sendToServer, h] at hlength
  | getBufferForReadFromClient hlock hr => exact iff_of_true h trivial
  | readerWakes hlock hr => exact iff_of_true h trivial
  | @receivedFromClient size hr =>
    rw [hcons.size size hr]
    cases hin : s.messageIn with
    | false =>
      -- a message was read that was not sent
      refine iff_of_false (fun hafter => ?_) (fun hfits => nomatch hin.symm.trans hfits.1)
      simp only [State.Reliable, State.inFlight, hin, Bool.false_eq_true, if_false,
        List.append_nil] at h
      have hlength := congrArg List.length hafter
      simp [State.inFlight, State.receivedFromClient, h] at hlength
    | true =>
      simp only [State.Reliable, State.inFlight, hin, if_true] at h
      simp only [State.Reliable, State.inFlight, State.receivedFromClient, State.Fits, hin, h,
        Bool.false_eq_true, if_false, List.append_nil, List.append_cancel_left_eq, true_and]
      have hsize : s.dataSize = s.sizeForRead ↔ s.dataSize ≠ 0 := by
        unfold State.sizeForRead sizeOfSingleBuffer
        split_ifs <;> omega
      rw [← hsize]
      constructor
      · exact fun heq => congrArg Message.size (List.cons.inj heq).1
      · exact fun heq => congrArg (fun size => [s.messageOf size]) heq

/-- When no wait ends early, the sides can rely on what they have tested. -/
private theorem ready_of_step (h : s.Ready) (hstep : Step s act s') (hearly : s.NotEarly act) : s'.Ready := by
  cases hstep with
  | getBufferForWriteToServer hlock hw =>
    refine ⟨fun hwriting => ?_, h.reading, h.dataSize⟩
    rw [State.getBufferForWriteToServer] at hwriting ⊢
    split at hwriting
    · exact nomatch hwriting
    · next hin => exact eq_false_of_ne_true hin
  | writerWakes hlock hw => exact ⟨fun _ => hearly, h.reading, h.dataSize⟩
  | fill hw hpiece => exact ⟨h.writing, h.reading, h.dataSize⟩
  | sendToServer hw hsize => exact ⟨nofun, fun _ _ => rfl, fun _ => hearly⟩
  | getBufferForReadFromClient hlock hr =>
    refine ⟨h.writing, fun size hreading => ?_, h.dataSize⟩
    rw [State.getBufferForReadFromClient] at hreading ⊢
    split at hreading
    · next hin => exact hin
    · exact nomatch hreading
  | readerWakes hlock hr => exact ⟨h.writing, fun _ _ => hearly, h.dataSize⟩
  | receivedFromClient hr =>
    exact ⟨fun _ => rfl, nofun, nofun⟩

/-- Then every step is one that the sides rely on. -/
private theorem fits_of_ready (h : s.Ready) (hstep : Step s act s') : s.Fits act := by
  cases hstep with
  | getBufferForWriteToServer hlock hw => trivial
  | writerWakes hlock hw => trivial
  | fill hw hpiece => exact fun hin => nomatch (h.writing hw).symm.trans hin
  | sendToServer hw hsize => exact h.writing hw
  | getBufferForReadFromClient hlock hr => trivial
  | readerWakes hlock hr => trivial
  | receivedFromClient hr => exact ⟨h.reading _ hr, h.dataSize (h.reading _ hr)⟩

/-! ### Runs -/

/-- In every run of an open socket in which no wait ends early and no message has size zero, what was read and
the message that is there are always what was sent. This holds in a run exactly as long as the client does not
write over a message, and the server reads only messages that are there and not of size zero. Filling the
buffer, sending, reading and waiting may come in any order that the sides allow, with any sizes and pieces. -/
theorem reliable_throughout_iff {trace : List (State × Act)} (hnew : s.IsNew)
    (hrun : Steps Step s trace s') :
    (Steps.All State.NotEarly trace → Steps.Throughout State.Reliable trace s') ∧
      (Steps.Throughout State.Reliable trace s' ↔ Steps.All State.Fits trace) := by
  have hexact := Steps.invariant_iff (I := fun s : State => s.Consistent ∧ s.Reliable)
    (H := State.Fits)
    (fun s act s' hI hstep => by
      rw [and_iff_right (consistent_of_step hI.1 hstep)]
      exact reliable_iff_fits hI.1 hI.2 hstep) hrun ⟨hnew.consistent, hnew.reliable⟩
  have hcons := Steps.invariant (I := State.Consistent) (H := fun _ _ => True)
    (fun s act s' hI _ hstep => consistent_of_step hI hstep) hrun hnew.consistent fun _ _ => trivial
  have hiff : Steps.Throughout State.Reliable trace s' ↔ Steps.All State.Fits trace := by
    rw [← hexact]
    constructor
    · exact fun h => ⟨fun p hp => ⟨hcons.1 p hp, h.1 p hp⟩, hcons.2, h.2⟩
    · exact fun h => ⟨fun p hp => (h.1 p hp).2, h.2.2⟩
  refine ⟨fun hearly => ?_, hiff⟩
  have hready := Steps.invariant
    (I := fun s : State => s.Ready ∧ s.Consistent ∧ s.Reliable) (H := State.NotEarly)
    (fun s act s' hI hearly hstep => ⟨ready_of_step hI.1 hstep hearly,
      consistent_of_step hI.2.1 hstep,
      (reliable_iff_fits hI.2.1 hI.2.2 hstep).mpr (fits_of_ready hI.1 hstep)⟩)
    hrun ⟨hnew.ready, hnew.consistent, hnew.reliable⟩ hearly
  exact ⟨fun p hp => (hready.1 p hp).2.2, hready.2.2.2⟩

/-- A socket as the client opens it, with a buffer of zeros. -/
def opened : State where
  messageIn := false
  dataSize := 0
  destinationIpv6 := ⟨List.replicate 16 0, rfl⟩
  destinationPort := 0
  buffer := List.replicate sizeOfSingleBuffer 0
  writer := .outside
  reader := .outside
  sent := []
  received := []

/-- The steps by which the client sends the first octets of the buffer, and the server reads them. -/
def sendAndRead (size : ℕ) : List Act :=
  [.getBufferForWriteToServer, .sendToServer size ⟨List.replicate 16 1, rfl⟩ 80,
    .getBufferForReadFromClient, .receivedFromClient]

/-- The socket after the client has sent a message of some size, and before the server reads it. -/
def afterSend (size : ℕ) : State :=
  opened.getBufferForWriteToServer.sendToServer size ⟨List.replicate 16 1, rfl⟩ 80

/-- The server is given the buffer, with the size of the message or of the buffer, and reads. -/
theorem steps_sendAndRead (size : ℕ) (hsize : size ≤ sizeOfSingleBuffer) :
    ∃ trace, trace.map Prod.snd = sendAndRead size ∧ Steps Step opened trace
      ((afterSend size).getBufferForReadFromClient.receivedFromClient (afterSend size).sizeForRead) := by
  have hunlocked : opened.Unlocked := ⟨nofun, .inl rfl⟩
  refine ⟨_, ?_, (((Steps.nil opened).snoc (.getBufferForWriteToServer hunlocked rfl)).snoc
    (.sendToServer rfl hsize)).snoc (.getBufferForReadFromClient ⟨nofun, .inl rfl⟩ rfl) |>.snoc
    (.receivedFromClient rfl)⟩
  rfl

/-- A message of one octet arrives. -/
theorem reliable_throughout_iff_example : ∃ trace s', trace.map Prod.snd = sendAndRead 1 ∧
    Steps Step opened trace s' ∧ Steps.Throughout State.Reliable trace s' := by
  obtain ⟨trace, hacts, hrun⟩ := steps_sendAndRead 1 (by decide)
  refine ⟨trace, _, hacts, hrun, (reliable_throughout_iff ⟨rfl, rfl, rfl, rfl, rfl⟩ hrun).1 ?_⟩
  intro p hp
  have hact : p.2 ∈ sendAndRead 1 := hacts ▸ List.mem_map_of_mem hp
  simp only [sendAndRead, List.mem_cons, List.not_mem_nil, or_false] at hact
  rcases hact with hact | hact | hact | hact <;> simp [hact, State.NotEarly]

/-- A message of size zero is read as one of the size of the buffer. -/
theorem not_reliable_throughout : ¬ ∀ (s s' : State) (trace : List (State × Act)), s.IsNew →
    Steps Step s trace s' → Steps.Throughout State.Reliable trace s' := by
  intro h
  obtain ⟨trace, -, hrun⟩ := steps_sendAndRead 0 (by decide)
  have hreliable := (h _ _ _ ⟨rfl, rfl, rfl, rfl, rfl⟩ hrun).2
  have hsize := congrArg (List.map Message.size) hreliable
  exact absurd hsize (by decide)

end Turbosocket

end Galaxy42
