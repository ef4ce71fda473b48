import Galaxy42.Exceptions
import Galaxy42.Lib.Octets

/-!
# The reassembly of frames in the GUI

The RPC server sends frames: the size of a text in two octets, the text, and its HMAC. `dataeater` is fed
what is read from the socket, and puts each text with its HMAC into a list of commands. It keeps what it
has of a frame that is not complete, in one of two ways: as octets that it has not looked at, or as a size
and a part of the command. `Holds` covers both, so that only the octets count.

Each call of `eat` takes at most one frame out of the octets it has (`holds_eat_of_complete`), and leaves
the octets behind that frame to the next call.

There are three cases for a call, one lemma each: there is no size yet, and the octets are kept
(`holds_eat_of_lt_two`); there is a size but not the whole frame (`holds_eat_of_incomplete`); and the frame
is complete. In all of them the octets that were held are those from before with the new ones behind them, as
far as they were not made a command. The loop of the source, which takes one octet in each round, is followed
once, for both ways of keeping a part (`eat_eq_readFrame`).

The eater does not check the HMAC. It only knows its length, by which a frame is longer than its size says.
-/

namespace Galaxy42

open Toolkit Octets

/-- `crypto_auth_hmacsha512_BYTES` -/
def cryptoAuthHmacsha512Bytes : ℕ := 64

/-- `dataeater`. The index counts the octets of the command that is being collected, and the size is that of
the frame without its HMAC. -/
structure Dataeater where
  /-- `m_internal_buffer` -/
  internalBuffer : Bytes
  /-- `m_commands_list` -/
  commandsList : List Bytes
  /-- `m_last_command` -/
  lastCommand : Bytes
  /-- `m_is_processing` -/
  isProcessing : Bool
  /-- `m_frame_size` -/
  frameSize : ℕ
  /-- `m_current_index` -/
  currentIndex : ℕ

namespace Dataeater

/-- The constructor. Two of the fields hold whatever was in memory. They are set when the first frame begins,
before they are read. -/
def new (frameSize currentIndex : ℕ) : Dataeater where
  internalBuffer := []
  commandsList := []
  lastCommand := []
  isProcessing := false
  frameSize := frameSize
  currentIndex := currentIndex

/-- The command that was collected is complete; some octets are left. The command is the text with its HMAC. -/
def pushCommand (d : Dataeater) (buffer : Bytes) : Dataeater :=
  { d with
    internalBuffer := buffer
    commandsList := d.commandsList ++ [d.lastCommand]
    lastCommand := []
    isProcessing := false }

/-- The loop of `continiueProcessing`, over the octets in the internal buffer. It ends with the frame, also
when there are octets of another frame behind it, which stay in the buffer. -/
def readFrame (d : Dataeater) : Bytes → Dataeater
  | [] =>
    if d.currentIndex = d.frameSize + cryptoAuthHmacsha512Bytes then d.pushCommand []
    else { d with internalBuffer := [] }
  | b :: buffer =>
    if d.currentIndex = d.frameSize + cryptoAuthHmacsha512Bytes then d.pushCommand (b :: buffer)
    else readFrame
      { d with lastCommand := d.lastCommand ++ [b], currentIndex := d.currentIndex + 1 } buffer

/-- The size that `pop_msg_size` gives. The more significant octet comes first. -/
def msgSize (high low : UInt8) : ℕ :=
  high.toNat * 256 + low.toNat

/-- `continiueProcessing`. Where no frame is being read, one is begun as soon as there are two octets. -/
def continiueProcessing (d : Dataeater) : Dataeater :=
  if d.isProcessing then d.readFrame d.internalBuffer
  else
    match d.internalBuffer with
    | high :: low :: buffer =>
      { d with frameSize := msgSize high low, currentIndex := 0, isProcessing := true }.readFrame buffer
    | _ => d

/-- `eat`. At most one frame becomes complete by it, however many octets there are. -/
def eat (d : Dataeater) (data : Bytes) : Dataeater :=
  { d with internalBuffer := d.internalBuffer ++ data }.continiueProcessing

/-- `getLastCommand`. The command stays in the list. -/
def getLastCommand (d : Dataeater) : Bytes :=
  d.commandsList.getLast?.getD []

/-! ### The loop -/

variable {d : Dataeater}

/-- With enough octets for the rest of the frame, the command is complete. -/
private theorem readFrame_of_le {buffer : Bytes} {missing : ℕ}
    (hindex : d.currentIndex = d.lastCommand.length)
    (hmissing : d.lastCommand.length + missing = d.frameSize + cryptoAuthHmacsha512Bytes)
    (hle : missing ≤ buffer.length) :
    d.readFrame buffer =
      { d with
        currentIndex := d.frameSize + cryptoAuthHmacsha512Bytes
        lastCommand := d.lastCommand ++ buffer.take missing }.pushCommand (buffer.drop missing) := by
  induction buffer generalizing d missing with
  | nil =>
    obtain rfl : missing = 0 := Nat.le_zero.mp hle
    have hend : d.currentIndex = d.frameSize + cryptoAuthHmacsha512Bytes := hindex.trans hmissing
    rw [readFrame, if_pos hend]
    simp [pushCommand, hend]
  | cons b buffer ih =>
    cases missing with
    | zero =>
      have hend : d.currentIndex = d.frameSize + cryptoAuthHmacsha512Bytes := hindex.trans hmissing
      rw [readFrame, if_pos hend]
      simp [pushCommand, hend]
    | succ missing =>
      have hend : d.currentIndex ≠ d.frameSize + cryptoAuthHmacsha512Bytes := by omega
      have hstep : d.lastCommand.length + 1 + missing =
          d.frameSize + cryptoAuthHmacsha512Bytes := by omega
      rw [readFrame, if_neg hend, ih (by simp [hindex]) (by simpa using hstep)
        (Nat.le_of_succ_le_succ hle)]
      simp

/-- Otherwise all octets go to the part of the command. -/
private theorem readFrame_of_lt {buffer : Bytes} (hindex : d.currentIndex = d.lastCommand.length)
    (hlt : d.lastCommand.length + buffer.length < d.frameSize + cryptoAuthHmacsha512Bytes) :
    d.readFrame buffer =
      { d with
        internalBuffer := []
        lastCommand := d.lastCommand ++ buffer
        currentIndex := d.lastCommand.length + buffer.length } := by
  induction buffer generalizing d with
  | nil =>
    have hend : d.currentIndex ≠ d.frameSize + cryptoAuthHmacsha512Bytes := by
      rw [List.length_nil] at hlt
      omega
    rw [readFrame, if_neg hend]
    simp [hindex]
  | cons b buffer ih =>
    rw [List.length_cons] at hlt
    have hend : d.currentIndex ≠ d.frameSize + cryptoAuthHmacsha512Bytes := by omega
    rw [readFrame, if_neg hend, ih (by simp [hindex]) (by simp; omega)]
    simp [Nat.add_comm, Nat.add_left_comm]

/-! ### What is held -/

/-- The eater has some commands, and octets behind them that were not made a command yet. Between two frames
the octets are in the buffer. Within a frame the buffer is empty, and its two octets of size are not kept. -/
structure Holds (d : Dataeater) (commands : List Bytes) (octets : Bytes) : Prop where
  commandsList : d.commandsList = commands
  octets : (d.isProcessing = false ∧ d.lastCommand = [] ∧ d.internalBuffer = octets) ∨
    (d.isProcessing = true ∧ d.internalBuffer = [] ∧ d.currentIndex = d.lastCommand.length ∧
      d.lastCommand.length < d.frameSize + cryptoAuthHmacsha512Bytes ∧
      ∃ high low, d.frameSize = msgSize high low ∧ octets = high :: low :: d.lastCommand)

theorem holds_new (frameSize currentIndex : ℕ) : (new frameSize currentIndex).Holds [] [] :=
  ⟨rfl, .inl ⟨rfl, rfl, rfl⟩⟩

variable {commands : List Bytes} {octets data : Bytes}

/-- Before there is a size, the octets are kept. -/
theorem holds_eat_of_lt_two (h : d.Holds commands octets) (hlt : (octets ++ data).length < 2) :
    (d.eat data).Holds commands (octets ++ data) := by
  obtain ⟨rfl, ⟨hproc, hlast, rfl⟩ | ⟨-, -, -, -, high, low, -, rfl⟩⟩ := h
  · have hkeep : d.eat data = { d with internalBuffer := d.internalBuffer ++ data } := by
      rw [eat, continiueProcessing, if_neg (by simp [hproc])]
      split
      next high low rest heq =>
        rw [show d.internalBuffer ++ data = high :: low :: rest from heq, List.length_cons,
          List.length_cons] at hlt
        omega
      next => rfl
    rw [hkeep]
    exact ⟨rfl, .inl ⟨hproc, hlast, rfl⟩⟩
  · rw [List.cons_append, List.cons_append, List.length_cons, List.length_cons] at hlt
    omega

/-- The octets of a frame, up to its end or less, make the eater go through its loop. -/
theorem eat_eq_readFrame (h : d.Holds commands octets) {high low : UInt8} {rest : Bytes}
    (hall : octets ++ data = high :: low :: rest) :
    ∃ d' : Dataeater, ∃ buffer, d.eat data = d'.readFrame buffer ∧ d'.commandsList = commands ∧
      d'.isProcessing = true ∧ d'.frameSize = msgSize high low ∧
      d'.currentIndex = d'.lastCommand.length ∧
      d'.lastCommand.length ≤ d'.frameSize + cryptoAuthHmacsha512Bytes ∧
      d'.lastCommand ++ buffer = rest := by
  obtain ⟨rfl, ⟨hproc, hlast, rfl⟩ | ⟨hproc, hbuffer, hindex, hlt, high', low', hsize, rfl⟩⟩ := h
  · refine ⟨{ d with
      internalBuffer := d.internalBuffer ++ data
      frameSize := msgSize high low
      currentIndex := 0
      isProcessing := true }, rest, ?_, rfl, rfl, rfl, ?_, ?_, ?_⟩
    · rw [eat, continiueProcessing, if_neg (by simp [hproc])]
      simp only [hall]
    · simp [hlast]
    · simp [hlast]
    · simp [hlast]
  · simp only [List.cons_append, List.cons.injEq] at hall
    obtain ⟨rfl, rfl, rfl⟩ := hall
    refine ⟨{ d with internalBuffer := d.internalBuffer ++ data }, data, ?_, rfl, hproc, hsize, hindex,
      hlt.le, rfl⟩
    rw [eat, continiueProcessing, if_pos hproc, hbuffer]
    rfl

/-- A frame that is complete becomes a command, and what is behind it is kept. -/
theorem holds_eat_of_complete (h : d.Holds commands octets) {high low : UInt8} {command rest : Bytes}
    (hlength : command.length = msgSize high low + cryptoAuthHmacsha512Bytes)
    (hall : octets ++ data = high :: low :: (command ++ rest)) :
    (d.eat data).Holds (commands ++ [command]) rest := by
  obtain ⟨d', buffer, heat, hcommands, -, hsize, hindex, hle, hrest⟩ := eat_eq_readFrame h hall
  have hlengths := congrArg List.length hrest
  simp only [List.length_append] at hlengths
  obtain ⟨missing, hmissing⟩ := Nat.exists_eq_add_of_le hle
  have hsplit : d'.lastCommand ++ buffer.take missing = command ∧ buffer.drop missing = rest := by
    refine List.append_inj ?_ ?_
    · rw [List.append_assoc, List.take_append_drop, hrest]
    · rw [List.length_append, List.length_take]
      omega
  rw [heat, readFrame_of_le hindex hmissing.symm (by omega), hsplit.1, hsplit.2]
  exact ⟨by simp [pushCommand, hcommands], .inl ⟨rfl, rfl, rfl⟩⟩

/-- A frame that is not complete is kept. -/
theorem holds_eat_of_incomplete (h : d.Holds commands octets) {high low : UInt8} {rest : Bytes}
    (hall : octets ++ data = high :: low :: rest)
    (hlt : rest.length < msgSize high low + cryptoAuthHmacsha512Bytes) :
    (d.eat data).Holds commands (octets ++ data) := by
  obtain ⟨d', buffer, heat, hcommands, hproc, hsize, hindex, -, hrest⟩ := eat_eq_readFrame h hall
  have hlengths := congrArg List.length hrest
  rw [List.length_append] at hlengths
  rw [heat, readFrame_of_lt hindex (by omega)]
  refine ⟨hcommands, .inr ⟨hproc, rfl, ?_, ?_, high, low, hsize, ?_⟩⟩
  · simp
  · simp only [List.length_append]
    omega
  · rw [hall, ← hrest]

end Dataeater

end Galaxy42
