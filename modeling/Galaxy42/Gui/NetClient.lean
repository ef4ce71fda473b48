import Galaxy42.Gui.Dataeater

/-!
# The client of the GUI

After every read from its socket, `netClient` feeds the data to its eater, and executes the last command of
the eater. The eater takes at most one frame out of the data of a read, and its commands stay in the list.
So a read that completes two frames leaves the second one for later, and a read behind the first frame
that completes none executes the last message again. What was executed is what has arrived exactly when
each read completes one frame, after reads before the first frame that complete none
(`delivers_iff`). An empty text is not taken for authentic, and closes the connection.

What arrives is any list of frames of the server, cut into reads at any places: nothing is said of where the
cuts are. How many frames are complete within so many octets is counted along the list (`completed`). So the
condition on the reads is one about lengths only, and does not mention what the client does.

The client is up to date when it has executed the texts of some frames and its eater holds a part of what
comes behind them that is not a frame. One read keeps this exactly when it completes one frame, or none before
the first (`StepsUpToDate`), and all reads do by induction. That the condition is necessary takes the other
two cases as well: a read that executes the last message again, and one that executes the first of two frames
only.
-/

namespace Galaxy42

open Toolkit Octets

/-- The authentication of `libsodium`. What is documented of it is that an HMAC that was made is verified.
Nothing is said about other octets. -/
structure CryptoAuth where
  /-- `crypto_auth_hmacsha512`, of some octets under a key -/
  auth : Bytes → Bytes → Bytes
  /-- `crypto_auth_hmacsha512_verify`, of an HMAC, some octets and a key -/
  verify : Bytes → Bytes → Bytes → ℤ
  length_auth : ∀ text key, (auth text key).length = cryptoAuthHmacsha512Bytes
  verify_auth : ∀ text key, verify (auth text key) text key = 0

/-- A text that the server sends. Its size has to fit into two octets. -/
structure ServerFrame where
  /-- The text, without its HMAC. -/
  text : Bytes
  length_text : text.length ≤ 65535

namespace ServerFrame

variable (lib : CryptoAuth) (key : Bytes)

/-- The text, and its HMAC. -/
def command (f : ServerFrame) : Bytes :=
  f.text ++ lib.auth f.text key

/-- What is sent: the size, the text and the HMAC. -/
def octets (f : ServerFrame) : Bytes :=
  bigEndian 2 f.text.length ++ f.command lib key

private theorem length_command (f : ServerFrame) :
    (f.command lib key).length = f.text.length + cryptoAuthHmacsha512Bytes := by
  rw [command, List.length_append, lib.length_auth]

/-- The two octets of the size. -/
theorem exists_octets_eq (f : ServerFrame) : ∃ high low, Dataeater.msgSize high low = f.text.length ∧
    f.octets lib key = high :: low :: f.command lib key := by
  have hlt : f.text.length < 256 ^ 2 := f.length_text.trans_lt (by decide)
  refine ⟨UInt8.ofNat (f.text.length / 256 % 256), UInt8.ofNat (f.text.length % 256), ?_, ?_⟩
  · rw [Dataeater.msgSize, toNat_ofNat_digit, toNat_ofNat_digit]
    omega
  · simp [octets, bigEndian]

/-- How many frames are complete within so many octets. The count goes from frame to frame, and stops at the
first that is not there as a whole. -/
def completed : List ServerFrame → ℕ → ℕ
  | [], _ => 0
  | f :: fs, n =>
    if (f.octets lib key).length ≤ n then completed fs (n - (f.octets lib key).length) + 1 else 0

end ServerFrame

/-- `netClient`. What it executes is recorded, as the texts without their HMACs. -/
structure NetClient where
  /-- `m_data_eater` -/
  dataEater : Dataeater
  /-- `m_hmac_key` -/
  hmacKey : Bytes
  /-- The messages that were given to the executor of commands. -/
  executed : List Bytes
  /-- The connection was dropped. -/
  aborted : Bool

namespace NetClient

variable (lib : CryptoAuth)

/-- The constructor, for a connection with a key. -/
def new (frameSize currentIndex : ℕ) (hmacKey : Bytes) : NetClient where
  dataEater := .new frameSize currentIndex
  hmacKey := hmacKey
  executed := []
  aborted := false

/-- `check_auth`. A command without any text is refused, whatever its HMAC. -/
def checkAuth (client : NetClient) (cmdAndAuth : Bytes) : Bool :=
  if cmdAndAuth.length ≤ cryptoAuthHmacsha512Bytes then false
  else
    let cmdSize := cmdAndAuth.length - cryptoAuthHmacsha512Bytes
    decide (lib.verify (cmdAndAuth.drop cmdSize) (cmdAndAuth.take cmdSize) client.hmacKey = 0)

/-- `onTcpReceive`, of what can be read. There is no read from a connection that was dropped. It looks at the
last command alone, which may be one that was there before. A command with a wrong HMAC drops the connection. -/
def onTcpReceive (client : NetClient) (data : Bytes) : NetClient :=
  if client.aborted then client
  else
    let eater := client.dataEater.eat data
    let lastCmd := eater.getLastCommand
    if lastCmd = [] then { client with dataEater := eater }
    else if client.checkAuth lib lastCmd then
      { client with
        dataEater := eater
        executed := client.executed ++ [lastCmd.take (lastCmd.length - cryptoAuthHmacsha512Bytes)] }
    else { client with dataEater := eater, aborted := true }

/-- The client after some reads. -/
def receive (client : NetClient) (reads : List Bytes) : NetClient :=
  reads.foldl (onTcpReceive lib) client

/-- After each of the reads, the executed messages are those of the frames that have arrived. Every number of
reads is looked at, and not only the last one. -/
def Delivers (client : NetClient) (frames : List ServerFrame) (reads : List Bytes) : Prop :=
  ∀ done, done <+: reads → (client.receive lib done).executed =
    (frames.take (ServerFrame.completed lib client.hmacKey frames done.flatten.length)).map ServerFrame.text

/-- Each read completes one frame, with a text that is not empty; or it completes none, and neither did the
reads before it. How many frames are complete after some octets is counted in the octets that the server has
sent. -/
def OneFrameEach (key : Bytes) (frames : List ServerFrame) (reads : List Bytes) : Prop :=
  ∀ done read, done ++ [read] <+: reads →
    ServerFrame.completed lib key frames (done ++ [read]).flatten.length = 0 ∨
    ServerFrame.completed lib key frames (done ++ [read]).flatten.length =
        ServerFrame.completed lib key frames done.flatten.length + 1 ∧
      ∀ f, frames[ServerFrame.completed lib key frames done.flatten.length]? = some f → f.text ≠ []

end NetClient

namespace ServerFrame

variable {lib : CryptoAuth} {key : Bytes}

/-- Complete frames are counted one after the other. -/
theorem completed_append (done todo : List ServerFrame) (n : ℕ) :
    completed lib key (done ++ todo) ((done.flatMap (octets lib key)).length + n) =
      done.length + completed lib key todo n := by
  induction done with
  | nil => simp
  | cons f done ih =>
    have hle : (f.octets lib key).length ≤
        ((f :: done).flatMap (octets lib key)).length + n := by
      rw [List.flatMap_cons, List.length_append]
      omega
    have hrest : ((f :: done).flatMap (octets lib key)).length + n - (f.octets lib key).length =
        (done.flatMap (octets lib key)).length + n := by
      rw [List.flatMap_cons, List.length_append]
      omega
    rw [List.cons_append, completed, if_pos hle, hrest, ih, List.length_cons]
    omega

private theorem completed_zero (frames : List ServerFrame) : completed lib key frames 0 = 0 := by
  cases frames with
  | nil => rfl
  | cons f frames =>
    obtain ⟨high, low, -, hoctets⟩ := f.exists_octets_eq lib key
    rw [completed, if_neg (by simp [hoctets])]

variable (lib key) in
private theorem completed_le_length (frames : List ServerFrame) (n : ℕ) :
    completed lib key frames n ≤ frames.length := by
  induction frames generalizing n with
  | nil => exact le_rfl
  | cons f frames ih =>
    rw [completed]
    split
    · exact Nat.succ_le_succ (ih _)
    · exact Nat.zero_le _

/-- Data that begin with some frames, up to a place: the next frame is complete when it is within them. -/
private theorem completed_cons (f : ServerFrame) (frames : List ServerFrame) {n : ℕ}
    (h : completed lib key (f :: frames) n ≠ 0) :
    (f.octets lib key).length ≤ n ∧ completed lib key (f :: frames) n =
      completed lib key frames (n - (f.octets lib key).length) + 1 := by
  rw [completed] at h ⊢
  split at h
  next hle => exact ⟨hle, if_pos hle⟩
  next => exact absurd rfl h

end ServerFrame

namespace NetClient

variable {lib : CryptoAuth}

/-- A command of the server passes the check unless its text is empty. -/
private theorem checkAuth_command (client : NetClient) (f : ServerFrame) :
    client.checkAuth lib (f.command lib client.hmacKey) = decide (f.text ≠ []) := by
  unfold checkAuth
  rw [f.length_command]
  split
  next hle =>
    have hnil : f.text = [] := List.eq_nil_of_length_eq_zero (by omega)
    simp [hnil]
  next hle =>
    have hne : f.text ≠ [] := fun hnil => hle (by simp [hnil])
    simp [ServerFrame.command, lib.verify_auth, hne]

/-- The client has executed the texts of some frames, and has a part of what comes behind them that does
not complete the next frame. -/
structure UpToDate (lib : CryptoAuth) (done todo : List ServerFrame) (pending : Bytes)
    (client : NetClient) : Prop where
  eater : client.dataEater.Holds (done.map (ServerFrame.command lib client.hmacKey)) pending
  executed : client.executed = done.map ServerFrame.text
  connected : client.aborted = false
  nonempty : ∀ f ∈ done, f.text ≠ []
  incomplete : ServerFrame.completed lib client.hmacKey todo pending.length = 0

variable {client : NetClient} {done todo : List ServerFrame} {pending data : Bytes}

/-- The client executes the last command of its eater, if the text is not empty. -/
theorem onTcpReceive_of_holds (hconnected : client.aborted = false) {f : ServerFrame}
    {commands : List Bytes} {octets : Bytes}
    (hholds : (client.dataEater.eat data).Holds (commands ++ [f.command lib client.hmacKey]) octets) :
    client.onTcpReceive lib data =
      if f.text ≠ [] then
        { client with
          dataEater := client.dataEater.eat data
          executed := client.executed ++ [f.text] }
      else { client with dataEater := client.dataEater.eat data, aborted := true } := by
  have hlast : (client.dataEater.eat data).getLastCommand = f.command lib client.hmacKey := by
    simp [Dataeater.getLastCommand, hholds.commandsList]
  have hne : f.command lib client.hmacKey ≠ [] := by
    refine List.ne_nil_of_length_pos ?_
    rw [f.length_command]
    exact Nat.add_pos_right _ (by decide)
  have htext : (f.command lib client.hmacKey).take
      ((f.command lib client.hmacKey).length - cryptoAuthHmacsha512Bytes) = f.text := by
    rw [f.length_command, Nat.add_sub_cancel, ServerFrame.command, List.take_left]
  simp only [onTcpReceive, hconnected, Bool.false_eq_true, if_false, hlast, hne, checkAuth_command,
    htext, decide_eq_true_eq]

/-- Data that do not complete the next frame are kept by the eater. -/
theorem holds_eat_of_completed_eq_zero (h : UpToDate lib done todo pending client)
    (hbegins : pending ++ data <+: todo.flatMap (ServerFrame.octets lib client.hmacKey))
    (hzero : ServerFrame.completed lib client.hmacKey todo (pending ++ data).length = 0) :
    (client.dataEater.eat data).Holds (done.map (ServerFrame.command lib client.hmacKey))
      (pending ++ data) := by
  cases todo with
  | nil =>
    obtain hnil : pending ++ data = [] := List.prefix_nil.mp hbegins
    exact Dataeater.holds_eat_of_lt_two h.eater (by simp [hnil])
  | cons f todo =>
    obtain ⟨high, low, hsize, hoctets⟩ := f.exists_octets_eq lib client.hmacKey
    have hshort : (pending ++ data).length < (f.octets lib client.hmacKey).length := by
      by_contra hle
      rw [ServerFrame.completed, if_pos (not_lt.mp hle)] at hzero
      exact absurd hzero (Nat.succ_ne_zero _)
    obtain ⟨more, hmore⟩ : pending ++ data <+: f.octets lib client.hmacKey :=
      List.prefix_of_prefix_length_le hbegins (List.prefix_append _ _) hshort.le
    by_cases hlt : (pending ++ data).length < 2
    · exact Dataeater.holds_eat_of_lt_two h.eater hlt
    · obtain ⟨rest, hrest⟩ : ∃ rest, pending ++ data = high :: low :: rest := by
        rw [hoctets] at hmore
        match hall : pending ++ data, hlt, hmore with
        | [], hlt, _ => simp at hlt
        | [_], hlt, _ => simp at hlt
        | _ :: _ :: rest, _, hmore =>
          simp only [List.cons_append, List.cons.injEq] at hmore
          exact ⟨rest, by rw [hmore.1, hmore.2.1]⟩
      refine Dataeater.holds_eat_of_incomplete h.eater hrest ?_
      rw [hrest, hoctets, List.length_cons, List.length_cons, List.length_cons, List.length_cons,
        f.length_command] at hshort
      omega

/-- Data that complete the next frame make it a command. -/
private theorem exists_holds_eat_of_completed_ne_zero (h : UpToDate lib done todo pending client)
    (hbegins : pending ++ data <+: todo.flatMap (ServerFrame.octets lib client.hmacKey))
    (hne : ServerFrame.completed lib client.hmacKey todo (pending ++ data).length ≠ 0) :
    ∃ f todo' rest, todo = f :: todo' ∧ pending ++ data = f.octets lib client.hmacKey ++ rest ∧
      (client.dataEater.eat data).Holds
        ((done ++ [f]).map (ServerFrame.command lib client.hmacKey)) rest ∧
      ServerFrame.completed lib client.hmacKey todo (pending ++ data).length =
        ServerFrame.completed lib client.hmacKey todo' rest.length + 1 := by
  cases todo with
  | nil => exact absurd rfl hne
  | cons f todo =>
    obtain ⟨hle, hcompleted⟩ := ServerFrame.completed_cons f todo hne
    obtain ⟨rest, hrest⟩ : f.octets lib client.hmacKey <+: pending ++ data :=
      List.prefix_of_prefix_length_le (List.prefix_append _ _) hbegins hle
    obtain ⟨high, low, hsize, hoctets⟩ := f.exists_octets_eq lib client.hmacKey
    have hlength : (f.command lib client.hmacKey).length =
        Dataeater.msgSize high low + cryptoAuthHmacsha512Bytes := by
      rw [f.length_command, hsize]
    have hall : pending ++ data = high :: low :: (f.command lib client.hmacKey ++ rest) := by
      rw [← hrest, hoctets]
      rfl
    refine ⟨f, todo, rest, rfl, hrest.symm, ?_, ?_⟩
    · rw [List.map_append]
      exact Dataeater.holds_eat_of_complete h.eater hlength hall
    · rw [hcompleted, ← hrest, List.length_append, Nat.add_sub_cancel_left]

/-! ### One read -/

/-- What a read has to complete. -/
def FrameOrNone (lib : CryptoAuth) (key : Bytes) (done todo : List ServerFrame) (octets : Bytes) :
    Prop :=
  done.length + ServerFrame.completed lib key todo octets.length = 0 ∨
    ServerFrame.completed lib key todo octets.length = 1 ∧ ∀ f, todo.head? = some f → f.text ≠ []

/-- After the read, the client has executed what has arrived exactly when the read completes one frame, or
none so far; and then it is up to date again. -/
structure StepsUpToDate (lib : CryptoAuth) (done todo : List ServerFrame) (pending data : Bytes)
    (client : NetClient) : Prop where
  executed_iff : (client.onTcpReceive lib data).executed =
      (done ++ todo.take (ServerFrame.completed lib client.hmacKey todo
        (pending ++ data).length)).map ServerFrame.text ↔
    FrameOrNone lib client.hmacKey done todo (pending ++ data)
  upToDate : FrameOrNone lib client.hmacKey done todo (pending ++ data) →
    ∃ done' todo' pending', done ++ todo = done' ++ todo' ∧
      done.flatMap (ServerFrame.octets lib client.hmacKey) ++ (pending ++ data) =
        done'.flatMap (ServerFrame.octets lib client.hmacKey) ++ pending' ∧
      UpToDate lib done' todo' pending' (client.onTcpReceive lib data)

/-- Before the first frame is complete, nothing is executed. -/
private theorem UpToDate.step_of_first (h : UpToDate lib [] todo pending client)
    (hbegins : pending ++ data <+: todo.flatMap (ServerFrame.octets lib client.hmacKey))
    (hzero : ServerFrame.completed lib client.hmacKey todo (pending ++ data).length = 0) :
    StepsUpToDate lib [] todo pending data client := by
  have hholds := holds_eat_of_completed_eq_zero h hbegins hzero
  have hlast : (client.dataEater.eat data).getLastCommand = [] := by
    simp [Dataeater.getLastCommand, hholds.commandsList]
  have hrun : client.onTcpReceive lib data =
      { client with dataEater := client.dataEater.eat data } := by
    simp only [onTcpReceive, h.connected, Bool.false_eq_true, if_false, hlast, if_true]
  refine ⟨iff_of_true ?_ (.inl ?_), fun _ => ⟨[], todo, pending ++ data, rfl, rfl, ?_⟩⟩
  · rw [hrun, hzero]
    simpa using h.executed
  · rw [hzero]
    rfl
  · rw [hrun]
    exact ⟨hholds, h.executed, h.connected, h.nonempty, hzero⟩

/-- A read that completes no frame executes the last message again. -/
private theorem UpToDate.step_of_again {f : ServerFrame} (h : UpToDate lib (done ++ [f]) todo pending client)
    (hbegins : pending ++ data <+: todo.flatMap (ServerFrame.octets lib client.hmacKey))
    (hzero : ServerFrame.completed lib client.hmacKey todo (pending ++ data).length = 0) :
    StepsUpToDate lib (done ++ [f]) todo pending data client := by
  have hholds := holds_eat_of_completed_eq_zero h hbegins hzero
  rw [List.map_append] at hholds
  have hrun := onTcpReceive_of_holds h.connected hholds
  rw [if_pos (h.nonempty f (by simp))] at hrun
  have hfails : ¬ FrameOrNone lib client.hmacKey (done ++ [f]) todo (pending ++ data) := by
    rw [FrameOrNone, hzero]
    simp
  refine ⟨iff_of_false (fun heq => ?_) hfails, fun hcond => absurd hcond hfails⟩
  rw [hrun, h.executed, hzero] at heq
  simpa using congrArg List.length heq

/-- A read that completes a frame executes the last message that has arrived. -/
private theorem UpToDate.step_of_completed (h : UpToDate lib done todo pending client)
    (hbegins : pending ++ data <+: todo.flatMap (ServerFrame.octets lib client.hmacKey))
    (hne : ServerFrame.completed lib client.hmacKey todo (pending ++ data).length ≠ 0) :
    StepsUpToDate lib done todo pending data client := by
  obtain ⟨f, todo', rest, rfl, hoctets, hholds, hcompleted⟩ :=
    exists_holds_eat_of_completed_ne_zero h hbegins hne
  rw [List.map_append] at hholds
  have hrun := onTcpReceive_of_holds h.connected hholds
  have hle := ServerFrame.completed_le_length lib client.hmacKey todo' rest.length
  generalize hmore : ServerFrame.completed lib client.hmacKey todo' rest.length = more at hle hcompleted
  have hcond : FrameOrNone lib client.hmacKey done (f :: todo') (pending ++ data) ↔
      more = 0 ∧ f.text ≠ [] := by
    rw [FrameOrNone, hcompleted]
    simp
  -- One message was executed at most, so the lengths tell whether more frames have arrived.
  have htarget : ((done ++ (f :: todo').take (more + 1)).map ServerFrame.text).length =
      done.length + (more + 1) := by
    simp [hle]
  by_cases htext : f.text = []
  · -- the message is not accepted
    have hfails : ¬ FrameOrNone lib client.hmacKey done (f :: todo') (pending ++ data) :=
      fun h => (hcond.mp h).2 htext
    rw [if_neg (not_not.mpr htext)] at hrun
    refine ⟨iff_of_false (fun heq => ?_) hfails, fun hcond => absurd hcond hfails⟩
    rw [hrun, hcompleted] at heq
    have hlengths := (congrArg List.length (h.executed.symm.trans heq)).trans htarget
    rw [List.length_map] at hlengths
    omega
  · rw [if_pos htext] at hrun
    have hexecuted : (client.onTcpReceive lib data).executed = (done ++ [f]).map ServerFrame.text := by
      rw [hrun, h.executed, List.map_append]
      rfl
    refine ⟨?_, fun hframe => ?_⟩
    · rw [hcond, hcompleted]
      constructor
      · intro heq
        have hlengths := (congrArg List.length (hexecuted.symm.trans heq)).trans htarget
        simp only [List.length_map, List.length_append, List.length_singleton] at hlengths
        exact ⟨by omega, htext⟩
      · rintro ⟨rfl, -⟩
        rw [hexecuted, List.take_succ_cons, List.take_zero]
    · obtain ⟨rfl, -⟩ := hcond.mp hframe
      refine ⟨done ++ [f], todo', rest, by simp, by simp [hoctets], ?_, hexecuted, ?_, ?_, ?_⟩
      · rw [hrun, List.map_append]
        exact hholds
      · rw [hrun]
        exact h.connected
      · simpa [or_imp, forall_and, htext] using h.nonempty
      · rw [hrun]
        exact hmore

/-- A client that is up to date stays so, when each read completes one frame, or none so far. -/
theorem UpToDate.step (h : UpToDate lib done todo pending client)
    (hbegins : pending ++ data <+: todo.flatMap (ServerFrame.octets lib client.hmacKey)) :
    StepsUpToDate lib done todo pending data client := by
  by_cases hzero : ServerFrame.completed lib client.hmacKey todo (pending ++ data).length = 0
  · rcases List.eq_nil_or_concat' done with rfl | ⟨done, f, rfl⟩
    · exact h.step_of_first hbegins hzero
    · exact h.step_of_again hbegins hzero
  · exact h.step_of_completed hbegins hzero

/-! ### All reads -/

section Reads

variable {frames : List ServerFrame} {reads : List Bytes} {read : Bytes}

@[simp]
private theorem hmacKey_onTcpReceive (client : NetClient) (data : Bytes) :
    (client.onTcpReceive lib data).hmacKey = client.hmacKey := by
  unfold onTcpReceive
  dsimp only
  split_ifs <;> rfl

@[simp]
private theorem hmacKey_receive (client : NetClient) (reads : List Bytes) :
    (client.receive lib reads).hmacKey = client.hmacKey := by
  induction reads generalizing client with
  | nil => rfl
  | cons read reads ih => exact (ih _).trans (client.hmacKey_onTcpReceive read)

private theorem receive_concat (client : NetClient) (reads : List Bytes) (read : Bytes) :
    client.receive lib (reads ++ [read]) = (client.receive lib reads).onTcpReceive lib read := by
  rw [receive, List.foldl_append]
  rfl

private theorem delivers_nil : client.Delivers lib frames [] ↔ client.executed = [] := by
  simp [Delivers, receive, ServerFrame.completed_zero]

private theorem delivers_concat : client.Delivers lib frames (reads ++ [read]) ↔
    client.Delivers lib frames reads ∧ ((client.receive lib reads).onTcpReceive lib read).executed =
      (frames.take (ServerFrame.completed lib client.hmacKey frames
        (reads ++ [read]).flatten.length)).map ServerFrame.text := by
  simp only [Delivers, List.prefix_concat_iff, or_imp, forall_and, forall_eq, receive_concat]
  exact and_comm

private theorem oneFrameEach_concat {key : Bytes} : OneFrameEach lib key frames (reads ++ [read]) ↔
    OneFrameEach lib key frames reads ∧
      (ServerFrame.completed lib key frames (reads ++ [read]).flatten.length = 0 ∨
      ServerFrame.completed lib key frames (reads ++ [read]).flatten.length =
          ServerFrame.completed lib key frames reads.flatten.length + 1 ∧
        ∀ f, frames[ServerFrame.completed lib key frames reads.flatten.length]? = some f →
          f.text ≠ []) := by
  constructor
  · intro h
    exact ⟨fun done next hbegins => h done next (hbegins.trans (List.prefix_append _ _)),
      h reads read List.prefix_rfl⟩
  · rintro ⟨h, hlast⟩ done next hbegins
    rcases List.prefix_concat_iff.mp hbegins with heq | hbegins
    · obtain ⟨rfl, hnext⟩ := List.append_inj' heq rfl
      obtain rfl : next = read := List.singleton_inj.mp hnext
      exact hlast
    · exact h done next hbegins

/-- The condition for the next read, of a client that is up to date. -/
theorem frameOrNone_iff {key : Bytes} (hframes : frames = done ++ todo)
    (hreads : reads.flatten = done.flatMap (ServerFrame.octets lib key) ++ pending)
    (hincomplete : ServerFrame.completed lib key todo pending.length = 0) :
    (ServerFrame.completed lib key frames (reads ++ [read]).flatten.length = 0 ∨
      ServerFrame.completed lib key frames (reads ++ [read]).flatten.length =
          ServerFrame.completed lib key frames reads.flatten.length + 1 ∧
        ∀ f, frames[ServerFrame.completed lib key frames reads.flatten.length]? = some f →
          f.text ≠ []) ↔
      FrameOrNone lib key done todo (pending ++ read) := by
  have hbefore : ServerFrame.completed lib key frames reads.flatten.length = done.length := by
    rw [hframes, hreads, List.length_append, ServerFrame.completed_append, hincomplete, Nat.add_zero]
  have hafter : ServerFrame.completed lib key frames (reads ++ [read]).flatten.length =
      done.length + ServerFrame.completed lib key todo (pending ++ read).length := by
    rw [List.flatten_append, List.flatten_singleton, hreads, List.append_assoc, List.length_append,
      hframes, ServerFrame.completed_append]
  have hnext : frames[done.length]? = todo.head? := by
    rw [hframes, List.getElem?_append_right le_rfl, Nat.sub_self, List.head?_eq_getElem?]
  rw [hbefore, hafter, hnext, FrameOrNone, Nat.add_right_inj]

/-- As long as the reads meet the condition, the client stays up to date. -/
private theorem delivers_and_upToDate (frameSize currentIndex : ℕ) (key : Bytes)
    (hbegins : reads.flatten <+: frames.flatMap (ServerFrame.octets lib key)) :
    ((new frameSize currentIndex key).Delivers lib frames reads ↔ OneFrameEach lib key frames reads) ∧
    (OneFrameEach lib key frames reads → ∃ done todo pending, frames = done ++ todo ∧
      reads.flatten = done.flatMap (ServerFrame.octets lib key) ++ pending ∧
      UpToDate lib done todo pending ((new frameSize currentIndex key).receive lib reads)) := by
  induction reads using List.reverseRecOn with
  | nil =>
    refine ⟨iff_of_true (delivers_nil.mpr rfl) (by simp [OneFrameEach]), fun _ =>
      ⟨[], frames, [], rfl, rfl, ?_⟩⟩
    exact ⟨Dataeater.holds_new frameSize currentIndex, rfl, rfl, by simp,
      ServerFrame.completed_zero frames⟩
  | append_singleton reads read ih =>
    rw [List.flatten_append, List.flatten_singleton] at hbegins
    obtain ⟨hiff, hstays⟩ := ih ((List.prefix_append _ _).trans hbegins)
    rw [delivers_concat, oneFrameEach_concat, hiff, receive_concat]
    by_cases hcond : OneFrameEach lib key frames reads
    · obtain ⟨done, todo, pending, hframes, hreads, hup⟩ := hstays hcond
      have hkey : ((new frameSize currentIndex key).receive lib reads).hmacKey = key :=
        hmacKey_receive _ reads
      have hincomplete := hup.incomplete
      rw [hkey] at hincomplete
      -- What was read begins with the frames that were executed; the rest begins with the frames to come.
      have hrest : pending ++ read <+: todo.flatMap (ServerFrame.octets lib
          ((new frameSize currentIndex key).receive lib reads).hmacKey) := by
        rw [hreads, hframes, List.flatMap_append, List.append_assoc] at hbegins
        rw [hkey]
        exact (List.prefix_append_right_inj _).mp hbegins
      obtain ⟨hstep, hnext⟩ := hup.step hrest
      rw [hkey] at hstep hnext
      have htake : frames.take (ServerFrame.completed lib key frames (reads ++ [read]).flatten.length) =
          done ++ todo.take (ServerFrame.completed lib key todo (pending ++ read).length) := by
        rw [List.flatten_append, List.flatten_singleton, hreads, List.append_assoc,
          List.length_append, hframes, ServerFrame.completed_append, List.take_length_add_append]
      rw [frameOrNone_iff hframes hreads hincomplete]
      refine ⟨and_congr_right fun _ => ?_, fun ⟨_, hframe⟩ => ?_⟩
      · rw [show (new frameSize currentIndex key).hmacKey = key from rfl, htake]
        exact hstep
      · obtain ⟨done', todo', pending', hsplit, hoctets, hup'⟩ := hnext hframe
        refine ⟨done', todo', pending', hframes.trans hsplit, ?_, hup'⟩
        rw [List.flatten_append, List.flatten_singleton, hreads, List.append_assoc, hoctets]
    · exact ⟨iff_of_false (fun h => hcond h.1) (fun h => hcond h.1), fun h => absurd h.1 hcond⟩

/-- After every read, the messages that have arrived were executed, once each and in order, exactly when each
read completed one frame with a text, or none before the first frame. A read gives the client any number of
octets, as the network delivers them, so a frame may come in pieces and a piece may have several frames. -/
theorem delivers_iff (frameSize currentIndex : ℕ) (key : Bytes)
    (hbegins : reads.flatten <+: frames.flatMap (ServerFrame.octets lib key)) :
    (new frameSize currentIndex key).Delivers lib frames reads ↔ OneFrameEach lib key frames reads :=
  (delivers_and_upToDate frameSize currentIndex key hbegins).1

end Reads

/-! ### A sample -/

/-- The key of the client. -/
def sampleKey : Bytes := List.replicate 32 0x42

/-- A text with its HMAC. -/
def sampleOk : ServerFrame where
  text := ascii "\x7b\"state\":\"ok\"\x7d"
  length_text := by decide

/-- The HMAC of the text, under the key of the client. -/
def sampleOkHmac : Bytes :=
  [251, 125, 62, 9, 229, 250, 124, 129, 88, 147, 91, 5, 203, 199, 224, 102, 165, 53, 133, 229, 199, 192,
   218, 167, 43, 236, 186, 61, 159, 25, 80, 118, 164, 73, 227, 210, 99, 132, 189, 84, 128, 189, 7, 167,
   147, 79, 23, 128, 162, 16, 224, 0, 66, 90, 94, 169, 247, 88, 198, 119, 44, 159, 168, 135]

/-- The authentication, as far as the sample uses it. -/
def sampleCryptoAuth : CryptoAuth where
  auth text key :=
    if text = sampleOk.text ∧ key = sampleKey then sampleOkHmac else List.replicate 64 0
  verify hmac text key :=
    if hmac = if text = sampleOk.text ∧ key = sampleKey then sampleOkHmac else List.replicate 64 0 then 0
    else -1
  length_auth text key := by
    split <;> rfl
  verify_auth _ _ := if_pos rfl

/-- The octets of the text, as they are sent. -/
def sampleOkOctets : Bytes := sampleOk.octets sampleCryptoAuth sampleKey

/-- Two frames, the first of which is read in two parts. -/
theorem delivers_iff_example :
    [sampleOkOctets.take 10, sampleOkOctets.drop 10, sampleOkOctets].flatten <+:
        [sampleOk, sampleOk].flatMap (ServerFrame.octets sampleCryptoAuth sampleKey) ∧
      ((new 0 0 sampleKey).Delivers sampleCryptoAuth [sampleOk, sampleOk]
          [sampleOkOctets.take 10, sampleOkOctets.drop 10, sampleOkOctets] ↔
        OneFrameEach sampleCryptoAuth sampleKey [sampleOk, sampleOk]
          [sampleOkOctets.take 10, sampleOkOctets.drop 10, sampleOkOctets]) :=
  ⟨by decide +kernel, delivers_iff 0 0 sampleKey (by decide +kernel)⟩

/-- Two frames in one read: the second message is not executed. -/
theorem not_delivers_two_frames :
    [sampleOkOctets ++ sampleOkOctets].flatten <+:
        [sampleOk, sampleOk].flatMap (ServerFrame.octets sampleCryptoAuth sampleKey) ∧
      ¬ (new 0 0 sampleKey).Delivers sampleCryptoAuth [sampleOk, sampleOk]
        [sampleOkOctets ++ sampleOkOctets] := by
  refine ⟨by decide +kernel, fun h => ?_⟩
  have hlost : ((new 0 0 sampleKey).receive sampleCryptoAuth
      [sampleOkOctets ++ sampleOkOctets]).executed = [sampleOk.text] := by decide +kernel
  have hboth : ServerFrame.completed sampleCryptoAuth sampleKey [sampleOk, sampleOk]
      [sampleOkOctets ++ sampleOkOctets].flatten.length = 2 := by decide +kernel
  have hexecuted := h [sampleOkOctets ++ sampleOkOctets] List.prefix_rfl
  rw [hlost, show (new 0 0 sampleKey).hmacKey = sampleKey from rfl, hboth] at hexecuted
  simp at hexecuted

end NetClient

end Galaxy42
