import Galaxy42.Lib.Ends
import Galaxy42.Rpc.Lifecycle

/-!
# Isolation of the clients of the RPC server

A handler that fails is meant to end its session only: it calls `delete_me`, and the message is executed in
`try` blocks that do the same. But `delete_me` throws itself when a call of the socket does, which happens
after the client has reset the connection. Also the size of an empty message makes `at` throw in a handler
without a `try` block, and the size of a response is asserted. An exception that leaves a handler, or an
assertion that fails, ends the thread for all clients.

A block that is followed by a `catch` block calls `delete_me` once more, so what has to be known is whether
one of the next calls returns (`closes`). `ends_handler` tells exactly when a handler returns, and
`served_throughout_iff` in which runs the server goes on.

The condition on a step (`Tame`) is on the state before it and on what the operation gives: the octets that
were read, and what the socket is going to do when it is closed. It is computed from the text of the handlers
with the rules of `Ends`, by which an exception is followed into the handler that catches it. That a step does
nothing to the sessions of other clients is shown separately (`SameElsewhere`), also for handlers that end
with an exception, so that in a run that goes on every other session still waits for its operation.

The sockets are given with what each of their next calls does, so that a run says what went wrong outside of
the program, and when.
-/

namespace Galaxy42

open Toolkit Program

namespace RpcService

variable {Json τ : Type} {lib : RpcLib Json} {s s' : RpcService Json τ} {it : ℕ}

/-! ### Calls of `delete_me` -/

/-- One of the next calls of `delete_me` returns, of as many as there are, for a socket that is open or
not. The calls of the socket will have these outcomes. -/
def closes : ℕ → Bool → List SocketOutcome → Bool
  | 0, _, _ => false
  | calls + 1, isOpen, sockets =>
    let shutdown := sockets.headD { throws := false, staysOpen := false }
    let cancel := sockets.tail.headD { throws := false, staysOpen := false }
    let close := sockets.tail.tail.headD { throws := false, staysOpen := false }
    if ¬ isOpen then true
    else if shutdown.throws then closes calls true sockets.tail
    else if cancel.throws then closes calls true sockets.tail.tail
    else if close.throws then closes calls close.staysOpen sockets.tail.tail.tail
    else true

/-- The session has these members, and what else its handlers depend on is this. -/
structure At (it : ℕ) (session : ListedSession) (sockets : List SocketOutcome)
    (rpcServer : RpcServer Json τ) (s : RpcService Json τ) : Prop where
  session : s.sessionList[it]? = some session
  sockets : s.sockets = sockets
  rpcServer : s.rpcServer = rpcServer

/-- The session can be closed with so many calls of `delete_me`. -/
def CanClose (it calls : ℕ) (s : RpcService Json τ) : Prop :=
  ∃ session, s.sessionList[it]? = some session ∧ closes calls session.isOpen s.sockets = true

variable {session : ListedSession} {sockets : List SocketOutcome} {rpcServer : RpcServer Json τ}

private theorem At.canClose_iff (h : At it session sockets rpcServer s) {calls : ℕ} :
    CanClose it calls s ↔ closes calls session.isOpen sockets = true := by
  simp [CanClose, h.session, h.sockets]

private theorem At.logged (h : At it session sockets rpcServer s) (use : SessionUse) :
    At it session sockets rpcServer (s.logged it use) :=
  ⟨h.session, h.sockets, h.rpcServer⟩

section

variable {E : Exn → RpcService Json τ → Prop} {P R : Prop}

private theorem ends_members {Q : ListedSession → RpcService Json τ → Prop}
    (h : At it session sockets rpcServer s)
    (hQ : ∀ s', At it session sockets rpcServer s' → (Q session s' ↔ P)) :
    Ends (members it) s Q E ↔ P := by
  obtain ⟨session', hget, hmembers⟩ :=
    exists_members (Std.ExtTreeMap.mem_iff_isSome_getElem?.mpr (Option.isSome_of_eq_some h.session))
  obtain rfl := Option.some.inj (h.session.symm.trans hget)
  exact (ends_of_ok hmembers).trans (hQ _ (h.logged _))

private theorem ends_setMembers {f : ListedSession → ListedSession} {Q : Unit → RpcService Json τ → Prop}
    (h : At it session sockets rpcServer s)
    (hQ : ∀ s', At it (f session) sockets rpcServer s' → (Q () s' ↔ P)) :
    Ends (setMembers it f) s Q E ↔ P := by
  rw [setMembers, ends_bind]
  refine ends_members h fun s₁ h₁ => ends_modify.trans (hQ _ ⟨?_, h₁.sockets, h₁.rpcServer⟩)
  exact Std.ExtTreeMap.getElem?_insert_self

private theorem ends_nextOutcome {Q : SocketOutcome → RpcService Json τ → Prop}
    (h : At it session sockets rpcServer s)
    (hQ : ∀ s', At it session sockets.tail rpcServer s' →
      (Q (sockets.headD { throws := false, staysOpen := false }) s' ↔ P)) :
    Ends nextOutcome s Q E ↔ P := by
  obtain ⟨hsession, rfl, rfl⟩ := h
  exact hQ { s with sockets := s.sockets.tail } ⟨hsession, rfl, rfl⟩

private theorem ends_socketCall {call : String} {Q : Unit → RpcService Json τ → Prop}
    (h : At it session sockets rpcServer s)
    (hQ : ∀ s', At it session sockets.tail rpcServer s' → (Q () s' ↔ P))
    (hE : ∀ s', At it session sockets.tail rpcServer s' → (E (.systemError call) s' ↔ R)) :
    Ends (socketCall it call) s Q E ↔
      if (sockets.headD { throws := false, staysOpen := false }).throws then R else P := by
  rw [socketCall, ends_bind]
  refine ends_members h fun s₁ h₁ => ends_bind.trans (ends_nextOutcome h₁ fun s₂ h₂ => ?_)
  rw [ends_checkThat, hQ s₂ h₂, hE s₂ h₂]
  split <;> simp_all

/-- `close` may leave the socket open. -/
private theorem ends_socketClose {Q : Unit → RpcService Json τ → Prop} (h : At it session sockets rpcServer s)
    (hQ : ∀ s' session', At it session' sockets.tail rpcServer s' → (Q () s' ↔ P))
    (hE : ∀ s', At it { session with
        isOpen := (sockets.headD { throws := false, staysOpen := false }).staysOpen }
      sockets.tail rpcServer s' → (E (.systemError "close") s' ↔ R)) :
    Ends (socketClose it) s Q E ↔
      if (sockets.headD { throws := false, staysOpen := false }).throws then R else P := by
  rw [socketClose, ends_bind]
  refine ends_nextOutcome h fun s₁ h₁ => ends_bind.trans (ends_setMembers h₁ fun s₂ h₂ => ?_)
  rw [ends_checkThat, hQ s₂ _ h₂, hE s₂ h₂]
  split <;> simp_all

end

/-- A call of `delete_me` is one of those that may return. -/
theorem ends_deleteMe (h : At it session sockets rpcServer s) {calls : ℕ} :
    Ends (deleteMe it) s (fun _ _ => True) (fun _ s' => CanClose it calls s') ↔
      closes (calls + 1) session.isOpen sockets = true := by
  have hremove : ∀ {session' sockets'} {s' : RpcService Json τ}, At it session' sockets' rpcServer s' →
      (Ends (do
        let _ ← members it
        removeSessionFromVector it) s' (fun _ _ => True) (fun _ s' => CanClose it calls s') ↔ True) :=
    fun h' => ends_bind.trans (ends_members h' fun _ _ => ends_modify)
  rw [deleteMe, ends_bind, closes]
  refine ends_members h fun s₁ h₁ => ?_
  by_cases hopen : session.isOpen
  · rw [if_pos hopen, if_neg (not_not.mpr hopen), ends_bind,
      ends_socketCall h₁ (fun s₂ h₂ => ends_bind.trans (ends_socketCall h₂ (fun s₃ h₃ => ends_bind.trans
        (ends_socketClose h₃ (fun s₄ _ h₄ => hremove h₄) fun s₄ h₄ => h₄.canClose_iff)) fun s₃ h₃ =>
          h₃.canClose_iff)) fun s₂ h₂ => h₂.canClose_iff]
    rw [hopen]
    split_ifs <;> simp
  · rw [if_neg hopen, if_pos hopen, hremove h₁]
    simp

private theorem canClose_iff_ends_deleteMe {calls : ℕ} :
    Ends (deleteMe it) s (fun _ _ => True) (fun _ s' => CanClose it calls s') ↔
      CanClose it (calls + 1) s := by
  rcases h : s.sessionList[it]? with _ | session
  · have hlogged : (s.logged it .access).sessionList[it]? = none := h
    have hmembers : members it s = .error .abort (s.logged it .access) := by
      simp only [members, bind_apply, modify_apply, get_apply, hlogged]
      rfl
    simp [Ends, deleteMe, bind_of_error hmembers, CanClose, h]
  · have hat : At it session s.sockets s.rpcServer s := ⟨h, rfl, rfl⟩
    rw [ends_deleteMe hat, hat.canClose_iff]

/-- A block that is followed by a `catch` with `delete_me` may need one call more. -/
theorem ends_catching_deleteMe {p : Program Exn (RpcService Json τ) Unit} {calls : ℕ} :
    Ends (catching p fun _ => some (deleteMe it)) s (fun _ _ => True) (fun _ s' => CanClose it calls s') ↔
      Ends p s (fun _ _ => True) (fun _ s' => CanClose it (calls + 1) s') :=
  ends_catching.trans (ends_congr (fun _ _ _ => Iff.rfl) fun _ _ _ => canClose_iff_ends_deleteMe)

/-! ### Executing a message -/

/-- The function that is registered under a name, with a message. -/
def rpcFunction (rpcServer : RpcServer Json τ) (cmdName message : Bytes) : Program Exn τ Json :=
  match rpcServer.rpcFunctionsMap cmdName with
  | none => raise .outOfRange
  | some function => function message

/-- The response to the message of a session, as a program on what the functions work on. -/
def response (lib : RpcLib Json) (rpcServer : RpcServer Json τ) (session : ListedSession) :
    Program Exn τ Json := do
  let j ← fromExcept (lib.parse session.receivedData)
  let cmd ← fromExcept (lib.field j "cmd")
  let cmdName ← fromExcept (lib.getString cmd)
  let jsonResponse ← rpcFunction rpcServer cmdName session.receivedData
  checkThat (session.rpcCommandCounter < xintMax) (.runtimeError "overflow")
  let commandId := s!"{session.sessionId}-srv{session.rpcCommandCounter + 1}"
  let jsonResponse ← fromExcept (lib.setField jsonResponse "id" (lib.ofString commandId))
  if lib.contains j "id" then do
    let id ← fromExcept (lib.field j "id")
    fromExcept (lib.setField jsonResponse "re" id)
  else return jsonResponse

/-- The response can be sent; or it is found to be wrong, and the session can be closed. -/
def Sendable (lib : RpcLib Json) (hmacKey : Bytes) (jsonResponse : Json) (canClose : Prop) : Prop :=
  match lib.dump jsonResponse with
  | .error _ => canClose
  | .ok response => response.length ≤ 65535 ∧
      (response = [] ∨ (lib.cryptoAuth response hmacKey).2 ≠ 0 → canClose)

private theorem ends_callRpcFunction {cmdName : Bytes} {Q : Json → RpcService Json τ → Prop}
    {E : Exn → RpcService Json τ → Prop} {P : Json → τ → Prop} {R : Prop}
    (h : At it session sockets rpcServer s)
    (hQ : ∀ json app s', At it session sockets { rpcServer with app } s' → (Q json s' ↔ P json app))
    (hE : ∀ e app s', At it session sockets { rpcServer with app } s' → (E e s' ↔ R)) :
    Ends (callRpcFunction it cmdName) s Q E ↔
      Ends (rpcFunction rpcServer cmdName session.receivedData) rpcServer.app P fun _ _ => R := by
  rw [callRpcFunction, ends_bind, rpcFunction]
  refine ends_members h fun s₁ h₁ => ?_
  rw [ends_bind, ends_get, h₁.rpcServer]
  cases rpcServer.rpcFunctionsMap cmdName with
  | none => exact hE _ rpcServer.app s₁ h₁
  | some function =>
    rw [ends_zoom, h₁.rpcServer]
    exact ends_congr (fun json app _ => hQ json app _ ⟨h₁.session, h₁.sockets, rfl⟩)
      fun e app _ => hE e app _ ⟨h₁.session, h₁.sockets, rfl⟩

private theorem ends_getCommandId {Q : String → RpcService Json τ → Prop} {E : Exn → RpcService Json τ → Prop}
    {P R : Prop} (h : At it session sockets rpcServer s)
    (hQ : ∀ s', At it { session with rpcCommandCounter := session.rpcCommandCounter + 1 } sockets
      rpcServer s' → (Q s!"{session.sessionId}-srv{session.rpcCommandCounter + 1}" s' ↔ P))
    (hE : ∀ e s', At it session sockets rpcServer s' → (E e s' ↔ R)) :
    Ends (getCommandId it) s Q E ↔ if session.rpcCommandCounter < xintMax then P else R := by
  rw [getCommandId, ends_bind]
  refine ends_members h fun s₁ h₁ => ?_
  rw [ends_bind, ends_checkThat, hE _ s₁ h₁, ends_bind,
    ends_setMembers h₁ fun s₂ h₂ => hQ s₂ h₂]

/-- The response of the model is the response to the message. -/
private theorem ends_makeResponse {Q : Json → RpcService Json τ → Prop} {P : Json → Prop} {calls : ℕ}
    (h : At it session sockets rpcServer s)
    (hQ : ∀ json s' session' app, At it session' sockets { rpcServer with app } s' →
      session'.isOpen = session.isOpen → (Q json s' ↔ P json)) :
    Ends (makeResponse lib it) s Q (fun _ s' => CanClose it calls s') ↔
      Ends (response lib rpcServer session) rpcServer.app (fun json _ => P json)
        fun _ _ => closes calls session.isOpen sockets = true := by
  rw [makeResponse, ends_bind]
  refine ends_members h fun s₁ h₁ => ?_
  have hE : ∀ e : Exn, (fun (_ : Exn) s' => CanClose it calls s') e s₁ ↔
      closes calls session.isOpen sockets = true := fun _ => h₁.canClose_iff
  refine ends_fromExcept_bind_congr (fun j => ends_fromExcept_bind_congr (fun cmd =>
    ends_fromExcept_bind_congr (fun cmdName => ?_) hE) hE) hE
  rw [ends_bind, ends_bind]
  refine ends_callRpcFunction h₁ (fun json app s₂ h₂ => ?_) fun _ _ _ h₂ => h₂.canClose_iff
  rw [ends_bind, ends_bind, ends_checkThat]
  refine ends_getCommandId h₂ (fun s₃ h₃ => ?_) fun _ _ h₃ => h₃.canClose_iff
  have hE : ∀ e : Exn, (fun (_ : Exn) s' => CanClose it calls s') e s₃ ↔
      closes calls session.isOpen sockets = true := fun _ => h₃.canClose_iff
  refine ends_fromExcept_bind_congr (fun jsonResponse => ?_) hE
  split
  · refine ends_fromExcept_bind_congr (fun id => ?_) hE
    rw [ends_fromExcept, ends_fromExcept]
    cases lib.setField jsonResponse "re" id with
    | ok jsonResponse => exact hQ _ _ _ _ h₃ rfl
    | error e => exact hE e
  · exact hQ _ _ _ _ h₃ rfl

private theorem ends_asyncRead {buffer : ReadBuffer} {Q : Unit → RpcService Json τ → Prop}
    {E : Exn → RpcService Json τ → Prop} {P : Prop} (h : At it session sockets rpcServer s)
    (hQ : ∀ s', At it session sockets rpcServer s' → (Q () s' ↔ P)) :
    Ends (asyncRead it buffer) s Q E ↔ P :=
  ends_bind.trans (ends_members h fun _ h₁ => hQ _ ⟨h₁.session, h₁.sockets, h₁.rpcServer⟩)

private theorem ends_asyncWriteSome {octets : Bytes} {E : Exn → RpcService Json τ → Prop}
    (h : At it session sockets rpcServer s) :
    Ends (asyncWriteSome it octets) s (fun _ _ => True) E ↔ True :=
  ends_bind.trans (ends_members h fun _ _ => ends_modify)

/-- A response is sent exactly when it can be. -/
private theorem ends_trySendResponse {jsonResponse : Json} {calls : ℕ}
    (h : At it session sockets rpcServer s) :
    Ends (trySendResponse lib it jsonResponse) s (fun _ _ => True) (fun _ s' => CanClose it calls s') ↔
      Sendable lib rpcServer.hmacKey jsonResponse (closes calls session.isOpen sockets = true) := by
  rw [trySendResponse, ends_bind, ends_fromExcept, Sendable]
  cases lib.dump jsonResponse with
  | error e => exact h.canClose_iff
  | ok response =>
    simp only [ends_bind, ends_assertThat]
    refine and_congr_right fun _ => ends_setMembers h fun s₁ h₁ => ?_
    simp only [ends_checkThat, ends_get, ends_asyncWriteSome h₁, h₁.canClose_iff, h₁.rpcServer]
    by_cases hempty : response = []
    · simp [hempty]
    · by_cases hauth : (lib.cryptoAuth response rpcServer.hmacKey).2 = 0
      · simp [hempty, hauth]
      · simp [hempty, hauth]

/-! ### Handlers -/

/-- When the handler of an operation returns, for a session with the octets that were read in their buffer. -/
def Handled (lib : RpcLib Json) (rpcServer : RpcServer Json τ) (session : ListedSession)
    (sockets : List SocketOutcome) (error : Bool) (bytesTransferred : ℕ) : AsyncOperation → Prop
  | .read .dataSize =>
    if error = true ∨ bytesTransferred ≠ 2 then closes 1 session.isOpen sockets = true
    else session.dataSize ≠ [0, 0]
  | .read .receivedData => error = true → closes 1 session.isOpen sockets = true
  | .read .hmacAuthenticator =>
    let ret := lib.cryptoAuthVerify session.hmacAuthenticator session.receivedData session.hmacKey
    if error = true ∨ ret = -1 then closes 1 session.isOpen sockets = true
    else ret = 0 ∧ Ends (response lib rpcServer session) rpcServer.app
      (fun jsonResponse _ =>
        Sendable lib rpcServer.hmacKey jsonResponse (closes 3 session.isOpen sockets = true))
      fun _ _ => closes 2 session.isOpen sockets = true
  | .write _ => error = true → closes 2 session.isOpen sockets = true

private theorem ends_executeRpcCommand {calls : ℕ} (h : At it session sockets rpcServer s) :
    Ends (executeRpcCommand lib it) s (fun _ _ => True) (fun _ s' => CanClose it calls s') ↔
      Ends (response lib rpcServer session) rpcServer.app
        (fun jsonResponse _ =>
          Sendable lib rpcServer.hmacKey jsonResponse (closes (calls + 2) session.isOpen sockets = true))
        fun _ _ => closes (calls + 1) session.isOpen sockets = true := by
  rw [executeRpcCommand, ends_catching_deleteMe, ends_bind]
  refine ends_makeResponse h fun jsonResponse s₁ session₁ app h₁ hopen => ?_
  rw [sendResponse, ends_catching_deleteMe, ends_trySendResponse h₁, hopen]

/-- The size of an empty message is two octets that are zero. -/
theorem messageSize_eq_zero_iff {high low : UInt8} :
    UInt16.ofNat (high.toNat <<< 8) + low.toUInt16 = 0 ↔ high = 0 ∧ low = 0 := by
  rw [← UInt16.toNat_inj, Session.toNat_messageSize, ← UInt8.toNat_inj, ← UInt8.toNat_inj,
    Octets.toNat_cons, Octets.toNat_cons]
  simp

private theorem ends_readHandlerSize {error : Bool} {bytesTransferred : ℕ}
    (h : At it session sockets rpcServer s)
    (hsize : session.dataSize.length = 2) :
    Ends (readHandlerSize it error bytesTransferred) s (fun _ _ => True) (fun _ s' => CanClose it 0 s') ↔
      Handled lib rpcServer session sockets error bytesTransferred (.read .dataSize) := by
  rw [readHandlerSize, Handled]
  by_cases herror : error = true ∨ bytesTransferred ≠ 2
  · rw [if_pos herror]
    rcases herror with herror | hshort
    · rw [if_pos herror, ends_deleteMe h]
    · by_cases herror : error = true
      · rw [if_pos herror, ends_deleteMe h]
      · rw [if_neg herror, if_pos hshort, ends_deleteMe h]
  · rw [if_neg herror]
    obtain ⟨hnoerror, hfull⟩ := not_or.mp herror
    rw [if_neg hnoerror, if_neg hfull, ends_bind]
    refine ends_members h fun s₁ h₁ => ?_
    obtain ⟨high, low, hoctets⟩ := List.length_eq_two.mp hsize
    simp only [hoctets]
    rw [ends_bind]
    refine ends_setMembers h₁ fun s₂ h₂ => ?_
    rw [ends_bind, ends_checkThat, ends_asyncRead h₂ fun _ _ => Iff.rfl, h₂.canClose_iff]
    simp only [ne_eq, messageSize_eq_zero_iff]
    simp [closes]

private theorem ends_readHandlerData {error : Bool} {bytesTransferred : ℕ}
    (h : At it session sockets rpcServer s) :
    Ends (readHandlerData it error) s (fun _ _ => True) (fun _ s' => CanClose it 0 s') ↔
      Handled lib rpcServer session sockets error bytesTransferred (.read .receivedData) := by
  rw [readHandlerData, Handled]
  cases error with
  | false =>
    rw [if_neg Bool.false_ne_true, ends_asyncRead h fun _ _ => Iff.rfl]
    simp
  | true => simp [ends_deleteMe h]

private theorem ends_readHandlerHmac {error : Bool} {bytesTransferred : ℕ}
    (h : At it session sockets rpcServer s) :
    Ends (readHandlerHmac lib it error) s (fun _ _ => True) (fun _ s' => CanClose it 0 s') ↔
      Handled lib rpcServer session sockets error bytesTransferred (.read .hmacAuthenticator) := by
  rw [readHandlerHmac, Handled]
  cases error with
  | true => simp [ends_deleteMe h]
  | false =>
    rw [if_neg Bool.false_ne_true, ends_bind]
    refine ends_members h fun s₁ h₁ => ?_
    simp only [Bool.false_eq_true, false_or, ends_ite, ends_deleteMe h₁, ends_bind, ends_assertThat,
      ends_catching_deleteMe, ends_executeRpcCommand h₁]

private theorem ends_writeHandler {error : Bool} {bytesTransferred : ℕ} {octets : Bytes}
    (h : At it session sockets rpcServer s) :
    Ends (writeHandler it error) s (fun _ _ => True) (fun _ s' => CanClose it 0 s') ↔
      Handled lib rpcServer session sockets error bytesTransferred (.write octets) := by
  rw [writeHandler, ends_catching_deleteMe, Handled]
  cases error with
  | false =>
    rw [if_neg Bool.false_ne_true, ends_asyncRead h fun _ _ => Iff.rfl]
    simp
  | true => simp [ends_deleteMe h]

/-- A handler returns exactly when it can. -/
theorem ends_handler {operation : AsyncOperation} {error : Bool} {bytesTransferred : ℕ}
    (h : At it session sockets rpcServer s) (hsize : session.dataSize.length = 2) :
    Ends (handler lib it operation error bytesTransferred) s (fun _ _ => True) (fun _ _ => False) ↔
      Handled lib rpcServer session sockets error bytesTransferred operation := by
  have hclose : ∀ s' : RpcService Json τ, False ↔ CanClose it 0 s' := by simp [CanClose, closes]
  rw [ends_congr (fun _ _ _ => Iff.rfl) fun _ _ _ => hclose _, handler.eq_def, ends_bind, ends_modify]
  have h₁ := h.logged .handler
  match operation with
  | .read .dataSize => exact ends_readHandlerSize h₁ hsize
  | .read .receivedData => exact ends_readHandlerData h₁
  | .read .hmacAuthenticator => exact ends_readHandlerHmac h₁
  | .write _ => exact ends_writeHandler h₁

/-- A connection is accepted unless the sessions cannot be numbered any more. -/
private theorem ends_acceptHandler {error : Bool} {dataSize : Vector UInt8 2}
    {hmacAuthenticator : Vector UInt8 64} :
    Ends (acceptHandler error dataSize hmacAuthenticator) s (fun _ _ => True) (fun _ _ => False) ↔
      error = true ∨ s.sessionCounter < xintMax := by
  rw [acceptHandler]
  cases error with
  | true => simp
  | false =>
    rw [if_pos Bool.false_ne_true, ends_bind, emplaceBack, ends_bind, ends_get, ends_bind, ends_checkThat]
    by_cases hcounter : s.sessionCounter < xintMax
    · rw [if_pos hcounter, ends_bind, ends_set, ends_bind]
      have hat : At (s.sessionCounter + 1) (ListedSession.new s.rpcServer.hmacKey dataSize
          hmacAuthenticator (s.sessionCounter + 1)) s.sockets s.rpcServer { s with
            sessionCounter := s.sessionCounter + 1
            sessionList := s.sessionList.insert (s.sessionCounter + 1) (ListedSession.new
              s.rpcServer.hmacKey dataSize hmacAuthenticator (s.sessionCounter + 1)) } :=
        ⟨Std.ExtTreeMap.getElem?_insert_self, rfl, rfl⟩
      refine ends_asyncRead hat fun s₁ h₁ => ends_bind.trans (ends_members h₁ fun s₂ h₂ => ?_)
      simp [hcounter]
    · rw [if_neg hcounter]
      simp [hcounter]

/-! ### What a step leaves alone -/

/-- The other sessions and their operations are what they were. -/
structure SameElsewhere (it : ℕ) (s₀ s : RpcService Json τ) : Prop where
  sessions : ∀ it', it' ≠ it → s.sessionList[it']? = s₀.sessionList[it']?
  operations : ∀ it', it' ≠ it →
    (s.outstanding.filter fun op => op.1 = it') = s₀.outstanding.filter fun op => op.1 = it'

private theorem kept_sameElsewhere (s₀ : RpcService Json τ) :
    Kept it (SameElsewhere it s₀) (SameElsewhere it s₀) where
  logged h _ := ⟨h.sessions, h.operations⟩
  sockets _ h := ⟨h.sessions, h.operations⟩
  app _ h := ⟨h.sessions, h.operations⟩
  insert h _ _ := ⟨fun it' hne => by
    rw [Std.ExtTreeMap.getElem?_insert, if_neg (by simpa using hne.symm)]
    exact h.sessions it' hne, h.operations⟩
  operation op h := ⟨h.sessions, fun it' hne => by
    rw [List.filter_append, h.operations it' hne]
    simp [hne.symm]⟩
  erase h := ⟨fun it' hne => by
    rw [Std.ExtTreeMap.getElem?_erase, if_neg (by simpa using hne.symm)]
    exact h.sessions it' hne, h.operations⟩

private theorem sessionList_afterHandler (p : Program Exn (RpcService Json τ) Unit) :
    (afterHandler (p s)).sessionList = (finalState p s).sessionList := by
  rcases h : p s with ⟨_, s'⟩ | ⟨e | _, s'⟩ <;> simp [finalState, afterHandler, h]

private theorem outstanding_afterHandler (p : Program Exn (RpcService Json τ) Unit) :
    (afterHandler (p s)).outstanding = (finalState p s).outstanding := by
  rcases h : p s with ⟨_, s'⟩ | ⟨e | _, s'⟩ <;> simp [finalState, afterHandler, h]

/-- A handler does nothing to other sessions, however it ends. -/
private theorem SameElsewhere.afterHandler {s₀ : RpcService Json τ} {p : Program Exn (RpcService Json τ) Unit}
    (h : SameElsewhere it s₀ (finalState p s)) : SameElsewhere it s₀ (afterHandler (p s)) where
  sessions := sessionList_afterHandler p ▸ h.sessions
  operations := outstanding_afterHandler p ▸ h.operations

/-- What a new session changes, when what its constructor does is kept. -/
private theorem finalState_emplaceBack {I : RpcService Json τ → Prop} {dataSize : Vector UInt8 2}
    {hmacAuthenticator : Vector UInt8 64} (hkept : Kept (s.sessionCounter + 1) I I) (h : I s)
    (hnew : ∀ session, I { s with
      sessionCounter := s.sessionCounter + 1
      sessionList := s.sessionList.insert (s.sessionCounter + 1) session }) :
    I (finalState (emplaceBack dataSize hmacAuthenticator) s) := by
  rw [emplaceBack, finalState_bind_of_ok (get_apply s)]
  by_cases hcounter : s.sessionCounter < xintMax
  · rw [finalState_bind_of_ok (checkThat_eq_ok_iff (a := ()).mpr ⟨hcounter, rfl⟩),
      finalState_bind_of_ok (set_apply _ _)]
    exact ((hkept.finishes_asyncRead .dataSize).preserves.bind fun _ =>
      hkept.preserves_members.bind fun _ => .pure _) _ (hnew _)
  · rw [finalState_bind_of_error (by rw [checkThat_apply, if_neg hcounter])]
    exact h

private theorem finalState_acceptHandler {I : RpcService Json τ → Prop} {error : Bool}
    {dataSize : Vector UInt8 2} {hmacAuthenticator : Vector UInt8 64}
    (hkept : Kept (s.sessionCounter + 1) I I) (h : I s)
    (hnew : ∀ session, I { s with
      sessionCounter := s.sessionCounter + 1
      sessionList := s.sessionList.insert (s.sessionCounter + 1) session })
    (haccepting : ∀ s, I s → I { s with accepting := true }) :
    I (finalState (acceptHandler error dataSize hmacAuthenticator) s) := by
  unfold acceptHandler
  split
  · exact Preserves.finalState_bind (finalState_emplaceBack hkept h hnew) fun _ => .modify haccepting
  · exact haccepting _ h

/-- The session that an event is about. -/
def ServiceEvent.about (s : RpcService Json τ) : ServiceEvent Json τ → Option ℕ
  | .complete k _ _ _ => s.outstanding[k]?.map Prod.fst
  | .accept _ _ _ | .register _ _ => none

/-- The sessions that the event is not about keep their members and operations. The members of a session are
what is stored of it in the list of the server. -/
def Untouched (s : RpcService Json τ) (event : ServiceEvent Json τ) (s' : RpcService Json τ) : Prop :=
  ∀ it ∈ s.sessionList, event.about s ≠ some it → s'.sessionList[it]? = s.sessionList[it]? ∧
    (s'.outstanding.filter fun op => op.1 = it) = s.outstanding.filter fun op => op.1 = it

/-- The session with what an operation has read. -/
def afterOperation (session : ListedSession) (octets : Bytes) : AsyncOperation → ListedSession
  | .read buffer => session.received buffer octets
  | .write _ => session

/-- The operation that completes is one of its session. -/
private theorem sameElsewhere_completed {k : ℕ} {operation : AsyncOperation} {octets : Bytes}
    (hoperation : s.outstanding[k]? = some (it, operation)) :
    SameElsewhere it s (s.completed k it operation octets sockets) where
  sessions it' hne := by
    unfold completed
    split
    · rw [Std.ExtTreeMap.getElem?_insert, if_neg (by simpa using hne.symm)]
    · rfl
  operations it' hne := by
    obtain ⟨hlt, hget⟩ := List.getElem?_eq_some_iff.mp hoperation
    have hsplit : s.outstanding =
        s.outstanding.take k ++ (it, operation) :: s.outstanding.drop (k + 1) := by
      rw [← hget, ← List.drop_eq_getElem_cons hlt, List.take_append_drop]
    have hrest : (s.completed k it operation octets sockets).outstanding =
        s.outstanding.take k ++ s.outstanding.drop (k + 1) := List.eraseIdx_eq_take_drop_succ _ _
    rw [hrest, List.filter_append]
    conv_rhs => rw [hsplit, List.filter_append, List.filter_cons_of_neg (by simpa using hne.symm)]

private theorem untouched_of_stepped {event : ServiceEvent Json τ} (hsound : Sound s)
    (hstep : Stepped lib s event s') : Untouched s event s' := by
  intro it hmem hevent
  cases hstep with
  | register rpcFunctionsMap app => exact ⟨rfl, rfl⟩
  | accept error dataSize hmacAuthenticator hrunning haccepting =>
    have hne : it ≠ s.sessionCounter + 1 := (Nat.lt_succ_of_le (hsound.listed_le it hmem)).ne
    have hsame : SameElsewhere (s.sessionCounter + 1) s
        (finalState (acceptHandler error dataSize hmacAuthenticator) { s with accepting := false }) :=
      finalState_acceptHandler (kept_sameElsewhere s) ⟨fun _ _ => rfl, fun _ _ => rfl⟩
        (fun session => ⟨fun it' hne => by
          rw [Std.ExtTreeMap.getElem?_insert, if_neg (by simpa using hne.symm)], fun _ _ => rfl⟩)
        fun _ h => ⟨h.sessions, h.operations⟩
    exact ⟨hsame.afterHandler.sessions it hne, hsame.afterHandler.operations it hne⟩
  | complete k it' operation error octets sockets hrunning hoperation hfits =>
    have hne : it ≠ it' := by
      rintro rfl
      exact hevent (by rw [ServiceEvent.about, hoperation]; rfl)
    have hcompleted : SameElsewhere it' s (s.completed k it' operation octets sockets) :=
      sameElsewhere_completed hoperation
    have hsame := ((kept_sameElsewhere s).finishes_handler lib operation error octets.length).preserves _
      hcompleted
    exact ⟨hsame.afterHandler.sessions it hne, hsame.afterHandler.operations it hne⟩

/-! ### Steps -/

/-- The server goes on: its thread runs, connections are accepted if they were at the start, and every session
waits for an operation. Where no connections are accepted at the start, none need be later. -/
structure Served (networkListen : Bool) (s : RpcService Json τ) : Prop where
  running : s.running = true
  aborted : s.aborted = false
  accepting : s.accepting = networkListen
  waits : ∀ it ∈ s.sessionList, ∃ op ∈ s.outstanding, op.1 = it

/-- The condition under which the server goes on behind a step: connections can be numbered, and the handler
of an operation can return. What the handler of an operation needs in order to return is said for each of them
(`Handled`). -/
def Tame (lib : RpcLib Json) (s : RpcService Json τ) : ServiceEvent Json τ → Prop
  | .accept error _ _ => error = true ∨ s.sessionCounter < xintMax
  | .complete k error octets sockets => ∀ it operation session, s.outstanding[k]? = some (it, operation) →
      s.sessionList[it]? = some session →
        Handled lib s.rpcServer (afterOperation session octets operation) sockets error octets.length operation
  | .register _ _ => True

/-- A handler of a session does not end the thread by itself, and accepts nothing. -/
private theorem kept_flags (it : ℕ) (P : Bool → Bool → Bool → Prop) :
    Kept it (fun s : RpcService Json τ => P s.running s.aborted s.accepting)
      fun s => P s.running s.aborted s.accepting where
  logged h _ := h
  sockets _ h := h
  app _ h := h
  insert h _ _ := h
  operation _ h := h
  erase h := h

/-- The server goes on behind a handler exactly when the handler returns. -/
theorem served_afterHandler_iff {networkListen : Bool} {p : Program Exn (RpcService Json τ) Unit}
    (hp : ∀ s', p s = .ok () s' → Served networkListen s') :
    Served networkListen (afterHandler (p s)) ↔ Ends p s (fun _ _ => True) (fun _ _ => False) := by
  rw [ends_return_iff]
  rcases h : p s with ⟨_, s'⟩ | ⟨e | _, s'⟩
  · simpa [afterHandler] using hp s' h
  · simpa [afterHandler] using fun hserved : Served networkListen _ => nomatch hserved.running
  · simpa [afterHandler] using fun hserved : Served networkListen _ => nomatch hserved.running

private theorem at_completed {k : ℕ} {operation : AsyncOperation} {octets : Bytes}
    (h : s.sessionList[it]? = some session) :
    At it (afterOperation session octets operation) sockets s.rpcServer
      (s.completed k it operation octets sockets) := by
  refine ⟨?_, rfl, rfl⟩
  cases operation with
  | read buffer => simp [RpcService.completed, h, afterOperation]
  | write octets' => exact h

private theorem accepting_of_acceptHandler {error : Bool} {dataSize : Vector UInt8 2}
    {hmacAuthenticator : Vector UInt8 64}
    (h : acceptHandler error dataSize hmacAuthenticator s = .ok () s') : s'.accepting = true := by
  unfold acceptHandler at h
  split at h
  · obtain ⟨_, s₁, -, hmodify⟩ := bind_eq_ok_iff.mp h
    obtain ⟨-, rfl⟩ := EStateM.Result.ok.inj hmodify
    rfl
  · obtain ⟨-, rfl⟩ := EStateM.Result.ok.inj h
    rfl

/-- A step is taken well exactly on the condition. -/
theorem served_step_iff {networkListen : Bool} {event : ServiceEvent Json τ} (hsound : Sound s)
    (h : Served networkListen s) (hstep : Stepped lib s event s') :
    Served networkListen s' ↔ Tame lib s event := by
  have hwaiting : Waiting s := { hsound with waits := h.waits }
  cases hstep with
  | register rpcFunctionsMap app =>
    exact iff_of_true ⟨h.running, h.aborted, h.accepting, h.waits⟩ trivial
  | accept error dataSize hmacAuthenticator hrunning haccepting =>
    rw [served_afterHandler_iff, ends_acceptHandler]
    · exact Iff.rfl
    -- When the handler returns, it has put the next accept, and closed nothing.
    · intro s' hok
      have haccept : Waiting { s with accepting := false } := hwaiting.congr rfl rfl rfl rfl
      have hwaiting' := (finishes_acceptHandler error dataSize hmacAuthenticator).of_ok haccept hok
      have hflags : (fun s : RpcService Json τ => s.running = true ∧ s.aborted = false) (finalState
          (acceptHandler error dataSize hmacAuthenticator) { s with accepting := false }) :=
        finalState_acceptHandler (kept_flags _ fun running aborted _ => running = true ∧ aborted = false)
          ⟨h.running, h.aborted⟩ (fun _ => ⟨h.running, h.aborted⟩) fun _ h => h
      rw [finalState_of_ok hok] at hflags
      exact ⟨hflags.1, hflags.2,
        (accepting_of_acceptHandler hok).trans (haccepting.symm.trans h.accepting), hwaiting'.waits⟩
  | complete k it operation error octets sockets hrunning hoperation hfits =>
    have hhandling := hwaiting.completed hoperation hfits sockets
    obtain ⟨session, hsession⟩ : ∃ session, s.sessionList[it]? = some session :=
      Option.isSome_iff_exists.mp (Std.ExtTreeMap.mem_iff_isSome_getElem?.mp
        (hwaiting.listed _ (List.mem_of_getElem? hoperation)))
    have hat : At it (afterOperation session octets operation) sockets s.rpcServer
      (s.completed k it operation octets sockets) := at_completed hsession
    rw [served_afterHandler_iff, ends_handler hat (hhandling.sized it _ hat.session)]
    · constructor
      · intro hhandled it' operation' session' hoperation' hsession'
        obtain ⟨rfl, rfl⟩ := Prod.mk.inj (Option.some.inj (hoperation.symm.trans hoperation'))
        obtain rfl := Option.some.inj (hsession.symm.trans hsession')
        exact hhandled
      · exact fun htame => htame it operation session hoperation hsession
    · intro s' hok
      have hwaiting' := (kept_handling.finishes_handler lib operation error octets.length).of_ok
        hhandling hok
      have hflags := ((kept_flags it fun running aborted accepting =>
        running = true ∧ aborted = false ∧ accepting = networkListen).finishes_handler lib operation error
          octets.length) (s.completed k it operation octets sockets) ⟨h.running, h.aborted, h.accepting⟩
      rw [hok] at hflags
      obtain ⟨hrunning', haborted', haccepting'⟩ := hflags
      exact ⟨hrunning', haborted', haccepting', hwaiting'.waits⟩

/-- In every run, the server goes on all along exactly when all steps meet the condition. In any state of it,
a step leaves the sessions alone that it is not about. The condition is on the step and the state that it is
taken in, and the runs are those of any number of sessions with any octets. -/
theorem served_throughout_iff {rpcServer : RpcServer Json τ} {networkListen : Bool}
    {trace : List (RpcService Json τ × ServiceEvent Json τ)}
    (hrun : Steps (Stepped lib) (start rpcServer networkListen) trace s) :
    (Steps.Throughout (Served networkListen) trace s ↔ Steps.All (Tame lib) trace) ∧
      ∀ event s', Stepped lib s event s' → Untouched s event s' := by
  have hall : Steps.All (fun _ _ => True) trace := fun _ _ => trivial
  have hsound : Steps.Throughout BetweenSteps trace s := hrun.invariant
    (fun _ _ _ h _ hstep => BetweenSteps.step h hstep) (betweenSteps_start rpcServer networkListen) hall
  have hstart : Served networkListen (start rpcServer networkListen) :=
    ⟨rfl, rfl, rfl, fun _ hmem => absurd hmem Std.ExtTreeMap.not_mem_empty⟩
  have hboth : Steps.Throughout (fun s => BetweenSteps s ∧ Served networkListen s) trace s ↔
      Steps.All (Tame lib) trace := by
    refine Steps.invariant_iff (fun s₁ event s₂ h hstep => ?_) hrun
      ⟨betweenSteps_start rpcServer networkListen, hstart⟩
    rw [served_step_iff h.1.1 h.2 hstep |>.symm]
    exact and_iff_right (BetweenSteps.step h.1 hstep)
  refine ⟨?_, fun event s' hstep => untouched_of_stepped hsound.2.1 hstep⟩
  rw [← hboth]
  exact ⟨fun h => ⟨fun q hq => ⟨hsound.1 q hq, h.1 q hq⟩, hsound.2, h.2⟩,
    fun h => ⟨fun q hq => (h.1 q hq).2, h.2.2⟩⟩

/-- Two clients are connected, and the first one loses its connection: the second one is served. -/
theorem served_throughout_iff_example :
    ∃ (trace : List (RpcService Session.SampleJson Unit × ServiceEvent Session.SampleJson Unit))
      (s : RpcService Session.SampleJson Unit), s.outstanding = [(2, .read .dataSize)] ∧
        Steps.Throughout (Served true) trace s := by
  have hstart : Steps (Stepped Session.sampleRpcLib) (start Session.sampleRpcServer true) []
    (start Session.sampleRpcServer true) := .nil _
  have hrun := ((hstart.snoc
    (.accept _ false (Vector.replicate 2 0) (Vector.replicate 64 0) rfl rfl)).snoc
    (.accept _ false (Vector.replicate 2 0) (Vector.replicate 64 0) rfl rfl)).snoc
    (.complete _ 0 1 (.read .dataSize) true [] [] rfl rfl (fun _ _ => Nat.zero_le _))
  refine ⟨_, _, rfl, (served_throughout_iff hrun).1.mpr ?_⟩
  have hnone : Steps.All (Tame Session.sampleRpcLib)
    ([] : List (RpcService Session.SampleJson Unit × ServiceEvent Session.SampleJson Unit)) :=
      fun _ hp => absurd hp List.not_mem_nil
  refine Steps.all_snoc.mpr ⟨Steps.all_snoc.mpr ⟨Steps.all_snoc.mpr ⟨hnone, .inr ?_⟩, .inr ?_⟩, ?_⟩
  · decide
  · decide
  · intro it operation session hoperation hsession
    obtain ⟨rfl, rfl⟩ := Prod.mk.inj (Option.some.inj hoperation)
    have hcloses : ∀ isOpen, closes 1 isOpen [] = true := by decide
    exact hcloses _

/-- A client says that its message is empty, and the thread ends for another one, too. -/
theorem not_served_throughout :
    ¬ ∀ (trace : List (RpcService Session.SampleJson Unit × ServiceEvent Session.SampleJson Unit))
      (s : RpcService Session.SampleJson Unit),
        Steps (Stepped Session.sampleRpcLib) (start Session.sampleRpcServer true) trace s →
          Steps.Throughout (Served true) trace s := by
  intro h
  have hstart : Steps (Stepped Session.sampleRpcLib) (start Session.sampleRpcServer true) []
    (start Session.sampleRpcServer true) := .nil _
  have hrun := ((hstart.snoc
    (.accept _ false (Vector.replicate 2 0) (Vector.replicate 64 0) rfl rfl)).snoc
    (.accept _ false (Vector.replicate 2 0) (Vector.replicate 64 0) rfl rfl)).snoc
    (.complete _ 0 1 (.read .dataSize) false [0, 0] [] rfl rfl
      fun _ hsession => Option.some.inj hsession ▸ Nat.le_refl 2)
  exact absurd (h _ _ hrun).2.running (by decide +kernel)

end RpcService

end Galaxy42
