import Galaxy42.Lib.Lifetime
import Galaxy42.Lib.OrderedMap
import Galaxy42.Lib.Steps
import Galaxy42.Rpc.Session

/-!
# The RPC server with its sessions

The server keeps its sessions in a list, and one thread runs the handlers of all of them. Here the handlers
are those of a session in that list: `delete_me` calls the socket, which may throw, and takes the session
out of the list, so that it is no object any more. Every use of a session is logged, and so is its end.

A member function of a session is given the place `it` of the session in the list. An operation that is
under way completes with any result: an error or none, and any octets for the buffer of a read that fit
into it. An exception that leaves a handler leaves `io_service::run`, and ends the thread.

The state is one record (`RpcService`): the registered functions with what they work on, the sessions, the
operations that are under way, what the calls of the sockets are going to do, and the log. The places in the
list are numbers that are never given out again, as the iterators of a `std::list` stay valid until their
element is erased; the numbers stand for the objects, and using one that is gone is an abort, which no run
comes to (`Lifecycle`).

The handlers are written once more here than in `Session`, where there is one session and no list: there the
subject is what is executed, here it is which sessions there are, and what an exception does to the others.
The steps of the server are that a connection is accepted and that an operation completes, in any order.
-/

namespace Galaxy42

open Toolkit Program

/-- What the thread does with a session. The lifetime of a session is that of its entry in the list, so these
are the things that matter for whether an object is used after it is gone. -/
inductive SessionUse where
  /-- A handler of the session starts. -/
  | handler
  /-- A member of the session is read or written. -/
  | access
  /-- The session is erased from the list. -/
  | erase
  deriving DecidableEq

/-- An action of the thread, on the session at a place in the list. -/
structure SessionAction where
  session : ℕ
  use : SessionUse
  deriving DecidableEq

/-- The action ends the lifetime of the session. -/
def SessionAction.Erases (a : SessionAction) : Prop := a.use = .erase

/-- `c_session`, as a member of the list. Its socket is its own, and the reads and writes of the socket go to
these members. The handlers get the iterator of the session in the list, which here is the number of the
session. -/
structure ListedSession where
  /-- `m_socket.is_open()` -/
  isOpen : Bool
  /-- `m_received_data` -/
  receivedData : Bytes
  /-- `m_write_data` -/
  writeData : Bytes
  /-- `m_data_size` -/
  dataSize : Bytes
  /-- `m_hmac_authenticator` -/
  hmacAuthenticator : Bytes
  /-- `m_hmac_key` -/
  hmacKey : Bytes
  /-- `m_session_id` -/
  sessionId : ℕ
  /-- `m_rpc_command_counter` -/
  rpcCommandCounter : ℕ

namespace ListedSession

/-- The constructor. The arrays hold whatever was in memory. The session knows the key of the server, and its
number. The counter of commands starts at 499, so that the first response has number 500. -/
def new (hmacKey : Bytes) (dataSize : Vector UInt8 2) (hmacAuthenticator : Vector UInt8 64)
    (sessionId : ℕ) : ListedSession where
  isOpen := true
  receivedData := []
  writeData := []
  dataSize := dataSize.toList
  hmacAuthenticator := hmacAuthenticator.toList
  hmacKey := hmacKey
  sessionId := sessionId
  rpcCommandCounter := 499

/-- The buffer that is read into. -/
def buffer (session : ListedSession) : ReadBuffer → Bytes
  | .dataSize => session.dataSize
  | .receivedData => session.receivedData
  | .hmacAuthenticator => session.hmacAuthenticator

/-- The session with octets at the beginning of a buffer. -/
def received (session : ListedSession) (buffer : ReadBuffer) (octets : Bytes) : ListedSession :=
  match buffer with
  | .dataSize => { session with dataSize := Buffer.overwrite session.dataSize 0 octets }
  | .receivedData => { session with receivedData := Buffer.overwrite session.receivedData 0 octets }
  | .hmacAuthenticator =>
    { session with hmacAuthenticator := Buffer.overwrite session.hmacAuthenticator 0 octets }

end ListedSession

/-- An asynchronous operation of a session. It is under way until its handler is called. What it reads into,
or writes, is in a member of the session. -/
inductive AsyncOperation where
  /-- `async_read`, into a buffer -/
  | read (buffer : ReadBuffer)
  /-- `async_write_some`, of some octets -/
  | write (octets : Bytes)

/-- What a call of a socket does. The socket belongs to the system, so nothing is assumed about which of its
calls throw, nor about whether a socket that is closed has been closed. -/
structure SocketOutcome where
  /-- The call throws. -/
  throws : Bool
  /-- The socket is still open after it was closed. -/
  staysOpen : Bool

/-- `c_rpc_server`, with its thread. The thread runs the handlers one after the other, until an exception
leaves one of them. The log of what was done with the sessions is kept for the results on their lifetimes, and
nothing reads it. -/
structure RpcService (Json τ : Type) where
  /-- The registered functions, and the key. -/
  rpcServer : RpcServer Json τ
  /-- `m_session_list` -/
  sessionList : Std.ExtTreeMap ℕ ListedSession
  /-- `m_session_counter` -/
  sessionCounter : ℕ
  /-- An `async_accept` is under way. -/
  accepting : Bool
  /-- The operations of sessions that are under way. -/
  outstanding : List (ℕ × AsyncOperation)
  /-- What the next calls of sockets do. When the list ends, they succeed. -/
  sockets : List SocketOutcome
  /-- What was done with the sessions, in this order. -/
  log : List SessionAction
  /-- The thread is within `io_service::run`. -/
  running : Bool
  /-- The process was aborted. -/
  aborted : Bool

/-- The largest number of an `xint`. -/
def xintMax : ℕ := 2 ^ 63 - 1

namespace RpcService

variable {Json τ : Type} (lib : RpcLib Json)

/-! ### Members of a session -/

/-- The state with another action in the log. -/
def logged (s : RpcService Json τ) (it : ℕ) (use : SessionUse) : RpcService Json τ :=
  { s with log := s.log ++ [⟨it, use⟩] }

/-- The members of a session. Those of an erased session cannot be used in any defined way. This is where a
use of a session after its deletion would show: it is a run that aborts. -/
def members (it : ℕ) : Program Exn (RpcService Json τ) ListedSession := do
  modify fun s => s.logged it .access
  let s ← get
  match s.sessionList[it]? with
  | some session => return session
  | none => abort

/-- Writing members of a session. The session has to be in the list, as for reading. -/
def setMembers (it : ℕ) (f : ListedSession → ListedSession) : Program Exn (RpcService Json τ) Unit := do
  let session ← members it
  modify fun s => { s with sessionList := s.sessionList.insert it (f session) }

/-- `async_read` into a whole buffer of the session. It returns at once, and the operation is under way from
then on. The octets come with the event that completes it. -/
def asyncRead (it : ℕ) (buffer : ReadBuffer) : Program Exn (RpcService Json τ) Unit := do
  let _ ← members it
  modify fun s => { s with outstanding := s.outstanding ++ [(it, .read buffer)] }

/-- `async_write_some` on the socket of the session. The socket may take some of the octets only, and the
handler is then told how many. -/
def asyncWriteSome (it : ℕ) (octets : Bytes) : Program Exn (RpcService Json τ) Unit := do
  let _ ← members it
  modify fun s => { s with outstanding := s.outstanding ++ [(it, .write octets)] }

/-! ### The end of a session -/

/-- The next outcome of a call of a socket. The outcomes are given by the event, so a run ranges over all that
the system may do. -/
def nextOutcome : Program Exn (RpcService Json τ) SocketOutcome := do
  let s ← get
  set { s with sockets := s.sockets.tail }
  return s.sockets.headD { throws := false, staysOpen := false }

/-- `shutdown` or `cancel` of the socket -/
def socketCall (it : ℕ) (call : String) : Program Exn (RpcService Json τ) Unit := do
  let _ ← members it
  let outcome ← nextOutcome
  checkThat (outcome.throws = false) (.systemError call)

/-- `close` of the socket. Whether it throws or not, the socket is then open or closed as the outcome says. -/
def socketClose (it : ℕ) : Program Exn (RpcService Json τ) Unit := do
  let outcome ← nextOutcome
  setMembers it fun session => { session with isOpen := outcome.staysOpen }
  checkThat (outcome.throws = false) (.systemError "close")

/-- `remove_session_from_vector`. Removing a session ends its lifetime, which the log tells. -/
def removeSessionFromVector (it : ℕ) : Program Exn (RpcService Json τ) Unit :=
  modify fun s => { s.logged it .erase with sessionList := s.sessionList.erase it }

/-- `delete_me`. An exception of the socket leaves it before the session is removed, so that the session stays
in the list. -/
def deleteMe (it : ℕ) : Program Exn (RpcService Json τ) Unit := do
  let session ← members it
  if session.isOpen then do
    socketCall it "shutdown"
    socketCall it "cancel"
    socketClose it
  let _ ← members it
  removeSessionFromVector it

/-! ### Executing a message -/

/-- `get_command_id`. The counter is an `xint`, which throws when it is as large as it gets. The identifier
has the number of the session and the counter. -/
def getCommandId (it : ℕ) : Program Exn (RpcService Json τ) String := do
  let session ← members it
  checkThat (session.rpcCommandCounter < xintMax) (.runtimeError "overflow")
  setMembers it fun session => { session with rpcCommandCounter := session.rpcCommandCounter + 1 }
  return s!"{session.sessionId}-srv{session.rpcCommandCounter + 1}"

/-- What `send_response` tries to do. A response that is too long for two octets of length aborts the process,
and an empty one throws. What is written is the length, the response, and its HMAC under the key of the
server. -/
def trySendResponse (it : ℕ) (jsonResponse : Json) : Program Exn (RpcService Json τ) Unit := do
  let response ← fromExcept (lib.dump jsonResponse)
  assertThat (response.length ≤ 65535)
  let writeData := Octets.bigEndian 2 response.length ++ response
  setMembers it fun session => { session with writeData }
  -- the address of the third octet is taken with `at`
  checkThat (response ≠ []) .outOfRange
  let s ← get
  let auth := lib.cryptoAuth response s.rpcServer.hmacKey
  checkThat (auth.2 = 0) (.runtimeError "crypto_auth_hmacsha512 error")
  asyncWriteSome it (writeData ++ auth.1)

/-- `send_response`. Every exception in there deletes the session. The exceptions of the deletion itself are
not caught here. -/
def sendResponse (it : ℕ) (jsonResponse : Json) : Program Exn (RpcService Json τ) Unit :=
  catching (trySendResponse lib it jsonResponse) fun _ => some (deleteMe it)

/-- Calling the function that is registered under a name, with the message of the session. A name that no
function was registered for throws what `at` throws. The function gets the whole message, and it may change
what the functions work on. -/
def callRpcFunction (it : ℕ) (cmdName : Bytes) : Program Exn (RpcService Json τ) Json := do
  let session ← members it
  let s ← get
  match s.rpcServer.rpcFunctionsMap cmdName with
  | none => raise .outOfRange
  | some function =>
    zoom (fun s => s.rpcServer.app) (fun app s => { s with rpcServer := { s.rpcServer with app } })
      (function session.receivedData)

/-- The part of `execute_rpc_command` that makes the response. The message is a reference to a member. The
response of the function gets an identifier of the server as `"id"`, and the identifier of the request, if
there is one, as `"re"`. -/
def makeResponse (it : ℕ) : Program Exn (RpcService Json τ) Json := do
  let session ← members it
  let j ← fromExcept (lib.parse session.receivedData)
  let cmd ← fromExcept (lib.field j "cmd")
  let cmdName ← fromExcept (lib.getString cmd)
  let jsonResponse ← callRpcFunction it cmdName
  let commandId ← getCommandId it
  let jsonResponse ← fromExcept (lib.setField jsonResponse "id" (lib.ofString commandId))
  if lib.contains j "id" then do
    let id ← fromExcept (lib.field j "id")
    fromExcept (lib.setField jsonResponse "re" id)
  else return jsonResponse

/-- `execute_rpc_command`. An exception, of the parser, the function or the sending, deletes the session. -/
def executeRpcCommand (it : ℕ) : Program Exn (RpcService Json τ) Unit :=
  catching (do
    let jsonResponse ← makeResponse lib it
    sendResponse lib it jsonResponse) fun _ => some (deleteMe it)

/-! ### Handlers -/

/-- `read_handler_size`. When the message is empty, the exception of `at` leaves the handler. The size is
computed in 16 bits, the more significant octet first. The buffer gets that length before the next read is
started. -/
def readHandlerSize (it : ℕ) (error : Bool) (bytesTransferred : ℕ) :
    Program Exn (RpcService Json τ) Unit :=
  if error then deleteMe it
  else if bytesTransferred ≠ 2 then deleteMe it
  else do
    let session ← members it
    match session.dataSize with
    | [high, low] =>
      let messageSize := UInt16.ofNat (high.toNat <<< 8) + low.toUInt16
      setMembers it fun session =>
        { session with receivedData := Buffer.resize session.receivedData messageSize.toNat 0 }
      checkThat (messageSize ≠ 0) .outOfRange
      asyncRead it .receivedData
    | _ => raise .outOfRange

/-- `read_handler_data`. The message is in its buffer, and its HMAC is read next. -/
def readHandlerData (it : ℕ) (error : Bool) : Program Exn (RpcService Json τ) Unit :=
  if error then deleteMe it else asyncRead it .hmacAuthenticator

/-- `read_handler_hmac`. A message whose HMAC is not right ends the session. Any result of the library but 0
and -1 aborts the process. -/
def readHandlerHmac (it : ℕ) (error : Bool) : Program Exn (RpcService Json τ) Unit :=
  if error then deleteMe it
  else do
    let session ← members it
    let ret := lib.cryptoAuthVerify session.hmacAuthenticator session.receivedData session.hmacKey
    if ret = -1 then deleteMe it
    else do
      assertThat (ret = 0)
      catching (executeRpcCommand lib it) fun _ => some (deleteMe it)

/-- `write_handler`. It does not look at the number of octets that were written. -/
def writeHandler (it : ℕ) (error : Bool) : Program Exn (RpcService Json τ) Unit :=
  catching (if error then deleteMe it else asyncRead it .dataSize) fun _ => some (deleteMe it)

/-- The handler of an operation. That it was started is logged, since the session has to be in the list then. -/
def handler (it : ℕ) (operation : AsyncOperation) (error : Bool) (bytesTransferred : ℕ) :
    Program Exn (RpcService Json τ) Unit := do
  modify fun s => s.logged it .handler
  match operation with
  | .read .dataSize => readHandlerSize it error bytesTransferred
  | .read .receivedData => readHandlerData it error
  | .read .hmacAuthenticator => readHandlerHmac lib it error
  | .write _ => writeHandler it error

/-- The part of `accept_handler` for a new session, with what was in the memory of its arrays. The number of
the session is the counter, which is an `xint` and throws when it is as large as it gets. The constructor
starts the first read. -/
def emplaceBack (dataSize : Vector UInt8 2) (hmacAuthenticator : Vector UInt8 64) :
    Program Exn (RpcService Json τ) Unit := do
  let s ← get
  checkThat (s.sessionCounter < xintMax) (.runtimeError "overflow")
  let it := s.sessionCounter + 1
  set { s with
    sessionCounter := it
    sessionList := s.sessionList.insert it
      (ListedSession.new s.rpcServer.hmacKey dataSize hmacAuthenticator it) }
  -- the constructor of the session, and `set_iterator_in_session_list`
  asyncRead it .dataSize
  let _ ← members it

/-- `accept_handler`. After an error no session is made. The next accept is started in both cases, unless an
exception has left the handler. -/
def acceptHandler (error : Bool) (dataSize : Vector UInt8 2) (hmacAuthenticator : Vector UInt8 64) :
    Program Exn (RpcService Json τ) Unit := do
  if ¬ error then
    emplaceBack dataSize hmacAuthenticator
  modify fun s => { s with accepting := true }

/-! ### Runs of the server -/

/-- What happens to the server. -/
inductive ServiceEvent (Json τ : Type) where
  /-- The accept that is under way completes. -/
  | accept (error : Bool) (dataSize : Vector UInt8 2) (hmacAuthenticator : Vector UInt8 64)
  /-- An operation of a session completes, with octets for its buffer, and with what the calls of sockets
  do in its handler. -/
  | complete (k : ℕ) (error : Bool) (octets : Bytes) (sockets : List SocketOutcome)
  /-- Functions are registered, or what they work on changes. -/
  | register (rpcFunctionsMap : Bytes → Option (Bytes → Program Exn τ Json)) (app : τ)

/-- The server after `rpc_start`. Nothing is accepted when the server is not to listen to the network. There
are no sessions yet. -/
def start (rpcServer : RpcServer Json τ) (networkListen : Bool) : RpcService Json τ where
  rpcServer := rpcServer
  sessionList := ∅
  sessionCounter := 0
  accepting := networkListen
  outstanding := []
  sockets := []
  log := []
  running := true
  aborted := false

/-- The octets fit into the buffer of the operation. A read is into a buffer of the session, and no more
octets arrive for it than that buffer holds. -/
def Fits (s : RpcService Json τ) (it : ℕ) (octets : Bytes) : AsyncOperation → Prop
  | .read buffer => ∀ session, s.sessionList[it]? = some session →
      octets.length ≤ (session.buffer buffer).length
  | .write _ => True

/-- The state when the handler of an operation is started. The operation is no longer under way, and the
octets are at the beginning of the buffer. Octets for a session that is gone are dropped. -/
def completed (s : RpcService Json τ) (k it : ℕ) (operation : AsyncOperation) (octets : Bytes)
    (sockets : List SocketOutcome) : RpcService Json τ :=
  { s with
    outstanding := s.outstanding.eraseIdx k
    sockets
    sessionList :=
      match operation, s.sessionList[it]? with
      | .read buffer, some session => s.sessionList.insert it (session.received buffer octets)
      | _, _ => s.sessionList }

/-- What an exception or an abort does to the thread and the process. An exception that leaves a handler ends
the thread, since nothing catches it there, and from then on no handler runs. -/
def afterHandler : EStateM.Result (Fault Exn) (RpcService Json τ) Unit → RpcService Json τ
  | .ok _ s => s
  | .error (.throw _) s => { s with running := false }
  | .error .abort s => { s with running := false, aborted := true }

/-- A step of the server. -/
inductive Stepped : RpcService Json τ → ServiceEvent Json τ → RpcService Json τ → Prop
  | accept (s : RpcService Json τ) (error : Bool) (dataSize : Vector UInt8 2)
      (hmacAuthenticator : Vector UInt8 64) (hrunning : s.running = true) (haccepting : s.accepting = true) :
      Stepped s (.accept error dataSize hmacAuthenticator)
        (afterHandler (acceptHandler error dataSize hmacAuthenticator { s with accepting := false }))
  | complete (s : RpcService Json τ) (k it : ℕ) (operation : AsyncOperation) (error : Bool) (octets : Bytes)
      (sockets : List SocketOutcome) (hrunning : s.running = true)
      (hoperation : s.outstanding[k]? = some (it, operation)) (hfits : s.Fits it octets operation) :
      Stepped s (.complete k error octets sockets)
        (afterHandler (handler lib it operation error octets.length
          (s.completed k it operation octets sockets)))
  | register (s : RpcService Json τ) (rpcFunctionsMap : Bytes → Option (Bytes → Program Exn τ Json))
      (app : τ) :
      Stepped s (.register rpcFunctionsMap app)
        { s with rpcServer := { s.rpcServer with rpcFunctionsMap, app } }

end RpcService

end Galaxy42
