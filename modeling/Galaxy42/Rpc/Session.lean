import Galaxy42.Exceptions
import Galaxy42.Lib.Buffer
import Galaxy42.Lib.Octets

/-!
# Sessions of the RPC server

A client of the RPC server sends messages, each with its length before it and its HMAC after it. The three
parts are read one after the other, by asynchronous reads into buffers that are used for every message.
When a read is complete, its handler starts the next one. The handler of the HMAC verifies the message and
executes it, which ends with a response. When the response has been written, the next message is read.

The socket may hold any number of octets that were not read yet, and gives any number of them to a read.
`executed` and `calls` record what has been executed. The server is taken to live as long as the session
does: the farewell of its destructor is not part of a session.

The functions that are registered at the server are programs on a state of their own, which a session has a
part in and does not look into. They may throw, and they may abort. JSON is a parameter (`RpcLib`), with what
is used of it: a text is parsed or not, a member is found or not, and a value is dumped.

A step is an event from outside, that octets arrive, that some of them are given to the read under way, or
that the write under way completes. A read that is given the last octet of its buffer runs its handler in the
same step. When a handler ends with an exception, the thread of the server ends, and there is no step behind
it.
-/

namespace Galaxy42

open Toolkit Program

/-- What the server uses of other libraries. -/
structure RpcLib (Json : Type) where
  /-- `crypto_auth_hmacsha512`: the HMAC of some octets under a key, and what it returns -/
  cryptoAuth : Bytes → Bytes → Bytes × ℤ
  /-- `crypto_auth_hmacsha512_verify`, of an HMAC, some octets and a key -/
  cryptoAuthVerify : Bytes → Bytes → Bytes → ℤ
  /-- `nlohmann::json::parse` -/
  parse : Bytes → Except Exn Json
  /-- `operator[]` of an object, for reading -/
  field : Json → String → Except Exn Json
  /-- `operator[]` of an object, for writing -/
  setField : Json → String → Json → Except Exn Json
  /-- `find` -/
  contains : Json → String → Bool
  /-- The conversion to a string. -/
  getString : Json → Except Exn Bytes
  /-- The conversion of a string. -/
  ofString : String → Json
  /-- `dump` -/
  dump : Json → Except Exn Bytes

/-- `c_rpc_server`, with what the registered functions work on. The functions are programs on some state,
which may be any. They are registered under octets, since the name in a message is a string of any octets. -/
structure RpcServer (Json τ : Type) where
  /-- `m_rpc_functions_map` -/
  rpcFunctionsMap : Bytes → Option (Bytes → Program Exn τ Json)
  /-- `m_hmac_key` -/
  hmacKey : Bytes
  /-- What belongs to the registered functions. -/
  app : τ

/-- A buffer that is read into. -/
inductive ReadBuffer where
  /-- `m_data_size` -/
  | dataSize
  /-- `m_received_data` -/
  | receivedData
  /-- `m_hmac_authenticator` -/
  | hmacAuthenticator
  deriving DecidableEq

/-- An asynchronous operation that is under way. A session has one operation under way at most, as each
handler starts the next one when it is done. -/
inductive Pending where
  /-- A read into a buffer, with the number of octets it has read. -/
  | read (buffer : ReadBuffer) (filled : ℕ)
  /-- The write of some octets. -/
  | write (octets : Bytes)
  deriving DecidableEq

/-- `c_session`, with its connection. Next to the members it has what belongs to the connection: the operation
that is under way, the octets that have arrived and were not read yet, those that were read, and what has been
executed and called. The last three are only read by the results. -/
structure Session (Json τ : Type) where
  /-- `m_rpc_server_ptr` -/
  rpcServer : RpcServer Json τ
  /-- `m_received_data` -/
  receivedData : Bytes
  /-- `m_write_data` -/
  writeData : Bytes
  /-- `m_data_size` -/
  dataSize : Bytes
  /-- `m_hmac_authenticator` -/
  hmacAuthenticator : Bytes
  /-- `m_hmac_key` -/
  hmacKey : Bytes
  /-- `m_session_id` -/
  sessionId : ℕ
  /-- `m_rpc_command_counter` -/
  rpcCommandCounter : ℕ
  /-- The operation that is under way; none when the session has been deleted, or its thread ended. -/
  pending : Option Pending
  /-- The octets that have arrived and were not read. -/
  inbox : Bytes
  /-- All octets that were read. -/
  consumed : Bytes
  /-- The messages that were given to `execute_rpc_command`. -/
  executed : List Bytes
  /-- The calls of registered functions: their names, and what they were called with. -/
  calls : List (Bytes × Bytes)

namespace Session

variable {Json τ : Type} (lib : RpcLib Json)

/-- The constructor. The arrays hold whatever was in memory. The first operation is the read of a size, into
an array of two octets. -/
def new (rpcServer : RpcServer Json τ) (dataSize : Vector UInt8 2)
    (hmacAuthenticator : Vector UInt8 64) (sessionId : ℕ) : Session Json τ where
  rpcServer := rpcServer
  receivedData := []
  writeData := []
  dataSize := dataSize.toList
  hmacAuthenticator := hmacAuthenticator.toList
  hmacKey := rpcServer.hmacKey
  sessionId := sessionId
  rpcCommandCounter := 499
  pending := some (.read .dataSize 0)
  inbox := []
  consumed := []
  executed := []
  calls := []

/-- What is in a buffer. -/
def buffer (s : Session Json τ) : ReadBuffer → Bytes
  | .dataSize => s.dataSize
  | .receivedData => s.receivedData
  | .hmacAuthenticator => s.hmacAuthenticator

/-- The session with another content of a buffer. -/
def setBuffer (s : Session Json τ) (content : Bytes) : ReadBuffer → Session Json τ
  | .dataSize => { s with dataSize := content }
  | .receivedData => { s with receivedData := content }
  | .hmacAuthenticator => { s with hmacAuthenticator := content }

/-! ### Executing a message -/

/-- `delete_me`. Without an operation that is under way nothing happens to the session any more, so this is
what its deletion means here. -/
def deleteMe : Program Exn (Session Json τ) Unit :=
  modify fun s => { s with pending := none }

/-- `async_read` into a whole buffer. The read ends when the buffer is full, which may take any number of
transfers. -/
def asyncRead (buffer : ReadBuffer) : Program Exn (Session Json τ) Unit :=
  modify fun s => { s with pending := some (.read buffer 0) }

/-- `get_command_id` -/
def getCommandId : Program Exn (Session Json τ) String := do
  modify fun s => { s with rpcCommandCounter := s.rpcCommandCounter + 1 }
  let s ← get
  return s!"{s.sessionId}-srv{s.rpcCommandCounter}"

/-- `send_response`. A response that is too long aborts the process. An empty one throws, as everything else
that fails does, and every exception deletes the session. -/
def sendResponse (jsonResponse : Json) : Program Exn (Session Json τ) Unit :=
  catching (do
    let response ← fromExcept (lib.dump jsonResponse)
    assertThat (response.length ≤ 65535)
    modify fun s => { s with writeData := Octets.bigEndian 2 response.length ++ response }
    -- the address of the third octet is taken with `at`
    checkThat (response ≠ []) .outOfRange
    let s ← get
    let auth := lib.cryptoAuth response s.rpcServer.hmacKey
    checkThat (auth.2 = 0) (.runtimeError "crypto_auth_hmacsha512 error")
    modify fun s => { s with pending := some (.write (s.writeData ++ auth.1)) }) fun _ => some deleteMe

/-- Calling the function that is registered under a name. The call is recorded with the message that it was
made for. A name that no function was registered for throws what `at` throws. -/
def callRpcFunction (cmdName inputMessage : Bytes) : Program Exn (Session Json τ) Json := do
  let s ← get
  match s.rpcServer.rpcFunctionsMap cmdName with
  | none => raise .outOfRange
  | some function =>
    modify fun s => { s with calls := s.calls ++ [(cmdName, inputMessage)] }
    zoom (fun s => s.rpcServer.app) (fun app s => { s with rpcServer := { s.rpcServer with app } })
      (function inputMessage)

/-- What `execute_rpc_command` tries to do. The member `"cmd"` names the function. The response gets an
identifier, and that of the request if there was one. -/
def executeCommand (inputMessage : Bytes) : Program Exn (Session Json τ) Unit := do
  let j ← fromExcept (lib.parse inputMessage)
  let cmd ← fromExcept (lib.field j "cmd")
  let cmdName ← fromExcept (lib.getString cmd)
  let jsonResponse ← callRpcFunction cmdName inputMessage
  let commandId ← getCommandId
  let jsonResponse ← fromExcept (lib.setField jsonResponse "id" (lib.ofString commandId))
  let jsonResponse ←
    if lib.contains j "id" then do
      let id ← fromExcept (lib.field j "id")
      fromExcept (lib.setField jsonResponse "re" id)
    else pure jsonResponse
  sendResponse lib jsonResponse

/-- `execute_rpc_command`. The message is recorded as executed first. Every exception deletes the session. -/
def executeRpcCommand (inputMessage : Bytes) : Program Exn (Session Json τ) Unit := do
  modify fun s => { s with executed := s.executed ++ [inputMessage] }
  catching (executeCommand lib inputMessage) fun _ => some deleteMe

/-! ### Handlers -/

/-- `read_handler_size`. When the message is empty, the exception of `at` leaves the handler. The size is
computed in 16 bits, the more significant octet first. -/
def readHandlerSize (error : Bool) (bytesTransferred : ℕ) : Program Exn (Session Json τ) Unit := do
  let s ← get
  if error then deleteMe
  else if bytesTransferred ≠ 2 then deleteMe
  else
    match s.dataSize with
    | [high, low] =>
      let messageSize := UInt16.ofNat (high.toNat <<< 8) + low.toUInt16
      modify fun s => { s with receivedData := Buffer.resize s.receivedData messageSize.toNat 0 }
      checkThat (messageSize ≠ 0) .outOfRange
      asyncRead .receivedData
    | _ => raise .outOfRange

/-- `read_handler_data` -/
def readHandlerData (error : Bool) : Program Exn (Session Json τ) Unit :=
  if error then deleteMe else asyncRead .hmacAuthenticator

/-- `read_handler_hmac`. The message is executed only when the library says that its HMAC is right. -/
def readHandlerHmac (error : Bool) : Program Exn (Session Json τ) Unit := do
  let s ← get
  if error then deleteMe
  else
    let ret := lib.cryptoAuthVerify s.hmacAuthenticator s.receivedData s.hmacKey
    if ret = -1 then deleteMe
    else
      assertThat (ret = 0)
      catching (executeRpcCommand lib s.receivedData) fun _ => some deleteMe

/-- `write_handler` -/
def writeHandler (error : Bool) : Program Exn (Session Json τ) Unit :=
  if error then deleteMe else asyncRead .dataSize

/-- The handler of a read. -/
def readHandler (buffer : ReadBuffer) (error : Bool) (bytesTransferred : ℕ) :
    Program Exn (Session Json τ) Unit :=
  match buffer with
  | .dataSize => readHandlerSize error bytesTransferred
  | .receivedData => readHandlerData error
  | .hmacAuthenticator => readHandlerHmac lib error

/-! ### Runs of a session -/

/-- What happens to a session. The events come in any order, as the network and the system have it. Functions
may be registered at any time. -/
inductive Event (Json τ : Type) where
  /-- Octets arrive from the client. -/
  | arrive (chunk : Bytes)
  /-- Octets are given to the read that is under way. -/
  | transfer (n : ℕ)
  /-- The operation that is under way fails, after so many octets. -/
  | fail (bytesTransferred : ℕ)
  /-- The write that is under way is complete. -/
  | written
  /-- Functions are registered, or what they work on changes. -/
  | server (rpcFunctionsMap : Bytes → Option (Bytes → Program Exn τ Json)) (app : τ)

/-- The session with another operation under way. -/
def withPending (s : Session Json τ) (pending : Option Pending) : Session Json τ :=
  { s with pending }

/-- The session when octets that have arrived were put into a buffer, from an offset on. The octets are taken
from those that have arrived, and they are recorded as read. -/
def received (s : Session Json τ) (buffer : ReadBuffer) (filled n : ℕ) : Session Json τ :=
  { s with inbox := s.inbox.drop n, consumed := s.consumed ++ s.inbox.take n }.setBuffer
    (Buffer.overwrite (s.buffer buffer) filled (s.inbox.take n)) buffer

/-- Octets are given to the read that is under way, if it can take as many and they have arrived. When
the buffer is full, the handler runs. -/
def transfer (n : ℕ) : Program Exn (Session Json τ) Unit := do
  let s ← get
  match s.pending with
  | some (.read buffer filled) =>
    if n ≤ s.inbox.length ∧ filled + n ≤ (s.buffer buffer).length then
      let s₁ := s.received buffer filled n
      if filled + n = (s.buffer buffer).length then
        set (s₁.withPending none)
        readHandler lib buffer false (filled + n)
      else
        set (s₁.withPending (some (.read buffer (filled + n))))
  | _ => return

/-- What is done about an event. -/
def Event.run : Event Json τ → Program Exn (Session Json τ) Unit
  | .arrive chunk => modify fun s => { s with inbox := s.inbox ++ chunk }
  | .transfer n => Session.transfer lib n
  | .fail bytesTransferred => do
    let s ← get
    match s.pending with
    | some (.read buffer _) =>
      set (s.withPending none)
      readHandler lib buffer true bytesTransferred
    | some (.write _) =>
      set (s.withPending none)
      writeHandler true
    | none => return
  | .written => do
    let s ← get
    match s.pending with
    | some (.write _) =>
      set (s.withPending none)
      writeHandler false
    | _ => return
  | .server rpcFunctionsMap app =>
    modify fun s => { s with rpcServer := { s.rpcServer with rpcFunctionsMap, app } }

/-- A step of a session. An exception that leaves a handler ends the thread of the server, and a failed
assertion the process. In both cases no operation is under way any more. -/
def Stepped (s : Session Json τ) (event : Event Json τ) (s' : Session Json τ) : Prop :=
  finalState (event.run lib) s = s'

end Session

end Galaxy42
