import Galaxy42.Lib.Network
import Galaxy42.Tunserver.Forwarding

/-!
# Networks of nodes

Nodes that send datagrams to the addresses of their sockets. Nothing is said of which nodes there are, or of
who is whose peer: a network is what its nodes are, together with the datagrams in flight, and it goes on as
the nodes do. A node makes a step of its own when its user asks for a route, a packet is read from its card,
it pings its peers, or another thread changes its tables (`OwnStep`); or it gets a datagram that was sent to
its address (`Receives`). In both cases it handles an `Event`, as one node alone does, and what it has given
to its socket meanwhile is put into flight (`Acts`). Datagrams are delivered in any order; they may also get
lost, or be delivered again.

A run can have a record, of which node has handled which event in which state (`NodeRun`). From the record
one reads off what users have asked for, what was sent, and who was a peer of whom at some time.

Last there are facts about single events that all results about networks use: a query that is accepted was
read from the octets of the datagram, with the address that was written there; and in an event in which a peer
is put into the table, or in which peers are removed, no destination is looked for.
-/

namespace Galaxy42

open Toolkit Program TrivialSerialize Tunserver

/-! ### Nodes and datagrams -/

/-- A datagram in flight: the node that has sent it, the address it was sent to, and its octets. Who has sent
it is not to be seen by the node that gets it, but for the address that the network tells. -/
structure Datagram (ι : Type) where
  sender : ι
  addr : Ip46Addr
  octets : Bytes
  deriving DecidableEq

/-- Nodes, and the datagrams in flight between them. There may be any number of nodes, also infinitely many. -/
abbrev NodeNetwork (ι : Type) := Network ι Tunserver (Datagram ι)

/-- The event is not a datagram that is received. Such events come from the card, from a user or from another
thread, or they are pings. -/
def Event.isOwn : Event → Bool
  | .datagram _ _ => false
  | _ => true

section Network

variable {ι : Type} (lib : CryptoLib) (addr : ι → Ip46Addr) (Allowed : Tunserver → Event → Prop)

/-- What becomes of a node in an event, and the datagrams that it sends. How the event ends makes no
difference, as all exceptions are caught. -/
def Acts (event : Event) (i : ι) (node node' : Tunserver) (new : List (Datagram ι)) : Prop :=
  node' = finalState (event.run lib) node ∧
    new = (node'.sentSince node).map fun d => { sender := i, addr := d.1, octets := d.2 }

/-- Something happens at a node that is no datagram. Which events may happen, and in which state of the node,
is a parameter. -/
def OwnStep (i : ι) (node node' : Tunserver) (new : List (Datagram ι)) : Prop :=
  ∃ event : Event, event.isOwn = true ∧ Allowed node event ∧ Acts lib event i node node' new

/-- A node gets a datagram that was sent to its address. The address that it comes from is the one of the
sender's socket. -/
def Receives (i : ι) (d : Datagram ι) (node node' : Tunserver) (new : List (Datagram ι)) : Prop :=
  d.addr = addr i ∧ Acts lib (.datagram (addr d.sender) d.octets) i node node' new

end Network

/-- What a node sends in an event it has sent. -/
theorem mem_sent_of_mem_sentSince {lib : CryptoLib} {event : Event} {node : Tunserver}
    {d : Ip46Addr × Bytes} (h : d ∈ (finalState (event.run lib) node).sentSince node) :
    d ∈ (finalState (event.run lib) node).sent :=
  List.mem_of_mem_take h

/-! ### Runs with a record -/

/-- What a node has done: the state that it was in, and the event that it has handled. What the node was like
afterwards, and what it has sent, follows from these. -/
structure Handled where
  before : Tunserver
  event : Event

namespace Handled

variable (lib : CryptoLib) (handled : Handled)

/-- The state of the node after that. -/
def after : Tunserver := finalState (handled.event.run lib) handled.before

/-- What the node has sent meanwhile. -/
def sent : List (Ip46Addr × Bytes) := (handled.after lib).sentSince handled.before

end Handled

section Record

variable {ι : Type} [DecidableEq ι] (lib : CryptoLib) (addr : ι → Ip46Addr)

/-- A node handles something on its own, which is put on record. -/
def HandlesOwn (i : ι) (handled : Handled) (node node' : Tunserver) (new : List (Datagram ι)) : Prop :=
  handled.before = node ∧ handled.event.isOwn = true ∧ Acts lib handled.event i node node' new

/-- A node handles a datagram that was sent to its address, which is put on record. The node is told the
address of the sender, which the network does not forge. -/
def HandlesDatagram (i : ι) (d : Datagram ι) (handled : Handled) (node node' : Tunserver)
    (new : List (Datagram ι)) : Prop :=
  handled.before = node ∧ handled.event = .datagram (addr d.sender) d.octets ∧ d.addr = addr i ∧
    Acts lib handled.event i node node' new

/-- A run of a network of nodes, with the record of it. Every event of a node is allowed, and every loss or
repetition of a datagram. The record has the state that a node was in before each event, so what a node was
asked for, what it has sent, and who were its peers can be read off it. -/
abbrev NodeRun : NodeNetwork ι → List (ι × Handled) → NodeNetwork ι → Prop :=
  Network.Recorded (HandlesOwn lib) (HandlesDatagram lib addr)

end Record

/-! ### Events -/

section Event

variable {lib : CryptoLib} {node : Tunserver} {event : Event} {dst : HashipAddr} {ttl : ℤ}

/-- The address that is read from a query is the one that was written. -/
theorem hip_of_parseFindhipQuery {hip hip' : HashipAddr} {ttl : UInt8} {ttl' : ℤ}
    (h : returned (parseFindhipQuery (queryBin hip ttl) : Node _) node = some (hip', ttl')) :
    hip' = hip := by
  obtain ⟨node', hrun⟩ := returned_eq_some_iff.mp h
  obtain ⟨_, _, -, hrun⟩ := bind_eq_ok_iff.mp hrun
  obtain ⟨hip₁, _, hread, hrun⟩ := bind_eq_ok_iff.mp hrun
  obtain ⟨_, _, -, hrun⟩ := bind_eq_ok_iff.mp hrun
  obtain ⟨_, _, -, hrun⟩ := bind_eq_ok_iff.mp hrun
  cases hrun
  have hbin := HashipAddr.ofAddrBin_eq_ok_iff.mp (fromExcept_eq_ok_iff.mp hread).1
  rw [queryBin, List.take_append_of_le_length hip.length_octets.ge,
    List.take_of_length_le hip.length_octets.le] at hbin
  exact (Block.ext hbin).symm

/-- A query that is accepted was read. -/
theorem of_acceptedQuery {senderPip : Ip46Addr} {buf : Bytes} {sender : Peering} {hip : HashipAddr}
    {ttl : ℤ} (h : node.acceptedQuery senderPip buf = some (sender, hip, ttl)) :
    datagramCmd buf = some .findhipQuery ∧ node.senderOf senderPip = some sender ∧
      returned (parseFindhipQuery (buf.drop 2) : Node _) node = some (hip, ttl) ∧ ¬ ttl < 1 := by
  unfold acceptedQuery at h
  split at h
  next hcmd =>
    simp only [Option.bind_eq_bind, Option.bind_eq_some_iff] at h
    obtain ⟨sender', hsender, query, hparse, hquery⟩ := h
    split at hquery
    · cases hquery
    next httl =>
      cases hquery
      exact ⟨hcmd, hsender, hparse, httl⟩
  · cases h

/-- In an event in which a peer is put into the table nothing is looked for. -/
theorem not_searches_of_puts {hip : HashipAddr} {peering : Peering}
    (hput : node.Puts lib event hip peering) : ¬ event.Searches node dst ttl := by
  rintro (⟨data, hroutes, -⟩ | hsearches)
  · cases hput with
    | add _ => cases hroutes
    | append _ _ => cases hroutes
    | greeting hgreeting _ _ =>
      obtain ⟨sender, packet, hpacket, -⟩ := hroutes
      have hcmd := (of_acceptedPacket hpacket).1
      simp [Tunserver.greeting, hcmd] at hgreeting
  · cases hput with
    | add _ => cases hsearches
    | append _ _ => cases hsearches
    | greeting hgreeting _ _ =>
      obtain ⟨sender, requestedTtl, hquery, -⟩ := hsearches
      have hcmd := (of_acceptedQuery hquery).1
      simp [Tunserver.greeting, hcmd] at hgreeting

/-- In an event in which peers are removed nothing is looked for. -/
theorem not_searches_of_removes {hip : HashipAddr} (h : event.removes hip = true) :
    ¬ event.Searches node dst ttl := by
  rintro (⟨data, hroutes, -⟩ | hsearches)
  · cases event with
    | datagram _ _ => cases h
    | tunPacket _ => cases h
    | ping _ _ _ => cases hroutes
    | request _ _ _ => cases h
    | op _ => cases hroutes
  · cases event with
    | datagram _ _ => cases h
    | tunPacket _ => cases h
    | ping _ _ _ => cases hsearches
    | request _ _ _ => cases h
    | op _ => cases hsearches

end Event

end Galaxy42
