import Galaxy42.Crypto.Stream

/-!
# Crypto tunnels

A `c_crypto_tunnel` connects two identities by two streams. The stream `ab` agrees on its key with
the long-term keys of the parties. Over it they exchange ephemeral keys, with which the final stream
is set up. The initiator (Alice) makes its tunnel from keys alone, creates its ephemeral keys, and
sends a packetstart; the respondent (Bob) makes its tunnel from that packetstart, and is the one that
initiates the final stream; Alice finishes hers with the packetstart of Bob's final stream.

The members of the class that are set later are optional here, as they are null pointers there, and
what is called before they are set goes through `UsePtr`, which ends the process. So an order of calls
that the protocol does not have is not excluded by the types: it ends in an abort. Data that are boxed
take the next nonce of the boxer (`boxAb_eq_ok_iff`), and the nonce is handed to the caller, who sends
it along.

As everywhere in `Crypto`, what a method changes is returned only on success.
-/

namespace Galaxy42

open Toolkit Program

variable {σ : Type}

/-- `UsePtr`: a null pointer ends the process. -/
def usePtr {τ : Type} (ptr : Option τ) : Program Exn σ τ :=
  match ptr with
  | some x => pure x
  | none => abort

/-- `c_crypto_tunnel`. Both constructors set `m_stream_crypto_ab` before anything uses it. The stream `ab`
belongs to the long-term keys of both parties, and the final stream to keys that are made for the one tunnel. -/
structure CryptoTunnel where
  /-- `m_side_initiator` -/
  sideInitiator : Bool
  /-- `m_IDe` -/
  IDe : Option MultikeysPAIR
  /-- `m_stream_crypto_ab` -/
  streamCryptoAb : CStream
  /-- `m_stream_crypto_final` -/
  streamCryptoFinal : Option CStream

namespace CryptoTunnel

/-! ### Setting up -/

/-- The constructor of the initiator. It can box as soon as it is made, under the key of `ab`. -/
def new (lib : CryptoLib) (self : MultikeysPAIR) (them : MultikeysPub) : Crypto CryptoTunnel := do
  let streamCryptoAb ← (CStream.new true).exchangeStart lib self them true
  return { sideInitiator := true, IDe := none, streamCryptoAb, streamCryptoFinal := none }

/-- `create_IDe`. A tunnel has one ephemeral identity at most. -/
def createIDe (lib : CryptoLib) (ct : CryptoTunnel) : Crypto CryptoTunnel := do
  checkThat (ct.IDe.isNone = true) (.runtimeError
    "Tried to create IDe again, on a CT that already has one created.")
  let (IDe, streamCryptoAb) ← ct.streamCryptoAb.createIDe lib true
  return { ct with IDe := some IDe, streamCryptoAb }

/-- The constructor of the respondent. It reads the first packetstart, makes an ephemeral identity of its own,
and starts the final stream. -/
def ofPacketstart (lib : CryptoLib) (self : MultikeysPAIR) (them : MultikeysPub)
    (packetstart : Bytes) : Crypto CryptoTunnel := do
  let streamCryptoAb ← (CStream.new false).exchangeDone lib self them packetstart
  let ct ← createIDe lib
    { sideInitiator := false, IDe := none, streamCryptoAb, streamCryptoFinal := none }
  let (dataDecr, streamCryptoAb) ← ct.streamCryptoAb.parsePacketstartIDe lib packetstart
  let themIDe ← MultikeysPub.ofBin dataDecr
  let IDe ← usePtr ct.IDe
  -- the respondent of `ab` is the initiator of the final stream
  let streamCryptoFinal ← (CStream.new true).exchangeStart lib IDe themIDe true
  let streamCryptoFinal ← streamCryptoFinal.setPacketstartIDeFrom IDe
  return { ct with streamCryptoAb, streamCryptoFinal := some streamCryptoFinal }

/-- `create_CTf`, which the initiator calls on the packetstart of the respondent's final stream. The ephemeral
key of the other party comes encrypted under `ab`. -/
def createCTf (lib : CryptoLib) (ct : CryptoTunnel) (packetstart : Bytes) : Crypto CryptoTunnel := do
  let (dataDecr, streamCryptoAb) ← ct.streamCryptoAb.parsePacketstartIDe lib packetstart
  let themIDe ← MultikeysPub.ofBin dataDecr
  let IDe ← usePtr ct.IDe
  let streamCryptoFinal ← (CStream.new false).exchangeDone lib IDe themIDe packetstart
  return { ct with streamCryptoAb, streamCryptoFinal := some streamCryptoFinal }

/-- `get_packetstart_ab`. The stream `ab` encrypts its own packetstart. -/
def getPacketstartAb (lib : CryptoLib) (ct : CryptoTunnel) :
    Program Exn σ (Bytes × CryptoTunnel) := do
  let (packetstart, streamCryptoAb) ←
    ct.streamCryptoAb.generatePacketstart lib ct.streamCryptoAb
  return (packetstart, { ct with streamCryptoAb })

/-- `get_packetstart_final`. The stream `ab` encrypts it too. -/
def getPacketstartFinal (lib : CryptoLib) (ct : CryptoTunnel) :
    Program Exn σ (Bytes × CryptoTunnel) := do
  let streamCryptoFinal ← usePtr ct.streamCryptoFinal
  let (packetstart, streamCryptoAb) ←
    streamCryptoFinal.generatePacketstart lib ct.streamCryptoAb
  return (packetstart, { ct with streamCryptoAb })

/-! ### Traffic -/

/-- `box`, with the nonce that was used. Before there is a final stream it ends the process. -/
def box (lib : CryptoLib) (ct : CryptoTunnel) (msg : Bytes) :
    Program Exn σ ((Bytes × Bytes) × CryptoTunnel) := do
  let streamCryptoFinal ← usePtr ct.streamCryptoFinal
  let (boxed, streamCryptoFinal) ← streamCryptoFinal.box lib msg
  return (boxed, { ct with streamCryptoFinal := some streamCryptoFinal })

/-- `unbox(msg, nonce)` -/
def unboxNonce (lib : CryptoLib) (ct : CryptoTunnel) (msg nonce : Bytes) :
    Program Exn σ Bytes := do
  let streamCryptoFinal ← usePtr ct.streamCryptoFinal
  streamCryptoFinal.unboxNonce lib msg nonce

/-- `box_ab`, with the nonce that was used. -/
def boxAb (lib : CryptoLib) (ct : CryptoTunnel) (msg : Bytes) :
    Program Exn σ ((Bytes × Bytes) × CryptoTunnel) := do
  let (boxed, streamCryptoAb) ← ct.streamCryptoAb.box lib msg
  return (boxed, { ct with streamCryptoAb })

/-- `unbox_ab(msg, nonce)` -/
def unboxAbNonce (lib : CryptoLib) (ct : CryptoTunnel) (msg nonce : Bytes) :
    Program Exn σ Bytes :=
  ct.streamCryptoAb.unboxNonce lib msg nonce

/-- What is boxed takes the next nonce of the boxer. Unboxing with a given nonce takes none. -/
theorem boxAb_eq_ok_iff {lib : CryptoLib} {ct ct₁ : CryptoTunnel} {msg cipher nonce : Bytes} {s s' : σ} :
    ct.boxAb lib msg s = .ok ((cipher, nonce), ct₁) s' ↔ ∃ cb,
      ct.streamCryptoAb.boxer = some cb ∧ lib.nonceAt cb.odd cb.count = .ok nonce ∧
        lib.secretbox cb.key nonce msg = .ok cipher ∧ s' = s ∧
          ct₁ = { ct with streamCryptoAb :=
            { ct.streamCryptoAb with boxer := some { cb with count := cb.count + 1 } } } := by
  unfold boxAb CStream.box
  constructor
  · intro h
    obtain ⟨⟨boxed, stream⟩, s₁, hbox, hrest⟩ := bind_eq_ok_iff.mp h
    cases hrest
    cases hboxer : ct.streamCryptoAb.boxer with
    | none =>
      rw [hboxer] at hbox
      cases hbox
    | some cb =>
      rw [hboxer] at hbox
      obtain ⟨N, s₂, hnonce, hbox⟩ := bind_eq_ok_iff.mp hbox
      obtain ⟨ret, s₃, hret, hbox⟩ := bind_eq_ok_iff.mp hbox
      obtain ⟨hN, rfl⟩ := fromExcept_eq_ok_iff.mp hnonce
      obtain ⟨hcipher, rfl⟩ := fromExcept_eq_ok_iff.mp hret
      cases hbox
      exact ⟨cb, rfl, hN, hcipher, rfl, rfl⟩
  · rintro ⟨cb, hboxer, hnonce, hcipher, rfl, rfl⟩
    rw [hboxer]
    dsimp only
    rw [bind_apply, bind_of_ok (fromExcept_eq_ok_iff.mpr ⟨hnonce, rfl⟩),
      bind_of_ok (fromExcept_eq_ok_iff.mpr ⟨hcipher, rfl⟩)]
    rfl

end CryptoTunnel

end Galaxy42
