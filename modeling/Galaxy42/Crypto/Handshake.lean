import Galaxy42.Crypto.CryptoTunnel
import Galaxy42.Crypto.StreamExchange

/-!
# The handshake

Alice makes a tunnel from keys alone, creates ephemeral keys and sends them in a packetstart; Bob makes
his tunnel from that packetstart and sends his ephemeral keys back; Alice finishes her tunnel with
them. The run is that of `unittest_create_cryptolink`, with draws of each party's own.

`handshake_correct` is the whole story: when the run succeeds, and that then both tunnels share a key,
have opposite parities unless the ephemeral keys have the same hash, and whatever one of them boxes
later the other one unboxes. On the way, the stream `ab` is set up by one exchange
(`exchangeDone_eq_ok`) and carries the ephemeral keys both ways; the final stream is set up by a second
exchange, which Bob initiates, of keys that were generated for it.

What is said of the traffic is said of all calls of `box` on either side, in any order and any number, also
when some of them throw for the want of a nonce (`Link.traffic`). The invariant is `Keyed`: both sides box
and unbox with one key, and every message that was boxed so far can be unboxed with it, by the nonce that it
was boxed with. A call on one side keeps it (`Keyed.call`), whatever the other side did in between.

The assumptions on the libraries are those of the exchange (`KexLaws`), of the generators
(`GenerationLaws`) and of boxing (`BoxLaws`). The sample library has them all, and the systems of two parties
can be chosen so that this build has no generator for one of them: then the exchange of the long-term keys
succeeds, and the handshake does not (`not_handshake_of_disabled`).
-/

namespace Galaxy42

open Toolkit Program TrivialSerialize CStream

/-- The run of a handshake. The state is the numbers of draws made by Alice and by Bob. -/
def handshake (lib : CryptoLib) (A B : MultikeysPAIR) :
    Program Exn (ℕ × ℕ) (CryptoTunnel × CryptoTunnel) := do
  let alice ← onFst (CryptoTunnel.new lib A B.pub)
  let alice ← onFst (alice.createIDe lib)
  let (packetstart, alice) ← alice.getPacketstartAb lib
  let bob ← onSnd (CryptoTunnel.ofPacketstart lib B A.pub packetstart)
  let (packetstart, bob) ← bob.getPacketstartFinal lib
  let alice ← onFst (alice.createCTf lib packetstart)
  return (alice, bob)

section Handshake

variable {lib : CryptoLib} {Valid : CryptoSystemType → Bytes → Bytes → Prop} {A B : MultikeysPAIR}
  {hashA hashB : Bytes}

/-! ### Ephemeral keys -/

private theorem generatedCount_sharedCount (A B : MultikeysPub) :
    MultikeysPAIR.generatedCount (sharedCount A B) = sharedCount A B := by
  funext sys
  unfold MultikeysPAIR.generatedCount sharedCount
  by_cases h : (CryptoSystemType.ofInt sys).isSome <;> simp [h]

private theorem sharedCount_lt (A B : MultikeysPub) (sys : SystemNr) : sharedCount A B sys < uvarintLimit :=
  (sharedCount_le A B sys).trans_lt (by decide)

namespace MultikeysPAIR.Holds

variable {count : CryptoSystemCount} {IDe : MultikeysPAIR}

/-- Ephemeral keys have a hash. -/
theorem readHash_eq_ok (h : Holds Valid count IDe) :
    IDe.pub.readHash lib () = .ok (lib.hash1 (IDe.pub.fingerprintOctets lib)) () := by
  have hfresh : IDe.pub.hashCached = [] := by
    rw [h.pub_eq]
    rfl
  exact (MultiCryptoStrings.readHash_eq_ok_iff (.inl hfresh)).mpr ⟨h.hasLetters, rfl, rfl⟩

/-- Ephemeral keys fit into a packetstart. -/
theorem length_serializedOctets (h : Holds Valid count IDe) (hone : ∀ sys, count sys ≤ 1) :
    IDe.pub.serializedOctets.length + 16 ≤ saneMaxSizeForString := by
  have hle := MultiCryptoStrings.length_serializedOctets_le
    (fun sys => (h.getCount sys).trans_le (hone sys)) h.short
  unfold saneMaxSizeForString
  omega

/-- The exchange of two sets of ephemeral keys can be carried out. -/
theorem ready {IDeA IDeB : MultikeysPAIR} (laws : KexLaws lib Valid) (hA : Holds Valid count IDeA)
    (hB : Holds Valid count IDeB) (hone : ∀ sys, count sys ≤ 1) (draw : ℕ) :
    (initiatorParams lib IDeA IDeB.pub).Ready draw ∧
      (mapOctets ((initiatorParams lib IDeA IDeB.pub).tosend draw)).length ≤
        saneMaxSizeForString := by
  have hlen : (mapOctets ((initiatorParams lib IDeA IDeB.pub).tosend draw)).length ≤
      saneMaxSizeForString := by
    refine length_mapOctets_tosend_le fun sys => ?_
    have hcountA : IDeA.pub.getCountKeysInSystem sys = count sys := hA.getCount sys
    have hcountB : IDeB.pub.getCountKeysInSystem sys = count sys := hB.getCount sys
    have hle := hone sys
    change max (IDeA.pub.getCountKeysInSystem sys) (IDeB.pub.getCountKeysInSystem sys) ≤ 1
    omega
  refine ⟨(sides hA.countsMatch hB.countsMatch ∅).ready_of_laws laws hA.valid hB.valid ?_ hlen, hlen⟩
  rintro sys type - ⟨hshared, -⟩
  have hpos : 0 < IDeA.pub.getCountKeysInSystem sys := hshared
  rw [hA.getCount sys] at hpos
  exact hA.letters sys hpos.ne'

end MultikeysPAIR.Holds

/-- A stream creates an ephemeral identity for the systems that were counted in its exchange. -/
theorem CStream.exists_createIDe_eq_ok (laws : GenerationLaws lib Valid) {stream : CStream}
    {A B : MultikeysPub} (hcount : stream.cryptolistsCount = sharedCount A B)
    (h : MultikeysPAIR.CanGenerateAll lib (sharedCount A B)) (draw : ℕ) :
    ∃ IDe draw', stream.createIDe lib true draw =
        .ok (IDe, { stream with packetstartIDe := IDe.pub.serializedOctets }) draw' ∧
      MultikeysPAIR.Holds Valid (sharedCount A B) IDe := by
  obtain ⟨IDe, draw', hgenerate, hIDe⟩ :=
    MultikeysPAIR.exists_generate_eq_ok laws h (sharedCount_lt A B) draw
  rw [generatedCount_sharedCount] at hIDe
  refine ⟨IDe, draw', ?_, hIDe⟩
  rw [CStream.createIDe, hcount, bind_of_ok hgenerate,
    bind_of_ok (hIDe.serializeBin_eq_ok (sharedCount_lt A B) draw')]
  rfl

/-! ### The steps of the handshake -/

/-- The tunnel of the initiator, before it has ephemeral keys. -/
def initiatorTunnel (lib : CryptoLib) (A B : MultikeysPAIR) (hashA hashB : Bytes) (draw : ℕ) :
    CryptoTunnel where
  sideInitiator := true
  IDe := none
  streamCryptoAb := exchangedStream (initiatorParams lib A B.pub) draw (compare hashA hashB).isGT
  streamCryptoFinal := none

/-- The initiator's constructor succeeds exactly when its exchange can be carried out. -/
theorem CryptoTunnel.new_eq_ok_iff (hA : A.pub.readHash lib () = .ok hashA ())
    (hB : B.pub.readHash lib () = .ok hashB ()) {ct : CryptoTunnel} {draw draw' : ℕ} :
    CryptoTunnel.new lib A B.pub draw = .ok ct draw' ↔
      let k := initiatorParams lib A B.pub
      k.Ready draw ∧ ct = initiatorTunnel lib A B hashA hashB draw ∧
        draw' = draw + k.drawsOf (k.rounds draw) := by
  rw [CryptoTunnel.new, bind_pure_eq_ok_iff]
  constructor
  · rintro ⟨stream, hstream, rfl⟩
    obtain ⟨hready, rfl, rfl⟩ := (exchangeStart_eq_ok_iff hA hB).mp hstream
    exact ⟨hready, rfl, rfl⟩
  · rintro ⟨hready, rfl, rfl⟩
    exact ⟨_, (exchangeStart_eq_ok_iff hA hB).mpr ⟨hready, rfl, rfl⟩, rfl⟩

/-- `create_IDe` on a tunnel without ephemeral keys. -/
theorem CryptoTunnel.createIDe_eq_ok_iff {ct ct' : CryptoTunnel} (hnone : ct.IDe = none)
    {draw draw' : ℕ} :
    ct.createIDe lib draw = .ok ct' draw' ↔ ∃ IDe stream,
      ct.streamCryptoAb.createIDe lib true draw = .ok (IDe, stream) draw' ∧
        ct' = { ct with IDe := some IDe, streamCryptoAb := stream } := by
  have hcheck : ct.IDe.isNone = true := by rw [hnone]; rfl
  rw [CryptoTunnel.createIDe, bind_of_ok (a := ()) (checkThat_eq_ok_iff.mpr ⟨hcheck, rfl⟩),
    bind_eq_ok_iff]
  constructor
  · rintro ⟨⟨IDe, stream⟩, draw₁, hIDe, hret⟩
    obtain ⟨rfl, rfl⟩ := EStateM.Result.ok.inj hret
    exact ⟨IDe, stream, hIDe, rfl⟩
  · rintro ⟨IDe, stream, hIDe, rfl⟩
    exact ⟨(IDe, stream), draw', hIDe, rfl⟩

/-- The hash of ephemeral keys. -/
def ephemeralHash (lib : CryptoLib) (IDe : MultikeysPAIR) : Bytes :=
  lib.hash1 (IDe.pub.fingerprintOctets lib)

/-- The final stream of the respondent, who initiates it, with the packetstart it sends. -/
def respondentFinal (lib : CryptoLib) (IDeA IDeB : MultikeysPAIR) (draw : ℕ) : CStream :=
  { exchangedStream (initiatorParams lib IDeB IDeA.pub) draw
      (compare (ephemeralHash lib IDeB) (ephemeralHash lib IDeA)).isGT with
    packetstartIDe := IDeB.pub.serializedOctets }

/-- The respondent's constructor succeeds once its exchange does, and its stream can unbox the ephemeral
keys of the initiator. -/
private theorem exists_ofPacketstart_eq_ok (kex : KexLaws lib Valid) (generation : GenerationLaws lib Valid)
    {pubA pubB : MultikeysPub} (hcan : MultikeysPAIR.CanGenerateAll lib (sharedCount pubA pubB))
    {IDeA : MultikeysPAIR} (hIDeA : IDeA.Holds Valid (sharedCount pubA pubB)) {packetstart : Bytes}
    {streamB : CStream} {draw draw₁ : ℕ}
    (hdone : exchangeDone lib (CStream.new false) B A.pub packetstart draw = .ok streamB draw₁)
    (hcount : streamB.cryptolistsCount = sharedCount pubA pubB) {cb cb' : Boxer}
    (hunboxer : streamB.unboxer = some cb)
    (hparse : ∀ (s : ℕ) {stream : CStream}, stream.unboxer = some cb →
      parsePacketstartIDe lib stream packetstart s =
        .ok (IDeA.pub.serializedOctets, { stream with unboxer := some cb' }) s) :
    ∃ IDeB draw₂ draw', IDeB.Holds Valid (sharedCount pubA pubB) ∧
      CryptoTunnel.ofPacketstart lib B A.pub packetstart draw = .ok
        { sideInitiator := false
          IDe := some IDeB
          streamCryptoAb :=
            { streamB with packetstartIDe := IDeB.pub.serializedOctets, unboxer := some cb' }
          streamCryptoFinal := some (respondentFinal lib IDeA IDeB draw₂) } draw' := by
  have hlt := sharedCount_lt pubA pubB
  obtain ⟨IDeB, draw₂, hstream, hIDeB⟩ := exists_createIDe_eq_ok generation hcount hcan draw₁
  let ct : CryptoTunnel :=
    { sideInitiator := false
      IDe := none
      streamCryptoAb := streamB
      streamCryptoFinal := none }
  have hcreate := (CryptoTunnel.createIDe_eq_ok_iff (show ct.IDe = none from rfl)).mpr
    ⟨_, _, hstream, rfl⟩
  let streamB' : CStream := { streamB with packetstartIDe := IDeB.pub.serializedOctets }
  have hunbox := hparse draw₂ (show streamB'.unboxer = some cb from hunboxer)
  have hthem := hIDeA.ofBin_serializedOctets hlt draw₂
  have hstart := (exchangeStart_eq_ok_iff hIDeB.readHash_eq_ok hIDeA.readHash_eq_ok).mpr
    ⟨(hIDeB.ready kex hIDeA (sharedCount_le pubA pubB) draw₂).1, rfl, rfl⟩
  set k := initiatorParams lib IDeB IDeA.pub
  -- The steps of the constructor in their order.
  refine ⟨IDeB, draw₂, draw₂ + k.drawsOf (k.rounds draw₂), hIDeB, ?_⟩
  exact (bind_of_ok hdone).trans ((bind_of_ok hcreate).trans ((bind_of_ok hunbox).trans
    ((bind_of_ok hthem).trans ((bind_of_ok (show usePtr (some IDeB) draw₂ = .ok IDeB draw₂ from
    rfl)).trans ((bind_of_ok hstart).trans
    (bind_of_ok (bind_of_ok (hIDeB.serializeBin_eq_ok hlt _))))))))

/-- A stream that was set up with the key and the parity, and has not boxed anything yet. -/
structure SetUp (stream : CStream) (key : Bytes) (odd : Bool) : Prop where
  KCT : stream.KCT = key
  nonceOdd : stream.nonceOdd = odd
  boxer : stream.boxer = some { odd, key, count := 0 }
  unboxer : stream.unboxer = some { odd := !odd, key, count := 0 }

/-- What a handshake leaves: ephemeral keys on both sides, and final streams with one key, whose
parities come from the hashes of these keys. -/
def Established (lib : CryptoLib) (alice bob : CryptoTunnel) : Prop :=
  ∃ IDeA IDeB hashA hashB key finalA finalB,
    alice.IDe = some IDeA ∧ bob.IDe = some IDeB ∧
    IDeA.pub.readHash lib () = .ok hashA () ∧ IDeB.pub.readHash lib () = .ok hashB () ∧
    alice.streamCryptoFinal = some finalA ∧ bob.streamCryptoFinal = some finalB ∧
    key.length = 32 ∧ SetUp finalA key (compare hashA hashB).isGT ∧
    SetUp finalB key (compare hashB hashA).isGT

/-- The handshake succeeds when the initiator's exchange can be carried out, its passwords fit into a
packetstart, and this build can make keys of all shared systems. -/
private theorem exists_handshake_eq_ok (kex : KexLaws lib Valid) (generation : GenerationLaws lib Valid)
    (boxes : BoxLaws lib) (hcountsA : A.CountsMatch) (hcountsB : B.CountsMatch)
    (hvalidA : A.KeysValid Valid) (hvalidB : B.KeysValid Valid)
    (hA : A.pub.readHash lib () = .ok hashA ()) (hB : B.pub.readHash lib () = .ok hashB ())
    (hne : hashA ≠ hashB) (drawA drawB : ℕ)
    (hready : (initiatorParams lib A B.pub).Ready drawA)
    (hlen : (mapOctets ((initiatorParams lib A B.pub).tosend drawA)).length ≤ saneMaxSizeForString)
    (hcan : MultikeysPAIR.CanGenerateAll lib (sharedCount A.pub B.pub)) :
    ∃ alice bob draws', handshake lib A B (drawA, drawB) = .ok (alice, bob) draws' ∧
      Established lib alice bob := by
  set kA := initiatorParams lib A B.pub
  set kB := respondentParams lib B A.pub (kA.tosend drawA)
  have hcountA : kA.countOf (fun _ => 0) = sharedCount A.pub B.pub := countOf_eq _ _ _ _ _
  have hcountB : kB.countOf (fun _ => 0) = sharedCount A.pub B.pub :=
    (countOf_eq _ _ _ _ _).trans (sharedCount_comm _ _)
  have hone := sharedCount_le A.pub B.pub
  have hlt := sharedCount_lt A.pub B.pub
  -- Alice makes her tunnel and her ephemeral keys
  have hnew := (CryptoTunnel.new_eq_ok_iff hA hB).mpr ⟨hready, rfl, rfl⟩
  set drawA₁ := drawA + kA.drawsOf (kA.rounds drawA)
  set alice₀ := initiatorTunnel lib A B hashA hashB drawA
  obtain ⟨IDeA, drawA₂, hstreamA, hIDeA⟩ := exists_createIDe_eq_ok generation
    (show alice₀.streamCryptoAb.cryptolistsCount = sharedCount A.pub B.pub from hcountA) hcan
    drawA₁
  have hcreateA := (CryptoTunnel.createIDe_eq_ok_iff (show alice₀.IDe = none from rfl)).mpr
    ⟨_, _, hstreamA, rfl⟩
  -- she sends them in a packetstart of the stream `ab`
  set odd := (compare hashA hashB).isGT with hodd
  have hodd' : (compare hashB hashA).isGT = !odd := by
    rw [hodd, isGT_compare_eq_not hne, Bool.not_not]
  set key := kA.sessionKey drawA
  have hkey : key.length = 32 := length_sessionKey kA drawA
  let streamA : CStream :=
    { alice₀.streamCryptoAb with packetstartIDe := IDeA.pub.serializedOctets }
  obtain ⟨packetstart, ⟨rest, hrest⟩, hsendA, hparseA⟩ := exists_generatePacketstart_eq_ok boxes
    streamA streamA rfl hkey rfl hlen (hIDeA.length_serializedOctets hone)
  -- Bob makes his tunnel from it
  obtain ⟨hkeyB, drawB₁, hdoneB⟩ := exchangeDone_eq_ok kex hcountsA hcountsB hvalidA hvalidB hA hB
    hready hlen rest drawB
  have hunboxerB : (exchangedStream kB drawB (compare hashB hashA).isGT).unboxer =
      some { odd, key, count := 0 } := by
    change some (_ : Boxer) = _
    rw [hkeyB, hodd', Bool.not_not]
  obtain ⟨IDeB, drawB₂, drawB', hIDeB, hbob⟩ := exists_ofPacketstart_eq_ok kex generation hcan hIDeA
    (hrest ▸ hdoneB) hcountB hunboxerB fun s _ h => hparseA s h
  -- and sends his ephemeral keys in a packetstart of the final stream
  set kF := initiatorParams lib IDeB IDeA.pub
  obtain ⟨hreadyF, hlenF⟩ := hIDeB.ready kex hIDeA hone drawB₂
  let streamB : CStream :=
    { exchangedStream kB drawB (compare hashB hashA).isGT with
      packetstartIDe := IDeB.pub.serializedOctets
      unboxer := some { odd, key, count := 1 } }
  let finalB := respondentFinal lib IDeA IDeB drawB₂
  have hboxerB : streamB.boxer = some { odd := !odd, key, count := 0 } := by
    change some (_ : Boxer) = _
    rw [hkeyB, hodd']
  obtain ⟨packetstart', ⟨rest', hrest'⟩, hsendB, hparseB⟩ := exists_generatePacketstart_eq_ok boxes
    finalB streamB hboxerB hkey rfl hlenF (hIDeB.length_serializedOctets hone)
  -- Alice finishes with it
  have hunboxerA : streamA.unboxer = some { odd := !odd, key, count := 0 } := rfl
  let streamA' : CStream := { streamA with boxer := some { odd, key, count := 1 } }
  have hunboxA := hparseB drawA₂ (show streamA'.unboxer = _ from hunboxerA)
  obtain ⟨hkeyF, drawA', hdoneA⟩ := exchangeDone_eq_ok kex hIDeB.countsMatch hIDeA.countsMatch
    hIDeB.valid hIDeA.valid hIDeB.readHash_eq_ok hIDeA.readHash_eq_ok hreadyF hlenF rest' drawA₂
  set kF' := respondentParams lib IDeA IDeB.pub (kF.tosend drawB₂)
  let finalA : CStream := exchangedStream kF' drawA₂
    (compare (ephemeralHash lib IDeA) (ephemeralHash lib IDeB)).isGT
  let alice₂ : CryptoTunnel := { alice₀ with IDe := some IDeA, streamCryptoAb := streamA' }
  let alice : CryptoTunnel := { alice₂ with
    streamCryptoAb := { streamA' with unboxer := some { odd := !odd, key, count := 1 } }
    streamCryptoFinal := some finalA }
  have hfinish : alice₂.createCTf lib packetstart' drawA₂ = .ok alice drawA' :=
    (bind_of_ok hunboxA).trans ((bind_of_ok (hIDeB.ofBin_serializedOctets hlt drawA₂)).trans
      ((bind_of_ok (show usePtr (some IDeA) drawA₂ = .ok IDeA drawA₂ from rfl)).trans
      (bind_of_ok (hrest' ▸ hdoneA))))
  let bob₀ : CryptoTunnel :=
    { sideInitiator := false
      IDe := some IDeB
      streamCryptoAb := streamB
      streamCryptoFinal := some finalB }
  let bob : CryptoTunnel := { bob₀ with
    streamCryptoAb := { streamB with boxer := some { odd := !odd, key, count := 1 } } }
  refine ⟨alice, bob, (drawA', drawB'), ?_, IDeA, IDeB, _, _, kF.sessionKey drawB₂, finalA, finalB,
    rfl, rfl, hIDeA.readHash_eq_ok, hIDeB.readHash_eq_ok, rfl, rfl, length_sessionKey kF drawB₂, ?_,
    ⟨rfl, rfl, rfl, rfl⟩⟩
  · have hrunNew : onFst (CryptoTunnel.new lib A B.pub) (drawA, drawB) =
        .ok alice₀ (drawA₁, drawB) := onFst_eq_ok_iff.mpr ⟨hnew, rfl⟩
    have hrunIDe : onFst (alice₀.createIDe lib) (drawA₁, drawB) =
        .ok { alice₀ with IDe := some IDeA, streamCryptoAb := streamA } (drawA₂, drawB) :=
      onFst_eq_ok_iff.mpr ⟨hcreateA, rfl⟩
    have hrunAb : CryptoTunnel.getPacketstartAb lib
        { alice₀ with IDe := some IDeA, streamCryptoAb := streamA } (drawA₂, drawB) =
        .ok (packetstart, alice₂) (drawA₂, drawB) := bind_of_ok (hsendA _)
    have hrunBob : onSnd (CryptoTunnel.ofPacketstart lib B A.pub packetstart) (drawA₂, drawB) =
        .ok bob₀ (drawA₂, drawB') := onSnd_eq_ok_iff.mpr ⟨hbob, rfl⟩
    have hrunFinal : CryptoTunnel.getPacketstartFinal lib bob₀ (drawA₂, drawB') =
        .ok (packetstart', bob) (drawA₂, drawB') := bind_of_ok (hsendB _)
    have hrunCTf : onFst (alice₂.createCTf lib packetstart') (drawA₂, drawB') =
        .ok alice (drawA', drawB') := onFst_eq_ok_iff.mpr ⟨hfinish, rfl⟩
    exact (bind_of_ok hrunNew).trans ((bind_of_ok hrunIDe).trans ((bind_of_ok hrunAb).trans
      ((bind_of_ok hrunBob).trans ((bind_of_ok hrunFinal).trans (bind_of_ok hrunCTf)))))
  · exact ⟨hkeyF, rfl, congrArg (fun key => some (Boxer.mk _ key 0)) hkeyF,
      congrArg (fun key => some (Boxer.mk _ key 0)) hkeyF⟩

/-- A handshake that succeeds went through the exchange of the initiator, whose passwords fit into the
packetstart, and made keys of all shared systems. -/
theorem conditions_of_handshake_eq_ok (hA : A.pub.readHash lib () = .ok hashA ())
    (hB : B.pub.readHash lib () = .ok hashB ()) {drawA drawB : ℕ} {alice bob : CryptoTunnel}
    {draws' : ℕ × ℕ} (h : handshake lib A B (drawA, drawB) = .ok (alice, bob) draws') :
    (initiatorParams lib A B.pub).Ready drawA ∧
      (mapOctets ((initiatorParams lib A B.pub).tosend drawA)).length ≤ saneMaxSizeForString ∧
      MultikeysPAIR.CanGenerateAll lib (sharedCount A.pub B.pub) := by
  obtain ⟨alice₀, ⟨drawA₁, _⟩, hrunNew, hrest⟩ := bind_eq_ok_iff.mp h
  obtain ⟨hready, rfl, -⟩ := (CryptoTunnel.new_eq_ok_iff hA hB).mp (onFst_eq_ok_iff.mp hrunNew).1
  obtain ⟨alice₁, ⟨drawA₂, _⟩, hrunIDe, hrest⟩ := bind_eq_ok_iff.mp hrest
  obtain ⟨IDe, stream, hstream, rfl⟩ :=
    (CryptoTunnel.createIDe_eq_ok_iff rfl).mp (onFst_eq_ok_iff.mp hrunIDe).1
  obtain ⟨IDe', drawA₃, hgenerate, hserialize⟩ := bind_eq_ok_iff.mp hstream
  have hcan := MultikeysPAIR.canGenerateAll_of_generate_eq_ok hgenerate
  have hcount : (initiatorTunnel lib A B hashA hashB drawA).streamCryptoAb.cryptolistsCount =
      sharedCount A.pub B.pub := countOf_eq _ _ _ _ _
  rw [hcount] at hcan
  -- creating the ephemeral keys leaves the encrypted passwords alone
  have hkexasym : stream.packetstartKexasym =
      mapOctets ((initiatorParams lib A B.pub).tosend drawA) := by
    obtain ⟨serial, drawA₄, -, hret⟩ := bind_eq_ok_iff.mp hserialize
    obtain ⟨hpair, -⟩ := EStateM.Result.ok.inj hret
    obtain ⟨-, rfl⟩ := Prod.mk.inj hpair
    rfl
  obtain ⟨⟨packetstart, alice₂⟩, s₃, hrunAb, hrest⟩ := bind_eq_ok_iff.mp hrest
  obtain ⟨⟨packetstart₁, stream'⟩, s₄, hpacketstart, hret⟩ := bind_eq_ok_iff.mp hrunAb
  obtain ⟨hpair, -⟩ := EStateM.Result.ok.inj hret
  obtain ⟨rfl, -⟩ := Prod.mk.inj hpair
  obtain ⟨hlim, viaCT, hoctets⟩ := generatePacketstart_eq_ok hpacketstart
  obtain rfl := hoctets
  obtain ⟨bob₀, s₅, hrunBob, -⟩ := bind_eq_ok_iff.mp hrest
  obtain ⟨streamB, drawB₁, hdone, -⟩ := bind_eq_ok_iff.mp (onSnd_eq_ok_iff.mp hrunBob).1
  have hsane := le_sane_of_exchangeDone_eq_ok hlim hdone
  change stream.packetstartKexasym.length ≤ _ at hsane
  rw [hkexasym] at hsane
  exact ⟨hready, hsane, hcan⟩

end Handshake

/-! ### Traffic -/

/-- One of the two sides of a link. -/
inductive Party where
  | alice
  | bob
  deriving DecidableEq, Repr

/-- The other side. -/
def Party.other : Party → Party
  | alice => bob
  | bob => alice

/-- A message that was boxed: by whom, and with which nonce. -/
structure Sent where
  sender : Party
  msg : Bytes
  cipher : Bytes
  nonce : Bytes
  deriving DecidableEq, Repr

/-- Two tunnels, and the messages that were boxed with them. -/
structure Link where
  tunnel : Party → CryptoTunnel
  sent : List Sent

namespace Link

variable {lib : CryptoLib}

/-- Two tunnels that have not boxed anything yet. -/
def new (alice bob : CryptoTunnel) : Link where
  tunnel
    | .alice => alice
    | .bob => bob
  sent := []

/-- One call of `box`. When it throws, nothing was boxed. -/
def call (lib : CryptoLib) (link : Link) (sender : Party) (msg : Bytes) : Link :=
  match (link.tunnel sender).box lib msg () with
  | .ok ((cipher, nonce), ct) _ =>
    { tunnel := Function.update link.tunnel sender ct
      sent := link.sent ++ [{ sender, msg, cipher, nonce }] }
  | .error _ _ => link

/-- Calls of `box` on the two sides, in any order. A call that throws is one of them. -/
def traffic (lib : CryptoLib) (link : Link) (calls : List (Party × Bytes)) : Link :=
  calls.foldl (fun link c => link.call lib c.1 c.2) link

/-- The final stream of a tunnel boxes and unboxes with the key, and has boxed at most `n` messages. -/
def HasKey (key : Bytes) (n : ℕ) (ct : CryptoTunnel) : Prop :=
  ∃ final boxer unboxer, ct.streamCryptoFinal = some final ∧ final.boxer = some boxer ∧
    final.unboxer = some unboxer ∧ boxer.key = key ∧ unboxer.key = key ∧ boxer.count ≤ n

/-- Both sides box and unbox with one key, and what was boxed can be unboxed with it. This is what the
messages of both sides keep, in any order. -/
structure Keyed (lib : CryptoLib) (key : Bytes) (link : Link) : Prop where
  tunnel : ∀ party, HasKey key link.sent.length (link.tunnel party)
  sent : ∀ s ∈ link.sent, lib.secretboxOpen key s.nonce s.cipher = .ok s.msg

/-- What a call of `box` on a keyed side does: it takes the next nonce, and fails only without one. -/
theorem box_of_keyed (laws : BoxLaws lib) {ct : CryptoTunnel} {final : CStream} {boxer : Boxer}
    (hfinal : ct.streamCryptoFinal = some final) (hboxer : final.boxer = some boxer)
    (hkey : boxer.key.length = 32) (msg : Bytes) :
    (∃ N cipher, lib.nonceAt boxer.odd boxer.count = .ok N ∧
        lib.secretboxOpen boxer.key N cipher = .ok msg ∧
        ct.box lib msg () = .ok ((cipher, N), { ct with
          streamCryptoFinal := some { final with
            boxer := some { boxer with count := boxer.count + 1 } } }) ()) ∨
      ∃ e, lib.nonceAt boxer.odd boxer.count = .error e ∧
        ct.box lib msg () = .error (.throw e) () := by
  have husePtr : (usePtr ct.streamCryptoFinal : Program Exn Unit CStream) () = .ok final () := by
    rw [hfinal]
    rfl
  cases hN : lib.nonceAt boxer.odd boxer.count with
  | ok N =>
    obtain ⟨cipher, hcipher, -, hopen⟩ := laws.box hN hkey msg
    exact .inl ⟨N, cipher, rfl, hopen, (bind_of_ok husePtr).trans
      (bind_of_ok (box_eq_ok hboxer hN hcipher ()))⟩
  | error e =>
    have hbox : final.box lib msg () = .error (.throw e) () := by
      unfold CStream.box
      rw [hboxer]
      exact bind_of_error (by rw [hN]; rfl)
    exact .inr ⟨e, rfl, (bind_of_ok husePtr).trans (bind_of_error hbox)⟩

/-- A call that boxes a message. -/
theorem call_of_ok {link : Link} {sender : Party} {msg cipher nonce : Bytes} {ct : CryptoTunnel}
    (h : (link.tunnel sender).box lib msg () = .ok ((cipher, nonce), ct) ()) :
    link.call lib sender msg =
      { tunnel := Function.update link.tunnel sender ct
        sent := link.sent ++ [{ sender, msg, cipher, nonce }] } := by
  rw [call, h]

/-- A call that throws. -/
private theorem call_of_error {link : Link} {sender : Party} {msg : Bytes} {e : Fault Exn}
    (h : (link.tunnel sender).box lib msg () = .error e ()) : link.call lib sender msg = link := by
  rw [call, h]

/-- A call of `box` keeps the key, and what it boxes can be unboxed with it. -/
theorem Keyed.call (laws : BoxLaws lib) {key : Bytes} (hkey : key.length = 32) {link : Link}
    (h : link.Keyed lib key) (sender : Party) (msg : Bytes) :
    (link.call lib sender msg).Keyed lib key := by
  obtain ⟨final, boxer, unboxer, hfinal, hboxer, hunboxer, rfl, hunkey, hcount⟩ := h.tunnel sender
  rcases box_of_keyed laws hfinal hboxer hkey msg with ⟨N, cipher, -, hopen, hrun⟩ | ⟨e, -, hrun⟩
  · rw [call_of_ok hrun]
    refine ⟨fun party => ?_, fun s hs => ?_⟩
    · change HasKey boxer.key (link.sent ++ [_]).length (Function.update link.tunnel sender _ party)
      rw [Function.update_apply, List.length_append, List.length_singleton]
      split
      · exact ⟨{ final with boxer := some { boxer with count := boxer.count + 1 } }, _, unboxer, rfl,
          rfl, hunboxer, rfl, hunkey, Nat.succ_le_succ hcount⟩
      · obtain ⟨final', boxer', unboxer', hother, hboxer', hunboxer', hkey', hunkey', hcount'⟩ :=
          h.tunnel party
        exact ⟨final', boxer', unboxer', hother, hboxer', hunboxer', hkey', hunkey', by omega⟩
    · rcases List.mem_append.mp hs with hs | hs
      · exact h.sent s hs
      · obtain rfl := List.mem_singleton.mp hs
        exact hopen
  · rw [call_of_error hrun]
    exact h

/-- Calls keep the key, however many there are and in whatever order. -/
private theorem Keyed.traffic (laws : BoxLaws lib) {key : Bytes} (hkey : key.length = 32)
    (calls : List (Party × Bytes)) :
    ∀ {link : Link}, link.Keyed lib key → (link.traffic lib calls).Keyed lib key := by
  induction calls with
  | nil => exact fun h => h
  | cons c calls ih => exact fun h => ih (h.call laws hkey c.1 c.2)

/-- As long as there are nonces, every call boxes its message. -/
private theorem Keyed.map_sent_traffic (laws : BoxLaws lib) {key : Bytes} (hkey : key.length = 32)
    (calls : List (Party × Bytes)) :
    ∀ {link : Link}, link.Keyed lib key →
      (∀ odd, ∀ count < link.sent.length + calls.length, ∃ N, lib.nonceAt odd count = .ok N) →
      (link.traffic lib calls).sent.map (fun s => (s.sender, s.msg)) =
        link.sent.map (fun s => (s.sender, s.msg)) ++ calls := by
  induction calls with
  | nil => simp [Link.traffic]
  | cons c calls ih =>
    intro link h hnonce
    obtain ⟨final, boxer, unboxer, hfinal, hboxer, -, rfl, -, hcount⟩ := h.tunnel c.1
    rcases box_of_keyed laws hfinal hboxer hkey c.2 with ⟨N, cipher, -, -, hrun⟩ | ⟨e, he, -⟩
    · have hcall := call_of_ok hrun
      have hlen : (link.call lib c.1 c.2).sent.length = link.sent.length + 1 := by
        rw [hcall, List.length_append, List.length_singleton]
      have hnext := ih (h.call laws hkey c.1 c.2) fun odd count hlt =>
        hnonce odd count (by rw [hlen] at hlt; rw [List.length_cons]; omega)
      change ((link.call lib c.1 c.2).traffic lib calls).sent.map _ = _
      rw [hnext, hcall, List.map_append, List.append_assoc]
      rfl
    · obtain ⟨N, hN⟩ := hnonce boxer.odd boxer.count (by rw [List.length_cons]; omega)
      rw [hN] at he
      cases he

/-- On keyed sides, a message that was boxed by one side is unboxed by the other. -/
private theorem Keyed.unbox_eq_ok {key : Bytes} {link : Link} (h : link.Keyed lib key) {s : Sent}
    (hs : s ∈ link.sent) :
    (link.tunnel s.sender.other).unboxNonce lib s.cipher s.nonce () = .ok s.msg () := by
  obtain ⟨final, boxer, unboxer, hfinal, -, hunboxer, -, hunkey, -⟩ := h.tunnel s.sender.other
  have husePtr : (usePtr (link.tunnel s.sender.other).streamCryptoFinal :
      Program Exn Unit CStream) () = .ok final () := by
    rw [hfinal]
    rfl
  rw [CryptoTunnel.unboxNonce, bind_of_ok husePtr]
  unfold CStream.unboxNonce
  rw [hunboxer]
  exact fromExcept_eq_ok_iff.mpr ⟨hunkey ▸ h.sent s hs, rfl⟩

/-- The link that a handshake leaves is keyed. -/
private theorem exists_keyed_new {alice bob : CryptoTunnel} (h : Established lib alice bob) :
    ∃ key : Bytes, key.length = 32 ∧ (Link.new alice bob).Keyed lib key := by
  obtain ⟨IDeA, IDeB, hashA, hashB, key, finalA, finalB, -, -, -, -, hfinalA, hfinalB, hkey, hA, hB⟩ :=
    h
  refine ⟨key, hkey, fun party => ?_, fun _ hs => absurd hs List.not_mem_nil⟩
  cases party with
  | alice => exact ⟨finalA, _, _, hfinalA, hA.boxer, hA.unboxer, rfl, rfl, le_rfl⟩
  | bob => exact ⟨finalB, _, _, hfinalB, hB.boxer, hB.unboxer, rfl, rfl, le_rfl⟩

end Link

/-! ### The whole run -/

/-- The final streams of the two sides hold the same key. Both have finished their parts, so that there is a
key at either end. -/
def SameKey (alice bob : CryptoTunnel) : Prop :=
  ∃ a b, alice.streamCryptoFinal = some a ∧ bob.streamCryptoFinal = some b ∧ a.KCT = b.KCT

/-- The final streams of the two sides take nonces of opposite parity. -/
def OppositeParity (alice bob : CryptoTunnel) : Prop :=
  ∃ a b, alice.streamCryptoFinal = some a ∧ bob.streamCryptoFinal = some b ∧
    a.nonceOdd = !b.nonceOdd

/-- The ephemeral keys of the two sides have different hashes. The parity of the nonces is made of their
comparison, and equal hashes give both sides the same one. -/
def EphemeralHashesDiffer (lib : CryptoLib) (alice bob : CryptoTunnel) : Prop :=
  ∀ IDeA IDeB hash, alice.IDe = some IDeA → bob.IDe = some IDeB →
    IDeA.pub.readHash lib () = .ok hash () → IDeB.pub.readHash lib () ≠ .ok hash ()

section Correct

variable {lib : CryptoLib} {Valid : CryptoSystemType → Bytes → Bytes → Prop} {A B : MultikeysPAIR}
  {hashA hashB : Bytes}

/-- What a handshake has established. -/
private theorem Established.sameKey {alice bob : CryptoTunnel} (h : Established lib alice bob) :
    SameKey alice bob := by
  obtain ⟨_, _, _, _, key, finalA, finalB, -, -, -, -, hfinalA, hfinalB, -, hA, hB⟩ := h
  exact ⟨finalA, finalB, hfinalA, hfinalB, hA.KCT.trans hB.KCT.symm⟩

private theorem Established.oppositeParity {alice bob : CryptoTunnel} (h : Established lib alice bob)
    (hdiffer : EphemeralHashesDiffer lib alice bob) : OppositeParity alice bob := by
  obtain ⟨IDeA, IDeB, hashA, hashB, key, finalA, finalB, hIDeA, hIDeB, hhashA, hhashB, hfinalA,
    hfinalB, -, hA, hB⟩ := h
  refine ⟨finalA, finalB, hfinalA, hfinalB, ?_⟩
  rw [hA.nonceOdd, hB.nonceOdd]
  refine isGT_compare_eq_not fun heq => ?_
  exact hdiffer IDeA IDeB hashA hIDeA hIDeB hhashA (heq ▸ hhashB)

/-- Between two parties with different hashes, whose keys belong together, the handshake succeeds exactly
when this build can make keys of all systems they share and the encrypted passwords of the initiator
fit into a packetstart. After a handshake that succeeded, both sides hold the same key, have opposite
parities when their ephemeral keys have different hashes, and each message that is boxed on one side is
unboxed on the other; as long as there are nonces, every message is boxed. -/
theorem handshake_correct (kex : KexLaws lib Valid) (generation : GenerationLaws lib Valid)
    (boxes : BoxLaws lib) (hcountsA : A.CountsMatch) (hcountsB : B.CountsMatch)
    (hvalidA : A.KeysValid Valid) (hvalidB : B.KeysValid Valid)
    (hA : A.pub.readHash lib () = .ok hashA ()) (hB : B.pub.readHash lib () = .ok hashB ())
    (hne : hashA ≠ hashB) (draws : ℕ × ℕ) :
    ((∃ alice bob draws', handshake lib A B draws = .ok (alice, bob) draws') ↔
      MultikeysPAIR.CanGenerateAll lib (sharedCount A.pub B.pub) ∧
        (mapOctets ((initiatorParams lib A B.pub).tosend draws.1)).length ≤
          saneMaxSizeForString) ∧
    ∀ alice bob draws', handshake lib A B draws = .ok (alice, bob) draws' →
      SameKey alice bob ∧ (EphemeralHashesDiffer lib alice bob → OppositeParity alice bob) ∧
      ∀ calls : List (Party × Bytes),
        let link := (Link.new alice bob).traffic lib calls
        (∀ s ∈ link.sent, (link.tunnel s.sender.other).unboxNonce lib s.cipher s.nonce () =
          .ok s.msg ()) ∧
        ((∀ odd, ∀ count < calls.length, ∃ N, lib.nonceAt odd count = .ok N) →
          link.sent.map (fun s => (s.sender, s.msg)) = calls) := by
  obtain ⟨drawA, drawB⟩ := draws
  have hruns := exists_handshake_eq_ok kex generation boxes hcountsA hcountsB hvalidA hvalidB hA hB hne
    drawA drawB
  refine ⟨⟨?_, ?_⟩, ?_⟩
  · rintro ⟨alice, bob, draws', hrun⟩
    obtain ⟨-, hlen, hcan⟩ := conditions_of_handshake_eq_ok hA hB hrun
    exact ⟨hcan, hlen⟩
  · rintro ⟨hcan, hlen⟩
    have hready : (initiatorParams lib A B.pub).Ready drawA := by
      refine (sides hcountsA hcountsB ∅).ready_of_laws kex hvalidA hvalidB ?_ hlen
      rintro sys type htype ⟨hselfA, hthem⟩
      have hshared : sharedCount A.pub B.pub sys ≠ 0 := by
        have hone : sharedCount A.pub B.pub sys = 1 :=
          if_pos ⟨Option.isSome_iff_exists.mpr ⟨type, htype⟩, hselfA, hthem⟩
        omega
      obtain ⟨ID, hID⟩ := exists_toID_of_canGenerate (hcan sys type htype hshared)
      exact ⟨ID, CryptoSystemType.nr_of_ofInt htype ▸ hID⟩
    obtain ⟨alice, bob, draws', hrun, -⟩ := hruns hready hlen hcan
    exact ⟨alice, bob, draws', hrun⟩
  · intro alice bob draws' hrun
    obtain ⟨hready, hlen, hcan⟩ := conditions_of_handshake_eq_ok hA hB hrun
    obtain ⟨alice', bob', draws'', hrun', hestablished⟩ := hruns hready hlen hcan
    -- the run is this one
    obtain ⟨hpair, -⟩ := EStateM.Result.ok.inj (hrun.symm.trans hrun')
    obtain ⟨rfl, rfl⟩ := Prod.mk.inj hpair
    obtain ⟨key, hkey, hkeyed⟩ := Link.exists_keyed_new hestablished
    refine ⟨hestablished.sameKey, hestablished.oppositeParity, fun calls => ⟨fun s hs => ?_, ?_⟩⟩
    · exact (hkeyed.traffic boxes hkey calls).unbox_eq_ok hs
    · intro hnonce
      exact hkeyed.map_sent_traffic boxes hkey calls fun odd count hlt =>
        hnonce odd count (by simpa [Link.new] using hlt)

end Correct

/-! ### Runs with the sample library -/

/-- The keys that belong together in the sample library. -/
def SampleValid : CryptoSystemType → Bytes → Bytes → Prop
  | .x25519, PRV, pub => PRV = pub
  | .ntruEES439EP1, PRV, pub => PRV.length < 2 ^ 16 ∧ pub.length < 2 ^ 16
  | _, PRV, pub => PRV.length = 2 ∧ pub.length = 2

private theorem kexLaws_sample : KexLaws CryptoLib.sample SampleValid where
  x25519 := by
    rintro skA pkA skB pkB rfl rfl
    refine ⟨_, rfl, congrArg Except.ok ?_⟩
    exact List.zipWith_comm_of_comm fun a b => UInt8.xor_comm a b
  ntru := by
    rintro sk pk ⟨hsk, hpk⟩ draw password hpassword
    have hcipher : (password.take 65 ++ List.replicate 539 0).length = 604 := by
      rw [List.length_append, List.length_take, List.length_replicate, hpassword, min_self]
    have hplain : (password.take 65 ++ List.replicate 539 0).take 65 = password := by
      rw [List.take_append_of_le_length (by rw [List.length_take]; omega), List.take_take, min_self,
        List.take_of_length_le hpassword.le]
    refine ⟨password.take 65 ++ List.replicate 539 0, ntruppEncrypt_eq_ok_iff.mpr
      ⟨hpk, by omega, rfl, by omega⟩, ntruppDecrypt_eq_ok_iff.mpr ⟨hsk, by omega, hplain.symm, .inl ?_⟩⟩
    exact List.ne_nil_of_length_pos (by omega)
  sidh _ _ := ⟨0, rfl, rfl⟩
  sidh_length hA hB := hA.2.trans hB.2.symm
  sidh_even h := by rw [h.1]

private theorem generationLaws_sample : GenerationLaws CryptoLib.sample SampleValid where
  x25519 draw := ⟨_, rfl, rfl, by rw [Block.length_octets]; norm_num⟩
  ed25519 _ := (by decide : 1 < 2 ^ 16)
  ntru _ draw := by
    refine ⟨List.replicate 659 (UInt8.ofNat draw), List.replicate 609 (UInt8.ofNat draw), rfl,
      List.length_replicate, List.length_replicate, ?_, ?_⟩ <;> rw [List.length_replicate] <;> norm_num
  ntruSign _ := by decide
  sidh h := absurd h (by decide)

private theorem boxLaws_sample : BoxLaws CryptoLib.sample where
  nonce _ := ⟨_, rfl⟩
  box _ _ _ msg := ⟨msg, rfl, by omega, rfl⟩

/-- A party with one key of X25519. -/
def x25519Pair (key : Bytes) : MultikeysPAIR :=
  MultikeysPAIR.new.addPublicAndPRIVATE CryptoSystemType.x25519.nr key key

theorem holds_x25519Pair {key : Bytes} (h : key.length < 2 ^ 16) :
    (x25519Pair key).Holds SampleValid
      (Function.update (fun _ => 0) CryptoSystemType.x25519.nr 1) :=
  MultikeysPAIR.holds_new.addPublicAndPRIVATE ⟨_, rfl⟩ (fun _ => rfl) h

/-- A party with one key of X25519 and one of SIDH. -/
def sidhPair (key : Bytes) : MultikeysPAIR :=
  (x25519Pair key).addPublicAndPRIVATE CryptoSystemType.sidh.nr [0, 0] [0, 0]

private theorem holds_sidhPair {key : Bytes} (h : key.length < 2 ^ 16) :
    (sidhPair key).Holds SampleValid (Function.update
      (Function.update (fun _ => 0) CryptoSystemType.x25519.nr 1) CryptoSystemType.sidh.nr 1) :=
  (holds_x25519Pair h).addPublicAndPRIVATE ⟨_, rfl⟩ (fun _ => ⟨rfl, rfl⟩) (by decide)

/-- Two parties with one key each, and a message in either direction. -/
theorem handshake_correct_example :
    ∃ alice bob draws', handshake CryptoLib.sample (x25519Pair [1]) (x25519Pair [2]) (0, 0) =
        .ok (alice, bob) draws' ∧ SameKey alice bob ∧
      ((Link.new alice bob).traffic CryptoLib.sample [(.alice, [5]), (.bob, [6])]).sent.map
        (fun s => (s.sender, s.msg)) = [(.alice, [5]), (.bob, [6])] := by
  have hA := holds_x25519Pair (show ([1] : Bytes).length < 2 ^ 16 by decide)
  have hB := holds_x25519Pair (show ([2] : Bytes).length < 2 ^ 16 by decide)
  obtain ⟨hruns, hafter⟩ := handshake_correct kexLaws_sample generationLaws_sample boxLaws_sample
    hA.countsMatch hB.countsMatch hA.valid hB.valid hA.readHash_eq_ok hB.readHash_eq_ok (by decide)
    (0, 0)
  have hshared : ∀ sys : SystemNr, sharedCount (x25519Pair [1]).pub (x25519Pair [2]).pub sys ≠ 0 →
      sys = CryptoSystemType.x25519.nr := by decide
  have hcan : MultikeysPAIR.CanGenerateAll CryptoLib.sample
      (sharedCount (x25519Pair [1]).pub (x25519Pair [2]).pub) := by
    intro sys type htype hcount
    obtain rfl := hshared sys hcount
    obtain rfl : .x25519 = type := Option.some.inj htype
    rfl
  have hlen : (mapOctets ((initiatorParams CryptoLib.sample (x25519Pair [1])
      (x25519Pair [2]).pub).tosend 0)).length ≤ saneMaxSizeForString :=
    length_mapOctets_tosend_le (by decide)
  obtain ⟨alice, bob, draws', hrun⟩ := hruns.mpr ⟨hcan, hlen⟩
  obtain ⟨hkey, -, htraffic⟩ := hafter alice bob draws' hrun
  exact ⟨alice, bob, draws', hrun, hkey, (htraffic _).2 fun _ _ _ => ⟨_, rfl⟩⟩

/-- Two parties that share a system which this build has no generator for cannot finish the handshake,
although they share a system that it has. -/
theorem not_handshake_of_disabled :
    ¬ ∀ (lib : CryptoLib) (Valid : CryptoSystemType → Bytes → Bytes → Prop) (A B : MultikeysPAIR)
        (hashA hashB : Bytes) (draws : ℕ × ℕ), KexLaws lib Valid → GenerationLaws lib Valid →
      BoxLaws lib → A.CountsMatch → B.CountsMatch → A.KeysValid Valid → B.KeysValid Valid →
      A.pub.readHash lib () = .ok hashA () → B.pub.readHash lib () = .ok hashB () → hashA ≠ hashB →
      (∃ sys, 0 < A.pub.getCountKeysInSystem sys ∧ 0 < B.pub.getCountKeysInSystem sys) →
      ∃ alice bob draws', handshake lib A B draws = .ok (alice, bob) draws' := by
  intro h
  have hA := holds_sidhPair (show ([1] : Bytes).length < 2 ^ 16 by decide)
  have hB := holds_sidhPair (show ([2] : Bytes).length < 2 ^ 16 by decide)
  obtain ⟨alice, bob, draws', hrun⟩ := h CryptoLib.sample SampleValid (sidhPair [1]) (sidhPair [2]) _ _
    (0, 0) kexLaws_sample generationLaws_sample boxLaws_sample hA.countsMatch hB.countsMatch hA.valid
    hB.valid hA.readHash_eq_ok hB.readHash_eq_ok (by decide)
    ⟨CryptoSystemType.x25519.nr, by decide, by decide⟩
  obtain ⟨-, -, hcan⟩ := conditions_of_handshake_eq_ok hA.readHash_eq_ok hB.readHash_eq_ok hrun
  have hsidh := hcan CryptoSystemType.sidh.nr .sidh rfl (by decide)
  exact absurd hsidh (by decide)

end Galaxy42
