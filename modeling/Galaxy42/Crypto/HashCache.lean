import Galaxy42.Crypto.KeySyntax
import Galaxy42.Lib.Steps

/-!
# The cached hash of a set of keys

`get_hash` keeps the hash it has calculated, and `set_hash_dirty` throws it away. It is called when
`load_from_bin` returns, and when `generate` has made all its keys, and nowhere else: adding a key,
clearing, and loading or generating that fails halfway change the keys and leave the hash that was
cached for the old ones.

So the cache stays valid in exactly those runs in which no step changes the hash of the keys while a
hash is cached, unless it ends with `set_hash_dirty` (`cacheValid_throughout_iff`).

An object with a valid cache describes its keys as it would without one, in all that is calculated from the
hash: the hash itself, the comparison of two sets, and the virtual address (`DescribesKeys`). So the property
of the cache is a property of the results, and it is stated for both.

The operations are those of all classes that hold keys or signatures, on one object. What each of them leaves
is known also when it throws (`stepped_of_ne_getHash`): the keys that were read or generated until then have
been put, and the cache is as it was. `generate` works on a pair of objects; what it does to the public one is
a program of its own (`generatePub`), which is shown to be a part of it (`generatePub_of_generateType`).
-/

namespace Galaxy42

open Toolkit Program TrivialSerialize

variable {σ : Type}

namespace MultiCryptoStrings

/-! ### Reading a valid cache -/

/-- With a valid cache, the hash is the one that is calculated without a cache. -/
private theorem readHash_setHashDirty {lib : CryptoLib} {m : MultiCryptoStrings} (h : m.CacheValid lib)
    (s : σ) : m.setHashDirty.readHash lib s = m.readHash lib s := by
  rcases h with hempty | ⟨hletters, hcached⟩
  · rw [setHashDirty, ← hempty]
  · have hdirty : m.setHashDirty.readHash lib s =
        .ok (lib.hash1 (m.setHashDirty.fingerprintOctets lib)) s :=
      (readHash_eq_ok_iff (.inl rfl)).mpr ⟨hletters, rfl, rfl⟩
    have hfull : m.readHash lib s = .ok (lib.hash1 (m.fingerprintOctets lib)) s :=
      (readHash_eq_ok_iff (.inr ⟨hletters, hcached⟩)).mpr ⟨hletters, rfl, rfl⟩
    rw [hdirty, hfull]
    rfl

/-- What the object says about its keys is what it would say without a cached hash. The order of two objects
and the address are made of the hash, and so may be those of other keys. -/
structure DescribesKeys (lib : CryptoLib) (m : MultiCryptoStrings) : Prop where
  /-- `get_hash` -/
  hash : ∀ s : Unit, m.readHash lib s = m.setHashDirty.readHash lib s
  /-- `operator>` -/
  greater : ∀ (rhs : MultiCryptoStrings) (s : Unit),
    m.greater lib rhs s = m.setHashDirty.greater lib rhs s
  /-- `get_ipv6_string_bin` -/
  addr : ∀ (ipv6Prefix : Bytes) (s : Unit), MultikeysPub.getIpv6StringBin lib ⟨m, ipv6Prefix⟩ s =
    MultikeysPub.getIpv6StringBin lib ⟨m.setHashDirty, ipv6Prefix⟩ s

private theorem CacheValid.describesKeys {lib : CryptoLib} {m : MultiCryptoStrings} (h : m.CacheValid lib) :
    m.DescribesKeys lib := by
  have hhash : (m.readHash lib : Program Exn Unit Bytes) = m.setHashDirty.readHash lib :=
    funext fun s => (readHash_setHashDirty h s).symm
  refine ⟨fun s => congrFun hhash s, fun rhs s => ?_, fun ipv6Prefix s => ?_⟩
  · rw [MultiCryptoStrings.greater, MultiCryptoStrings.greater, hhash]
  · rw [MultikeysPub.getIpv6StringBin, MultikeysPub.getIpv6StringBin, hhash]

end MultiCryptoStrings

/-! ### Generating and loading, as changes of one object -/

namespace MultikeysPAIR

open MultiCryptoStrings

/-- What `generate(type, count)` of a pair of key sets does to the public keys. -/
def generatePub (lib : CryptoLib) (cryptoSystemType : CryptoSystemType) (count : ℕ) :
    Program Exn (ℕ × MultiCryptoStrings) Unit := do
  if count = 0 then
    return
  let _ ← replicateM (readPut (newKeypair lib cryptoSystemType) fun m keypair =>
    m.addKey cryptoSystemType.nr keypair.2) count
  onSnd (modify MultiCryptoStrings.setHashDirty)
  let m ← onSnd get
  let _ ← m.serializeBin

/-- The loop of `generate(type, count)`, on the public keys. -/
theorem generateLoop_pub (newKeypair : Crypto (Bytes × Bytes)) (type : SystemNr) (count : ℕ)
    (pair : MultikeysPAIR) (draw : ℕ) :
    match generateLoop newKeypair type count pair draw with
    | .ok pair' draw' => ∃ us, replicateM (readPut newKeypair fun m keypair =>
        m.addKey type keypair.2) count (draw, pair.pub.toMultiCryptoStrings) =
          .ok us (draw', pair'.pub.toMultiCryptoStrings)
    | .error e draw' => ∃ m', replicateM (readPut newKeypair fun m keypair =>
        m.addKey type keypair.2) count (draw, pair.pub.toMultiCryptoStrings) =
          .error e (draw', m') := by
  induction count generalizing pair draw with
  | zero => exact ⟨[], rfl⟩
  | succ i ih =>
    cases hkeypair : newKeypair draw with
    | error e draw' =>
      rw [generateLoop, bind_of_error hkeypair]
      exact ⟨_, bind_of_error (readPut_of_error hkeypair)⟩
    | ok keypair draw₁ =>
      have hstep : readPut newKeypair (fun m keypair => m.addKey type keypair.2)
          (draw, pair.pub.toMultiCryptoStrings) =
          .ok () (draw₁, (pair.addPublicAndPRIVATE type keypair.2
            keypair.1).pub.toMultiCryptoStrings) := readPut_of_ok hkeypair
      rw [generateLoop, bind_of_ok hkeypair, replicateM, bind_of_ok hstep]
      have hrest := ih (pair.addPublicAndPRIVATE type keypair.2 keypair.1) draw₁
      revert hrest
      cases generateLoop newKeypair type i (pair.addPublicAndPRIVATE type keypair.2 keypair.1)
        draw₁ with
      | ok pair' draw' =>
        rintro ⟨us, hrest⟩
        exact ⟨_, bind_of_ok hrest⟩
      | error e draw' =>
        rintro ⟨m', hrest⟩
        exact ⟨m', bind_of_error hrest⟩

/-- `generatePub` is the part of `generate(type, count)` that concerns the public keys. -/
theorem generatePub_of_generateType {lib : CryptoLib} {pair : MultikeysPAIR}
    {type : CryptoSystemType} {count draw : ℕ} :
    match generateType lib pair type count draw with
    | .ok pair' draw' => generatePub lib type count (draw, pair.pub.toMultiCryptoStrings) =
        .ok () (draw', pair'.pub.toMultiCryptoStrings)
    | .error e draw' => ∃ m', generatePub lib type count (draw, pair.pub.toMultiCryptoStrings) =
        .error e (draw', m') := by
  unfold generateType generatePub
  by_cases hcount : count = 0
  · rw [if_pos hcount, if_pos hcount]
    rfl
  rw [if_neg hcount, if_neg hcount]
  have hloop := generateLoop_pub (newKeypair lib type) type.nr count pair draw
  cases hrun : generateLoop (newKeypair lib type) type.nr count pair draw with
  | error e draw' =>
    rw [hrun] at hloop
    obtain ⟨m', hloop⟩ := hloop
    rw [bind_of_error hrun]
    exact ⟨m', bind_of_error hloop⟩
  | ok pair' draw' =>
    rw [hrun] at hloop
    obtain ⟨us, hloop⟩ := hloop
    rw [bind_of_ok hrun, bind_of_ok hloop]
    have hdirty : (onSnd (modify MultiCryptoStrings.setHashDirty) :
        Program Exn (ℕ × MultiCryptoStrings) PUnit) (draw', pair'.pub.toMultiCryptoStrings) =
        .ok ⟨⟩ (draw', pair'.pub.setHashDirty) := rfl
    have hget : (onSnd get : Program Exn (ℕ × MultiCryptoStrings) MultiCryptoStrings)
        (draw', pair'.pub.setHashDirty) = .ok pair'.pub.setHashDirty
          (draw', pair'.pub.setHashDirty) := rfl
    rw [bind_of_ok hdirty, bind_of_ok hget]
    obtain ⟨r, hserialize⟩ : ∃ r, ∀ {σ : Type},
        (pair'.pub.setHashDirty.serializeBin : Program Exn σ Bytes) = fromOutcome r :=
      exists_generate_eq_fromOutcome _
    simp only [hserialize]
    cases r with
    | ok out => rfl
    | error e => exact ⟨_, rfl⟩

end MultikeysPAIR

namespace MultiCryptoStrings

/-! ### Operations on an object -/

/-- The operations on an object of `c_multicryptostrings` or a class derived from it. Those of derived classes
are written as what they do to the base class. -/
inductive KeyOp where
  /-- `add_key`, and the functions that are this (`add_public`, `add_signature`) -/
  | addKey (type : SystemNr) (key : Bytes)
  /-- `load_from_bin` -/
  | loadFromBin (data : Bytes)
  /-- `c_multisign::load_from_bin` -/
  | loadSignatures (data : Bytes)
  /-- `clear` -/
  | clear
  /-- `generate`, of the pair whose public keys the object is -/
  | generate (type : CryptoSystemType) (count : ℕ)
  /-- `set_hash_dirty` -/
  | setHashDirty
  /-- `get_hash`, also as a part of `get_ipv6_string_bin` and of `operator>` -/
  | getHash

namespace KeyOp

/-- An operation, on the number of draws made so far and the object. -/
def run (lib : CryptoLib) : KeyOp → Program Exn (ℕ × MultiCryptoStrings) Unit
  | addKey type key => onSnd (modify fun m => m.addKey type key)
  | loadFromBin data => onSnd (MultiCryptoStrings.loadFromBin data)
  | loadSignatures data =>
    onSnd (zoom Multisign.mk (fun m _ => m.toMultiCryptoStrings) (Multisign.loadFromBin data))
  | clear => onSnd (modify MultiCryptoStrings.clear)
  | generate type count => MultikeysPAIR.generatePub lib type count
  | setHashDirty => onSnd (modify MultiCryptoStrings.setHashDirty)
  | getHash => onSnd do
    let _ ← MultiCryptoStrings.getHash lib

/-- An operation returns, or throws an exception that the caller catches. -/
def Step (lib : CryptoLib) (s : ℕ × MultiCryptoStrings) (op : KeyOp) (s' : ℕ × MultiCryptoStrings) :
    Prop :=
  op.run lib s = .ok () s' ∨ ∃ e, op.run lib s = .error (.throw e) s'

/-- The keys after an operation. The cache plays no role for them. -/
def keysAfter (lib : CryptoLib) (s : ℕ × MultiCryptoStrings) : KeyOp → SystemNr → List Bytes
  | addKey type key => (s.2.addKey type key).cryptolistsGeneral
  | loadFromBin data => loadEntries s.2.cryptolistsGeneral (systemsRead s.2.cryptoUse data)
  | loadSignatures data => ((Multisign.signaturesRead data).foldl
      (fun m entry => m.addSignatureVec entry.2 entry.1) (Multisign.mk s.2)).cryptolistsGeneral
  | clear => fun _ => []
  | generate type count => ((valuesUntilFailure (MultikeysPAIR.newKeypair lib type) count s.1).foldl
      (fun m keypair => m.addKey type.nr keypair.2) s.2).cryptolistsGeneral
  | setHashDirty => s.2.cryptolistsGeneral
  | getHash => s.2.cryptolistsGeneral

/-- The operation ends with `set_hash_dirty`: loading data that are accepted, and generating when all
pairs of keys can be generated. -/
def EmptiesCache (lib : CryptoLib) (s : ℕ × MultiCryptoStrings) : KeyOp → Prop
  | loadFromBin data => ∃ t : SerializedSet, data = t.octets s.2.cryptoUse
  | generate type count => count ≠ 0 ∧
      (valuesUntilFailure (MultikeysPAIR.newKeypair lib type) count s.1).length = count
  | setHashDirty => True
  | _ => False

/-- Other keys have a hash, and it is the same. -/
def SameHash (lib : CryptoLib) (m : MultiCryptoStrings) (keys : SystemNr → List Bytes) : Prop :=
  HasLetters { m with cryptolistsGeneral := keys } ∧
    lib.hash1 (fingerprintOctets lib { m with cryptolistsGeneral := keys }) =
      lib.hash1 (m.fingerprintOctets lib)

/-- No hash is cached, or the cache is emptied, or the hash stays the same. It is a condition on the object
before the operation and on what is given to it. -/
def Harmless (lib : CryptoLib) (s : ℕ × MultiCryptoStrings) (op : KeyOp) : Prop :=
  s.2.hashCached = [] ∨ op.EmptiesCache lib s ∨ SameHash lib s.2 (op.keysAfter lib s)

end KeyOp

/-! ### What an operation leaves -/

/-- A sequence of additions leaves the cached hash alone. -/
private theorem foldl_addKey_eq {α : Type} (type : SystemNr) (key : α → Bytes) (values : List α)
    (m : MultiCryptoStrings) :
    values.foldl (fun m a => m.addKey type (key a)) m = { m with cryptolistsGeneral :=
      (values.foldl (fun m a => m.addKey type (key a)) m).cryptolistsGeneral } := by
  induction values generalizing m with
  | nil => rfl
  | cons a values ih =>
    rw [List.foldl_cons, ih]
    rfl

private theorem foldl_addSignatureVec_eq (entries : List (SystemNr × List Bytes)) (m : Multisign) :
    (entries.foldl (fun m entry => m.addSignatureVec entry.2 entry.1) m).toMultiCryptoStrings =
      { m with cryptolistsGeneral := (entries.foldl (fun m entry =>
        m.addSignatureVec entry.2 entry.1) m).cryptolistsGeneral } := by
  have hadd : ∀ (signs : List Bytes) (type : SystemNr) (m : Multisign),
      (m.addSignatureVec signs type).toMultiCryptoStrings =
        { m with cryptolistsGeneral := (m.addSignatureVec signs type).cryptolistsGeneral } := by
    intro signs type
    induction signs with
    | nil => exact fun _ => rfl
    | cons sign signs ih => exact fun m => ih _
  induction entries generalizing m with
  | nil => rfl
  | cons entry entries ih =>
    rw [List.foldl_cons, ih, hadd]

/-- Generating adds the keys that were generated before a failure. When there is none, the cache is
emptied. -/
private theorem finalState_generatePub {lib : CryptoLib} {type : CryptoSystemType} {count : ℕ}
    {s : ℕ × MultiCryptoStrings} :
    (finalState (MultikeysPAIR.generatePub lib type count) s).2 =
      let m := (valuesUntilFailure (MultikeysPAIR.newKeypair lib type) count s.1).foldl
        (fun m keypair => m.addKey type.nr keypair.2) s.2
      if count ≠ 0 ∧ (valuesUntilFailure (MultikeysPAIR.newKeypair lib type) count s.1).length = count
      then m.setHashDirty else m := by
  unfold MultikeysPAIR.generatePub
  by_cases hcount : count = 0
  · subst hcount
    rfl
  have hloops := finalState_replicateM_readPut (MultikeysPAIR.newKeypair lib type)
    (fun m keypair => m.addKey type.nr keypair.2) count s
  rw [if_neg hcount]
  dsimp only
  -- The loop succeeds exactly when no value is missing.
  have hsucceeds : (valuesUntilFailure (MultikeysPAIR.newKeypair lib type) count s.1).length = count ↔
      ∃ us s', replicateM (readPut (MultikeysPAIR.newKeypair lib type) fun m keypair =>
        m.addKey type.nr keypair.2) count s = .ok us s' := by
    rw [length_valuesUntilFailure_eq_iff]
    constructor
    · rintro ⟨as, draw, has⟩
      obtain ⟨us, hus⟩ := (@replicateM_readPut_eq_ok_iff _ _ _ _ _ _ _ s (draw, _)).mpr ⟨as, has, rfl⟩
      exact ⟨us, _, hus⟩
    · rintro ⟨us, s', hus⟩
      obtain ⟨as, has, -⟩ := replicateM_readPut_eq_ok_iff.mp ⟨us, hus⟩
      exact ⟨as, _, has⟩
  cases hloop : replicateM (readPut (MultikeysPAIR.newKeypair lib type) fun m keypair =>
      m.addKey type.nr keypair.2) count s with
  | error e s₁ =>
    have hfails : ¬ (valuesUntilFailure (MultikeysPAIR.newKeypair lib type) count s.1).length =
        count := by
      rw [hsucceeds]
      rintro ⟨us, s', hus⟩
      exact absurd (hloop.symm.trans hus) (by simp)
    rw [finalState_of_error hloop] at hloops
    rw [finalState_bind_of_error hloop, hloops, if_neg fun h => hfails h.2]
  | ok us s₁ =>
    rw [finalState_of_ok hloop] at hloops
    rw [if_pos ⟨hcount, hsucceeds.mpr ⟨us, s₁, hloop⟩⟩, ← hloops, finalState_bind_of_ok hloop]
    -- Behind the loop the keys are serialized for the log, which may fail but changes nothing.
    obtain ⟨r, hserialize⟩ : ∃ r, ∀ {σ : Type},
        (s₁.2.setHashDirty.serializeBin : Program Exn σ Bytes) = fromOutcome r :=
      exists_generate_eq_fromOutcome _
    have hdirty : (onSnd (modify MultiCryptoStrings.setHashDirty) :
        Program Exn (ℕ × MultiCryptoStrings) PUnit) s₁ = .ok ⟨⟩ (s₁.1, s₁.2.setHashDirty) := rfl
    have hget : (onSnd get : Program Exn (ℕ × MultiCryptoStrings) MultiCryptoStrings)
        (s₁.1, s₁.2.setHashDirty) = .ok s₁.2.setHashDirty (s₁.1, s₁.2.setHashDirty) := rfl
    rw [finalState_bind_of_ok hdirty, finalState_bind_of_ok hget, hserialize]
    cases r <;> rfl

/-- What an operation other than `get_hash` leaves of an object. The cache is emptied or left as it was, so it
is only `get_hash` that fills it. -/
theorem stepped_of_ne_getHash {lib : CryptoLib} {s s' : ℕ × MultiCryptoStrings} {op : KeyOp}
    (hop : op ≠ .getHash) (h : op.Step lib s s') :
    s'.2.cryptolistsGeneral = op.keysAfter lib s ∧ s'.2.cryptoUse = s.2.cryptoUse ∧
      (op.EmptiesCache lib s → s'.2.hashCached = []) ∧
      (¬ op.EmptiesCache lib s → s'.2.hashCached = s.2.hashCached) := by
  have hfinal : s' = finalState (op.run lib) s := by
    rcases h with h | ⟨e, h⟩
    · exact (finalState_of_ok h).symm
    · exact (finalState_of_error h).symm
  cases op with
  | addKey type key =>
    subst hfinal
    exact ⟨rfl, rfl, False.elim, fun _ => rfl⟩
  | loadFromBin data =>
    have hload : s'.2 = finalState (loadFromBin data) s.2 := by
      rw [hfinal]
      exact finalState_onSnd_snd
    cases hrun : loadFromBin data s.2 with
    | ok u m' =>
      rw [hload, finalState_of_ok hrun]
      obtain ⟨t, ht, -⟩ := loadFromBin_eq_ok_iff.mp hrun
      rw [loadFromBin_of_eq_ok hrun]
      exact ⟨rfl, rfl, fun _ => rfl, fun hnot => absurd ⟨t, ht⟩ hnot⟩
    | error e m' =>
      rw [hload, finalState_of_error hrun]
      have hrefused : ¬ KeyOp.EmptiesCache lib s (.loadFromBin data) := by
        rintro ⟨t, ht⟩
        exact absurd (hrun.symm.trans
          (loadFromBin_eq_ok_iff (u := ()).mpr ⟨t, ht, rfl⟩)) (by simp)
      rw [loadFromBin_of_eq_error hrun]
      exact ⟨rfl, rfl, fun h => absurd h hrefused, fun _ => rfl⟩
  | loadSignatures data =>
    have hload : s'.2 = (finalState (Multisign.loadFromBin data) ⟨s.2⟩).toMultiCryptoStrings := by
      rw [hfinal]
      exact finalState_onSnd_snd.trans finalState_zoom
    rw [hload, Multisign.finalState_loadFromBin, foldl_addSignatureVec_eq]
    exact ⟨rfl, rfl, False.elim, fun _ => rfl⟩
  | clear =>
    subst hfinal
    exact ⟨rfl, rfl, False.elim, fun _ => rfl⟩
  | generate type count =>
    have hgenerate : s'.2 = (finalState (MultikeysPAIR.generatePub lib type count) s).2 := by
      rw [hfinal]
      rfl
    rw [hgenerate, finalState_generatePub, foldl_addKey_eq type.nr Prod.snd]
    dsimp only
    split
    next hall => exact ⟨rfl, rfl, fun _ => rfl, fun hnot => absurd hall hnot⟩
    next hsome => exact ⟨rfl, rfl, fun hall => absurd hall hsome, fun _ => rfl⟩
  | setHashDirty =>
    subst hfinal
    exact ⟨rfl, rfl, fun _ => rfl, fun hnot => absurd trivial hnot⟩
  | getHash => exact absurd rfl hop

/-! ### What keeps the cache valid -/

/-- `get_hash` leaves a valid cache valid, also when it throws. -/
private theorem cacheValid_getHash {lib : CryptoLib} {m m' : MultiCryptoStrings} (hm : m.CacheValid lib)
    (h : (∃ hash, getHash lib m = .ok hash m') ∨ ∃ e, getHash lib m = .error (.throw e) m') :
    m'.CacheValid lib ∧ m'.cryptolistsGeneral = m.cryptolistsGeneral := by
  rcases h with ⟨hash, h⟩ | ⟨e, h⟩
  · obtain ⟨hletters, rfl, rfl⟩ := (getHash_eq_ok_iff hm).mp h
    exact ⟨.inr ⟨hletters, rfl⟩, rfl⟩
  · by_cases hempty : m.hashCached = []
    · obtain ⟨r, hserial⟩ := exists_fingerprintSerial_eq lib m
      rw [getHash_of_empty hempty hserial] at h
      cases r with
      | ok serial => cases h
      | error e' =>
        obtain ⟨-, rfl⟩ := EStateM.Result.error.inj h
        exact ⟨hm, rfl⟩
    · rw [getHash_of_cached lib hempty] at h
      cases h

/-- An operation on an object with a valid cache leaves it valid exactly when it is harmless. -/
theorem cacheValid_step_iff {lib : CryptoLib} {s s' : ℕ × MultiCryptoStrings} {op : KeyOp}
    (hs : s.2.CacheValid lib) (h : op.Step lib s s') :
    s'.2.CacheValid lib ↔ op.Harmless lib s := by
  by_cases hop : op = .getHash
  · subst hop
    -- `get_hash` fills an empty cache, and reads one that is not empty.
    have hget : (∃ hash, getHash lib s.2 = .ok hash s'.2) ∨
        ∃ e, getHash lib s.2 = .error (.throw e) s'.2 := by
      cases hrun : getHash lib s.2 with
      | ok hash m' =>
        have hop : KeyOp.getHash.run lib s = .ok () (s.1, m') :=
          onSnd_eq_ok_iff.mpr ⟨bind_of_ok hrun, rfl⟩
        rcases h with h | ⟨e, h⟩
        · obtain ⟨-, rfl⟩ := EStateM.Result.ok.inj (hop.symm.trans h)
          exact .inl ⟨hash, rfl⟩
        · exact absurd (hop.symm.trans h) (by simp)
      | error e m' =>
        have hop : KeyOp.getHash.run lib s = .error e (s.1, m') := by
          rw [KeyOp.run, onSnd, bind_of_error hrun]
        rcases h with h | ⟨e', h⟩
        · exact absurd (hop.symm.trans h) (by simp)
        · obtain ⟨rfl, rfl⟩ := EStateM.Result.error.inj (hop.symm.trans h)
          exact .inr ⟨e', rfl⟩
    obtain ⟨hvalid, -⟩ := cacheValid_getHash hs hget
    refine iff_of_true hvalid ?_
    rcases hs with hempty | ⟨hletters, -⟩
    · exact .inl hempty
    · exact .inr (.inr ⟨hletters, rfl⟩)
  · obtain ⟨hkeys, huse, hemptied, hkept⟩ := stepped_of_ne_getHash hop h
    by_cases hempties : op.EmptiesCache lib s
    · exact iff_of_true (.inl (hemptied hempties)) (.inr (.inl hempties))
    have hcached := hkept hempties
    -- The cache was kept: it is valid when it was empty, or when the keys still have the same hash.
    rcases hs with hempty | ⟨-, hhash⟩
    · exact iff_of_true (.inl (hcached.trans hempty)) (.inl hempty)
    · have hne : s.2.hashCached ≠ [] := by
        rw [hhash]
        exact hash1_ne_nil lib _
      have hs' : s'.2 = { s.2 with cryptolistsGeneral := op.keysAfter lib s } := by
        rw [← hkeys]
        cases hs' : s'.2
        simp_all
      rw [hs']
      constructor
      · rintro (hempty | ⟨hletters, hhash'⟩)
        · exact absurd hempty hne
        · exact .inr (.inr ⟨hletters, hhash'.symm.trans hhash⟩)
      · rintro (hempty | hempties' | ⟨hletters, hsame⟩)
        · exact absurd hempty hne
        · exact absurd hempties' hempties
        · exact .inr ⟨hletters, hhash.trans hsame.symm⟩

/-- From a new object on, the cache is valid in every state of a run exactly when all steps of the run are
harmless, and then the object always describes its keys. It is an equivalence for every run: the first step
that is not harmless leaves a cache that is not valid. -/
theorem cacheValid_throughout_iff {lib : CryptoLib} {cryptoUse : CryptoUse} {draw : ℕ}
    {trace : List ((ℕ × MultiCryptoStrings) × KeyOp)} {s' : ℕ × MultiCryptoStrings}
    (hrun : Steps (KeyOp.Step lib) (draw, new cryptoUse) trace s') :
    (Steps.Throughout (fun s => s.2.CacheValid lib) trace s' ↔
        Steps.All (fun s op => op.Harmless lib s) trace) ∧
      (Steps.All (fun s op => op.Harmless lib s) trace →
        Steps.Throughout (fun s => s.2.DescribesKeys lib) trace s') := by
  have hiff := Steps.invariant_iff (I := fun s => s.2.CacheValid lib)
    (H := fun s op => op.Harmless lib s) (fun s op s' => cacheValid_step_iff) hrun (.inl rfl)
  refine ⟨hiff, fun hall => ?_⟩
  obtain ⟨htrace, hlast⟩ := hiff.mpr hall
  exact ⟨fun p hp => (htrace p hp).describesKeys, hlast.describesKeys⟩

/-- A new object whose hash was asked for. -/
private def hashedNew : MultiCryptoStrings :=
  { new .open with hashCached := CryptoLib.sample.hash1 ((new .open).fingerprintOctets CryptoLib.sample) }

private theorem getHash_step_new :
    KeyOp.Step CryptoLib.sample (0, new .open) .getHash (0, hashedNew) := by
  have hget : getHash CryptoLib.sample (new .open) = .ok hashedNew.hashCached hashedNew :=
    (getHash_eq_ok_iff (.inl rfl)).mpr ⟨hasLetters_new .open, rfl, rfl⟩
  have hop : KeyOp.getHash.run CryptoLib.sample (0, new .open) = .ok () (0, hashedNew) := by
    rw [KeyOp.run, onSnd, bind_of_ok hget]
    rfl
  exact .inl hop

/-- The hash of a new object is asked for and thrown away, and then a key is added. -/
theorem cacheValid_throughout_iff_example :
    Steps.Throughout (fun s : ℕ × MultiCryptoStrings => s.2.CacheValid CryptoLib.sample)
      [((0, new .open), .getHash), ((0, hashedNew), .setHashDirty),
        ((0, new .open), KeyOp.addKey CryptoSystemType.x25519.nr [1])]
      (0, (new .open).addKey CryptoSystemType.x25519.nr [1]) := by
  have hrun : Steps (KeyOp.Step CryptoLib.sample) (0, new .open)
      [((0, new .open), .getHash), ((0, hashedNew), .setHashDirty),
        ((0, new .open), .addKey CryptoSystemType.x25519.nr [1])]
      (0, (new .open).addKey CryptoSystemType.x25519.nr [1]) :=
    (((Steps.nil (0, new .open)).snoc getHash_step_new).snoc (.inl rfl)).snoc (.inl rfl)
  refine (cacheValid_throughout_iff hrun).1.mpr ?_
  intro p hp
  simp only [List.mem_cons, List.not_mem_nil, or_false] at hp
  rcases hp with rfl | rfl | rfl
  · exact .inl rfl
  · exact .inr (.inl trivial)
  · exact .inl rfl

/-- A key that is added after the hash was asked for leaves the old hash in the cache. -/
theorem not_cacheValid_throughout :
    ¬ ∀ (lib : CryptoLib) (cryptoUse : CryptoUse) (draw : ℕ)
      (trace : List ((ℕ × MultiCryptoStrings) × KeyOp)) (s' : ℕ × MultiCryptoStrings),
      Steps (KeyOp.Step lib) (draw, new cryptoUse) trace s' →
        Steps.Throughout (fun s => s.2.CacheValid lib) trace s' := by
  intro h
  have hadd : KeyOp.Step CryptoLib.sample (0, hashedNew) (.addKey CryptoSystemType.x25519.nr [1])
      (0, hashedNew.addKey CryptoSystemType.x25519.nr [1]) := .inl rfl
  obtain ⟨-, hlast⟩ := h CryptoLib.sample .open 0 _ _
    (((Steps.nil (0, new .open)).snoc getHash_step_new).snoc hadd)
  rcases hlast with hempty | ⟨-, hhash⟩
  · exact absurd hempty (by decide +kernel)
  · exact absurd hhash (by decide +kernel)

end MultiCryptoStrings

end Galaxy42
