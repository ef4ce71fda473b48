import Galaxy42.Rpc.Authentication
import Galaxy42.Rpc.Server

/-!
# The life of a session

A session starts with a read, and each of its handlers either starts the next operation of the session, or
deletes it. While a handler runs, the session has no operation under way (`Handling`); when the handler
returns, the session has one again or is gone, so that every session in the list waits for exactly one
(`Waiting`). `delete_me` can throw, but only before it erases the session, and erasing is the last thing
that is done. So a `catch` block that calls `delete_me` again finds the session where it was, and no block
is entered for a session that is gone (`Kept.finishes_handler`).

It follows for every run (`lifecycle_of_run`): a session has at most one operation under way, it is erased
at most once, and nothing happens to it behind that.

The handlers are gone through once, for two invariants at a time. `Kept` says of a pair of properties that all
that a handler does to its session keeps the first one, until it starts an operation or erases the session and
the second one holds. One instance is the life of the session; the other is that nothing happens to other
sessions, which is used where the clients are isolated from each other.

Whether a session that is used is still there is not a matter of types in the source, where handlers hold an
iterator. In the model each use is logged, and the log respects the lifetimes of the sessions.
-/

namespace Galaxy42

open Toolkit Program

namespace RpcService

variable {Json τ : Type} {lib : RpcLib Json} {s s' : RpcService Json τ} {it : ℕ}

/-- The session was erased. The log says so, and not the list, where a session that never was there is missing
too. -/
def Erased (it : ℕ) (s : RpcService Json τ) : Prop :=
  Deleted SessionAction.session SessionAction.Erases it s.log

/-- What holds at any time. A session has at most one operation under way, and it is listed then. A listed
session was not erased, and nothing was done to a session behind its end. The numbers of sessions do not come
twice, as none that was used is above the counter. -/
structure Sound (s : RpcService Json τ) : Prop where
  nodup : (s.outstanding.map Prod.fst).Nodup
  listed : ∀ op ∈ s.outstanding, op.1 ∈ s.sessionList
  alive : ∀ it ∈ s.sessionList, ¬ Erased it s
  listed_le : ∀ it ∈ s.sessionList, it ≤ s.sessionCounter
  logged_le : ∀ a ∈ s.log, a.session ≤ s.sessionCounter
  lifetimes : RespectsLifetimes SessionAction.session SessionAction.Erases s.log
  sized : ∀ (it : ℕ) (session : ListedSession), s.sessionList[it]? = some session →
    session.dataSize.length = 2

/-- A handler of a session runs. The other sessions wait for their operations. The session itself has none
under way. -/
structure Handling (it : ℕ) (s : RpcService Json τ) : Prop extends Sound s where
  mem : it ∈ s.sessionList
  idle : ∀ op ∈ s.outstanding, op.1 ≠ it
  others : ∀ it' ∈ s.sessionList, it' ≠ it → ∃ op ∈ s.outstanding, op.1 = it'

/-- Every session waits for an operation. -/
structure Waiting (s : RpcService Json τ) : Prop extends Sound s where
  waits : ∀ it ∈ s.sessionList, ∃ op ∈ s.outstanding, op.1 = it

namespace Handling

/-- Only the list, the operations and the log count. -/
theorem congr (h : Handling it s) (hlist : s'.sessionList = s.sessionList)
    (hcounter : s'.sessionCounter = s.sessionCounter) (hout : s'.outstanding = s.outstanding)
    (hlog : s'.log = s.log) : Handling it s' where
  nodup := hout ▸ h.nodup
  listed := hout ▸ hlist ▸ h.listed
  alive := by
    unfold Erased
    rw [hlist, hlog]
    exact h.alive
  listed_le := hlist ▸ hcounter ▸ h.listed_le
  logged_le := hlog ▸ hcounter ▸ h.logged_le
  lifetimes := hlog ▸ h.lifetimes
  sized := hlist ▸ h.sized
  mem := hlist ▸ h.mem
  idle := hout ▸ h.idle
  others := hlist ▸ hout ▸ h.others

/-- The session may be used. -/
private theorem logged (h : Handling it s) {use : SessionUse} (huse : use ≠ .erase) :
    Handling it (s.logged it use) where
  nodup := h.nodup
  listed := h.listed
  alive it' hmem := by
    unfold Erased
    rw [RpcService.logged, deleted_concat]
    rintro (hdeleted | ⟨herases, -⟩)
    · exact h.alive it' hmem hdeleted
    · exact huse herases
  listed_le := h.listed_le
  logged_le := by
    intro a ha
    rcases List.mem_append.mp ha with ha | ha
    · exact h.logged_le a ha
    · obtain rfl := List.mem_singleton.mp ha
      exact h.listed_le it h.mem
  lifetimes := respectsLifetimes_concat.mpr ⟨h.lifetimes, h.alive it h.mem⟩
  sized := h.sized
  mem := h.mem
  idle := h.idle
  others := h.others

/-- Members of the session may be written. -/
theorem insert (h : Handling it s) {session : ListedSession} (hsize : session.dataSize.length = 2) :
    Handling it { s with sessionList := s.sessionList.insert it session } where
  nodup := h.nodup
  listed op hop := Std.ExtTreeMap.mem_insert.mpr (.inr (h.listed op hop))
  alive it' hmem := by
    rcases Std.ExtTreeMap.mem_insert.mp hmem with heq | hmem
    · obtain rfl := Std.LawfulEqOrd.eq_of_compare heq
      exact h.alive it h.mem
    · exact h.alive it' hmem
  listed_le it' hmem := by
    rcases Std.ExtTreeMap.mem_insert.mp hmem with heq | hmem
    · obtain rfl := Std.LawfulEqOrd.eq_of_compare heq
      exact h.listed_le it h.mem
    · exact h.listed_le it' hmem
  logged_le := h.logged_le
  lifetimes := h.lifetimes
  sized it' session' hget := by
    rw [Std.ExtTreeMap.getElem?_insert] at hget
    split at hget
    · obtain rfl := Option.some.inj hget
      exact hsize
    · exact h.sized it' session' hget
  mem := Std.ExtTreeMap.mem_insert.mpr (.inr h.mem)
  idle := h.idle
  others it' hmem hne := by
    rcases Std.ExtTreeMap.mem_insert.mp hmem with heq | hmem
    · exact absurd (Std.LawfulEqOrd.eq_of_compare heq).symm hne
    · exact h.others it' hmem hne

/-- The session may start an operation. -/
private theorem operation (h : Handling it s) (operation : AsyncOperation) :
    Waiting { s with outstanding := s.outstanding ++ [(it, operation)] } where
  nodup := by
    rw [List.map_append, List.nodup_append]
    refine ⟨h.nodup, List.nodup_singleton _, ?_⟩
    rintro it' hit' _ hit rfl
    obtain ⟨op, hop, rfl⟩ := List.mem_map.mp hit'
    exact h.idle op hop (List.mem_singleton.mp hit)
  listed op hop := by
    rcases List.mem_append.mp hop with hop | hop
    · exact h.listed op hop
    · obtain rfl := List.mem_singleton.mp hop
      exact h.mem
  alive := h.alive
  listed_le := h.listed_le
  logged_le := h.logged_le
  lifetimes := h.lifetimes
  sized := h.sized
  waits it' hmem := by
    by_cases hne : it' = it
    · exact ⟨(it, operation), by simp, hne.symm⟩
    · obtain ⟨op, hop, hit'⟩ := h.others it' hmem hne
      exact ⟨op, List.mem_append_left _ hop, hit'⟩

/-- The session may be erased. -/
private theorem erase (h : Handling it s) :
    Waiting { s.logged it .erase with sessionList := s.sessionList.erase it } where
  nodup := h.nodup
  listed op hop := Std.ExtTreeMap.mem_erase.mpr
    ⟨fun heq => h.idle op hop (Std.LawfulEqOrd.eq_of_compare heq).symm, h.listed op hop⟩
  -- The log says now that this session was deleted, and it is not listed any more.
  alive it' hmem := by
    obtain ⟨hne, hmem⟩ := Std.ExtTreeMap.mem_erase.mp hmem
    unfold Erased
    rw [RpcService.logged, deleted_concat]
    rintro (hdeleted | ⟨-, hit⟩)
    · exact h.alive it' hmem hdeleted
    · exact hne (by rw [show it = it' from hit]; exact Std.compare_self)
  listed_le it' hmem := h.listed_le it' (Std.ExtTreeMap.mem_erase.mp hmem).2
  logged_le := by
    intro a ha
    rcases List.mem_append.mp ha with ha | ha
    · exact h.logged_le a ha
    · obtain rfl := List.mem_singleton.mp ha
      exact h.listed_le it h.mem
  lifetimes := respectsLifetimes_concat.mpr ⟨h.lifetimes, h.alive it h.mem⟩
  sized it' session hget := by
    rw [Std.ExtTreeMap.getElem?_erase] at hget
    split at hget
    · cases hget
    · exact h.sized it' session hget
  waits it' hmem := by
    obtain ⟨hne, hmem⟩ := Std.ExtTreeMap.mem_erase.mp hmem
    refine h.others it' hmem ?_
    rintro rfl
    exact hne Std.compare_self

end Handling

/-! ### What a handler keeps -/

/-- What is kept by all that a handler of the session does (`I`) until it starts an operation or erases the
session, and what holds then (`Q`). When a handler ends with an exception, `I` still holds. -/
structure Kept (it : ℕ) (I Q : RpcService Json τ → Prop) : Prop where
  logged : ∀ {s use}, I s → use ≠ .erase → I (s.logged it use)
  sockets : ∀ {s} sockets, I s → I { s with sockets }
  app : ∀ {s} app, I s → I { s with rpcServer := { s.rpcServer with app } }
  insert : ∀ {s session session'}, I s → s.sessionList[it]? = some session →
    session'.dataSize.length = session.dataSize.length →
      I { s with sessionList := s.sessionList.insert it session' }
  operation : ∀ {s} operation, I s → Q { s with outstanding := s.outstanding ++ [(it, operation)] }
  erase : ∀ {s}, I s → Q { s.logged it .erase with sessionList := s.sessionList.erase it }

/-- The members of a session in the list can be used. For a session that is not listed the use is an iterator
that leads nowhere, and the model aborts. -/
theorem exists_members (h : it ∈ s.sessionList) : ∃ session, s.sessionList[it]? = some session ∧
    members it s = .ok session (s.logged it .access) := by
  obtain ⟨session, hget⟩ := Option.isSome_iff_exists.mp (Std.ExtTreeMap.mem_iff_isSome_getElem?.mp h)
  have hlogged : (s.logged it .access).sessionList[it]? = some session := hget
  refine ⟨session, hget, ?_⟩
  simp only [members, bind_apply, modify_apply, get_apply, hlogged]
  rfl

/-- Using a session logs it, and gives what the list has. -/
theorem eq_of_members_eq_ok {session : ListedSession} (h : members it s = .ok session s') :
    s.sessionList[it]? = some session ∧ s' = s.logged it .access := by
  by_cases hmem : it ∈ s.sessionList
  · obtain ⟨session', hget, hmembers⟩ := exists_members hmem
    obtain ⟨rfl, rfl⟩ := EStateM.Result.ok.inj (h.symm.trans hmembers)
    exact ⟨hget, rfl⟩
  · have hlogged : (s.logged it .access).sessionList[it]? = none :=
      Std.ExtTreeMap.getElem?_eq_none hmem
    simp [members, bind_apply, hlogged] at h

namespace Kept

variable {I Q : RpcService Json τ → Prop}

private theorem preserves_logged (hkept : Kept it I Q) {use : SessionUse} (huse : use ≠ .erase) :
    Preserves I (modify fun s => s.logged it use : Program Exn (RpcService Json τ) PUnit) :=
  .modify fun _ h => hkept.logged h huse

theorem preserves_members (hkept : Kept it I Q) :
    Preserves I (members it : Program Exn (RpcService Json τ) ListedSession) := by
  refine (hkept.preserves_logged (by decide)).bind fun _ => .get_bind fun s h => ?_
  split
  · exact Preserves.pure _ s h
  · exact Preserves.abort s h

private theorem preserves_setMembers (hkept : Kept it I Q) {f : ListedSession → ListedSession}
    (hf : ∀ session, (f session).dataSize.length = session.dataSize.length) :
    Preserves I (setMembers it f : Program Exn (RpcService Json τ) Unit) := by
  refine Preserves.bind_of hkept.preserves_members fun s session s₁ h hmembers h₁ => ?_
  obtain ⟨hget, rfl⟩ := eq_of_members_eq_ok hmembers
  exact hkept.insert h₁ hget (hf session)

private theorem preserves_nextOutcome (hkept : Kept it I Q) :
    Preserves I (nextOutcome : Program Exn (RpcService Json τ) SocketOutcome) :=
  .get_bind fun _ h => hkept.sockets _ h

private theorem preserves_socketCall (hkept : Kept it I Q) (call : String) :
    Preserves I (socketCall it call : Program Exn (RpcService Json τ) Unit) :=
  hkept.preserves_members.bind fun _ => hkept.preserves_nextOutcome.bind fun _ => .checkThat _ _

private theorem preserves_socketClose (hkept : Kept it I Q) :
    Preserves I (socketClose it : Program Exn (RpcService Json τ) Unit) :=
  hkept.preserves_nextOutcome.bind fun _ =>
    (hkept.preserves_setMembers (by exact fun _ => rfl)).bind fun _ => .checkThat _ _

private theorem preserves_getCommandId (hkept : Kept it I Q) :
    Preserves I (getCommandId it : Program Exn (RpcService Json τ) String) :=
  hkept.preserves_members.bind fun _ => (Preserves.checkThat _ _).bind fun _ =>
    (hkept.preserves_setMembers (by exact fun _ => rfl)).bind fun _ => .pure _

private theorem preserves_callRpcFunction (hkept : Kept it I Q) (cmdName : Bytes) :
    Preserves I (callRpcFunction it cmdName : Program Exn (RpcService Json τ) Json) := by
  refine hkept.preserves_members.bind fun session => .get_bind fun s h => ?_
  split
  · exact h
  · exact Preserves.zoom (fun app s h => hkept.app app h) s h

private theorem preserves_makeResponse (hkept : Kept it I Q) (lib : RpcLib Json) :
    Preserves I (makeResponse lib it : Program Exn (RpcService Json τ) Json) :=
  hkept.preserves_members.bind fun _ => (Preserves.fromExcept _).bind fun _ =>
    (Preserves.fromExcept _).bind fun _ => (Preserves.fromExcept _).bind fun _ =>
      (hkept.preserves_callRpcFunction _).bind fun _ => hkept.preserves_getCommandId.bind fun _ =>
        (Preserves.fromExcept _).bind fun _ =>
          .ite ((Preserves.fromExcept _).bind fun _ => .fromExcept _) (.pure _)

/-! ### What ends the handling -/

theorem finishes_asyncRead (hkept : Kept it I Q) (buffer : ReadBuffer) :
    Finishes I Q (asyncRead it buffer : Program Exn (RpcService Json τ) Unit) :=
  .bind hkept.preserves_members fun _ => .modify fun _ h => hkept.operation (.read buffer) h

private theorem finishes_asyncWriteSome (hkept : Kept it I Q) (octets : Bytes) :
    Finishes I Q (asyncWriteSome it octets : Program Exn (RpcService Json τ) Unit) :=
  .bind hkept.preserves_members fun _ => .modify fun _ h => hkept.operation (.write octets) h

/-- Erasing the session is the last thing that `delete_me` does. -/
theorem finishes_deleteMe (hkept : Kept it I Q) :
    Finishes I Q (deleteMe it : Program Exn (RpcService Json τ) Unit) := by
  refine .bind hkept.preserves_members fun session => ?_
  have hremove : Finishes I Q (do
      let _ ← members it
      removeSessionFromVector it : Program Exn (RpcService Json τ) Unit) :=
    .bind hkept.preserves_members fun _ => .modify fun _ h => hkept.erase h
  split
  · exact .bind (hkept.preserves_socketCall _) fun _ => .bind (hkept.preserves_socketCall _) fun _ =>
      .bind hkept.preserves_socketClose fun _ => hremove
  · exact hremove

/-- A block that is followed by a `catch` with `delete_me`. -/
theorem finishes_catching (hkept : Kept it I Q) {p : Program Exn (RpcService Json τ) Unit}
    (hp : Finishes I Q p) : Finishes I Q (catching p fun _ => some (deleteMe it)) :=
  .catching hp fun _ _ heq => Option.some.inj heq ▸ hkept.finishes_deleteMe

private theorem finishes_sendResponse (hkept : Kept it I Q) (lib : RpcLib Json) (jsonResponse : Json) :
    Finishes I Q (sendResponse lib it jsonResponse : Program Exn (RpcService Json τ) Unit) :=
  hkept.finishes_catching <| .bind (.fromExcept _) fun _ => .bind (.assertThat _) fun _ =>
    .bind (hkept.preserves_setMembers (by exact fun _ => rfl)) fun _ => .bind (.checkThat _ _) fun _ =>
      .get_bind fun s h =>
        (Finishes.bind (.checkThat _ _) fun _ => hkept.finishes_asyncWriteSome _ : Finishes I Q _) s h

private theorem finishes_executeRpcCommand (hkept : Kept it I Q) (lib : RpcLib Json) :
    Finishes I Q (executeRpcCommand lib it : Program Exn (RpcService Json τ) Unit) :=
  hkept.finishes_catching <| .bind (hkept.preserves_makeResponse lib) fun _ =>
    hkept.finishes_sendResponse lib _

private theorem finishes_readHandlerSize (hkept : Kept it I Q) (error : Bool) (bytesTransferred : ℕ) :
    Finishes I Q
      (readHandlerSize it error bytesTransferred : Program Exn (RpcService Json τ) Unit) := by
  refine .ite hkept.finishes_deleteMe (.ite hkept.finishes_deleteMe
    (.bind hkept.preserves_members fun session => ?_))
  split
  · exact .bind (hkept.preserves_setMembers (by exact fun _ => rfl)) fun _ =>
      .bind (.checkThat _ _) fun _ => hkept.finishes_asyncRead _
  · exact .raise _

private theorem finishes_readHandlerHmac (hkept : Kept it I Q) (lib : RpcLib Json) (error : Bool) :
    Finishes I Q (readHandlerHmac lib it error : Program Exn (RpcService Json τ) Unit) :=
  .ite hkept.finishes_deleteMe <| .bind hkept.preserves_members fun _ =>
    .ite hkept.finishes_deleteMe <| .bind (.assertThat _) fun _ =>
      hkept.finishes_catching (hkept.finishes_executeRpcCommand lib)

/-- A handler that returns has started an operation, or deleted the session. -/
theorem finishes_handler (hkept : Kept it I Q) (lib : RpcLib Json) (operation : AsyncOperation)
    (error : Bool) (bytesTransferred : ℕ) : Finishes I Q
      (handler lib it operation error bytesTransferred : Program Exn (RpcService Json τ) Unit) := by
  refine .bind (hkept.preserves_logged (by decide)) fun _ => ?_
  match operation with
  | .read .dataSize => exact hkept.finishes_readHandlerSize error bytesTransferred
  | .read .receivedData => exact .ite hkept.finishes_deleteMe (hkept.finishes_asyncRead _)
  | .read .hmacAuthenticator => exact hkept.finishes_readHandlerHmac lib error
  | .write _ =>
    exact hkept.finishes_catching (.ite hkept.finishes_deleteMe (hkept.finishes_asyncRead _))

end Kept

/-- While a session is handled, the others wait; then all of them wait. -/
theorem kept_handling : Kept it (Handling it) (Waiting : RpcService Json τ → Prop) where
  logged h huse := h.logged huse
  sockets _ h := h.congr rfl rfl rfl rfl
  app _ h := h.congr rfl rfl rfl rfl
  insert h hget hsize := h.insert (hsize.trans (h.sized it _ hget))
  operation operation h := h.operation operation
  erase h := h.erase

/-! ### Steps -/

namespace Waiting

theorem congr (h : Waiting s) (hlist : s'.sessionList = s.sessionList)
    (hcounter : s'.sessionCounter = s.sessionCounter) (hout : s'.outstanding = s.outstanding)
    (hlog : s'.log = s.log) : Waiting s' where
  nodup := hout ▸ h.nodup
  listed := hout ▸ hlist ▸ h.listed
  alive := by
    unfold Erased
    rw [hlist, hlog]
    exact h.alive
  listed_le := hlist ▸ hcounter ▸ h.listed_le
  logged_le := hlog ▸ hcounter ▸ h.logged_le
  lifetimes := hlog ▸ h.lifetimes
  sized := hlist ▸ h.sized
  waits := hlist ▸ hout ▸ h.waits

/-- A new session has a place of its own. -/
private theorem emplace (h : Waiting s) {session : ListedSession} (hsize : session.dataSize.length = 2) :
    Handling (s.sessionCounter + 1) { s with
      sessionCounter := s.sessionCounter + 1
      sessionList := s.sessionList.insert (s.sessionCounter + 1) session } where
  nodup := h.nodup
  listed op hop := Std.ExtTreeMap.mem_insert.mpr (.inr (h.listed op hop))
  -- The place is a new one, so nothing that was logged is about it.
  alive it' hmem := by
    rcases Std.ExtTreeMap.mem_insert.mp hmem with heq | hmem
    · obtain rfl := Std.LawfulEqOrd.eq_of_compare heq
      rintro ⟨a, ha, -, hit⟩
      have hle := h.logged_le a ha
      omega
    · exact h.alive it' hmem
  listed_le it' hmem := by
    rcases Std.ExtTreeMap.mem_insert.mp hmem with heq | hmem
    · exact (Std.LawfulEqOrd.eq_of_compare heq).ge
    · exact (h.listed_le it' hmem).trans (Nat.le_succ _)
  logged_le a ha := (h.logged_le a ha).trans (Nat.le_succ _)
  lifetimes := h.lifetimes
  sized it' session' hget := by
    rw [Std.ExtTreeMap.getElem?_insert] at hget
    split at hget
    · obtain rfl := Option.some.inj hget
      exact hsize
    · exact h.sized it' session' hget
  mem := Std.ExtTreeMap.mem_insert_self
  idle op hop hit := by
    have hle := h.listed_le op.1 (h.listed op hop)
    omega
  others it' hmem hne := by
    rcases Std.ExtTreeMap.mem_insert.mp hmem with heq | hmem
    · exact absurd (Std.LawfulEqOrd.eq_of_compare heq).symm hne
    · exact h.waits it' hmem

/-- The session whose operation completes is handled. -/
theorem completed (h : Waiting s) {k : ℕ} {operation : AsyncOperation} {octets : Bytes}
    (hoperation : s.outstanding[k]? = some (it, operation)) (hfits : s.Fits it octets operation)
    (sockets : List SocketOutcome) : Handling it (s.completed k it operation octets sockets) := by
  obtain ⟨hlt, hget⟩ := List.getElem?_eq_some_iff.mp hoperation
  have hmem : (it, operation) ∈ s.outstanding := hget ▸ List.getElem_mem hlt
  have hlisted : it ∈ s.sessionList := h.listed _ hmem
  have hsplit : s.outstanding =
      s.outstanding.take k ++ (it, operation) :: s.outstanding.drop (k + 1) := by
    rw [← hget, ← List.drop_eq_getElem_cons hlt, List.take_append_drop]
  -- the operations of the other sessions are still there
  have hrest : s.outstanding.eraseIdx k = s.outstanding.take k ++ s.outstanding.drop (k + 1) :=
    List.eraseIdx_eq_take_drop_succ _ _
  have hperm : s.outstanding.Perm ((it, operation) :: s.outstanding.eraseIdx k) := by
    rw [hrest]
    exact (List.Perm.of_eq hsplit).trans List.perm_middle
  have hnodup := (hperm.map Prod.fst).nodup_iff.mp h.nodup
  rw [List.map_cons, List.nodup_cons] at hnodup
  have hremoved : Handling it { s with outstanding := s.outstanding.eraseIdx k, sockets } :=
    { nodup := hnodup.2
      listed := fun op hop => h.listed op (hperm.mem_iff.mpr (List.mem_cons_of_mem _ hop))
      alive := h.alive
      listed_le := h.listed_le
      logged_le := h.logged_le
      lifetimes := h.lifetimes
      sized := h.sized
      mem := hlisted
      idle := fun op hop hit => hnodup.1 (List.mem_map.mpr ⟨op, hop, hit⟩)
      others := fun it' hmem' hne => by
        obtain ⟨op, hop, rfl⟩ := h.waits it' hmem'
        rcases List.mem_cons.mp (hperm.mem_iff.mp hop) with rfl | hop
        · exact absurd rfl hne
        · exact ⟨op, hop, rfl⟩ }
  cases operation with
  | write octets => exact hremoved
  | read buffer =>
    obtain ⟨session, hsession⟩ :=
      Option.isSome_iff_exists.mp (Std.ExtTreeMap.mem_iff_isSome_getElem?.mp hlisted)
    have hsize : (session.received buffer octets).dataSize.length = 2 := by
      cases buffer with
      | dataSize =>
        have hfit : 0 + octets.length ≤ session.dataSize.length := by
          rw [Nat.zero_add]
          exact hfits session hsession
        exact (Buffer.length_overwrite hfit).trans (h.sized it session hsession)
      | receivedData => exact h.sized it session hsession
      | hmacAuthenticator => exact h.sized it session hsession
    refine (hremoved.insert hsize).congr ?_ rfl rfl rfl
    simp only [RpcService.completed, hsession]

end Waiting

/-- Between two steps every session waits, unless the thread has ended. When a handler lets an exception out,
the thread ends, and no operation completes any more. -/
def BetweenSteps (s : RpcService Json τ) : Prop := Sound s ∧ (s.running = true → Waiting s)

private theorem Waiting.betweenSteps (h : Waiting s) : BetweenSteps s := ⟨h.toSound, fun _ => h⟩

/-- However the handler ends, the state is in order. -/
private theorem betweenSteps_afterHandler {I : RpcService Json τ → Prop} (hI : ∀ s, I s → Sound s)
    {p : Program Exn (RpcService Json τ) Unit} (hp : Finishes I Waiting p) (hs : I s) :
    BetweenSteps (afterHandler (p s)) := by
  have hrun := hp s hs
  rcases hresult : p s with ⟨_, s'⟩ | ⟨e | _, s'⟩
  · rw [hresult] at hrun
    exact hrun.betweenSteps
  · rw [hresult] at hrun
    have hsound := hI s' hrun
    exact ⟨⟨hsound.nodup, hsound.listed, hsound.alive, hsound.listed_le, hsound.logged_le,
      hsound.lifetimes, hsound.sized⟩, nofun⟩
  · rw [hresult] at hrun
    have hsound := hI s' hrun
    exact ⟨⟨hsound.nodup, hsound.listed, hsound.alive, hsound.listed_le, hsound.logged_le,
      hsound.lifetimes, hsound.sized⟩, nofun⟩

/-- An operation of a session in the list is started. -/
private theorem asyncRead_of_mem (h : it ∈ s.sessionList) (buffer : ReadBuffer) :
    asyncRead it buffer s = .ok ()
      { s.logged it .access with outstanding := s.outstanding ++ [(it, .read buffer)] } := by
  obtain ⟨session, -, hmembers⟩ := exists_members h
  rw [asyncRead, bind_of_ok hmembers]
  rfl

/-- A session that waits may be used too. -/
private theorem Waiting.logged (h : Waiting s) (hmem : it ∈ s.sessionList) {use : SessionUse}
    (huse : use ≠ .erase) : Waiting (s.logged it use) where
  nodup := h.nodup
  listed := h.listed
  alive it' hmem' := by
    unfold Erased
    rw [RpcService.logged, deleted_concat]
    rintro (hdeleted | ⟨herases, -⟩)
    · exact h.alive it' hmem' hdeleted
    · exact huse herases
  listed_le := h.listed_le
  logged_le := by
    intro a ha
    rcases List.mem_append.mp ha with ha | ha
    · exact h.logged_le a ha
    · obtain rfl := List.mem_singleton.mp ha
      exact h.listed_le it hmem
  lifetimes := respectsLifetimes_concat.mpr ⟨h.lifetimes, h.alive it hmem⟩
  sized := h.sized
  waits := h.waits

/-- The members of a session that waits can be used. -/
private theorem Waiting.exists_members (h : Waiting s) (hmem : it ∈ s.sessionList) : ∃ session,
    members it s = .ok session (s.logged it .access) ∧ Waiting (s.logged it .access) := by
  obtain ⟨session, -, hmembers⟩ := RpcService.exists_members hmem
  exact ⟨session, hmembers, h.logged hmem (by decide)⟩

private theorem finishes_emplaceBack (dataSize : Vector UInt8 2) (hmacAuthenticator : Vector UInt8 64) :
    Finishes Waiting Waiting
      (emplaceBack dataSize hmacAuthenticator : Program Exn (RpcService Json τ) Unit) := by
  refine .get_bind fun s h => ?_
  by_cases hcounter : s.sessionCounter < xintMax
  · have hsize : (ListedSession.new s.rpcServer.hmacKey dataSize hmacAuthenticator
        (s.sessionCounter + 1)).dataSize.length = 2 := dataSize.length_toList
    have hnew := h.emplace hsize
    have hread := asyncRead_of_mem hnew.mem .dataSize
    have hwaiting := (kept_handling.finishes_asyncRead .dataSize).of_ok hnew hread
    obtain ⟨session, hmembers, hlast⟩ := hwaiting.exists_members hnew.mem
    rw [bind_of_ok (checkThat_eq_ok_iff (a := ()).mpr ⟨hcounter, rfl⟩), bind_of_ok (set_apply _ _),
      bind_of_ok hread, bind_of_ok hmembers]
    exact hlast
  · rw [bind_of_error (by rw [checkThat_apply, if_neg hcounter])]
    exact h

theorem finishes_acceptHandler (error : Bool) (dataSize : Vector UInt8 2)
    (hmacAuthenticator : Vector UInt8 64) : Finishes Waiting Waiting
      (acceptHandler error dataSize hmacAuthenticator : Program Exn (RpcService Json τ) Unit) := by
  have haccepting : Finishes Waiting Waiting (modify fun s => { s with accepting := true } :
      Program Exn (RpcService Json τ) PUnit) := .modify fun _ h => h.congr rfl rfl rfl rfl
  have hemplace : Preserves Waiting (emplaceBack dataSize hmacAuthenticator :
      Program Exn (RpcService Json τ) Unit) := (finishes_emplaceBack _ _).preserves
  unfold acceptHandler
  split
  · exact .bind hemplace fun _ => haccepting
  · exact haccepting

theorem BetweenSteps.step {event : ServiceEvent Json τ} (h : BetweenSteps s)
    (hstep : Stepped lib s event s') : BetweenSteps s' := by
  cases hstep with
  | accept error dataSize hmacAuthenticator hrunning haccepting =>
    exact betweenSteps_afterHandler (fun _ h => h.toSound)
      (finishes_acceptHandler error dataSize hmacAuthenticator) ((h.2 hrunning).congr rfl rfl rfl rfl)
  | complete k it operation error octets sockets hrunning hoperation hfits =>
    exact betweenSteps_afterHandler (fun _ h => h.toSound)
      (kept_handling.finishes_handler lib operation error octets.length)
      ((h.2 hrunning).completed hoperation hfits sockets)
  | register rpcFunctionsMap app =>
    exact ⟨⟨h.1.nodup, h.1.listed, h.1.alive, h.1.listed_le, h.1.logged_le, h.1.lifetimes, h.1.sized⟩,
      fun hrunning => (h.2 hrunning).congr rfl rfl rfl rfl⟩

theorem betweenSteps_start (rpcServer : RpcServer Json τ) (networkListen : Bool) :
    BetweenSteps (start rpcServer networkListen) :=
  Waiting.betweenSteps
    { nodup := List.nodup_nil
      listed := fun _ hop => absurd hop List.not_mem_nil
      alive := fun _ hmem => absurd hmem Std.ExtTreeMap.not_mem_empty
      listed_le := fun _ hmem => absurd hmem Std.ExtTreeMap.not_mem_empty
      logged_le := fun _ ha => absurd ha List.not_mem_nil
      lifetimes := respectsLifetimes_nil
      sized := fun _ _ hget => by simp [start] at hget
      waits := fun _ hmem => absurd hmem Std.ExtTreeMap.not_mem_empty }

/-- In every run a session has at most one operation under way, it is erased at most once, and there is no
handler of it and no access to it behind that. What the server does with its sessions is logged in a run, so
that an access behind the end of one would be seen there. -/
theorem lifecycle_of_run {rpcServer : RpcServer Json τ} {networkListen : Bool}
    {trace : List (RpcService Json τ × ServiceEvent Json τ)}
    (hrun : Steps (Stepped lib) (start rpcServer networkListen) trace s) (it : ℕ) :
    (s.outstanding.filter fun op => op.1 = it).length ≤ 1 ∧ s.log.count ⟨it, .erase⟩ ≤ 1 ∧
      ∀ before after, s.log = before ++ ⟨it, .erase⟩ :: after → ∀ a ∈ after, a.session ≠ it := by
  have hall : Steps.All (fun _ _ => True) trace := fun _ _ => trivial
  obtain ⟨-, hsound, -⟩ := hrun.invariant (fun _ _ _ h _ hstep => BetweenSteps.step h hstep)
    (betweenSteps_start rpcServer networkListen) hall
  refine ⟨?_, count_le_one_of_respectsLifetimes hsound.lifetimes rfl, fun before after heq =>
    hsound.lifetimes before ⟨it, .erase⟩ after heq rfl⟩
  have hcount := List.nodup_iff_count_le_one.mp hsound.nodup it
  rw [← List.countP_eq_length_filter]
  rwa [List.count, List.countP_map] at hcount

/-- Of two sessions, the first loses its connection and is deleted. -/
theorem lifecycle_of_run_example :
    ∃ (trace : List (RpcService Session.SampleJson Unit × ServiceEvent Session.SampleJson Unit))
      (s : RpcService Session.SampleJson Unit),
        Steps (Stepped Session.sampleRpcLib) (start Session.sampleRpcServer true) trace s ∧
        s.outstanding = [(2, .read .dataSize)] ∧ s.log.count ⟨1, .erase⟩ = 1 ∧
        (s.outstanding.filter fun op => op.1 = 1).length ≤ 1 ∧ s.log.count ⟨1, .erase⟩ ≤ 1 ∧
          ∀ before after, s.log = before ++ ⟨1, .erase⟩ :: after → ∀ a ∈ after, a.session ≠ 1 := by
  have hstart : Steps (Stepped Session.sampleRpcLib) (start Session.sampleRpcServer true) []
    (start Session.sampleRpcServer true) := .nil _
  have hrun := ((hstart.snoc
    (.accept _ false (Vector.replicate 2 0) (Vector.replicate 64 0) rfl rfl)).snoc
    (.accept _ false (Vector.replicate 2 0) (Vector.replicate 64 0) rfl rfl)).snoc
    (.complete _ 0 1 (.read .dataSize) true [] [] rfl rfl (fun _ _ => Nat.zero_le _))
  refine ⟨_, _, hrun, ?_, ?_, lifecycle_of_run hrun 1⟩
  · rfl
  · decide +kernel

end RpcService

end Galaxy42
