import Mathlib.Data.Finset.Card
import YangIpc.Library.Run
import YangIpc.Signalling.Isolation

/-!
# Peers and their sessions

A request opens the peer whose uid it names; a login and the timer close the peer of the session.
Nothing compares the two uids, so a client may open peers that neither of them closes.

## Main definitions

* `PeerWorld`, `PeerWorld.step`: the server and the peers open
* `Tidy`: after the call, at most the peer of the session is open
* `Opens`, `OwnUid`: a request that opens a peer, and names the uid of the session

## Main results

* `peers_may_be_orphaned`: a peer that is open after the next login
* `tidy_iff_ownUid`: all calls of a run are tidy if and only if the requests that open peers name
  the uid of their session
-/

namespace YangIpc

namespace Signalling

open Transition
open Bytes (CString)

variable {handle : YangIpcHandle} {around : Surroundings} {session : ServerSession}
  {mss : YangIpcRequest} {peers : Finset Int32} {w : PeerWorld} {input : ServerInput}

/-! ## Open peers -/

/-- The peers open after an event. -/
def ServerEvent.onPeers (peers : Finset Int32) : ServerEvent → Finset Int32
  | .addPeer _ uid => insert uid peers
  | .addPeer2 uid => insert uid peers
  | .close uid => peers.erase uid
  | _ => peers

/-- The peers open after a list of events. -/
def peersAfter : Finset Int32 → List ServerEvent → Finset Int32
  | peers, [] => peers
  | peers, e :: rest => peersAfter (e.onPeers peers) rest

/-- The server and the peers that are open. -/
structure PeerWorld where
  session : ServerSession
  peers : Finset Int32
  /-- The uid assigned by the most recent login. -/
  assigned : Option Int32
deriving DecidableEq

/-- One call. -/
def PeerWorld.step (handle : YangIpcHandle) (w : PeerWorld) (input : ServerInput) : PeerWorld :=
  let r := w.session.step handle input
  ⟨r.1, peersAfter w.peers r.2, (installed r.2).getLast?.or w.assigned⟩

/-- Nothing is open before the first call. -/
def PeerWorld.start : PeerWorld := ⟨.start, ∅, none⟩

/-- The call is a login, or the timeout of the session. -/
def EndsSession (w : PeerWorld) : ServerInput → Prop
  | .message _ mss => mss.requestType = .login
  | .tick time => w.session.connCid.isConnected = true ∧
      secondsSincePing w.session time > yangLiveTimeSecond

/-- After the call, every open peer has the uid assigned by the most recent login, so that there is
at most one, and after the end of a session there is none. -/
structure Tidy (handle : YangIpcHandle) (w : PeerWorld) (input : ServerInput) : Prop where
  own : ∀ uid ∈ (w.step handle input).peers, (w.step handle input).assigned = some uid
  single : (w.step handle input).peers.card ≤ 1
  closed : EndsSession w input → (w.step handle input).peers = ∅

/-- A request that opens a peer, if it is served. -/
def Opening (handle : YangIpcHandle) (mss : YangIpcRequest) : Prop :=
  (mss.requestType = .connect ∧ handle.addPeer2 = true) ∨
    (mss.requestType = .connectSdp ∧ handle.addPeer = true ∧ mss.data ≠ none)

instance : Decidable (Opening handle mss) := inferInstanceAs (Decidable (_ ∨ _))

/-- The request opens a peer. -/
def Opens (handle : YangIpcHandle) (session : ServerSession) (mss : YangIpcRequest) : Prop :=
  session.connCid.isConnected = true ∧ session.connCid.cid.compared = mss.cid.compared ∧
    mss.connectType = .p2p ∧ Opening handle mss

instance : Decidable (Opens handle session mss) := inferInstanceAs (Decidable (_ ∧ _))

/-- If the request opens a peer, it names the uid of the session. -/
def OwnUid (handle : YangIpcHandle) (w : PeerWorld) : ServerInput → Prop
  | .message _ mss => Opens handle w.session mss → mss.uid = w.session.connCid.uid
  | .tick _ => True

/-! ## One call -/

theorem peersAfter_append (l l' : List ServerEvent) : ∀ peers,
    peersAfter peers (l ++ l') = peersAfter (peersAfter peers l) l' := by
  induction l with
  | nil => exact fun _ => rfl
  | cons e rest ih => exact fun peers => ih _

theorem peersAfter_sendmsg {topic : CString} {request : YangIpcRequest} :
    peersAfter peers (yangIpcmessageSendmsg around topic request).1 = peers := by
  unfold yangIpcmessageSendmsg
  split <;> rfl

/-- A request of the session opens the peer it names, or none. -/
theorem peersAfter_p2p :
    peersAfter peers (yangIpcmessageHandleMessageP2p handle around session mss).2 =
      if Opening handle mss then insert mss.uid peers else peers := by
  unfold yangIpcmessageHandleMessageP2p
  by_cases hconnect : mss.requestType = .connect
  · have hopening : Opening handle mss ↔ handle.addPeer2 = true := by
      simp [Opening, hconnect, YangIpcRequestType.connect, YangIpcRequestType.connectSdp]
    rw [if_pos hconnect, yangIpcmessageConnect]
    by_cases hset : handle.addPeer2 = true
    · rw [if_pos hset, if_pos (hopening.mpr hset)]
      cases around.sdp with
      | none => rfl
      | some sdp => exact peersAfter_sendmsg
    · rw [if_neg hset, if_neg fun h => hset (hopening.mp h)]
      rfl
  rw [if_neg hconnect]
  by_cases hsdp : mss.requestType = .connectSdp
  · have hopening : Opening handle mss ↔ handle.addPeer = true ∧ mss.data ≠ none := by
      simp [Opening, hsdp, YangIpcRequestType.connect, YangIpcRequestType.connectSdp]
    rw [if_pos hsdp, yangIpcmessageAnswer]
    by_cases hset : handle.addPeer = true
    · rw [if_pos hset]
      cases hdata : mss.data with
      | none =>
        -- the absent string is measured, and nothing follows
        have hnot : ¬Opening handle mss := fun h => (hopening.mp h).2 hdata
        rw [if_neg hnot]
        rfl
      | some sdp =>
        have hopen : Opening handle mss := hopening.mpr ⟨hset, by simp [hdata]⟩
        rw [if_pos hopen]
        simp only [List.cons_append, peersAfter, peersAfter_append, peersAfter_sendmsg]
        split <;> rfl
    · have hnot : ¬Opening handle mss := fun h => hset (hopening.mp h).1
      rw [if_neg hset, if_neg hnot]
      rfl
  -- the other requests open nothing
  have hnot : ¬Opening handle mss := by simp [Opening, hconnect, hsdp]
  rw [if_neg hsdp, if_neg hnot]
  split
  · unfold yangIpcmessageResponse
    split <;> rfl
  split
  · unfold yangIpcmessageCandidate
    split <;> rfl
  split <;> rfl

/-- A request of the session's client opens the peer it names, or opens none. -/
theorem peersAfter_own (h : mss.requestType ≠ .login)
    (hconnected : session.connCid.isConnected = true)
    (hcid : session.connCid.cid.compared = mss.cid.compared) :
    (Opens handle session mss →
      peersAfter peers (yangIpcmessageHandleMessage handle around session mss).2 =
        insert mss.uid peers) ∧
      (¬Opens handle session mss →
        peersAfter peers (yangIpcmessageHandleMessage handle around session mss).2 ⊆ peers) := by
  have hopens : Opens handle session mss ↔ mss.connectType = .p2p ∧ Opening handle mss := by
    simp [Opens, hconnected, hcid]
  rw [handleMessage_own h hconnected hcid, hopens]
  by_cases huser : mss.connectType = .user
  · rw [if_pos huser]
    refine ⟨fun hp => absurd (hp.1.symm.trans huser) (by decide), fun _ => ?_⟩
    exact peersAfter_sendmsg.subset
  rw [if_neg huser]
  by_cases hclose : mss.requestType = .close
  · rw [if_pos hclose]
    refine ⟨fun hp => absurd hp.2 ?_, fun _ => ?_⟩
    · simp [Opening, hclose, YangIpcRequestType.close, YangIpcRequestType.connect,
        YangIpcRequestType.connectSdp]
    · unfold yangIpcmessageHandleMessageClose
      split
      · exact Finset.erase_subset _ _
      · exact Finset.Subset.refl _
  rw [if_neg hclose]
  by_cases hp2p : mss.connectType = .p2p
  · rw [if_pos hp2p, peersAfter_p2p]
    constructor
    · exact fun hp => if_pos hp.2
    · intro hnot
      rw [if_neg fun hopening => hnot ⟨hp2p, hopening⟩]
  · rw [if_neg hp2p]
    refine ⟨fun hp => absurd hp.1 hp2p, fun _ => ?_⟩
    split
    · unfold yangIpcmessageHandleMessageData
      cases mss.data with
      | none => exact Finset.Subset.refl _
      | some data =>
        simp only
        split <;> exact Finset.Subset.refl _
    · exact Finset.Subset.refl _

variable (handle around w) in
/-- **A request without a login in it** opens the peer it names, or opens none; the session keeps
its uid, and stays connected or not. -/
theorem step_request (h : mss.requestType ≠ .login) :
    let w' := w.step handle (.message around mss)
    w'.session.connCid.uid = w.session.connCid.uid ∧
      w'.session.connCid.isConnected = w.session.connCid.isConnected ∧
      w'.assigned = w.assigned ∧
      (Opens handle w.session mss → w'.peers = insert mss.uid w.peers) ∧
      (¬Opens handle w.session mss → w'.peers ⊆ w.peers) := by
  simp only [PeerWorld.step, ServerSession.step]
  rcases handleMessage_cases handle around w.session h with
    ⟨hdead, he⟩ | ⟨-, hcid, he⟩ | ⟨hconnected, hcid, ⟨ts, hsession⟩, hinstalled⟩
  · rw [he]
    refine ⟨rfl, rfl, rfl, fun hopens => ?_, fun _ => Finset.Subset.refl _⟩
    exact Bool.noConfusion (hopens.1.symm.trans hdead)
  · rw [he]
    refine ⟨rfl, rfl, ?_, fun hopens => absurd hopens.2.1 hcid, fun _ => ?_⟩
    · rw [installed_sendmsg]
      rfl
    · exact peersAfter_sendmsg.subset
  · refine ⟨?_, ?_, ?_, peersAfter_own h hconnected hcid⟩
    · rw [hsession]
    · rw [hsession]
    · rw [hinstalled]
      rfl

variable (around w) in
/-- A login closes the peer of the session before it. -/
theorem step_login (hclose : handle.close = true) (h : mss.requestType = .login) :
    let w' := w.step handle (.message around mss)
    w'.session.connCid = loginConnCid around w.session mss ∧
      w'.assigned = some w'.session.connCid.uid ∧
      w'.peers = w.peers.erase w.session.connCid.uid := by
  simp only [PeerWorld.step, ServerSession.step, handleMessage_login h]
  refine ⟨rfl, ?_, ?_⟩
  · rw [installed_login]
    rfl
  · rw [yangIpcmessageHandleMessageLogin, if_pos hclose]
    exact peersAfter_sendmsg

variable (w) in
/-- The timer leaves everything as it is, or ends the session and closes its peer. -/
theorem step_tick (hclose : handle.close = true) (time : UInt64) :
    let w' := w.step handle (.tick time)
    (¬EndsSession w (.tick time) ∧ w' = w) ∨
      (EndsSession w (.tick time) ∧ w'.session.connCid.isConnected = false ∧
        w'.peers = w.peers.erase w.session.connCid.uid) := by
  simp only [PeerWorld.step, ServerSession.step]
  rcases checkLive_cases handle w.session time with he | ⟨hconnected, hold, he⟩
  · refine .inl ⟨fun hends => ?_, by rw [he]; rfl⟩
    -- a session that ends is not left as it is
    have hfst := congrArg (fun r => r.1.connCid.isConnected) he
    rw [yangCheckLive, if_pos hends.1, if_pos hends.2] at hfst
    exact Bool.noConfusion (hfst.trans hends.1)
  · refine .inr ⟨⟨hconnected, hold⟩, by rw [he], ?_⟩
    rw [he, if_pos hclose]
    rfl

/-! ## Runs -/

/-- At most the peer of the session is open. -/
structure Settled (w : PeerWorld) : Prop where
  own : ∀ uid ∈ w.peers, w.session.connCid.isConnected = true ∧ uid = w.session.connCid.uid
  assigned : w.session.connCid.isConnected = true → w.assigned = some w.session.connCid.uid

theorem Settled.erase (h : Settled w) : w.peers.erase w.session.connCid.uid = ∅ := by
  rw [Finset.eq_empty_iff_forall_notMem]
  intro uid huid
  obtain ⟨hne, hmem⟩ := Finset.mem_erase.mp huid
  exact hne (h.own uid hmem).2

theorem settled_start : Settled .start :=
  ⟨fun uid h => absurd h (Finset.notMem_empty uid), by decide⟩

/-- **A call with the uid of the session** leaves at most the peer of the session open. -/
theorem Settled.step (hclose : handle.close = true) (h : Settled w) (hown : OwnUid handle w input) :
    Settled (w.step handle input) ∧ (EndsSession w input → (w.step handle input).peers = ∅) := by
  cases input with
  | tick time =>
    rcases step_tick w hclose time with ⟨hends, he⟩ | ⟨-, hdead, hpeers⟩
    · rw [he]
      exact ⟨h, fun hends' => absurd hends' hends⟩
    · rw [h.erase] at hpeers
      refine ⟨⟨fun uid hmem => ?_, fun hconnected => ?_⟩, fun _ => hpeers⟩
      · rw [hpeers] at hmem
        exact absurd hmem (Finset.notMem_empty uid)
      · exact Bool.noConfusion (hconnected.symm.trans hdead)
  | message around mss =>
    by_cases hlogin : mss.requestType = .login
    · obtain ⟨hsession, hassigned, hpeers⟩ := step_login around w hclose hlogin
      rw [h.erase] at hpeers
      refine ⟨⟨fun uid hmem => ?_, fun _ => hassigned⟩, fun _ => hpeers⟩
      rw [hpeers] at hmem
      exact absurd hmem (Finset.notMem_empty uid)
    · obtain ⟨huid, hconnected, hassigned, hopens, hnot⟩ :=
        step_request handle around w hlogin
      refine ⟨⟨fun uid hmem => ?_, fun hc => ?_⟩, fun hends => absurd hends hlogin⟩
      · rw [huid, hconnected]
        by_cases hopen : Opens handle w.session mss
        · rw [hopens hopen] at hmem
          rcases Finset.mem_insert.mp hmem with rfl | hmem
          · exact ⟨hopen.1, hown hopen⟩
          · exact h.own uid hmem
        · exact h.own uid (hnot hopen hmem)
      · rw [hassigned, huid]
        exact h.assigned (hconnected ▸ hc)

/-- A settled world is tidy: all its peers are the one of the session. -/
theorem Settled.tidy (h : Settled (w.step handle input))
    (hends : EndsSession w input → (w.step handle input).peers = ∅) : Tidy handle w input where
  own uid hmem := by
    obtain ⟨hconnected, rfl⟩ := h.own uid hmem
    exact h.assigned hconnected
  single := by
    rw [Finset.card_le_one]
    intro a ha b hb
    rw [(h.own a ha).2, (h.own b hb).2]
  closed := hends

/-- **One call is tidy if and only if a peer it opens is the one of the session.** -/
theorem Settled.tidy_iff (hclose : handle.close = true) (h : Settled w) :
    Tidy handle w input ↔ OwnUid handle w input := by
  constructor
  · intro htidy
    cases input with
    | tick time => trivial
    | message around mss =>
      intro hopen
      have hlogin : mss.requestType ≠ .login := by
        rcases hopen.2.2.2 with ⟨hconnect, -⟩ | ⟨hsdp, -⟩
        · rw [hconnect]
          decide
        · rw [hsdp]
          decide
      obtain ⟨-, -, hassigned, hopens, -⟩ :=
        step_request handle around w hlogin
      -- the peer just opened has the uid assigned last
      have huid := htidy.own mss.uid (by
        rw [hopens hopen]
        exact Finset.mem_insert_self _ _)
      rw [hassigned, h.assigned hopen.1] at huid
      exact (Option.some.inj huid).symm
  · intro hown
    obtain ⟨hsettled, hends⟩ := h.step hclose hown
    exact hsettled.tidy hends

/-- A client logs in, and asks for a connection with another uid. -/
def strayConnect : List ServerInput :=
  [.message (aroundAt 1) (plainRequest .login 0 clientA),
    .message (aroundAt 2) (plainRequest .connect 99 clientA)]

/-- **Peers may be orphaned.** The peer with the uid the client chose is not the one of the
session, and it is still open after the next login. -/
theorem peers_may_be_orphaned :
    ¬∀ (handle : YangIpcHandle) (inputs : List ServerInput), handle.close = true →
      Along (PeerWorld.step handle) (Tidy handle) .start inputs := by
  intro h
  obtain ⟨-, -, hlast, -⟩ := h allSet
    (strayConnect ++ [.message (aroundAt 3) (plainRequest .login 0 clientB)]) rfl
  exact absurd (hlast.closed rfl) (by decide +kernel)

/-- **Peers follow their sessions if and only if requests name their uid.** In every run, all calls
are tidy if and only if every request that opens a peer names the uid of the session. -/
theorem tidy_iff_ownUid (handle : YangIpcHandle) (inputs : List ServerInput)
    (hclose : handle.close = true) :
    Along (PeerWorld.step handle) (Tidy handle) .start inputs ↔
      Along (PeerWorld.step handle) (OwnUid handle) .start inputs :=
  along_congr (fun _ hw _ _ => hw.tidy_iff hclose)
    (fun _ hw _ _ htidy => (hw.step hclose ((hw.tidy_iff hclose).mp htidy)).1) _ settled_start

/-- The same client, with the uid it was assigned. -/
theorem tidy_iff_ownUid_connect :
    Along (PeerWorld.step allSet) (Tidy allSet) .start
      [.message (aroundAt 1) (plainRequest .login 0 clientA),
        .message (aroundAt 2) (plainRequest .connect 10 clientA)] := by
  refine (tidy_iff_ownUid allSet _ rfl).mpr ⟨fun hopen => ?_, fun _ => by decide +kernel, trivial⟩
  exact absurd hopen.1 (by decide)

end Signalling

end YangIpc
