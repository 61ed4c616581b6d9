import LinkIce.Link.State
import Mathlib.Data.Multiset.Filter

/-! The composer's side of the link: what each section does to it, and why no composer id
comes twice. -/
namespace LinkIce
open Stun List

namespace Link

variable {l m : Link} {peerHex : Bytes} {conn cid : ConnId} {op : Section} {answer : Option ConnId}
  {new : List Section} {Q R : Multiset Section} {n : ℕ}

def insertCid : Section → Option ConnId
  | .composerInsert _ cid => some cid
  | _ => none

def acceptKey : Section → Option (ConnId × ℕ)
  | .accept cid sub => some (cid, sub.serial)
  | _ => none

/-- The same for one that was told, with whether the id was live then. -/
def noteKey : LinkNote → Option ((ConnId × ℕ) × Bool)
  | .accepted cid serial live => some ((cid, serial), live)
  | _ => none

/-! ### What a section does to the composer -/

structure ComposerSame (l m : Link) : Prop where
  sessions : m.composerSessions = l.composerSessions
  peers : m.composerPeerToId = l.composerPeerToId
  subs : m.composerAcceptSubs = l.composerAcceptSubs
  counter : m.nextComposerId = l.nextComposerId
  subscribed : m.subscribed = l.subscribed
  told : m.notes.filterMap noteKey = l.notes.filterMap noteKey

theorem ComposerSame.of_notes (hs : m.composerSessions = l.composerSessions)
    (hp : m.composerPeerToId = l.composerPeerToId)
    (hsubs : m.composerAcceptSubs = l.composerAcceptSubs)
    (hn : m.nextComposerId = l.nextComposerId) (hsub : m.subscribed = l.subscribed)
    (hnotes : m.notes = l.notes) : ComposerSame l m :=
  ⟨hs, hp, hsubs, hn, hsub, by rw [hnotes]⟩

inductive ComposerEffect (l : Link) : Section → Link → List Section → Prop
  | none {op : Section} {m : Link} {new : List Section} (hsame : ComposerSame l m)
    (hop : acceptKey op = Option.none)
    (hnew : ∀ s ∈ new, insertCid s = Option.none ∧ acceptKey s = Option.none) :
    ComposerEffect l op m new
  | numbered {peerHex : Bytes} : ComposerEffect l (.composerConnect peerHex)
    { l with nextComposerId := (l.nextComposerId + 1) % 2 ^ 64 }
    [.composerInsert peerHex (l.nextComposerId ||| composerIdBit)]
  | inserted {peerHex : Bytes} {cid : ConnId} (hnew : peerHex ∉ l.composerPeerToId) :
    ComposerEffect l (.composerInsert peerHex cid) { l with
      composerSessions := l.composerSessions.insert cid { peerPkHex := peerHex }
      composerPeerToId := l.composerPeerToId.insert peerHex cid } []
  | nominated {cid : ConnId} {entry : ComposerEntry}
    (hl : l.composerSessions.lookup cid = some entry) (hn : entry.nominated = false) :
    ComposerEffect l (.composerConnected cid) { l with
      composerSessions := l.composerSessions.insert cid { entry with nominated := true } }
      (l.composerAcceptSubs.map (.accept cid))
  | missed {cid : ConnId} (hl : cid ∉ l.composerSessions) :
    ComposerEffect l (.composerConnected cid) l (l.composerAcceptSubs.map (.accept cid))
  | taken {op : Section} {cid : ConnId}
    (hop : op = .disconnect cid ∧ isComposerId cid = true ∨ op = .composerFailed cid) :
    ComposerEffect l op (l.takeComposer cid) []
  | cleared : ComposerEffect l .shutdownComposer
    { l with composerSessions := ∅, composerPeerToId := ∅, composerAcceptSubs := [] } []
  | accepted {cid : ConnId} {sub : ComposerAcceptSub} : ComposerEffect l (.accept cid sub)
    (l.note (.accepted cid sub.serial (cid ∈ l.composerSessions))) []
  | subscribed {token : ℕ} : ComposerEffect l (.pushAcceptSub token) { l with
      composerAcceptSubs := l.composerAcceptSubs ++ [⟨token, l.subscribed⟩]
      subscribed := l.subscribed + 1 } []
  | unsubscribed {token : ℕ} : ComposerEffect l (.unsubscribeAccept token)
    { l with composerAcceptSubs := l.composerAcceptSubs.eraseP (·.token == token) } []

theorem addSession_same : ComposerSame l (l.addSession peerHex answer) := by
  cases answer with
  | none => exact .of_notes rfl rfl rfl rfl rfl rfl
  | some conn => exact ⟨rfl, rfl, rfl, rfl, rfl, rfl⟩

theorem takeSession_same : ComposerSame l (l.takeSession conn).1 := by
  unfold takeSession
  cases l.sessions.lookup conn with
  | none => exact .of_notes rfl rfl rfl rfl rfl rfl
  | some peerHex =>
    dsimp only
    unfold erasePeerId
    cases l.peerToIds.lookup peerHex <;> exact .of_notes rfl rfl rfl rfl rfl rfl

private theorem takeSession_new :
    ∀ s ∈ (l.takeSession conn).2, insertCid s = none ∧ acceptKey s = none := by
  unfold takeSession
  cases l.sessions.lookup conn with
  | none => nofun
  | some peerHex =>
    intro s hs
    cases mem_singleton.mp hs
    exact ⟨rfl, rfl⟩

theorem exec_composerEffect : ComposerEffect l op (l.exec op answer).1 (l.exec op answer).2 := by
  have hidle (hop : acceptKey op = none) : ComposerEffect l op l [] :=
    .none (.of_notes rfl rfl rfl rfl rfl rfl) hop nofun
  have hadd (peerHex : Bytes) (hop : acceptKey op = none) :
      ComposerEffect l op (l.addSession peerHex answer) [] :=
    .none addSession_same hop nofun
  have htake (conn : ConnId) (hop : acceptKey op = none) :
      ComposerEffect l op (l.takeSession conn).1 (l.takeSession conn).2 :=
    .none takeSession_same hop takeSession_new
  cases op with
  | connect peerHex => exact hadd peerHex rfl
  | offerComposer peerHex =>
    exact .none (.of_notes rfl rfl rfl rfl rfl rfl) rfl (by simp [exec, insertCid, acceptKey])
  | offerSessions peerHex found =>
    simp only [exec]
    split_ifs
    · exact hidle rfl
    · exact hadd peerHex rfl
  | disconnect conn =>
    simp only [exec]
    split_ifs with hc
    · exact .taken (.inl ⟨rfl, hc⟩)
    · exact htake conn rfl
  | claimDisconnect conn =>
    simp only [exec]
    split_ifs
    · exact hidle rfl
    · exact htake conn rfl
  | notifyDisconnect conn => exact .none ⟨rfl, rfl, rfl, rfl, rfl, rfl⟩ rfl nofun
  | reapSessions idle =>
    refine .none (.of_notes rfl rfl rfl rfl rfl rfl) rfl fun s hs => ?_
    obtain ⟨conn, -, rfl⟩ := mem_map.mp hs
    exact ⟨rfl, rfl⟩
  | shutdown =>
    simp only [exec]
    split_ifs
    · exact hidle rfl
    · exact .none (.of_notes rfl rfl rfl rfl rfl rfl) rfl (by simp [insertCid, acceptKey])
  | shutdownComposer => exact .cleared
  | composerConnect peerHex => exact .numbered
  | composerInsert peerHex cid =>
    simp only [exec]
    split_ifs with hp
    · exact hidle rfl
    · exact .inserted hp
  | composerConnected cid =>
    simp only [exec]
    cases hl : l.composerSessions.lookup cid with
    | none => exact .missed (AList.lookup_eq_none.mp hl)
    | some entry =>
      dsimp only
      split_ifs with hn
      · exact hidle rfl
      · exact .nominated hl (Bool.eq_false_iff.mpr hn)
  | composerFailed cid => exact .taken (.inr rfl)
  | accept cid sub => exact .accepted
  | subscribeAccept =>
    exact .none (.of_notes rfl rfl rfl rfl rfl rfl) rfl (by simp [exec, insertCid, acceptKey])
  | pushAcceptSub token => exact .subscribed
  | unsubscribeAccept token => exact .unsubscribed

theorem entry_new (l : Link) (c : LinkCall) :
    ∀ s ∈ l.entry c, insertCid s = none ∧ acceptKey s = none := by
  intro s hs
  cases c with
  | disconnect | shutdown | subscribeAccept | unsubscribeAccept =>
    cases mem_singleton.mp hs
    exact ⟨rfl, rfl⟩
  | connect | deliverOffer | onFailed | reapSessions | composerConnect | onComposerConnected
  | onComposerFailed =>
    simp only [entry] at hs
    split_ifs at hs
    · cases hs
    · cases mem_singleton.mp hs
      exact ⟨rfl, rfl⟩

/-! ### Composer ids -/

def composerId (n : ℕ) : ℕ := n ||| composerIdBit

theorem composerIdBit_le : composerIdBit ≤ composerId n := Nat.right_le_or

theorem composerId_injective {m : ℕ} (hm : 0 < m) (hmn : m < n) (hn : n ≤ 2 ^ 63) :
    composerId m ≠ composerId n := by
  have hlow (k : ℕ) (hk : k < 2 ^ 63) : composerId k = 2 ^ 63 + k := by
    have hor := Nat.two_pow_add_eq_or_of_lt hk 1
    rw [Nat.mul_one] at hor
    rw [composerId, composerIdBit, Nat.or_comm, ← hor]
  rw [hlow m (by omega)]
  rcases Nat.lt_or_eq_of_le hn with hlt | rfl
  · rw [hlow n hlt]
    omega
  · have htop : composerId (2 ^ 63) = 2 ^ 63 := by
      rw [composerId, composerIdBit, Nat.or_self]
    rw [htop]
    omega

/-- The composer ids that are in use or about to be. -/
def issued (l : Link) (Q : Multiset Section) : Multiset ConnId :=
  Q.filterMap insertCid + (l.composerSessions.keys : Multiset ConnId)

structure Issued (l : Link) (Q : Multiset Section) : Prop where
  nodup : (l.issued Q).Nodup
  below : ∀ cid ∈ l.issued Q, ∃ n, 0 < n ∧ n < l.nextComposerId ∧ cid = composerId n
  counter : 0 < l.nextComposerId ∧ l.nextComposerId ≤ 2 ^ 63 + 1

theorem Issued.mono (h : Issued l Q) (hle : m.issued R ≤ l.issued Q)
    (hn : m.nextComposerId = l.nextComposerId) : Issued m R where
  nodup := Multiset.nodup_of_le hle h.nodup
  below := by
    rw [hn]
    exact fun cid hc => h.below cid (Multiset.mem_of_le hle hc)
  counter := by
    rw [hn]
    exact h.counter

theorem issued_composerInsert :
    l.issued (.composerInsert peerHex cid ::ₘ R) = cid ::ₘ l.issued R := by
  have hop : insertCid (.composerInsert peerHex cid) = some cid := rfl
  rw [issued, Multiset.filterMap_cons_some _ _ _ hop, Multiset.cons_add, issued]

theorem issued_cons_le : l.issued R ≤ l.issued (op ::ₘ R) := by
  unfold issued
  cases hop : insertCid op with
  | none => rw [Multiset.filterMap_cons_none _ _ hop]
  | some cid =>
    rw [Multiset.filterMap_cons_some _ _ _ hop, Multiset.cons_add]
    exact Multiset.le_cons_self _ _

/-- Sections without a value add none. -/
theorem filterMap_append_none {α : Type*} {f : Section → Option α} (hnew : ∀ s ∈ new, f s = none) :
    Multiset.filterMap f ((new : Multiset Section) + R) = R.filterMap f := by
  have hzero : (new : Multiset Section).filterMap f = 0 := by
    rw [Multiset.filterMap_coe, filterMap_eq_nil_iff.mpr hnew]
    rfl
  rw [Multiset.filterMap_add, hzero, Multiset.zero_add]

theorem issued_append (hnew : ∀ s ∈ new, insertCid s = none)
    (hk : (m.composerSessions.keys : Multiset ConnId) ≤ l.composerSessions.keys) :
    m.issued (new + R) ≤ l.issued R := by
  unfold issued
  rw [filterMap_append_none hnew]
  exact Multiset.add_le_add_iff_left.mpr hk

theorem Issued.next (h : Issued l (op ::ₘ R)) (hnew : ∀ s ∈ new, insertCid s = none)
    (hk : (m.composerSessions.keys : Multiset ConnId) ≤ l.composerSessions.keys)
    (hn : m.nextComposerId = l.nextComposerId) : Issued m (new + R) :=
  h.mono ((issued_append hnew hk).trans issued_cons_le) hn

theorem accept_insertCid (subs : List ComposerAcceptSub) (cid : ConnId) :
    ∀ s ∈ subs.map (Section.accept cid), insertCid s = none := by
  intro s hs
  obtain ⟨sub, -, rfl⟩ := mem_map.mp hs
  rfl

/-- The next id is above all that are issued. -/
theorem Issued.numbered (h : Issued l (.composerConnect peerHex ::ₘ R))
    (hroom : l.nextComposerId ≤ 2 ^ 63) :
    Issued { l with nextComposerId := (l.nextComposerId + 1) % 2 ^ 64 }
      ([Section.composerInsert peerHex (l.nextComposerId ||| composerIdBit)] + R) := by
  have hnext : (l.nextComposerId + 1) % 2 ^ 64 = l.nextComposerId + 1 :=
    Nat.mod_eq_of_lt (by omega)
  have hissued : Link.issued { l with nextComposerId := (l.nextComposerId + 1) % 2 ^ 64 }
      ([Section.composerInsert peerHex (l.nextComposerId ||| composerIdBit)] + R) =
      composerId l.nextComposerId ::ₘ l.issued (.composerConnect peerHex ::ₘ R) := by
    have hop : insertCid (.composerConnect peerHex) = none := rfl
    have hsame : Link.issued { l with nextComposerId := (l.nextComposerId + 1) % 2 ^ 64 } R =
        l.issued (.composerConnect peerHex ::ₘ R) := by
      rw [Link.issued, Link.issued, Multiset.filterMap_cons_none _ _ hop]
    rw [Multiset.coe_singleton, Multiset.singleton_add, issued_composerInsert, hsame]
    rfl
  constructor
  · rw [hissued, Multiset.nodup_cons]
    refine ⟨fun hmem => ?_, h.nodup⟩
    obtain ⟨n, hpos, hlt, heq⟩ := h.below _ hmem
    exact composerId_injective hpos hlt hroom heq.symm
  · intro cid hc
    rw [hissued, Multiset.mem_cons] at hc
    dsimp only
    rw [hnext]
    rcases hc with rfl | hc
    · exact ⟨l.nextComposerId, h.counter.1, Nat.lt_succ_self _, rfl⟩
    · obtain ⟨n, hpos, hlt, heq⟩ := h.below cid hc
      exact ⟨n, hpos, Nat.lt_succ_of_lt hlt, heq⟩
  · dsimp only
    rw [hnext]
    omega

theorem Issued.free (h : Issued l (.composerInsert peerHex cid ::ₘ R)) :
    cid ∉ l.composerSessions := by
  have hnodup := h.nodup
  rw [issued_composerInsert, Multiset.nodup_cons] at hnodup
  exact fun hc => hnodup.1 (Multiset.mem_add.mpr (.inr (Multiset.mem_coe.mpr hc)))

theorem Issued.inserted (h : Issued l (.composerInsert peerHex cid ::ₘ R)) :
    Issued { l with
      composerSessions := l.composerSessions.insert cid { peerPkHex := peerHex }
      composerPeerToId := l.composerPeerToId.insert peerHex cid } (([] : List Section) + R) := by
  have hkeys : (l.composerSessions.insert cid { peerPkHex := peerHex }).keys =
      cid :: l.composerSessions.keys := by
    rw [AList.keys_insert, erase_of_not_mem h.free]
  refine h.mono ?_ rfl
  rw [issued_composerInsert]
  unfold Link.issued
  dsimp only
  rw [hkeys, ← Multiset.cons_coe, Multiset.add_cons, Multiset.coe_nil, Multiset.zero_add]

theorem takeComposer_counter : (l.takeComposer cid).nextComposerId = l.nextComposerId := by
  unfold takeComposer
  cases l.composerSessions.lookup cid <;> rfl

theorem takeComposer_sessions :
    (l.takeComposer cid).composerSessions = l.composerSessions.erase cid := by
  unfold takeComposer
  cases hl : l.composerSessions.lookup cid with
  | none =>
    apply AList.ext
    exact (kerase_of_notMem_keys (AList.lookup_eq_none.mp hl)).symm
  | some entry => rfl

theorem ComposerEffect.issued (he : ComposerEffect l op m new) (h : Issued l (op ::ₘ R))
    (hroom : ∀ peerHex, op = .composerConnect peerHex → l.nextComposerId ≤ 2 ^ 63) :
    Issued m (new + R) := by
  cases he with
  | none hsame hop hnew =>
    exact h.next (fun s hs => (hnew s hs).1) (by rw [hsame.sessions]) hsame.counter
  | numbered => exact h.numbered (hroom _ rfl)
  | inserted hnew => exact h.inserted
  | @nominated cid entry hl hn =>
    refine h.next (accept_insertCid _ _) ?_ rfl
    have hmem : cid ∈ l.composerSessions.keys :=
      AList.lookup_isSome.mp (Option.isSome_of_eq_some hl)
    dsimp only
    rw [AList.keys_insert]
    exact Multiset.coe_le.mpr (perm_cons_erase hmem).symm.subperm
  | missed hl => exact h.next (accept_insertCid _ _) le_rfl rfl
  | taken hop =>
    refine h.next nofun ?_ (takeComposer_counter)
    rw [takeComposer_sessions, AList.keys_erase]
    exact Multiset.coe_le.mpr erase_sublist.subperm
  | cleared => exact h.next nofun (Multiset.zero_le _) rfl
  | accepted | subscribed | unsubscribed => exact h.next nofun le_rfl rfl

end Link

end LinkIce
