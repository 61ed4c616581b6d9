import LinkIce.Link.State
import Mathlib.Data.List.Count
import Mathlib.Data.Multiset.Count

/-! Whether every id that the kernel handed out is given back once. -/
namespace LinkIce
open Stun List

namespace Link

variable {l m : Link} {op : Section} {answer : Option ConnId} {conn id : ConnId} {n : ℕ}
  {new : List Section} {Q R : Multiset Section} {peerHex : Bytes}

/-- Each id that `notify_connect` returned got one `notify_disconnect`, and no other id got
any. -/
def Balanced (l : Link) : Prop :=
  ∀ id, l.notes.count (.disconnected id) = if .connected id ∈ l.notes then 1 else 0

/-- A section that takes the session out of `sessions_` while the link is up. The id stays in
`published_ids_`. -/
def earlyClaim (l : Link) : Section → Option ConnId
  | .disconnect conn =>
    if l.shutdown = false ∧ isComposerId conn = false ∧ conn ∈ l.sessions then some conn else none
  | .claimDisconnect conn => if l.shutdown = false ∧ conn ∈ l.sessions then some conn else none
  | _ => none

def takesOut (id : ConnId) (l : Link) : Section → Prop
  | .disconnect conn => isComposerId conn = false ∧ conn = id
  | .claimDisconnect conn => l.shutdown = false ∧ conn = id
  | .shutdown => l.shutdown = false
  | _ => False

def opens (id : ConnId) (l : Link) (op : Section) (answer : Option ConnId) : Prop :=
  answer = some id ∧
    match op with
    | .connect _ => True
    | .offerSessions peerHex found => found = false ∧ l.foldTarget peerHex = none
    | _ => False

def claims (id : ConnId) (l : Link) (op : Section) : ℕ := if l.earlyClaim op = some id then 1 else 0

def live (id : ConnId) (l : Link) : ℕ := if id ∈ l.sessions then 1 else 0

/-! ### What a section does to the ids -/

inductive Effect (l : Link) (answer : Option ConnId) : Section → Link → List Section → Prop
  | none {op : Section} {m : Link} {new : List Section} (hdown : m.shutdown = l.shutdown)
    (hsessions : m.sessions = l.sessions) (hpublished : m.publishedIds = l.publishedIds)
    (hconnected : ∀ id, m.notes.count (.connected id) = l.notes.count (.connected id))
    (hdisconnected : ∀ id, m.notes.count (.disconnected id) = l.notes.count (.disconnected id))
    (hop : ∀ id, op ≠ .notifyDisconnect id) (hnew : ∀ id, .notifyDisconnect id ∉ new)
    (hclaim : l.earlyClaim op = Option.none) : Effect l answer op m new
  | opened {op : Section} {peerHex : Bytes} {conn : ConnId} (hanswer : answer = some conn)
    (hop : ∀ id, op ≠ .notifyDisconnect id) (hclaim : l.earlyClaim op = Option.none) :
    Effect l answer op (l.addSession peerHex (some conn)) []
  | claimed {op : Section} {conn : ConnId} {m : Link} (hdown : m.shutdown = l.shutdown)
    (hmem : conn ∈ l.sessions) (hsessions : m.sessions = l.sessions.erase conn)
    (hpublished : m.publishedIds = l.publishedIds) (hnotes : m.notes = l.notes)
    (hop : ∀ id, op ≠ .notifyDisconnect id)
    (hclaim : l.earlyClaim op = if l.shutdown then Option.none else some conn) :
    Effect l answer op m [.notifyDisconnect conn]
  | notified {conn : ConnId} :
    Effect l answer (.notifyDisconnect conn) (l.note (.disconnected conn)) []
  | closed (hup : l.shutdown = false) : Effect l answer .shutdown
    { l with shutdown := true, publishedIds := [], sessions := ∅, peerToIds := ∅ }
    (.shutdownComposer :: l.publishedIds.map .notifyDisconnect)

theorem effect_addSession (hop : ∀ id, op ≠ .notifyDisconnect id)
    (hclaim : l.earlyClaim op = none) : Effect l answer op (l.addSession peerHex answer) [] := by
  cases answer with
  | none => exact .none rfl rfl rfl (fun _ => rfl) (fun _ => rfl) hop (by simp) hclaim
  | some conn => exact .opened rfl hop hclaim

theorem effect_takeSession (hop : ∀ id, op ≠ .notifyDisconnect id)
    (hnone : conn ∉ l.sessions → l.earlyClaim op = none)
    (hsome : conn ∈ l.sessions → l.earlyClaim op = if l.shutdown then none else some conn) :
    Effect l answer op (l.takeSession conn).1 (l.takeSession conn).2 := by
  unfold takeSession
  cases hl : l.sessions.lookup conn with
  | none =>
    have hc := hnone (AList.lookup_eq_none.mp hl)
    exact .none rfl rfl rfl (fun _ => rfl) (fun _ => rfl) hop (by simp) hc
  | some peerHex =>
    have hmem : conn ∈ l.sessions := AList.lookup_isSome.mp (Option.isSome_of_eq_some hl)
    have hkeep : (l.erasePeerId peerHex conn).shutdown = l.shutdown ∧
        (l.erasePeerId peerHex conn).publishedIds = l.publishedIds ∧
        (l.erasePeerId peerHex conn).notes = l.notes := by
      unfold erasePeerId
      cases l.peerToIds.lookup peerHex <;> exact ⟨rfl, rfl, rfl⟩
    exact .claimed hkeep.1 hmem rfl hkeep.2.1 hkeep.2.2 hop (hsome hmem)

theorem takeComposer_effect {cid : ConnId} : (l.takeComposer cid).shutdown = l.shutdown ∧
    (l.takeComposer cid).sessions = l.sessions ∧
    (l.takeComposer cid).publishedIds = l.publishedIds ∧ (l.takeComposer cid).notes = l.notes := by
  unfold takeComposer
  cases l.composerSessions.lookup cid <;> exact ⟨rfl, rfl, rfl, rfl⟩

private theorem effect_none (hdown : m.shutdown = l.shutdown) (hsessions : m.sessions = l.sessions)
    (hpublished : m.publishedIds = l.publishedIds) (hnotes : m.notes = l.notes)
    (hop : ∀ id, op ≠ .notifyDisconnect id) (hnew : ∀ id, .notifyDisconnect id ∉ new)
    (hclaim : l.earlyClaim op = none) : Effect l answer op m new :=
  .none hdown hsessions hpublished (fun _ => by rw [hnotes]) (fun _ => by rw [hnotes]) hop hnew
    hclaim

theorem exec_effect : Effect l answer op (l.exec op answer).1 (l.exec op answer).2 := by
  cases op with
  | connect peerHex => exact effect_addSession nofun rfl
  | offerComposer peerHex => exact effect_none rfl rfl rfl rfl nofun (by simp [exec]) rfl
  | offerSessions peerHex found =>
    simp only [exec]
    split_ifs
    · exact effect_none rfl rfl rfl rfl nofun (by simp) rfl
    · exact effect_addSession nofun rfl
  | disconnect conn =>
    simp only [exec]
    by_cases hc : isComposerId conn = true
    · rw [if_pos hc]
      obtain ⟨hdown, hsessions, hpublished, hnotes⟩ := takeComposer_effect (l := l)
      exact effect_none hdown hsessions hpublished hnotes nofun (by simp) (by simp [earlyClaim, hc])
    · have hop (id : ConnId) : Section.disconnect conn ≠ .notifyDisconnect id := nofun
      rw [if_neg hc]
      apply effect_takeSession hop
      · intro hmem
        simp [earlyClaim, hmem]
      · intro hmem
        cases hd : l.shutdown <;> simp [earlyClaim, hmem, hc, hd]
  | claimDisconnect conn =>
    simp only [exec]
    by_cases hd : l.shutdown = true
    · rw [if_pos hd]
      exact effect_none rfl rfl rfl rfl nofun (by simp) (by simp [earlyClaim, hd])
    · have hop (id : ConnId) : Section.claimDisconnect conn ≠ .notifyDisconnect id := nofun
      rw [if_neg hd]
      apply effect_takeSession hop
      · intro hmem
        simp [earlyClaim, hmem]
      · intro hmem
        simp [earlyClaim, hmem, hd]
  | notifyDisconnect conn => exact .notified
  | reapSessions idle => exact effect_none rfl rfl rfl rfl nofun (by simp [exec]) rfl
  | shutdown =>
    simp only [exec]
    by_cases hd : l.shutdown = true
    · rw [if_pos hd]
      exact effect_none rfl rfl rfl rfl nofun (by simp) rfl
    · rw [if_neg hd]
      exact .closed (Bool.eq_false_iff.mpr hd)
  | composerConnected cid =>
    simp only [exec]
    cases l.composerSessions.lookup cid with
    | none => exact effect_none rfl rfl rfl rfl nofun (by simp) rfl
    | some entry =>
      dsimp only
      split_ifs
      · exact effect_none rfl rfl rfl rfl nofun (by simp) rfl
      · exact effect_none rfl rfl rfl rfl nofun (by simp) rfl
  | composerInsert peerHex cid =>
    simp only [exec]
    split_ifs
    · exact effect_none rfl rfl rfl rfl nofun (by simp) rfl
    · exact effect_none rfl rfl rfl rfl nofun (by simp) rfl
  | composerFailed cid =>
    obtain ⟨hdown, hsessions, hpublished, hnotes⟩ := takeComposer_effect (l := l)
    exact effect_none hdown hsessions hpublished hnotes nofun (by simp [exec]) rfl
  | accept cid sub =>
    have hcount (note : LinkNote) (hne : ∀ b, note ≠ .accepted cid sub.serial b) :
        (l.exec (.accept cid sub) answer).1.notes.count note = l.notes.count note :=
      count_cons_of_ne (hne _).symm
    exact .none rfl rfl rfl (fun _ => hcount _ nofun) (fun _ => hcount _ nofun) nofun
      (by simp [exec]) rfl
  | shutdownComposer | composerConnect | subscribeAccept | pushAcceptSub | unsubscribeAccept =>
    exact effect_none rfl rfl rfl rfl nofun (by simp [exec]) rfl

theorem mem_addSession :
    id ∈ (l.addSession peerHex answer).sessions ↔ id ∈ l.sessions ∨ answer = some id := by
  cases answer with
  | none => simp [addSession]
  | some conn => simp [addSession, note, or_comm, eq_comm]

private theorem mem_takeSession :
    id ∈ (l.takeSession conn).1.sessions ↔ id ∈ l.sessions ∧ conn ≠ id := by
  unfold takeSession
  cases hl : l.sessions.lookup conn with
  | none =>
    have hconn := AList.lookup_eq_none.mp hl
    exact ⟨fun h => ⟨h, fun he => hconn (he ▸ h)⟩, And.left⟩
  | some peerHex => simp [and_comm, eq_comm]

/-- What one section does to the sessions. -/
theorem mem_sessions_exec : id ∈ (l.exec op answer).1.sessions ↔
    id ∈ l.sessions ∧ ¬ l.takesOut id op ∨ l.opens id op answer := by
  cases op with
  | connect peerHex => simp [exec, takesOut, opens, mem_addSession]
  | offerSessions peerHex found =>
    cases found <;> cases ht : l.foldTarget peerHex <;>
      simp [exec, takesOut, opens, mem_addSession, ht]
  | disconnect conn =>
    cases hc : isComposerId conn
    · simp [exec, takesOut, opens, hc, mem_takeSession]
    · simp [exec, takesOut, opens, hc, takeComposer_effect]
  | claimDisconnect conn =>
    cases hd : l.shutdown <;> simp [exec, takesOut, opens, hd, mem_takeSession]
  | shutdown => cases hd : l.shutdown <;> simp [exec, takesOut, opens, hd]
  | composerConnected cid =>
    cases hl : l.composerSessions.lookup cid with
    | none => simp [exec, takesOut, opens, hl]
    | some entry => cases hn : entry.nominated <;> simp [exec, takesOut, opens, hl, hn]
  | composerInsert peerHex cid =>
    simp only [exec]
    split_ifs <;> simp [takesOut, opens]
  | composerFailed cid => simp [exec, takesOut, opens, takeComposer_effect]
  | _ => simp [exec, takesOut, opens, note]

/-! ### The ledger of one id -/

/-- While the link is up, a session that was opened is live or was claimed once; shutdown then
adds a notification for it, whether claimed or not. -/
structure Ledger (id : ConnId) (claimed : ℕ) (l : Link) (Q : Multiset Section) : Prop where
  once : l.notes.count (.connected id) ≤ 1
  before : l.shutdown = false →
    l.notes.count (.disconnected id) + Q.count (.notifyDisconnect id) = claimed ∧
      claimed + l.live id = l.notes.count (.connected id) ∧
      l.publishedIds.count id = l.notes.count (.connected id)
  after : l.shutdown = true →
    l.notes.count (.disconnected id) + Q.count (.notifyDisconnect id) + l.live id =
        l.notes.count (.connected id) + claimed ∧
      (claimed = 0 ∨ l.live id = 0 ∧ l.notes.count (.connected id) = 1)

theorem live_insert :
    (l.addSession peerHex (some conn)).live id = if id = conn then 1 else l.live id := by
  unfold live addSession note
  by_cases hid : id = conn
  · simp [hid]
  · simp [hid]

theorem live_erase (hsessions : m.sessions = l.sessions.erase conn) :
    m.live id = if id = conn then 0 else l.live id := by
  unfold live
  rw [hsessions]
  by_cases hid : id = conn
  · simp [hid]
  · simp [hid]

theorem count_connected_addSession :
    (l.addSession peerHex (some conn)).notes.count (.connected id) =
      l.notes.count (.connected id) + if id = conn then 1 else 0 := by
  by_cases hid : id = conn
  · subst hid
    simp [addSession, note]
  · have hne : LinkNote.connected conn ≠ .connected id := by
      intro h
      cases h
      exact hid rfl
    simp [addSession, note, hid, count_cons_of_ne hne]

theorem count_disconnected_addSession :
    (l.addSession peerHex (some conn)).notes.count (.disconnected id) =
      l.notes.count (.disconnected id) := by
  have hne : LinkNote.connected conn ≠ .disconnected id := nofun
  exact count_cons_of_ne hne

theorem count_notify :
    ([.notifyDisconnect conn] : List Section).count (.notifyDisconnect id) =
      if id = conn then 1 else 0 := by
  by_cases hid : id = conn
  · simp [hid]
  · simp [hid, Ne.symm hid]

theorem count_notify_map {ids : List ConnId} :
    (.shutdownComposer :: ids.map Section.notifyDisconnect).count (.notifyDisconnect id) =
      ids.count id := by
  have hinj : Function.Injective Section.notifyDisconnect := by
    intro a b h
    cases h
    rfl
  have hne : Section.shutdownComposer ≠ .notifyDisconnect id := nofun
  rw [count_cons_of_ne hne, count_map_of_injective _ _ hinj]

theorem count_pending :
    Multiset.count (.notifyDisconnect id) ((new : Multiset Section) + R) =
      new.count (.notifyDisconnect id) + R.count (.notifyDisconnect id) := by
  rw [Multiset.count_add, Multiset.coe_count]

private theorem count_pending_cons (hop : op ≠ .notifyDisconnect id) :
    (op ::ₘ R).count (.notifyDisconnect id) = R.count (.notifyDisconnect id) :=
  Multiset.count_cons_of_ne hop.symm R

/-- The ledger after a section. -/
theorem Effect.ledger (he : Effect l answer op m new) (h : Ledger id n l (op ::ₘ R))
    (hfresh : ∀ conn, answer = some conn → .connected conn ∉ l.notes) :
    Ledger id (n + l.claims id op) m (new + R) := by
  cases he with
  | none hdown hsessions hpublished hconnected hdisconnected hop hnew hclaim =>
    have hlive : m.live id = l.live id := by rw [live, live, hsessions]
    have hdue : Multiset.count (.notifyDisconnect id) ((new : Multiset Section) + R) =
        Multiset.count (.notifyDisconnect id) (op ::ₘ R) := by
      rw [count_pending, count_pending_cons (hop id), count_eq_zero_of_not_mem (hnew id),
        Nat.zero_add]
    have hclaims : l.claims id op = 0 := by simp [claims, hclaim]
    rw [hclaims, Nat.add_zero]
    constructor
    · rw [hconnected]
      exact h.once
    · rw [hdown, hdisconnected, hconnected, hdue, hlive, hpublished]
      exact h.before
    · rw [hdown, hdisconnected, hconnected, hdue, hlive]
      exact h.after
  | @opened _ peerHex conn hanswer hop hclaim =>
    have hclaims : l.claims id op = 0 := by simp [claims, hclaim]
    have hnew : id = conn → l.notes.count (.connected id) = 0 := by
      intro hid
      subst hid
      exact count_eq_zero_of_not_mem (hfresh _ hanswer)
    have hpublished : (l.addSession peerHex (some conn)).publishedIds.count id =
        l.publishedIds.count id + if id = conn then 1 else 0 := by
      by_cases hid : id = conn
      · simp [addSession, note, hid]
      · simp [addSession, note, hid, Ne.symm hid]
    have honce := h.once
    rw [hclaims, Nat.add_zero]
    constructor
    · rw [count_connected_addSession]
      split_ifs with hid
      · have := hnew hid
        omega
      · omega
    · intro hup
      have hbefore := h.before hup
      rw [count_pending_cons (hop id)] at hbefore
      rw [count_connected_addSession, count_disconnected_addSession, live_insert, hpublished,
        count_pending, count_nil]
      split_ifs with hid
      · have := hnew hid
        omega
      · omega
    · intro hdown
      have hafter := h.after hdown
      rw [count_pending_cons (hop id)] at hafter
      rw [count_connected_addSession, count_disconnected_addSession, live_insert, count_pending,
        count_nil]
      split_ifs with hid
      · have := hnew hid
        omega
      · omega
  | @claimed _ conn _ hdown hmem hsessions hpublished hnotes hop hclaim =>
    have hlive : id = conn → l.live id = 1 := by
      intro hid
      subst hid
      exact if_pos hmem
    have hclaims : l.claims id op = if l.shutdown = false ∧ id = conn then 1 else 0 := by
      rw [claims, hclaim]
      cases l.shutdown <;> simp [eq_comm]
    rw [hclaims]
    constructor
    · rw [hnotes]
      exact h.once
    · intro hup
      rw [hdown] at hup
      have hbefore := h.before hup
      rw [count_pending_cons (hop id)] at hbefore
      rw [hnotes, hpublished, live_erase hsessions, count_pending, count_notify]
      by_cases hid : id = conn
      · have := hlive hid
        rw [if_pos hid, if_pos hid, if_pos ⟨hup, hid⟩]
        omega
      · rw [if_neg hid, if_neg hid, if_neg fun hboth => hid hboth.2]
        omega
    · intro hd
      rw [hdown] at hd
      have hafter := h.after hd
      rw [count_pending_cons (hop id)] at hafter
      have hlate : ¬ (l.shutdown = false ∧ id = conn) := by simp [hd]
      rw [hnotes, live_erase hsessions, count_pending, count_notify, if_neg hlate]
      split_ifs with hid
      · have := hlive hid
        omega
      · omega
  | @notified conn =>
    have hclaims : l.claims id (.notifyDisconnect conn) = 0 := rfl
    have hcount : (l.note (.disconnected conn)).notes.count (.disconnected id) +
        Multiset.count (.notifyDisconnect id) ((([] : List Section) : Multiset Section) + R) =
        l.notes.count (.disconnected id) +
          (Section.notifyDisconnect conn ::ₘ R).count (.notifyDisconnect id) := by
      rw [count_pending, count_nil]
      by_cases hid : id = conn
      · subst hid
        rw [Multiset.count_cons_self, note, count_cons_self]
        omega
      · have hnote : LinkNote.disconnected conn ≠ .disconnected id := by
          intro heq
          cases heq
          exact hid rfl
        have hop : Section.notifyDisconnect conn ≠ .notifyDisconnect id := by
          intro heq
          cases heq
          exact hid rfl
        rw [count_pending_cons hop, note, count_cons_of_ne hnote, Nat.zero_add]
    have hconnected : (l.note (.disconnected conn)).notes.count (.connected id) =
        l.notes.count (.connected id) := by
      have hne : LinkNote.disconnected conn ≠ .connected id := nofun
      exact count_cons_of_ne hne
    rw [hclaims, Nat.add_zero]
    constructor
    · rw [hconnected]
      exact h.once
    · rw [hcount, hconnected]
      exact h.before
    · rw [hcount, hconnected]
      exact h.after
  | closed hup =>
    have hclaims : l.claims id .shutdown = 0 := rfl
    have hop : Section.shutdown ≠ .notifyDisconnect id := nofun
    have honce := h.once
    have hbefore := h.before hup
    rw [count_pending_cons hop] at hbefore
    rw [hclaims, Nat.add_zero]
    refine ⟨h.once, nofun, fun _ => ?_⟩
    have hlive : live id { l with
        shutdown := true, publishedIds := [], sessions := ∅, peerToIds := ∅ } = 0 := by
      simp [live]
    rw [hlive, count_pending, count_notify_map]
    dsimp only
    omega

theorem entry_ledger {c : LinkCall} (h : Ledger id n l Q) : Ledger id n l (Q + l.entry c) := by
  have hnone : (l.entry c).count (.notifyDisconnect id) = 0 := by
    apply count_eq_zero_of_not_mem
    cases c <;> simp only [entry] <;> try split_ifs
    all_goals simp
  have hdue : Multiset.count (.notifyDisconnect id) (Q + (l.entry c : Multiset Section)) =
      Q.count (.notifyDisconnect id) := by
    rw [Multiset.count_add, Multiset.coe_count, hnone, Nat.add_zero]
  constructor
  · exact h.once
  · rw [hdue]
    exact h.before
  · rw [hdue]
    exact h.after

end Link

namespace LinkRun

variable {es : List LinkEvent}

/-- The kernel returns an id that it has not returned before. -/
def FreshIds : LinkRun → LinkEvent → Prop :=
  Threads.Permits fun l _ _ answer => ∀ conn, answer = some conn → .connected conn ∉ l.notes

/-- No section takes a session out of `sessions_` before shutdown does. -/
def NoEarlyClaim : LinkRun → LinkEvent → Prop :=
  Threads.Permits fun l _ op _ => l.earlyClaim op = none

/-- Every session that is opened is taken out of `sessions_` later. -/
def EachTakenOut : LinkRun → List LinkEvent → Prop :=
  Matched step (fun id => Threads.Runs (Link.opens id))
    fun id => Threads.Runs fun l op _ => l.takesOut id op

def claimsOf (id : ConnId) (w : LinkRun) (e : LinkEvent) : ℕ := w.weight (Link.claims id) e

/-- The books of an id balance after every run in which the kernel returns fresh ids. -/
theorem run_ledger (h : Along step FreshIds start es) (id : ConnId) :
    Link.Ledger id (tally step (claimsOf id) start es) (start.run es).state
      (start.run es).pending := by
  have hstart : Link.Ledger id 0 start.state start.pending := by
    constructor
    · exact Nat.zero_le 1
    · intro _
      exact ⟨rfl, rfl, rfl⟩
    · intro hdown
      cases hdown
  have hrun := h.invariant_tally (I := fun n w => Link.Ledger id n w.state w.pending)
    (f := claimsOf id) (fun n w e hp hw => Threads.step_invariant_weight
      (fun l Q c hl => Link.entry_ledger hl)
      (fun l R op a hf hl => (Link.exec_effect).ledger hl hf) hp hw) hstart
  rw [Nat.zero_add] at hrun
  exact hrun

theorem tally_claims_iff :
    (∀ id, tally step (claimsOf id) start es = 0) ↔ Along step NoEarlyClaim start es := by
  simp only [tally_eq_zero_iff, along_forall]
  refine along_congr (I := fun _ => True) (fun _ _ _ _ => trivial) trivial fun w e _ => ?_
  cases e with
  | call c => exact ⟨fun _ => trivial, fun _ _ => rfl⟩
  | run i a =>
    constructor
    · intro h op hop
      by_contra hne
      obtain ⟨id, hid⟩ := Option.ne_none_iff_exists'.mp hne
      have hzero := h id
      simp [claimsOf, Threads.weight, hop, Link.claims, hid] at hzero
    · intro h id
      change (w.next i).elim 0 (Link.claims id w.state) = 0
      cases hn : w.next i with
      | none => rfl
      | some op => simp [Link.claims, h op hn]

theorem step_sessions (id : ConnId) (w : LinkRun) (e : LinkEvent) :
    id ∈ (step w e).state.sessions ↔ id ∈ w.state.sessions ∧
      ¬ w.Runs (fun l op _ => l.takesOut id op) e ∨ w.Runs (Link.opens id) e :=
  Threads.step_state_iff (M := fun l : Link => id ∈ l.sessions) fun _ _ _ => Link.mem_sessions_exec

theorem live_eq_zero_iff : (∀ id, (start.run es).state.live id = 0) ↔ EachTakenOut start es := by
  have hiff : (∀ id, id ∉ (start.run es).state.sessions) ↔ _ ∧ EachTakenOut start es :=
    none_open_iff_matched (M := fun id (w : LinkRun) => id ∈ w.state.sessions) step_sessions
  have hlive (id : ConnId) :
      (start.run es).state.live id = 0 ↔ id ∉ (start.run es).state.sessions := by
    unfold Link.live
    split_ifs with h <;> simp [h]
  simp only [hlive]
  exact hiff.trans (and_iff_right fun id hid => absurd hid (AList.notMem_empty id))

/-- When all calls have returned and one of them was shutdown, the notifications balance just if
no session was claimed before shutdown, and each is taken out: also one that a late connect
opened. -/
theorem notifications_balance_iff (es : List LinkEvent) (hfresh : Along step FreshIds start es)
    (hidle : (start.run es).Idle) (hdown : (start.run es).state.shutdown = true) :
    (start.run es).state.Balanced ↔
      Along step NoEarlyClaim start es ∧ EachTakenOut start es := by
  have hledger (id : ConnId) :
      (start.run es).state.notes.count (.disconnected id) + (start.run es).state.live id =
        (start.run es).state.notes.count (.connected id) + tally step (claimsOf id) start es ∧
      (tally step (claimsOf id) start es = 0 ∨ (start.run es).state.live id = 0 ∧
        (start.run es).state.notes.count (.connected id) = 1) := by
    have hafter := (run_ledger hfresh id).after hdown
    rw [hidle.pending, Multiset.count_zero, Nat.add_zero] at hafter
    exact hafter
  have hconnected (id : ConnId) : (start.run es).state.notes.count (.connected id) =
      if .connected id ∈ (start.run es).state.notes then 1 else 0 := by
    have honce := (run_ledger hfresh id).once
    split_ifs with hmem
    · have hpos := count_pos_iff.mpr hmem
      omega
    · exact count_eq_zero_of_not_mem hmem
  rw [← tally_claims_iff, ← live_eq_zero_iff]
  constructor
  · intro h
    have hboth (id : ConnId) : tally step (claimsOf id) start es = 0 ∧
        (start.run es).state.live id = 0 := by
      have hb := h id
      rw [← hconnected] at hb
      have hl := hledger id
      omega
    exact ⟨fun id => (hboth id).1, fun id => (hboth id).2⟩
  · rintro ⟨hclaims, hlive⟩ id
    have hl := hledger id
    rw [hclaims, hlive] at hl
    rw [← hconnected]
    omega

def closedByShutdown : List LinkEvent :=
  [.call (.connect [0x61]), .run 0 (some 7), .call .shutdown, .run 1 none, .run 1 none, .run 1 none]

def closedTwice : List LinkEvent :=
  [.call (.connect [0x61]), .run 0 (some 7), .call (.disconnect 7), .run 1 none, .run 1 none,
    .call .shutdown, .run 2 none, .run 2 none, .run 2 none]

/-- A connect that has seen the flag down when shutdown takes the lock. -/
def lateConnect : List LinkEvent :=
  [.call (.connect [0x61]), .call .shutdown, .run 1 none, .run 1 none, .run 0 (some 7)]

theorem closedByShutdown_balanced : (start.run closedByShutdown).state.Balanced := by
  have hfirst : ∀ conn, some 7 = some conn → LinkNote.connected conn ∉ ([] : List LinkNote) :=
    fun _ _ => not_mem_nil
  have hiff := notifications_balance_iff closedByShutdown
    ⟨trivial, .of_next rfl hfirst, trivial, .of_next rfl nofun, .of_next rfl nofun,
      .of_next rfl nofun, trivial⟩ (by decide) (by decide)
  have hclaims : Along step NoEarlyClaim start closedByShutdown :=
    ⟨trivial, .of_next rfl rfl, trivial, .of_next rfl rfl, .of_next rfl rfl, .of_next rfl rfl,
      trivial⟩
  exact hiff.mpr ⟨hclaims, live_eq_zero_iff.mp fun id => rfl⟩

/-- Both runs are complete. In the first the id is given back twice, in the second never. -/
theorem notifications_unbalanced : (start.run closedTwice).Idle ∧
    ¬ (start.run closedTwice).state.Balanced ∧ (start.run lateConnect).Idle ∧
    ¬ (start.run lateConnect).state.Balanced := by
  refine ⟨by decide, ?_, by decide, ?_⟩
  · intro h
    have hcount := h 7
    revert hcount
    decide
  · intro h
    have hcount := h 7
    revert hcount
    decide

end LinkRun

end LinkIce
