import LinkIce.Link.Composer
import Mathlib.Data.Multiset.UnionInter

/-! Accept callbacks: which subscription is told of which composer id, and whether the id is
still there. -/
namespace LinkIce
open Stun List

namespace Link

variable {l m : Link} {peerHex : Bytes} {cid : ConnId} {op : Section} {new : List Section}
  {Q R : Multiset Section} {x : ConnId × ℕ}

/-- No subscription was told twice of an id, and none of an id that had no session then. -/
structure AcceptsProper (l : Link) : Prop where
  once : ((l.notes.filterMap noteKey).map Prod.fst).Nodup
  live : ∀ note ∈ l.notes.filterMap noteKey, note.2 = true

/-- A nomination finds its id, unless nobody listens; an id is not removed between the
snapshot of the subscriptions and the last callback of that snapshot; and there are composer
ids left. -/
def Undisturbed (l : Link) (Q : Multiset Section) : Section → Prop
  | .composerConnected cid => cid ∈ l.composerSessions ∨ l.composerAcceptSubs = []
  | .disconnect cid => isComposerId cid = true → ∀ sub, .accept cid sub ∉ Q
  | .composerFailed cid => ∀ sub, .accept cid sub ∉ Q
  | .shutdownComposer => ∀ cid sub, .accept cid sub ∉ Q
  | .composerConnect _ => l.nextComposerId ≤ 2 ^ 63
  | _ => True

def told (l : Link) (Q : Multiset Section) : Multiset (ConnId × ℕ) :=
  Q.filterMap acceptKey + ((l.notes.filterMap noteKey).map Prod.fst : Multiset (ConnId × ℕ))

structure AcceptInv (l : Link) (Q : Multiset Section) : Prop where
  issued : Issued l Q
  serials : (l.composerAcceptSubs.map ComposerAcceptSub.serial).Nodup
  older : ∀ sub ∈ l.composerAcceptSubs, sub.serial < l.subscribed
  once : (l.told Q).Nodup
  below : ∀ x ∈ l.told Q, ∃ n, 0 < n ∧ n < l.nextComposerId ∧ x.1 = composerId n
  inserted : ∀ x ∈ l.told Q, x.1 ∉ Q.filterMap insertCid
  nominated : ∀ x ∈ l.told Q, ∀ entry, l.composerSessions.lookup x.1 = some entry →
    entry.nominated = true
  here : ∀ x ∈ Q.filterMap acceptKey, x.1 ∈ l.composerSessions
  live : ∀ note ∈ l.notes.filterMap noteKey, note.2 = true

theorem AcceptInv.acceptsProper (h : AcceptInv l Q) : AcceptsProper l where
  once := (Multiset.coe_nodup.mp (Multiset.nodup_of_le (Multiset.le_add_left _ _) h.once))
  live := h.live

/-! ### Who is told after a section -/

theorem told_cons (hop : acceptKey op = none) : l.told (op ::ₘ R) = l.told R := by
  rw [told, told, Multiset.filterMap_cons_none _ _ hop]

theorem told_append (hnew : ∀ s ∈ new, acceptKey s = none)
    (hnotes : m.notes.filterMap noteKey = l.notes.filterMap noteKey) :
    m.told (new + R) = l.told R := by
  rw [told, told, filterMap_append_none hnew, hnotes]

theorem told_accepts (cid : ConnId) (subs : List ComposerAcceptSub) (hnotes : m.notes = l.notes) :
    m.told ((subs.map (Section.accept cid) : List Section) + R) =
      ((subs.map fun sub => (cid, sub.serial) : List (ConnId × ℕ)) : Multiset (ConnId × ℕ)) +
        l.told R := by
  have hkeys : (subs.map (Section.accept cid)).filterMap acceptKey =
      subs.map fun sub => (cid, sub.serial) := by
    rw [filterMap_map]
    exact congrFun filterMap_eq_map subs
  rw [told, told, Multiset.filterMap_add, Multiset.filterMap_coe, hkeys, hnotes, Multiset.add_assoc]

theorem told_accepted (cid : ConnId) (sub : ComposerAcceptSub) (live : Bool) :
    (l.note (.accepted cid sub.serial live)).told (([] : List Section) + R) =
      l.told (.accept cid sub ::ₘ R) := by
  have hop : acceptKey (.accept cid sub) = some (cid, sub.serial) := rfl
  have hnotes : ((l.note (.accepted cid sub.serial live)).notes.filterMap noteKey).map Prod.fst =
      (cid, sub.serial) :: (l.notes.filterMap noteKey).map Prod.fst := rfl
  rw [told, told, Multiset.filterMap_cons_some _ _ _ hop, hnotes, ← Multiset.cons_coe,
    Multiset.add_cons, Multiset.cons_add, Multiset.coe_nil, Multiset.zero_add]

theorem mem_insertCid_cons (h : cid ∈ R.filterMap insertCid) :
    cid ∈ (op ::ₘ R).filterMap insertCid := by
  obtain ⟨s, hs, hkey⟩ := (Multiset.mem_filterMap _ _).mp h
  exact (Multiset.mem_filterMap _ _).mpr ⟨s, Multiset.mem_cons_of_mem hs, hkey⟩

theorem accept_of_mem (h : x ∈ Q.filterMap acceptKey) : ∃ sub, Section.accept x.1 sub ∈ Q := by
  obtain ⟨s, hs, hkey⟩ := (Multiset.mem_filterMap _ _).mp h
  cases s with
  | accept cid sub =>
    cases hkey
    exact ⟨sub, hs⟩
  | _ => cases hkey

/-! ### One section -/

theorem AcceptInv.next (h : AcceptInv l (op ::ₘ R)) (hissued : Issued m (new + R))
    (hop : acceptKey op = none) (hnew : ∀ s ∈ new, insertCid s = none ∧ acceptKey s = none)
    (hserials : (m.composerAcceptSubs.map ComposerAcceptSub.serial).Nodup)
    (holder : ∀ sub ∈ m.composerAcceptSubs, sub.serial < m.subscribed)
    (hnotes : m.notes.filterMap noteKey = l.notes.filterMap noteKey)
    (hcounter : m.nextComposerId = l.nextComposerId)
    (hentries : ∀ cid entry, m.composerSessions.lookup cid = some entry →
      l.composerSessions.lookup cid = some entry)
    (hhere : ∀ x ∈ R.filterMap acceptKey, x.1 ∈ m.composerSessions) : AcceptInv m (new + R) := by
  have htold : m.told (new + R) = l.told (op ::ₘ R) := by
    rw [told_append (fun s hs => (hnew s hs).2) hnotes, told_cons hop]
  refine ⟨hissued, hserials, holder, ?_, ?_, ?_, ?_, ?_, ?_⟩
  · rw [htold]
    exact h.once
  · rw [htold, hcounter]
    exact h.below
  · intro x hx hmem
    rw [htold] at hx
    rw [filterMap_append_none fun s hs => (hnew s hs).1] at hmem
    exact h.inserted x hx (mem_insertCid_cons hmem)
  · intro x hx entry hentry
    rw [htold] at hx
    exact h.nominated x hx entry (hentries _ _ hentry)
  · rw [filterMap_append_none fun s hs => (hnew s hs).2]
    exact hhere
  · rw [hnotes]
    exact h.live

theorem AcceptInv.here_tail (h : AcceptInv l (op ::ₘ R)) :
    ∀ x ∈ R.filterMap acceptKey, x.1 ∈ l.composerSessions := by
  intro x hx
  obtain ⟨s, hs, hkey⟩ := (Multiset.mem_filterMap _ _).mp hx
  exact h.here x ((Multiset.mem_filterMap _ _).mpr ⟨s, Multiset.mem_cons_of_mem hs, hkey⟩)

theorem AcceptInv.numbered (h : AcceptInv l (.composerConnect peerHex ::ₘ R))
    (hroom : l.nextComposerId ≤ 2 ^ 63) :
    AcceptInv { l with nextComposerId := (l.nextComposerId + 1) % 2 ^ 64 }
      ([Section.composerInsert peerHex (l.nextComposerId ||| composerIdBit)] + R) := by
  have hnext : (l.nextComposerId + 1) % 2 ^ 64 = l.nextComposerId + 1 :=
    Nat.mod_eq_of_lt (by omega)
  have hnew : ∀ s ∈ [Section.composerInsert peerHex (l.nextComposerId ||| composerIdBit)],
      acceptKey s = none := by
    intro s hs
    cases mem_singleton.mp hs
    rfl
  have htold : told { l with nextComposerId := (l.nextComposerId + 1) % 2 ^ 64 }
      ([Section.composerInsert peerHex (l.nextComposerId ||| composerIdBit)] + R) =
      l.told (.composerConnect peerHex ::ₘ R) := by
    exact (told_append hnew rfl).trans (told_cons rfl).symm
  refine ⟨h.issued.numbered hroom, h.serials, h.older, ?_, ?_, ?_, ?_, ?_, h.live⟩
  · rw [htold]
    exact h.once
  · intro x hx
    rw [htold] at hx
    obtain ⟨n, hpos, hlt, heq⟩ := h.below x hx
    dsimp only
    rw [hnext]
    exact ⟨n, hpos, Nat.lt_succ_of_lt hlt, heq⟩
  · intro x hx hmem
    rw [htold] at hx
    have hcons : insertCid (.composerInsert peerHex (l.nextComposerId ||| composerIdBit)) =
        some (composerId l.nextComposerId) := rfl
    rw [Multiset.coe_singleton, Multiset.singleton_add, Multiset.filterMap_cons_some _ _ _ hcons,
      Multiset.mem_cons] at hmem
    rcases hmem with heq | hmem
    · obtain ⟨n, hpos, hlt, hx'⟩ := h.below x hx
      exact composerId_injective hpos hlt hroom (hx'.symm.trans heq)
    · exact h.inserted x hx (mem_insertCid_cons hmem)
  · intro x hx
    rw [htold] at hx
    exact h.nominated x hx
  · rw [filterMap_append_none hnew]
    exact h.here_tail

theorem AcceptInv.insertSession (h : AcceptInv l (.composerInsert peerHex cid ::ₘ R)) :
    AcceptInv { l with
      composerSessions := l.composerSessions.insert cid { peerPkHex := peerHex }
      composerPeerToId := l.composerPeerToId.insert peerHex cid } (([] : List Section) + R) := by
  have htold : told { l with
      composerSessions := l.composerSessions.insert cid { peerPkHex := peerHex }
      composerPeerToId := l.composerPeerToId.insert peerHex cid } (([] : List Section) + R) =
      l.told (.composerInsert peerHex cid ::ₘ R) := by
    have hnew : ∀ s ∈ ([] : List Section), acceptKey s = none := nofun
    exact (told_append hnew rfl).trans (told_cons rfl).symm
  refine ⟨h.issued.inserted, h.serials, h.older, ?_, ?_, ?_, ?_, ?_, h.live⟩
  · rw [htold]
    exact h.once
  · rw [htold]
    exact h.below
  · intro x hx hmem
    rw [htold] at hx
    rw [Multiset.coe_nil, Multiset.zero_add] at hmem
    exact h.inserted x hx (mem_insertCid_cons hmem)
  · intro x hx entry hentry
    rw [htold] at hx
    -- the new id is nobody's yet
    have hne : x.1 ≠ cid := by
      intro heq
      apply h.inserted x hx
      rw [heq]
      exact (Multiset.mem_filterMap _ _).mpr ⟨_, Multiset.mem_cons_self _ _, rfl⟩
    rw [AList.lookup_insert_ne hne] at hentry
    exact h.nominated x hx entry hentry
  · rw [Multiset.coe_nil, Multiset.zero_add]
    intro x hx
    exact (AList.mem_insert _).mpr (.inr (h.here_tail x hx))

/-- The snapshot: all subscriptions are to be told of an id of which none was. -/
theorem AcceptInv.nominate {entry : ComposerEntry} (h : AcceptInv l (.composerConnected cid ::ₘ R))
    (hl : l.composerSessions.lookup cid = some entry) (hn : entry.nominated = false)
    (hissued : Issued { l with
      composerSessions := l.composerSessions.insert cid { entry with nominated := true } }
      (l.composerAcceptSubs.map (Section.accept cid) + R)) :
    AcceptInv { l with
      composerSessions := l.composerSessions.insert cid { entry with nominated := true } }
      (l.composerAcceptSubs.map (Section.accept cid) + R) := by
  have hfresh : ∀ x ∈ l.told R, x.1 ≠ cid := by
    intro x hx heq
    have hx' : x ∈ l.told (.composerConnected cid ::ₘ R) := by
      rw [told_cons rfl]
      exact hx
    have htrue := h.nominated x hx' entry (heq ▸ hl)
    rw [hn] at htrue
    cases htrue
  have htold := told_accepts (m := { l with
    composerSessions := l.composerSessions.insert cid { entry with nominated := true } }) (l := l)
    (R := R) cid l.composerAcceptSubs rfl
  have hcases : ∀ x ∈ told { l with
      composerSessions := l.composerSessions.insert cid { entry with nominated := true } }
      (l.composerAcceptSubs.map (Section.accept cid) + R), x.1 = cid ∨ x ∈ l.told R := by
    intro x hx
    rw [htold, Multiset.mem_add, Multiset.mem_coe] at hx
    rcases hx with hx | hx
    · obtain ⟨sub, -, rfl⟩ := mem_map.mp hx
      exact .inl rfl
    · exact .inr hx
  have hmem : cid ∈ l.composerSessions := AList.lookup_isSome.mp (Option.isSome_of_eq_some hl)
  have hissuedCid : cid ∈ l.issued (.composerConnected cid ::ₘ R) :=
    Multiset.mem_add.mpr (.inr (Multiset.mem_coe.mpr hmem))
  refine ⟨hissued, h.serials, h.older, ?_, ?_, ?_, ?_, ?_, h.live⟩
  · rw [htold, Multiset.nodup_add]
    refine ⟨?_, ?_, ?_⟩
    · rw [Multiset.coe_nodup]
      have hpairs : l.composerAcceptSubs.map (fun sub => (cid, sub.serial)) =
          (l.composerAcceptSubs.map ComposerAcceptSub.serial).map (Prod.mk cid) := by
        rw [map_map]
        rfl
      rw [hpairs]
      exact h.serials.map fun a b hab => (Prod.mk.inj hab).2
    · have honce := h.once
      rw [told_cons rfl] at honce
      exact honce
    · rw [Multiset.disjoint_left]
      intro x hx hx'
      obtain ⟨sub, -, rfl⟩ := mem_map.mp (Multiset.mem_coe.mp hx)
      exact hfresh _ hx' rfl
  · intro x hx
    rcases hcases x hx with heq | hx
    · rw [heq]
      exact h.issued.below cid hissuedCid
    · exact h.below x (by rw [told_cons rfl]; exact hx)
  · intro x hx hins
    rw [filterMap_append_none (accept_insertCid _ _)] at hins
    rcases hcases x hx with heq | hx
    · rw [heq] at hins
      have hnodup := h.issued.nodup
      rw [Link.issued, Multiset.nodup_add] at hnodup
      exact Multiset.disjoint_left.mp hnodup.2.2 (mem_insertCid_cons hins)
        (Multiset.mem_coe.mpr hmem)
    · exact h.inserted x (by rw [told_cons rfl]; exact hx) (mem_insertCid_cons hins)
  · intro x hx entry' hentry'
    rcases hcases x hx with heq | hx
    · rw [heq, AList.lookup_insert, Option.some.injEq] at hentry'
      rw [← hentry']
    · rw [AList.lookup_insert_ne (hfresh x hx)] at hentry'
      exact h.nominated x (by rw [told_cons rfl]; exact hx) entry' hentry'
  · intro x hx
    rw [AList.mem_insert]
    rw [Multiset.filterMap_add, Multiset.mem_add] at hx
    rcases hx with hx | hx
    · obtain ⟨sub, hsub⟩ := accept_of_mem hx
      obtain ⟨sub', -, heq⟩ := mem_map.mp (Multiset.mem_coe.mp hsub)
      cases heq
      exact .inl rfl
    · exact .inr (h.here_tail x hx)

theorem AcceptInv.accepted {sub : ComposerAcceptSub} (h : AcceptInv l (.accept cid sub ::ₘ R)) :
    AcceptInv (l.note (.accepted cid sub.serial (cid ∈ l.composerSessions)))
      (([] : List Section) + R) := by
  have htold := told_accepted (l := l) (R := R) cid sub (cid ∈ l.composerSessions)
  have hmem : cid ∈ l.composerSessions :=
    h.here (cid, sub.serial) ((Multiset.mem_filterMap _ _).mpr ⟨_, Multiset.mem_cons_self _ _, rfl⟩)
  refine ⟨h.issued.next nofun le_rfl rfl, h.serials, h.older, ?_, ?_, ?_, ?_, ?_, ?_⟩
  · rw [htold]
    exact h.once
  · rw [htold]
    exact h.below
  · intro x hx hins
    rw [htold] at hx
    rw [Multiset.coe_nil, Multiset.zero_add] at hins
    exact h.inserted x hx (mem_insertCid_cons hins)
  · rw [htold]
    exact h.nominated
  · rw [Multiset.coe_nil, Multiset.zero_add]
    exact h.here_tail
  · intro note hnote
    rcases mem_cons.mp hnote with heq | hold
    · rw [heq]
      exact decide_eq_true hmem
    · exact h.live note hold

theorem ComposerEffect.acceptInv (he : ComposerEffect l op m new) (h : AcceptInv l (op ::ₘ R))
    (hu : Undisturbed l (op ::ₘ R) op) : AcceptInv m (new + R) := by
  have hissued : Issued m (new + R) := by
    apply he.issued h.issued
    intro peerHex hop
    subst hop
    exact hu
  cases he with
  | none hsame hop hnew =>
    refine h.next hissued hop hnew ?_ ?_ hsame.told hsame.counter ?_ ?_
    · rw [hsame.subs]
      exact h.serials
    · rw [hsame.subs, hsame.subscribed]
      exact h.older
    · rw [hsame.sessions]
      exact fun _ _ hentry => hentry
    · rw [hsame.sessions]
      exact h.here_tail
  | numbered => exact h.numbered hu
  | inserted hnew => exact h.insertSession
  | nominated hl hn => exact h.nominate hl hn hissued
  | missed hl =>
    have hnil := hu.resolve_left hl
    rw [hnil] at hissued ⊢
    exact h.next hissued rfl nofun h.serials h.older rfl rfl (fun _ _ hentry => hentry) h.here_tail
  | @taken _ cid hop =>
    have hgone : ∀ sub, .accept cid sub ∉ op ::ₘ R := by
      rcases hop with ⟨rfl, hc⟩ | rfl
      · exact hu hc
      · exact hu
    have hkey : acceptKey op = Option.none := by
      rcases hop with ⟨rfl, -⟩ | rfl
      · rfl
      · rfl
    have hfields : (l.takeComposer cid).composerAcceptSubs = l.composerAcceptSubs ∧
        (l.takeComposer cid).subscribed = l.subscribed ∧ (l.takeComposer cid).notes = l.notes := by
      unfold takeComposer
      cases l.composerSessions.lookup cid <;> exact ⟨rfl, rfl, rfl⟩
    refine h.next hissued hkey nofun ?_ ?_ ?_ (takeComposer_counter) ?_ ?_
    · rw [hfields.1]
      exact h.serials
    · rw [hfields.1, hfields.2.1]
      exact h.older
    · rw [hfields.2.2]
    · intro c entry hentry
      rw [takeComposer_sessions] at hentry
      by_cases hc : c = cid
      · subst hc
        rw [AList.lookup_erase] at hentry
        cases hentry
      · rwa [AList.lookup_erase_ne hc] at hentry
    · intro x hx
      obtain ⟨sub, hsub⟩ := accept_of_mem hx
      have hne : x.1 ≠ cid := by
        intro heq
        exact hgone sub (heq ▸ Multiset.mem_cons_of_mem hsub)
      rw [takeComposer_sessions, AList.mem_erase]
      exact ⟨hne, h.here_tail x hx⟩
  | cleared =>
    refine h.next hissued rfl nofun nodup_nil nofun rfl rfl ?_ ?_
    · intro cid entry hentry
      cases hentry
    · intro x hx
      obtain ⟨sub, hsub⟩ := accept_of_mem hx
      exact absurd (Multiset.mem_cons_of_mem hsub) (hu x.1 sub)
  | accepted => exact h.accepted
  | subscribed =>
    refine h.next hissued rfl nofun ?_ ?_ rfl rfl (fun _ _ hentry => hentry) h.here_tail
    · have hnew : l.subscribed ∉ l.composerAcceptSubs.map ComposerAcceptSub.serial := by
        intro hmem
        obtain ⟨sub, hsub, heq⟩ := mem_map.mp hmem
        have hlt := h.older sub hsub
        omega
      rw [map_append, map_singleton, nodup_append]
      refine ⟨h.serials, nodup_singleton _, ?_⟩
      intro a ha b hb hab
      have hlast : b = l.subscribed := mem_singleton.mp hb
      rw [hab, hlast] at ha
      exact hnew ha
    · intro sub hsub
      rcases mem_append.mp hsub with hsub | hsub
      · exact Nat.lt_succ_of_lt (h.older sub hsub)
      · cases mem_singleton.mp hsub
        exact Nat.lt_succ_self _
  | unsubscribed =>
    refine h.next hissued rfl nofun ?_ ?_ rfl rfl (fun _ _ hentry => hentry) h.here_tail
    · exact h.serials.sublist (eraseP_sublist.map _)
    · exact fun sub hsub => h.older sub (mem_of_mem_eraseP hsub)

theorem entry_acceptInv (l : Link) (Q : Multiset Section) (c : LinkCall) (h : AcceptInv l Q) :
    AcceptInv l (Q + l.entry c) := by
  have hnew := entry_new l c
  have htold : l.told (l.entry c + Q) = l.told Q := told_append (fun s hs => (hnew s hs).2) rfl
  rw [Multiset.add_comm]
  refine ⟨h.issued.mono (issued_append (fun s hs => (hnew s hs).1) le_rfl) rfl, h.serials, h.older,
    ?_, ?_, ?_, ?_, ?_, h.live⟩
  · rw [htold]
    exact h.once
  · rw [htold]
    exact h.below
  · rw [htold, filterMap_append_none fun s hs => (hnew s hs).1]
    exact h.inserted
  · rw [htold]
    exact h.nominated
  · rw [filterMap_append_none fun s hs => (hnew s hs).2]
    exact h.here

end Link

namespace LinkRun

/-- Nominations and removals stay out of each other's way. -/
def AcceptsUndisturbed : LinkRun → LinkEvent → Prop :=
  Threads.Permits fun l Q op _ => l.Undisturbed Q op

private theorem start_acceptInv : Link.AcceptInv start.state start.pending := by
  refine ⟨⟨Multiset.nodup_zero, ?_, by decide⟩, nodup_nil, nofun, Multiset.nodup_zero, ?_, ?_,
    ?_, ?_, nofun⟩
  · exact fun _ h => absurd h (Multiset.notMem_zero _)
  · exact fun _ h => absurd h (Multiset.notMem_zero _)
  · exact fun _ h => absurd h (Multiset.notMem_zero _)
  · exact fun _ h => absurd h (Multiset.notMem_zero _)
  · exact fun _ h => absurd h (Multiset.notMem_zero _)

/-- In every state that an undisturbed run leads to, each subscription was told at most once of
each composer id, and only while the id had a session. -/
theorem accepts_proper (es : List LinkEvent) (h : Along step AcceptsUndisturbed start es) :
    (start.run es).state.AcceptsProper := by
  have hinv := h.invariant (I := fun w => Link.AcceptInv w.state w.pending)
    (fun w e hp hw => Threads.step_invariant Link.entry_acceptInv
      (fun l R op a hu hl => (Link.exec_composerEffect).acceptInv hl hu) hp hw)
    start_acceptInv
  exact hinv.acceptsProper

def subscribedSession : List LinkEvent :=
  [.call .subscribeAccept, .run 0 none, .run 0 none, .call (.composerConnect [0x61]), .run 1 none,
    .run 1 none]

def nominatedTwice : List LinkEvent :=
  subscribedSession ++ [.call (.onComposerConnected (1 ||| composerIdBit)), .run 2 none,
    .run 2 none, .call (.onComposerConnected (1 ||| composerIdBit)), .run 3 none,
    .call (.disconnect (1 ||| composerIdBit)), .run 4 none]

def removedBeforeNomination : List LinkEvent :=
  subscribedSession ++ [.call (.onComposerConnected (1 ||| composerIdBit)),
    .call (.disconnect (1 ||| composerIdBit)), .run 3 none, .run 2 none, .run 2 none]

/-- The session is disconnected between the snapshot and the callback. -/
def removedBeforeCallback : List LinkEvent :=
  subscribedSession ++ [.call (.onComposerConnected (1 ||| composerIdBit)), .run 2 none,
    .call (.disconnect (1 ||| composerIdBit)), .run 3 none, .run 2 none]

theorem nominatedTwice_accepts_once :
    (start.run nominatedTwice).state.notes = [.accepted (1 ||| composerIdBit) 0 true] ∧
      (start.run nominatedTwice).state.AcceptsProper := by
  refine ⟨by decide, accepts_proper nominatedTwice ?_⟩
  have hroom : 1 ≤ 2 ^ 63 := by decide
  have hlast : ∀ sub, Section.accept (1 ||| composerIdBit) sub ∉
      (([.disconnect (1 ||| composerIdBit)] : List Section) : Multiset Section) := by
    intro sub hmem
    cases mem_singleton.mp (Multiset.mem_coe.mp hmem)
  exact ⟨trivial, .of_next rfl trivial, .of_next rfl trivial, trivial, .of_next rfl hroom,
    .of_next rfl trivial, trivial, .of_next rfl (.inl (by decide)), .of_next rfl trivial, trivial,
    .of_next rfl (.inl (by decide)), trivial, .of_next rfl fun _ => hlast, trivial⟩

/-- In both runs the subscriber is told of an id that is gone. -/
theorem accepts_of_dead_ids : ¬ (start.run removedBeforeNomination).state.AcceptsProper ∧
    ¬ (start.run removedBeforeCallback).state.AcceptsProper := by
  constructor
  · intro h
    exact Bool.false_ne_true (h.live ((1 ||| composerIdBit, 0), false) (by decide))
  · intro h
    exact Bool.false_ne_true (h.live ((1 ||| composerIdBit, 0), false) (by decide))

end LinkRun

end LinkIce
