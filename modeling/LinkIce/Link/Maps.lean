import LinkIce.Link.Composer

/-! The maps of the link agree outside its critical sections, whatever calls run and however
they interleave. -/
namespace LinkIce
open Stun List Option

namespace Link

variable {l : Link} {peerHex p : Bytes} {conn cid : ConnId} {Q R : Multiset Section} {m : Link}
  {op : Section}

def idsOf (peerHex : Bytes) (l : Link) : List ConnId := (l.peerToIds.lookup peerHex).getD []

/-- An id occurs once under the peer of its session and under no other, no entry of
`peer_to_ids_` is empty, the composer maps are inverse, and no id belongs to both sides. -/
structure MapsAgree (l : Link) : Prop where
  indexed : ∀ peerHex conn, (l.idsOf peerHex).count conn = 1 ↔
    l.sessions.lookup conn = some peerHex
  once : ∀ peerHex conn, (l.idsOf peerHex).count conn ≤ 1
  nonempty : ∀ peerHex, l.peerToIds.lookup peerHex ≠ some []
  composer : ∀ peerHex cid, l.composerPeerToId.lookup peerHex = some cid ↔
    ∃ entry, l.composerSessions.lookup cid = some entry ∧ entry.peerPkHex = peerHex
  disjoint : ∀ conn ∈ l.sessions, conn ∉ l.composerSessions

/-! ### The kernel side -/

structure KernelMaps (l : Link) : Prop where
  indexed : ∀ peerHex conn, conn ∈ l.idsOf peerHex ↔ l.sessions.lookup conn = some peerHex
  nodup : ∀ peerHex, (l.idsOf peerHex).Nodup
  nonempty : ∀ peerHex, l.peerToIds.lookup peerHex ≠ some []
  known : ∀ conn ∈ l.sessions, .connected conn ∈ l.notes ∧ conn < composerIdBit

theorem KernelMaps.of_eq (h : KernelMaps l) (hs : m.sessions = l.sessions)
    (hp : m.peerToIds = l.peerToIds) (hn : ∀ n ∈ l.notes, n ∈ m.notes) : KernelMaps m where
  indexed := by
    unfold idsOf
    rw [hs, hp]
    exact h.indexed
  nodup := by
    unfold idsOf
    rw [hp]
    exact h.nodup
  nonempty := by
    rw [hp]
    exact h.nonempty
  known := by
    intro conn hc
    rw [hs] at hc
    exact ⟨hn _ (h.known conn hc).1, (h.known conn hc).2⟩

theorem KernelMaps.cleared (hs : m.sessions = ∅) (hp : m.peerToIds = ∅) :
    KernelMaps m where
  indexed := by simp [idsOf, hs, hp]
  nodup := by simp [idsOf, hp]
  nonempty := by simp [hp]
  known := by simp [hs]

private theorem idsOf_addSession :
    (l.addSession peerHex (some conn)).idsOf p =
      if p = peerHex then l.idsOf p ++ [conn] else l.idsOf p := by
  by_cases hp : p = peerHex
  · subst hp
    simp [idsOf, addSession, note]
  · simp [idsOf, addSession, note, hp, AList.lookup_insert_ne hp]

theorem KernelMaps.addSession (h : KernelMaps l) (hnew : .connected conn ∉ l.notes)
    (hbit : conn < composerIdBit) : KernelMaps (l.addSession peerHex (some conn)) := by
  have habsent : conn ∉ l.sessions := fun hc => hnew (h.known conn hc).1
  have hnowhere (p : Bytes) : conn ∉ l.idsOf p := by
    rw [h.indexed, AList.lookup_eq_none.mpr habsent]
    exact nofun
  constructor
  · intro p c
    rw [idsOf_addSession]
    change _ ↔ (l.sessions.insert conn peerHex).lookup c = some p
    by_cases hc : c = conn
    · subst hc
      rw [AList.lookup_insert, some.injEq]
      by_cases hp : p = peerHex
      · simp [hp]
      · simp [hp, hnowhere, Ne.symm hp]
    · rw [AList.lookup_insert_ne hc, ← h.indexed]
      by_cases hp : p = peerHex
      · simp [hp, hc]
      · simp [hp]
  · intro p
    rw [idsOf_addSession]
    by_cases hp : p = peerHex
    · rw [if_pos hp, nodup_append]
      refine ⟨h.nodup p, nodup_singleton conn, ?_⟩
      intro a ha b hb
      rw [mem_singleton] at hb
      subst hb
      intro hab
      exact hnowhere p (hab ▸ ha)
    · rw [if_neg hp]
      exact h.nodup p
  · intro p
    change (l.peerToIds.insert peerHex (l.idsOf peerHex ++ [conn])).lookup p ≠ some []
    by_cases hp : p = peerHex
    · subst hp
      simp
    · rw [AList.lookup_insert_ne hp]
      exact h.nonempty p
  · intro c hc
    change c ∈ l.sessions.insert conn peerHex at hc
    rw [AList.mem_insert] at hc
    rcases hc with rfl | hc
    · exact ⟨mem_cons_self, hbit⟩
    · exact ⟨mem_cons_of_mem _ (h.known c hc).1, (h.known c hc).2⟩

theorem idsOf_erasePeerId :
    (l.erasePeerId peerHex conn).idsOf p =
      if p = peerHex then (l.idsOf p).filter (· ≠ conn) else l.idsOf p := by
  unfold erasePeerId
  by_cases hp : p = peerHex
  · subst hp
    cases hl : l.peerToIds.lookup p with
    | none => simp [idsOf, hl]
    | some ids =>
      rw [if_pos rfl]
      dsimp only [idsOf]
      rw [hl, getD_some]
      by_cases hv : ids.filter (· ≠ conn) = []
      · rw [if_pos hv, AList.lookup_erase, hv]
        rfl
      · rw [if_neg hv, AList.lookup_insert]
        rfl
  · rw [if_neg hp]
    cases l.peerToIds.lookup peerHex with
    | none => rfl
    | some ids =>
      dsimp only [idsOf]
      by_cases hv : ids.filter (· ≠ conn) = []
      · rw [if_pos hv, AList.lookup_erase_ne hp]
      · rw [if_neg hv, AList.lookup_insert_ne hp]

private theorem erasePeerId_nonempty (h : ∀ p, l.peerToIds.lookup p ≠ some []) (p : Bytes) :
    (l.erasePeerId peerHex conn).peerToIds.lookup p ≠ some [] := by
  unfold erasePeerId
  cases l.peerToIds.lookup peerHex with
  | none => exact h p
  | some ids =>
    dsimp only
    by_cases hv : ids.filter (· ≠ conn) = []
    · rw [if_pos hv]
      by_cases hp : p = peerHex
      · subst hp
        rw [AList.lookup_erase]
        exact nofun
      · rw [AList.lookup_erase_ne hp]
        exact h p
    · rw [if_neg hv]
      by_cases hp : p = peerHex
      · subst hp
        rw [AList.lookup_insert, ne_eq, some.injEq]
        exact hv
      · rw [AList.lookup_insert_ne hp]
        exact h p

theorem KernelMaps.takeSession (h : KernelMaps l) (conn : ConnId) :
    KernelMaps (l.takeSession conn).1 := by
  unfold Link.takeSession
  cases hl : l.sessions.lookup conn with
  | none => exact h
  | some peerHex =>
    have hnotes : (l.erasePeerId peerHex conn).notes = l.notes := by
      unfold erasePeerId
      cases l.peerToIds.lookup peerHex <;> rfl
    constructor
    · intro p c
      change c ∈ (l.erasePeerId peerHex conn).idsOf p ↔ (l.sessions.erase conn).lookup c = some p
      rw [idsOf_erasePeerId]
      by_cases hc : c = conn
      · subst hc
        rw [AList.lookup_erase]
        by_cases hp : p = peerHex
        · simp [hp]
        · rw [if_neg hp, h.indexed, hl, some.injEq]
          simp [Ne.symm hp]
      · rw [AList.lookup_erase_ne hc, ← h.indexed]
        by_cases hp : p = peerHex
        · simp [hp, hc]
        · simp [hp]
    · intro p
      change ((l.erasePeerId peerHex conn).idsOf p).Nodup
      rw [idsOf_erasePeerId]
      by_cases hp : p = peerHex
      · rw [if_pos hp]
        exact (h.nodup p).filter _
      · rw [if_neg hp]
        exact h.nodup p
    · exact erasePeerId_nonempty h.nonempty
    · intro c hc
      have hc' : c ∈ l.sessions := (AList.mem_erase.mp hc).2
      exact ⟨hnotes ▸ (h.known c hc').1, (h.known c hc').2⟩

/-! ### The composer side -/

def ComposerMaps (l : Link) : Prop :=
  ∀ peerHex cid, l.composerPeerToId.lookup peerHex = some cid ↔
    ∃ entry, l.composerSessions.lookup cid = some entry ∧ entry.peerPkHex = peerHex

theorem ComposerMaps.insert (h : ComposerMaps l) (hp : peerHex ∉ l.composerPeerToId)
    (hc : cid ∉ l.composerSessions) : ComposerMaps { l with
      composerSessions := l.composerSessions.insert cid { peerPkHex := peerHex }
      composerPeerToId := l.composerPeerToId.insert peerHex cid } := by
  intro p c
  have hpnone := AList.lookup_eq_none.mpr hp
  have hcnone := AList.lookup_eq_none.mpr hc
  have hpc := h p c
  dsimp only
  by_cases hcc : c = cid
  · subst hcc
    rw [hcnone] at hpc
    rw [AList.lookup_insert]
    by_cases hpp : p = peerHex
    · subst hpp
      simp
    · rw [AList.lookup_insert_ne hpp, hpc]
      simp [Ne.symm hpp]
  · rw [AList.lookup_insert_ne hcc, ← hpc]
    by_cases hpp : p = peerHex
    · subst hpp
      rw [AList.lookup_insert, hpnone]
      simp [Ne.symm hcc]
    · rw [AList.lookup_insert_ne hpp]

theorem ComposerMaps.nominate {entry : ComposerEntry} (h : ComposerMaps l)
    (hc : l.composerSessions.lookup cid = some entry) : ComposerMaps { l with
      composerSessions := l.composerSessions.insert cid { entry with nominated := true } } := by
  intro p c
  have hpc := h p c
  dsimp only
  by_cases hcc : c = cid
  · subst hcc
    rw [hpc, hc, AList.lookup_insert]
    simp
  · rw [AList.lookup_insert_ne hcc]
    exact hpc

theorem ComposerMaps.take (h : ComposerMaps l) (cid : ConnId) :
    ComposerMaps (l.takeComposer cid) := by
  unfold takeComposer
  cases hl : l.composerSessions.lookup cid with
  | none => exact h
  | some entry =>
    have hback : l.composerPeerToId.lookup entry.peerPkHex = some cid :=
      (h entry.peerPkHex cid).mpr ⟨entry, hl, rfl⟩
    intro p c
    have hpc := h p c
    dsimp only
    by_cases hpp : p = entry.peerPkHex
    · rw [hpp, AList.lookup_erase]
      by_cases hcc : c = cid
      · rw [hcc, AList.lookup_erase]
        simp
      · rw [AList.lookup_erase_ne hcc, ← hpp, ← hpc, hpp, hback]
        simp [Ne.symm hcc]
    · rw [AList.lookup_erase_ne hpp]
      by_cases hcc : c = cid
      · subst hcc
        rw [hpc, hl, AList.lookup_erase]
        simp [Ne.symm hpp]
      · rw [AList.lookup_erase_ne hcc]
        exact hpc

/-! ### Both sides -/

structure LinkInv (l : Link) (Q : Multiset Section) : Prop where
  kernel : KernelMaps l
  composer : ComposerMaps l
  issued : Issued l Q

theorem LinkInv.mapsAgree (h : LinkInv l Q) : MapsAgree l where
  indexed := by
    intro p c
    rw [← h.kernel.indexed]
    constructor
    · intro hcount
      exact count_pos_iff.mp (by omega)
    · exact count_eq_one_of_mem (h.kernel.nodup p)
  once := fun p c => nodup_iff_count_le_one.mp (h.kernel.nodup p) c
  nonempty := h.kernel.nonempty
  composer := h.composer
  disjoint := by
    intro c hc hcomp
    have hmem : c ∈ l.issued Q := Multiset.mem_add.mpr (.inr (Multiset.mem_coe.mpr hcomp))
    obtain ⟨n, -, -, rfl⟩ := h.issued.below c hmem
    exact absurd (h.kernel.known _ hc).2 (Nat.not_lt.mpr (composerIdBit_le))

/-! ### One section -/

/-- What the kernel and the counter promise a section: a new id is fresh and without bit 63,
and there are composer ids left. -/
structure Grants (l : Link) (op : Section) (answer : Option ConnId) : Prop where
  fresh : ∀ conn, answer = some conn → .connected conn ∉ l.notes ∧ conn < composerIdBit
  room : ∀ peerHex, op = .composerConnect peerHex → l.nextComposerId ≤ 2 ^ 63

/-- The kernel's side after a section. -/
theorem exec_kernelMaps {answer : Option ConnId}
    (hfresh : ∀ conn, answer = some conn → .connected conn ∉ l.notes ∧ conn < composerIdBit)
    (h : KernelMaps l) : KernelMaps (l.exec op answer).1 := by
  have hadd (peerHex : Bytes) : KernelMaps (l.addSession peerHex answer) := by
    cases answer with
    | none => exact h
    | some conn => exact h.addSession (hfresh conn rfl).1 (hfresh conn rfl).2
  have hnote (n : LinkNote) : KernelMaps (l.note n) :=
    h.of_eq rfl rfl fun _ hn => mem_cons_of_mem _ hn
  have hcomposer (cid : ConnId) : KernelMaps (l.takeComposer cid) := by
    unfold takeComposer
    cases l.composerSessions.lookup cid with
    | none => exact h
    | some entry => exact h.of_eq rfl rfl fun _ hn => hn
  cases op with
  | connect peerHex => exact hadd peerHex
  | offerSessions peerHex found =>
    simp only [exec]
    split_ifs
    · exact h
    · exact hadd peerHex
  | disconnect conn =>
    simp only [exec]
    split_ifs
    · exact hcomposer conn
    · exact h.takeSession conn
  | claimDisconnect conn =>
    simp only [exec]
    split_ifs
    · exact h
    · exact h.takeSession conn
  | notifyDisconnect conn => exact hnote _
  | accept cid sub => exact hnote _
  | shutdown =>
    simp only [exec]
    split_ifs
    · exact h
    · exact .cleared rfl rfl
  | composerInsert peerHex cid =>
    simp only [exec]
    split_ifs
    · exact h
    · exact h.of_eq rfl rfl fun _ hn => hn
  | composerConnected cid =>
    simp only [exec]
    cases l.composerSessions.lookup cid with
    | none => exact h
    | some entry =>
      dsimp only
      split_ifs
      · exact h
      · exact h.of_eq rfl rfl fun _ hn => hn
  | composerFailed cid => exact hcomposer cid
  | offerComposer | reapSessions | shutdownComposer | composerConnect | subscribeAccept
  | pushAcceptSub | unsubscribeAccept => exact h.of_eq rfl rfl fun _ hn => hn

theorem ComposerEffect.composerMaps {new : List Section}
    (he : ComposerEffect l op m new) (h : ComposerMaps l) (hissued : Issued l (op ::ₘ R)) :
    ComposerMaps m := by
  cases he with
  | none hsame hop hnew =>
    unfold ComposerMaps
    rw [hsame.peers, hsame.sessions]
    exact h
  | inserted hnew => exact h.insert hnew hissued.free
  | nominated hl hn => exact h.nominate hl
  | taken hop => exact h.take _
  | cleared => simp [ComposerMaps]
  | numbered | missed | accepted | subscribed | unsubscribed => exact h

theorem exec_linkInv (l : Link) (R : Multiset Section) (op : Section) (answer : Option ConnId)
    (hg : Grants l op answer) (h : LinkInv l (op ::ₘ R)) :
    LinkInv (l.exec op answer).1 ((l.exec op answer).2 + R) where
  kernel := exec_kernelMaps hg.fresh h.kernel
  composer := (exec_composerEffect).composerMaps h.composer h.issued
  issued := (exec_composerEffect).issued h.issued hg.room

theorem entry_linkInv (l : Link) (Q : Multiset Section) (c : LinkCall) (h : LinkInv l Q) :
    LinkInv l (Q + l.entry c) := by
  refine ⟨h.kernel, h.composer, h.issued.mono ?_ rfl⟩
  rw [Multiset.add_comm]
  exact issued_append (fun s hs => (entry_new l c s hs).1) le_rfl

end Link

namespace LinkRun

def Granted : LinkRun → LinkEvent → Prop :=
  Threads.Permits fun l _ op answer => l.Grants op answer

theorem start_linkInv : Link.LinkInv start.state start.pending where
  kernel := .cleared rfl rfl
  composer := by simp [Link.ComposerMaps, start]
  issued := ⟨Multiset.nodup_zero, fun _ h => absurd h (Multiset.notMem_zero _), by decide⟩

theorem run_linkInv {es : List LinkEvent} (h : Along step Granted start es) :
    Link.LinkInv (start.run es).state (start.run es).pending :=
  h.invariant (I := fun w => Link.LinkInv w.state w.pending)
    (fun _ _ hp hw => Threads.step_invariant Link.entry_linkInv Link.exec_linkInv hp hw)
    start_linkInv

/-- In every state that any interleaving of calls leads to, the maps agree, as long as the
kernel's ids are fresh and there are no more than 2^63 calls of `composer_connect`. -/
theorem link_maps_agree (es : List LinkEvent) (h : Along step Granted start es) :
    (start.run es).state.MapsAgree := (run_linkInv h).mapsAgree

/-! ### Two runs -/

def composerCall (peerHex : Bytes) (k : ℕ) : List LinkEvent :=
  [.call (.composerConnect peerHex), .run k none, .run k none]

def composerCalls (peerHex : Bytes) : ℕ → List LinkEvent
  | 0 => []
  | n + 1 => composerCalls peerHex n ++ composerCall peerHex n

theorem run_append (w : LinkRun) (es fs : List LinkEvent) :
    w.run (es ++ fs) = (w.run es).run fs := foldl_append

theorem run_composerCall (l : Link) (peerHex : Bytes) (k : ℕ) (hup : l.shutdown = false) :
    run ⟨l, List.replicate k []⟩ (composerCall peerHex k) =
      ⟨(Link.exec { l with nextComposerId := (l.nextComposerId + 1) % 2 ^ 64 }
        (.composerInsert peerHex (l.nextComposerId ||| composerIdBit)) none).1,
        List.replicate (k + 1) []⟩ := by
  have hlast (x : List Section) : (List.replicate k ([] : List Section) ++ [x])[k]? = some x := by
    simp
  have hset (x y : List Section) :
      (List.replicate k ([] : List Section) ++ [x]).set k y = List.replicate k [] ++ [y] := by
    simp
  simp only [composerCall, run, foldl_cons, foldl_nil, step, Threads.step, Link.entry, hup, hlast,
    hset, Link.exec, Bool.false_eq_true, if_false, append_nil, replicate_succ']

def oneComposer (peerHex : Bytes) (next : ℕ) : Link where
  nextComposerId := next
  composerSessions := AList.insert (1 ||| composerIdBit) { peerPkHex := peerHex } ∅
  composerPeerToId := AList.insert peerHex (1 ||| composerIdBit) ∅

theorem run_composerCalls {peerHex : Bytes} {n : ℕ} (hn : 0 < n) :
    run start (composerCalls peerHex n) =
      ⟨oneComposer peerHex ((n + 1) % 2 ^ 64), List.replicate n []⟩ := by
  induction n with
  | zero => omega
  | succ n ih =>
    rw [composerCalls, run_append]
    by_cases hz : n = 0
    · subst hz
      exact run_composerCall {} peerHex 0 rfl
    · have hmem : peerHex ∈ (oneComposer peerHex ((n + 1) % 2 ^ 64)).composerPeerToId :=
        (AList.mem_insert _).mpr (.inl rfl)
      have hnext : ((n + 1) % 2 ^ 64 + 1) % 2 ^ 64 = (n + 1 + 1) % 2 ^ 64 := by omega
      rw [ih (by omega), run_composerCall _ _ _ rfl, Link.exec, if_pos hmem, ← hnext]
      rfl

private theorem oneComposer_wraps {p q : Bytes} (hpq : p ≠ q) :
    ¬ (Link.exec { oneComposer p (2 ^ 63 + 1) with nextComposerId := (2 ^ 63 + 1 + 1) % 2 ^ 64 }
      (.composerInsert q ((2 ^ 63 + 1) ||| composerIdBit)) none).1.MapsAgree := by
  have hid : (2 ^ 63 + 1) ||| composerIdBit = 1 ||| composerIdBit := by decide
  have hnew : q ∉ (oneComposer p (2 ^ 63 + 1)).composerPeerToId := by
    intro hq
    rcases (AList.mem_insert _).mp hq with h | h
    · exact hpq h.symm
    · exact AList.notMem_empty _ h
  intro h
  have hback := (h.composer p (1 ||| composerIdBit)).mp
  simp only [Link.exec, hid] at hback
  rw [if_neg hnew] at hback
  obtain ⟨entry, hentry, hpeer⟩ := hback (by
    rw [AList.lookup_insert_ne hpq]
    exact AList.lookup_insert _)
  rw [AList.lookup_insert] at hentry
  cases hentry
  exact hpq hpeer.symm

/-- The 2^63 + 1st call of `composer_connect` gets the id of the first, which is in use. -/
theorem composer_id_comes_twice : ¬ (start.run (composerCalls [0x61] (2 ^ 63) ++
    composerCall [0x62] (2 ^ 63))).state.MapsAgree := by
  have hnext : (2 ^ 63 + 1) % 2 ^ 64 = 2 ^ 63 + 1 := by decide
  rw [run_append, run_composerCalls (by decide), hnext, run_composerCall _ _ _ rfl]
  have hpq : ([0x61] : Bytes) ≠ [0x62] := by decide
  exact oneComposer_wraps hpq

/-- A kernel session and a composer session for one peer, and the end of the former. -/
def oneOfEach : List LinkEvent :=
  [.call (.connect [0x61]), .run 0 (some 7), .call (.composerConnect [0x61]), .run 1 none,
    .run 1 none, .call (.disconnect 7), .run 2 none]

theorem grants_none {l : Link} {op : Section} (h : l.nextComposerId ≤ 2 ^ 63) :
    l.Grants op none := ⟨nofun, fun _ _ => h⟩

theorem oneOfEach_maps_agree : (start.run oneOfEach).state.composerSessions.keys.length = 1 ∧
    (start.run oneOfEach).state.MapsAgree := by
  refine ⟨by decide, link_maps_agree oneOfEach ?_⟩
  refine ⟨trivial, fun op _ => ⟨fun conn hc => ?_, fun _ _ => by decide⟩, trivial,
    fun op _ => grants_none (by decide), fun op _ => grants_none (by decide), trivial,
    fun op _ => grants_none (by decide), trivial⟩
  cases hc
  exact ⟨by decide, by decide⟩

end LinkRun

end LinkIce
