import LinkIce.Lib.Fields
import LinkIce.Lib.InOrder
import LinkIce.Lib.Runs
import LinkIce.Session.History

/-! Ordered delivery: the receiving half refines an in-order receiver, and the frames that the
sending half numbers arrive in the order they were sent. -/
namespace LinkIce

open List

def numberedFrame (raw : Bytes) : Option (ℕ × Bytes) :=
  if raw.length < 4 then none else some (read32 raw, raw.drop 4)

theorem numberedFrame_lt {raws : List Bytes} {k : ℕ}
    (h : k ∈ (raws.filterMap numberedFrame).map Prod.fst) : k < 2 ^ 32 := by
  simp only [mem_map, mem_filterMap] at h
  obtain ⟨x, ⟨raw, -, hx⟩, rfl⟩ := h
  unfold numberedFrame at hx
  split_ifs at hx
  rw [← Option.some.inj hx]
  exact read32_lt raw

theorem numberedFrame_be32 (k : ℕ) (data : Bytes) :
    numberedFrame (be32 k ++ data) = some (k % 2 ^ 32, data) := by
  unfold numberedFrame
  rw [if_neg (by simp), read32_be32]
  rfl

/-- The in-order receiver that `deliver_in_order` implements. -/
def InOrder.hear (r : InOrder Bytes) (raw : Bytes) : InOrder Bytes :=
  (numberedFrame raw).elim r (r.receive (2 ^ 32) Session.reorderWindow)

namespace Session

theorem reorderInsert_eq_store {seq : ℕ} {data : Bytes} {buf : List (ℕ × Bytes)} :
    reorderInsert seq data buf = InOrder.store (seq, data) buf := by
  induction buf with
  | nil => rfl
  | cons e buf ih => simp only [reorderInsert, InOrder.store, ih]

structure Implements (base : List Effect) (s : Session) (r : InOrder Bytes) : Prop where
  next : s.recvDataSeq = r.next
  waiting : s.recvReorderBuf = r.waiting
  log : s.log = (r.delivered.map fun x => .onData x.2).reverse ++ base

variable {base : List Effect} {s : Session} {r : InOrder Bytes} {fs raws : List Bytes} {raw : Bytes}

theorem drainReorder_implements {fuel : ℕ} (h : Implements base s r) :
    Implements base (drainReorder fuel s) (r.drain (2 ^ 32) fuel) := by
  induction fuel generalizing s r with
  | zero => exact h
  | succ fuel ih =>
    simp only [drainReorder, InOrder.drain, h.next, h.waiting]
    cases r.waiting.find? fun y => y.1 == r.next with
    | none => exact h
    | some y =>
      refine ih ⟨rfl, rfl, ?_⟩
      simp [emit, h.log]

theorem deliverInOrder_implements (h : Implements base s r) :
    Implements base (s.deliverInOrder raw) (r.hear raw) := by
  by_cases hlen : raw.length < 4
  · simp only [deliverInOrder, InOrder.hear, numberedFrame, if_pos hlen]
    exact h
  · simp only [deliverInOrder, InOrder.hear, numberedFrame, if_neg hlen, Option.elim_some,
      InOrder.receive, h.next, h.waiting]
    split_ifs
    · exact h
    · refine drainReorder_implements ⟨rfl, rfl, ?_⟩
      simp [emit, h.log]
    all_goals
      refine ⟨?_, reorderInsert_eq_store, h.log⟩
      cases r.waiting <;> rfl

def deliverAll (s : Session) (raws : List Bytes) : Session :=
  raws.foldl (fun s raw => s.deliverInOrder raw) s

def inOrder (s : Session) : InOrder Bytes := ⟨s.recvDataSeq, s.recvReorderBuf, []⟩

def hearAll (s : Session) (raws : List Bytes) : InOrder Bytes := raws.foldl InOrder.hear s.inOrder

theorem deliverAll_implements (s : Session) (raws : List Bytes) :
    Implements s.log (s.deliverAll raws) (s.hearAll raws) := by
  have hrun (t : Session) (r : InOrder Bytes) (h : Implements s.log t r) :
      Implements s.log (t.deliverAll raws) (raws.foldl InOrder.hear r) := by
    induction raws generalizing t r with
    | nil => exact h
    | cons raw raws ih => exact ih _ _ (deliverInOrder_implements h)
  exact hrun s s.inOrder ⟨rfl, rfl, rfl⟩

def deliveredNumbers (s : Session) (raws : List Bytes) : List ℕ :=
  (s.hearAll raws).delivered.map Prod.fst

/-- The frame is ahead of a gap and the window is full. -/
def overflowsOn (s : Session) (raw : Bytes) : Prop :=
  4 ≤ raw.length ∧ s.recvDataSeq < read32 raw ∧ reorderWindow ≤ s.recvReorderBuf.length

theorem not_overflows (hs : Implements base s r) (ho : ¬ s.overflowsOn raw)
    {x : ℕ × Bytes} (hx : numberedFrame raw = some x) : ¬ r.overflows reorderWindow x := by
  unfold numberedFrame at hx
  split_ifs at hx with hlen
  obtain rfl := Option.some.inj hx
  rintro ⟨hlt, hw⟩
  exact ho ⟨by omega, by rw [hs.next]; exact hlt, by rw [hs.waiting]; exact hw⟩

theorem hear_receives (hs : Implements base s r)
    (h : r.Receives (2 ^ 32) (fs.filterMap numberedFrame)) (ho : ¬ s.overflowsOn raw)
    (hx : ∀ x ∈ numberedFrame raw, x.1 = 0 →
      ∃ k < 2 ^ 32, k ∉ (fs.filterMap numberedFrame).map Prod.fst) :
    (r.hear raw).Receives (2 ^ 32) ((fs ++ [raw]).filterMap numberedFrame) := by
  have hfs (k : ℕ) (hk : k ∈ ((fs ++ [raw]).filterMap numberedFrame).map Prod.fst) :
      k < 2 ^ 32 := numberedFrame_lt hk
  rw [filterMap_append] at hfs ⊢
  unfold InOrder.hear
  cases hf : numberedFrame raw with
  | none => simpa [hf] using h
  | some x =>
    simp only [filterMap_cons, hf, filterMap_nil] at hfs ⊢
    exact h.receive hfs (not_overflows hs ho hf) (hx x hf)

theorem deliverInOrder_length_le (ho : ¬ s.overflowsOn raw)
    (h : s.recvReorderBuf.length ≤ reorderWindow) :
    (s.deliverInOrder raw).recvReorderBuf.length ≤ reorderWindow := by
  have himpl : Implements s.log s s.inOrder := ⟨rfl, rfl, rfl⟩
  rw [(deliverInOrder_implements himpl).waiting]
  unfold InOrder.hear
  cases hf : numberedFrame raw with
  | none => exact h
  | some x => exact InOrder.length_receive_le (not_overflows himpl ho hf) h

theorem hearAll_receives (hn : s.recvDataSeq = 0) (hb : s.recvReorderBuf = [])
    (ho : ∀ fs raw, fs ++ [raw] <+: raws → ¬ (s.deliverAll fs).overflowsOn raw)
    (hx : ∀ fs raw, fs ++ [raw] <+: raws → ∀ x ∈ numberedFrame raw, x.1 = 0 →
      ∃ k < 2 ^ 32, k ∉ (fs.filterMap numberedFrame).map Prod.fst) :
    (s.hearAll raws).Receives (2 ^ 32) (raws.filterMap numberedFrame) := by
  induction raws using List.reverseRecOn with
  | nil => exact .inl ⟨0, Nat.two_pow_pos 32, .init (Nat.two_pow_pos 32) hn hb rfl⟩
  | append_singleton raws raw ih =>
    have hpre {fs : List Bytes} {f : Bytes} (h : fs ++ [f] <+: raws) :
        fs ++ [f] <+: raws ++ [raw] :=
      h.trans (prefix_append _ _)
    have h := ih (fun fs f h => ho fs f (hpre h)) fun fs f h => hx fs f (hpre h)
    rw [hearAll, foldl_append]
    exact hear_receives (deliverAll_implements s raws) h (ho raws raw prefix_rfl)
      (hx raws raw prefix_rfl)

/-- What ordered delivery promises for the frames `raws`. -/
structure DeliversInOrder (s : Session) (raws : List Bytes) : Prop where
  increasing : (s.deliveredNumbers raws).Pairwise (· < ·)
  monotone : ∀ fs raw, fs ++ [raw] <+: raws →
    (s.deliverAll fs).recvDataSeq ≤ (s.deliverAll (fs ++ [raw])).recvDataSeq
  bounded : ∀ fs, fs <+: raws → (s.deliverAll fs).recvReorderBuf.length ≤ 64
  ahead : ∀ fs, fs <+: raws → ∀ e ∈ (s.deliverAll fs).recvReorderBuf,
    (s.deliverAll fs).recvDataSeq < e.1

theorem exists_due_of_overflows (h : s.overflowsOn raw) :
    ∃ e ∈ (s.deliverInOrder raw).recvReorderBuf, e.1 = (s.deliverInOrder raw).recvDataSeq := by
  obtain ⟨hlen, hlt, hw⟩ := h
  simp only [deliverInOrder, if_neg (Nat.not_lt.mpr hlen), if_neg (Nat.not_lt.mpr hlt.le),
    if_neg hlt.ne', if_pos hw]
  cases hbuf : s.recvReorderBuf with
  | nil => simp [hbuf, reorderWindow] at hw
  | cons e buf =>
    have hmem : e.1 ∈ (InOrder.store (read32 raw, raw.drop 4) (e :: buf)).map Prod.fst :=
      InOrder.mem_keys_store.mpr (.inr (by simp))
    obtain ⟨x, hx, hk⟩ := mem_map.mp hmem
    refine ⟨x, ?_, hk⟩
    rw [reorderInsert_eq_store]
    exact hx

private theorem hearAll_upto (hn : s.recvDataSeq = 0) (hb : s.recvReorderBuf = [])
    (ho : ∀ fs raw, fs ++ [raw] <+: raws → ¬ (s.deliverAll fs).overflowsOn raw)
    (hcard : ((raws.filterMap numberedFrame).map Prod.fst).toFinset.card < 2 ^ 32)
    (hfs : fs <+: raws) :
    ∃ m < 2 ^ 32, InOrder.Upto (2 ^ 32) (fs.filterMap numberedFrame) m (s.hearAll fs) := by
  have hsmall {gs : List Bytes} (hg : gs <+: raws) :
      ((gs.filterMap numberedFrame).map Prod.fst).toFinset.card < 2 ^ 32 := by
    refine lt_of_le_of_lt (Finset.card_le_card fun k hk => ?_) hcard
    rw [mem_toFinset] at hk ⊢
    exact ((hg.sublist.filterMap _).map _).subset hk
  refine (hearAll_receives hn hb (fun gs raw hg => ho gs raw (hg.trans hfs))
    fun gs raw hg x _ _ => ?_).upto (hsmall hfs)
  -- some number has not arrived
  by_contra hall
  push Not at hall
  have hsub : Finset.range (2 ^ 32) ⊆ ((gs.filterMap numberedFrame).map Prod.fst).toFinset := by
    intro k hk
    exact mem_toFinset.mpr (hall k (Finset.mem_range.mp hk))
  have hle := Finset.card_le_card hsub
  rw [Finset.card_range] at hle
  have := hsmall (((prefix_append gs [raw]).trans hg).trans hfs)
  omega

/-- Ordered delivery keeps its promise for fewer than `2 ^ 32` numbers if and only if no frame
overflows the window. -/
theorem deliversInOrder_iff (hn : s.recvDataSeq = 0) (hb : s.recvReorderBuf = [])
    (raws : List Bytes)
    (hcard : ((raws.filterMap numberedFrame).map Prod.fst).toFinset.card < 2 ^ 32) :
    DeliversInOrder s raws ↔
      Along (fun s raw => s.deliverInOrder raw) (fun s raw => ¬ s.overflowsOn raw) s raws := by
  constructor
  · intro h
    refine along_iff_each_step.mpr fun fs raw hp hover => ?_
    have hstep : s.deliverAll (fs ++ [raw]) = (s.deliverAll fs).deliverInOrder raw := by
      simp [deliverAll]
    obtain ⟨e, he, hk⟩ := exists_due_of_overflows hover
    have := h.ahead _ hp e (by rw [hstep]; exact he)
    rw [hstep] at this
    exact absurd this (by rw [hk]; exact lt_irrefl _)
  · intro h
    have ho := along_iff_each_step.mp h
    have hupto {fs : List Bytes} (hfs : fs <+: raws) := hearAll_upto hn hb ho hcard hfs
    have himpl (fs : List Bytes) := deliverAll_implements s fs
    have hnext {fs : List Bytes} {m : ℕ} (hm : m < 2 ^ 32)
        (hu : InOrder.Upto (2 ^ 32) (fs.filterMap numberedFrame) m (s.hearAll fs)) :
        (s.deliverAll fs).recvDataSeq = m := by
      rw [(himpl fs).next, hu.next, Nat.mod_eq_of_lt hm]
    refine ⟨?_, fun fs raw hp => ?_, fun fs hp => ?_, fun fs hp e he => ?_⟩
    · obtain ⟨m, -, hu⟩ := hupto prefix_rfl
      rw [deliveredNumbers, hu.delivered]
      exact pairwise_lt_range
    · obtain ⟨m, hm, hu⟩ := hupto ((prefix_append fs [raw]).trans hp)
      obtain ⟨m', hm', hu'⟩ := hupto hp
      rw [hnext hm hu, hnext hm' hu']
      refine hu.mono hu' ?_
      rw [filterMap_append]
      exact subset_append_left _ _
    · have hbound := (h.restrict hp).invariant
        (I := fun s : Session => s.recvReorderBuf.length ≤ reorderWindow)
        (fun _ _ => deliverInOrder_length_le) (by simp [hb])
      exact hbound
    · obtain ⟨m, hm, hu⟩ := hupto hp
      rw [hnext hm hu]
      rw [(himpl fs).waiting] at he
      exact ((hu.keys e.1).mp (mem_map_of_mem he)).2

/-- Two frames that arrive in the wrong order. -/
theorem swapped_frames_delivered :
    DeliversInOrder (create .lan {} {} true 7) [be32 1 ++ [5], be32 0 ++ [6]] := by
  refine (deliversInOrder_iff rfl rfl _ (by decide +kernel)).mpr ⟨?_, ?_, trivial⟩
  · rintro ⟨-, -, h⟩
    exact absurd h (by decide +kernel)
  · rintro ⟨-, h, -⟩
    exact absurd h (by decide +kernel)

/-- The first frame is lost and 65 others arrive. -/
def lostFirstFrame : List Bytes := (List.range 65).map fun i => be32 (i + 1)

theorem due_frame_left_waiting :
    ((lostFirstFrame.filterMap numberedFrame).map Prod.fst).toFinset.card < 2 ^ 32 ∧
      ¬ DeliversInOrder (create .lan {} {} true 7) lostFirstFrame := by
  refine ⟨by decide +kernel, fun h => ?_⟩
  have hmem : (1, []) ∈ ((create .lan {} {} true 7).deliverAll lostFirstFrame).recvReorderBuf := by
    decide +kernel
  have := h.ahead lostFirstFrame prefix_rfl _ hmem
  exact absurd this (by decide +kernel)

/-! ### The sender -/

section sender

variable (env : Env)

def framesOf (s : Session) : List Bytes → List Bytes
  | [] => []
  | p :: ps => (s.numberFrame p).1 :: (s.sendOnStrand env p).framesOf ps

structure SameNumbering (s t : Session) : Prop where
  cfg : t.cfg = s.cfg
  transport : t.nominatedTransport = s.nominatedTransport
  seq : t.sendDataSeq = s.sendDataSeq

theorem ensureRemoteCid_sameNumbering {ep : Endpoint} :
    SameNumbering s (s.ensureRemoteCid env ep).2 := by
  unfold ensureRemoteCid
  split_ifs
  · exact ⟨rfl, rfl, rfl⟩
  · split
    · exact ⟨rfl, rfl, rfl⟩
    · dsimp only
      split_ifs <;> exact ⟨rfl, rfl, rfl⟩

private theorem carrierSend_sameNumbering (tcp : Bool) (cid : Cid) (p : Payload) (s : Session) :
    SameNumbering s (s.carrierSend tcp cid p) := by
  unfold carrierSend
  split_ifs <;> exact ⟨rfl, rfl, rfl⟩

private theorem sendOnStrand_sameNumbering (buf : Bytes) (s : Session) :
    SameNumbering (s.numberFrame buf).2 (s.sendOnStrand env buf) := by
  have hroute : SameNumbering (s.numberFrame buf).2
      ((s.numberFrame buf).2.nominatedRoute env).2 := by
    unfold nominatedRoute
    split_ifs
    · exact ensureRemoteCid_sameNumbering env
    · exact ⟨rfl, rfl, rfl⟩
  unfold sendOnStrand
  dsimp only
  split_ifs
  · exact ⟨rfl, rfl, rfl⟩
  · exact hroute
  · have h := carrierSend_sameNumbering (transportIsTcp s.nominatedTransport)
      ((s.numberFrame buf).2.nominatedRoute env).1 (.raw (s.numberFrame buf).1)
      { ((s.numberFrame buf).2.nominatedRoute env).2 with
        nominatedCid := ((s.numberFrame buf).2.nominatedRoute env).1 }
    exact ⟨h.cfg.trans hroute.cfg, h.transport.trans hroute.transport, h.seq.trans hroute.seq⟩

/-- On UDP the frames are numbered one after the other. -/
theorem framesOf_eq {ps : List Bytes} (k : ℕ) (ho : s.cfg.orderedDelivery = true)
    (ht : transportIsTcp s.nominatedTransport = false) (hk : s.sendDataSeq = k % 2 ^ 32) :
    s.framesOf env ps = (ps.zipIdx k).map fun x => be32 x.2 ++ x.1 := by
  induction ps generalizing s k with
  | nil => rfl
  | cons p ps ih =>
    have hnum : s.numberFrame p =
        (be32 s.sendDataSeq ++ p, { s with sendDataSeq := (s.sendDataSeq + 1) % 2 ^ 32 }) := by
      simp [numberFrame, ho, ht]
    have hsame := sendOnStrand_sameNumbering env p s
    rw [hnum] at hsame
    have hseq : (s.sendOnStrand env p).sendDataSeq = (k + 1) % 2 ^ 32 := by
      rw [hsame.seq]
      dsimp only
      rw [hk, Nat.mod_add_mod]
    rw [framesOf, hnum, zipIdx_cons, map_cons,
      ih (k + 1) (by rw [hsame.cfg]; exact ho) (by rw [hsame.transport]; exact ht) hseq, hk,
        be32_mod]

end sender

/-! ### Both halves together -/

theorem deliverInOrder_due {k : ℕ} (hb : s.recvReorderBuf = [])
    (hk : s.recvDataSeq = k % 2 ^ 32) (p : Bytes) :
    s.deliverInOrder (be32 k ++ p) =
      ({ s with recvDataSeq := (s.recvDataSeq + 1) % 2 ^ 32 } : Session).emit (.onData p) := by
  have hseq : read32 (be32 k ++ p) = s.recvDataSeq := by rw [read32_be32, hk]
  unfold deliverInOrder
  rw [if_neg (by simp)]
  simp only [hseq, lt_irrefl, if_false, if_true, hb]
  rfl

theorem deliverAll_inSequence (ps : List Bytes) (k : ℕ)
    (hb : s.recvReorderBuf = []) (hk : s.recvDataSeq = k % 2 ^ 32) (hn : k + ps.length ≤ 2 ^ 32) :
    let t := s.deliverAll ((ps.zipIdx k).map fun x => be32 x.2 ++ x.1)
    t.recvReorderBuf = [] ∧ t.recvDataSeq = (k + ps.length) % 2 ^ 32 ∧
      t.log = (ps.map Effect.onData).reverse ++ s.log := by
  induction ps generalizing s k with
  | nil => exact ⟨hb, hk, rfl⟩
  | cons p ps ih =>
    simp only [length_cons] at hn
    have hlt : k < 2 ^ 32 := by omega
    have hstep := deliverInOrder_due hb hk p
    obtain ⟨h₁, h₂, h₃⟩ := ih (s := s.deliverInOrder (be32 k ++ p)) (k + 1)
      (by rw [hstep]; exact hb) (by rw [hstep, hk, Nat.mod_eq_of_lt hlt]; rfl) (by omega)
    refine ⟨h₁, ?_, ?_⟩
    · rw [length_cons, Nat.add_comm ps.length, ← Nat.add_assoc]
      exact h₂
    · rw [map_cons, reverse_cons, append_assoc]
      refine h₃.trans ?_
      rw [hstep]
      rfl

theorem map_snd_eq {ds : List (ℕ × Bytes)} {ps : List Bytes}
    (hfst : ds.map Prod.fst = List.range ps.length) (hmem : ∀ x ∈ ds, ps[x.1]? = some x.2) :
    ds.map Prod.snd = ps := by
  have hlen : ds.length = ps.length := by simpa using congrArg List.length hfst
  refine ext_getElem (by simpa using hlen) fun i hi hp => ?_
  have hi' : i < ds.length := by simpa using hi
  have hk : ds[i].1 = i := by
    have := getElem_of_eq hfst (i := i) (by simpa using hi')
    simpa using this
  have := hmem ds[i] (getElem_mem hi')
  rw [hk, List.getElem?_eq_getElem hp] at this
  simpa using (Option.some.inj this).symm

section roundTrip

variable (env : Env) {a b : Session} {ps arrivals : List Bytes}

theorem mem_framesOf (ho : a.cfg.orderedDelivery = true)
    (ht : transportIsTcp a.nominatedTransport = false) (hs : a.sendDataSeq = 0) {f : Bytes} :
    f ∈ a.framesOf env ps ↔ ∃ k p, ps[k]? = some p ∧ f = be32 k ++ p := by
  rw [framesOf_eq env 0 ho ht hs]
  simp only [mem_map, Prod.exists, mem_zipIdx_iff_getElem?]
  constructor
  · rintro ⟨p, k, hk, rfl⟩
    exact ⟨k, p, hk, rfl⟩
  · rintro ⟨k, p, hk, rfl⟩
    exact ⟨p, k, hk, rfl⟩

/-- Ordered delivery hands on what was sent, once and in order, for up to `2 ^ 32` payloads: the
frames arrive in any order and any number of times, with at most 63 of them waiting, and if the
numbers are used up, the first one does not arrive again after all have arrived. -/
theorem deliverAll_framesOf (ho : a.cfg.orderedDelivery = true)
    (ht : transportIsTcp a.nominatedTransport = false) (hs : a.sendDataSeq = 0)
    (hr : b.recvDataSeq = 0) (hb : b.recvReorderBuf = []) (hn : ps.length ≤ 2 ^ 32)
    (hfrom : ∀ f ∈ arrivals, f ∈ a.framesOf env ps) (hall : ∀ f ∈ a.framesOf env ps, f ∈ arrivals)
    (hwin : ∀ fs, fs <+: arrivals → (b.deliverAll fs).recvReorderBuf.length ≤ 63)
    (hlate : ps.length = 2 ^ 32 → ∀ fs f, fs ++ [f] <+: arrivals →
      (a.framesOf env ps).head? = some f → ∃ g ∈ a.framesOf env ps, g ∉ fs) :
    (b.deliverAll arrivals).log = (ps.map Effect.onData).reverse ++ b.log := by
  have hmem {f : Bytes} : f ∈ a.framesOf env ps ↔ ∃ k p, ps[k]? = some p ∧ f = be32 k ++ p :=
    mem_framesOf env ho ht hs
  have hlt {k : ℕ} {p : Bytes} (h : ps[k]? = some p) : k < ps.length :=
    (List.getElem?_eq_some_iff.mp h).1
  -- what a frame is numbered with, and the frame that has a number
  have hframe {f : Bytes} (hf : f ∈ arrivals) :
      ∃ k p, ps[k]? = some p ∧ f = be32 k ++ p ∧ numberedFrame f = some (k, p) := by
    obtain ⟨k, p, hk, rfl⟩ := hmem.mp (hfrom f hf)
    have hsmall : k < 2 ^ 32 := (hlt hk).trans_le hn
    exact ⟨k, p, hk, rfl, by rw [numberedFrame_be32, Nat.mod_eq_of_lt hsmall]⟩
  have hkey {fs : List Bytes} (hfs : fs <+: arrivals) {x : ℕ × Bytes}
      (hx : x ∈ fs.filterMap numberedFrame) : ps[x.1]? = some x.2 ∧ be32 x.1 ++ x.2 ∈ fs := by
    obtain ⟨f, hf, hfx⟩ := mem_filterMap.mp hx
    obtain ⟨k, p, hk, hfe, hnum⟩ := hframe (hfs.subset hf)
    obtain rfl := Option.some.inj (hnum.symm.trans hfx)
    exact ⟨hk, hfe ▸ hf⟩
  have hrec : (b.hearAll arrivals).Receives (2 ^ 32) (arrivals.filterMap numberedFrame) := by
    refine hearAll_receives hr hb (fun fs f hp hover => ?_) fun fs f hp x hx h0 => ?_
    · have := hwin fs ((prefix_append fs [f]).trans hp)
      have : 64 ≤ (b.deliverAll fs).recvReorderBuf.length := hover.2.2
      omega
    · have hfs : fs <+: arrivals := (prefix_append fs [f]).trans hp
      rcases hn.lt_or_eq with hn | hn
      · refine ⟨ps.length, hn, fun hin => ?_⟩
        obtain ⟨x, hx, hxk⟩ := mem_map.mp hin
        exact absurd (hlt (hkey hfs hx).1) (by omega)
      · have hf : f ∈ arrivals := hp.subset (by simp)
        obtain ⟨k, p, hk, rfl, hnum⟩ := hframe hf
        obtain rfl := Option.some.inj (hnum.symm.trans hx)
        obtain rfl : k = 0 := h0
        have hhead : (a.framesOf env ps).head? = some (be32 0 ++ p) := by
          rw [framesOf_eq env 0 ho ht hs, List.head?_map, List.head?_eq_getElem?,
            List.getElem?_zipIdx, hk]
          rfl
        obtain ⟨g, hg, hgs⟩ := hlate hn fs _ hp hhead
        obtain ⟨j, q, hj, rfl⟩ := hmem.mp hg
        refine ⟨j, by have := hlt hj; omega, fun hin => ?_⟩
        obtain ⟨x, hx, rfl⟩ := mem_map.mp hin
        obtain ⟨hx₁, hx₂⟩ := hkey hfs hx
        rw [Option.some.inj (hx₁.symm.trans hj)] at hx₂
        exact hgs hx₂
  have hkeys (k : ℕ) :
      k ∈ (arrivals.filterMap numberedFrame).map Prod.fst ↔ k < ps.length := by
    constructor
    · intro hin
      obtain ⟨x, hx, rfl⟩ := mem_map.mp hin
      exact hlt (hkey prefix_rfl hx).1
    · intro hk
      have hf := hmem.mpr ⟨k, ps[k], List.getElem?_eq_getElem hk, rfl⟩
      refine mem_map.mpr ⟨(k, ps[k]), mem_filterMap.mpr ⟨_, hall _ hf, ?_⟩, rfl⟩
      rw [numberedFrame_be32, Nat.mod_eq_of_lt (hk.trans_le hn)]
  obtain ⟨hfst, hdel⟩ := hrec.delivered hn hkeys
  have himpl := (deliverAll_implements b arrivals).log
  have hsnd := map_snd_eq hfst fun x hx => (hkey prefix_rfl (hdel x hx)).1
  rw [himpl, ← hsnd, map_map]
  rfl

def freshOrdered : Session := create .lan { orderedDelivery := true } {} true 7

theorem swapped_payloads_delivered :
    (freshOrdered.deliverAll [be32 1 ++ [5], be32 0 ++ [6], be32 1 ++ [5]]).log =
      [.onData [5], .onData [6]] := by
  have hsent : freshOrdered.framesOf .lan [[6], [5]] = [be32 0 ++ [6], be32 1 ++ [5]] := by
    decide +kernel
  have hlen : ([[6], [5]] : List Bytes).length ≤ 2 ^ 32 := by decide +kernel
  refine deliverAll_framesOf .lan (a := freshOrdered) (b := freshOrdered) rfl rfl rfl rfl rfl hlen
    ?_ ?_ ?_ (fun h => ?_)
  · rw [hsent]
    decide +kernel
  · rw [hsent]
    decide +kernel
  · intro fs hfs
    obtain ⟨n, hn, rfl⟩ : ∃ n < 4, fs = [be32 1 ++ [5], be32 0 ++ [6], be32 1 ++ [5]].take n :=
      ⟨fs.length, by have := hfs.length_le; simp at this; omega, prefix_iff_eq_take.mp hfs⟩
    revert n
    decide +kernel
  · simp at h

/-- When the numbers are used up, a copy of the first frame passes for a new one. -/
theorem first_frame_again {p : Bytes} (ho : a.cfg.orderedDelivery = true)
    (ht : transportIsTcp a.nominatedTransport = false) (hs : a.sendDataSeq = 0)
    (hr : b.recvDataSeq = 0) (hb : b.recvReorderBuf = []) (hn : ps.length = 2 ^ 32)
    (hp : ps[0]? = some p) :
    be32 0 ++ p ∈ a.framesOf env ps ∧
      (∀ fs, fs <+: a.framesOf env ps ++ [be32 0 ++ p] →
        (b.deliverAll fs).recvReorderBuf.length ≤ 63) ∧
      (b.deliverAll (a.framesOf env ps ++ [be32 0 ++ p])).log =
        .onData p :: ((ps.map Effect.onData).reverse ++ b.log) := by
  have hframes : a.framesOf env ps = (ps.zipIdx 0).map fun x => be32 x.2 ++ x.1 :=
    framesOf_eq env 0 ho ht hs
  have htake (n : ℕ) : (a.framesOf env ps).take n =
      ((ps.take n).zipIdx 0).map fun x => be32 x.2 ++ x.1 := by
    rw [hframes, ← map_take]
    congr 1
    ext1 i
    rw [List.getElem?_take, List.getElem?_zipIdx, List.getElem?_zipIdx, List.getElem?_take]
    split_ifs <;> rfl
  have hrun (n : ℕ) : (b.deliverAll ((a.framesOf env ps).take n)).recvReorderBuf = [] := by
    have hle := length_take_le' n ps
    rw [htake]
    exact (deliverAll_inSequence _ 0 hb (by rw [hr, Nat.zero_mod]) (by omega)).1
  have hall := deliverAll_inSequence ps 0 hb (by rw [hr, Nat.zero_mod]) (by omega)
  rw [← hframes, Nat.zero_add, hn, Nat.mod_self] at hall
  obtain ⟨hbuf, hseq, hlog⟩ := hall
  have hlast : b.deliverAll (a.framesOf env ps ++ [be32 0 ++ p]) =
      (b.deliverAll (a.framesOf env ps)).deliverInOrder (be32 0 ++ p) := by
    simp [deliverAll]
  have hagain := deliverAll_inSequence [p] 0 hbuf (by rw [hseq, Nat.zero_mod]) (by simp)
  obtain ⟨hbuf', -, hlog'⟩ := hagain
  refine ⟨(mem_framesOf env ho ht hs).mpr ⟨0, p, hp, rfl⟩, fun fs hfs => ?_, ?_⟩
  · rcases prefix_concat_iff.mp hfs with rfl | hfs
    · rw [hlast]
      exact (congrArg List.length hbuf').le.trans (Nat.zero_le 63)
    · rw [prefix_iff_eq_take.mp hfs, hrun]
      exact Nat.zero_le 63
  · rw [hlast, ← hlog]
    exact hlog'

/-- As many empty payloads as there are numbers arrive in order, and then the first one again. -/
theorem first_frame_delivered_twice :
    let payloads : List Bytes := List.replicate (2 ^ 32) []
    let frames := freshOrdered.framesOf .lan payloads
    let arrivals := frames ++ [be32 0]
    payloads.length ≤ 2 ^ 32 ∧ (∀ f ∈ arrivals, f ∈ frames) ∧ (∀ f ∈ frames, f ∈ arrivals) ∧
      (∀ fs, fs <+: arrivals → (freshOrdered.deliverAll fs).recvReorderBuf.length ≤ 63) ∧
      (freshOrdered.deliverAll arrivals).log ≠
        (payloads.map Effect.onData).reverse ++ freshOrdered.log := by
  intro payloads frames arrivals
  have hlen : payloads.length = 2 ^ 32 := length_replicate
  have hzero : payloads[0]? = some [] := List.getElem?_replicate_of_lt (Nat.two_pow_pos 32)
  clear_value payloads
  obtain ⟨hmem, hwin, hlog⟩ := first_frame_again .lan (a := freshOrdered)
    (b := freshOrdered) rfl rfl rfl rfl rfl hlen hzero
  refine ⟨hlen.le, fun f hf => ?_, fun f hf => mem_append_left _ hf, hwin, fun h => ?_⟩
  · rcases mem_append.mp hf with hf | hf
    · exact hf
    · rw [mem_singleton.mp hf]
      exact hmem
  · have hlen' := congrArg List.length (hlog.symm.trans h)
    rw [length_cons] at hlen'
    omega

end roundTrip

end Session

end LinkIce
