import LinkIce.Lib.Wraparound
import LinkIce.Session.OrderedDelivery
import Mathlib.Data.List.FinRange
import Mathlib.GroupTheory.Perm.Basic

/-! Ordered delivery when the sequence numbers wrap round: the frames of a rearranged sequence
are handed on in order if and only if none of them overtakes a frame numbered before the wrap. -/
namespace LinkIce.Session

open List

variable {b : Session} {n base : ℕ} {ps : List Bytes}

def rearrange (frames : List Bytes) (σ : Equiv.Perm (Fin frames.length)) : List Bytes :=
  List.ofFn fun k => frames[σ k]

/-- The arrivals under their places in the sequence. -/
def placed {n : ℕ} (ps : List Bytes) (σ : Equiv.Perm (Fin n)) : List (ℕ × Bytes) :=
  List.ofFn fun k => ((σ k : ℕ), ps.getD (σ k) [])

theorem placed_rearranged {σ : Equiv.Perm (Fin n)}
    (hσ : ∀ k, (σ k : ℕ) < k + 64 ∧ (k : ℕ) < σ k + 64) :
    InOrder.Rearranged 64 n (placed ps σ) := by
  constructor
  · have hplaces : (placed ps σ).map Prod.fst = List.ofFn (Fin.val ∘ σ) := by
      rw [placed, map_ofFn]
      rfl
    rw [hplaces]
    refine (Equiv.Perm.ofFn_comp_perm σ Fin.val).trans (List.Perm.of_eq ?_)
    exact ext_getElem (by simp) (by simp)
  · intro k x hx
    obtain ⟨hk, rfl⟩ := List.getElem?_eq_some_iff.mp hx
    simpa [placed] using hσ ⟨k, by simpa [placed] using hk⟩

theorem placed_lapByLap {n : ℕ} {σ : Equiv.Perm (Fin n)} :
    InOrder.LapByLap (2 ^ 32) base (placed ps σ) ↔ Monotone fun k => (base + σ k) / 2 ^ 32 := by
  rw [InOrder.LapByLap, placed, pairwise_ofFn, monotone_iff_forall_lt]
  rfl

private theorem hearAll_placed {xs : List (ℕ × Bytes)} (hr : b.recvDataSeq = base % 2 ^ 32)
    (hb : b.recvReorderBuf = []) :
    b.hearAll (xs.map fun x => be32 (base + x.1) ++ x.2) =
      (xs.map (InOrder.onWire (2 ^ 32) base)).foldl (InOrder.receive (2 ^ 32) reorderWindow)
        ⟨base % 2 ^ 32, [], []⟩ := by
  have hstart : b.inOrder = ⟨base % 2 ^ 32, [], []⟩ := by rw [inOrder, hr, hb]
  rw [hearAll, hstart]
  generalize (⟨base % 2 ^ 32, [], []⟩ : InOrder Bytes) = r
  induction xs generalizing r with
  | nil => rfl
  | cons x xs ih =>
    have hx : r.hear (be32 (base + x.1) ++ x.2) =
        r.receive (2 ^ 32) reorderWindow (InOrder.onWire (2 ^ 32) base x) := by
      rw [InOrder.hear, numberedFrame_be32]
      rfl
    rw [map_cons, foldl_cons, hx, ih]
    rfl

theorem deliverAll_placed_iff (ps : List Bytes) (base : ℕ)
    (hr : b.recvDataSeq = base % 2 ^ 32) (hb : b.recvReorderBuf = []) (hn : n = ps.length)
    {σ : Equiv.Perm (Fin n)} (hσ : ∀ k, (σ k : ℕ) < k + 64 ∧ (k : ℕ) < σ k + 64) :
    (b.deliverAll ((placed ps σ).map fun x => be32 (base + x.1) ++ x.2)).log =
        (ps.map Effect.onData).reverse ++ b.log ↔
      InOrder.LapByLap (2 ^ 32) base (placed ps σ) := by
  subst hn
  have hxs : InOrder.Rearranged 64 ps.length ([] ++ placed ps σ) := placed_rearranged hσ
  have hstart : InOrder.Follows (2 ^ 32) base ps.length ([] : List (ℕ × Bytes))
      ⟨base % 2 ^ 32, [], []⟩ := .init (2 ^ 32) base ps.length
  rw [(deliverAll_implements b _).log, hearAll_placed hr hb]
  constructor
  · intro hlog
    by_contra hlaps
    have hlost := hstart.kept_lt (W := reorderWindow) hxs le_rfl (by decide) hlaps
    have hlen := congrArg List.length hlog
    simp only [length_append, length_reverse, length_map] at hlen
    unfold InOrder.kept at hlost
    omega
  · intro hlaps
    obtain ⟨ds, hds, hnum, hmem⟩ :=
      (hstart.receives (W := reorderWindow) hxs le_rfl hlaps).delivered hxs
    have hsnd : ds.map Prod.snd = ps := by
      refine map_snd_eq hnum fun x hx => ?_
      obtain ⟨k, rfl⟩ := mem_ofFn.mp (hmem x hx)
      simp
    rw [hds, map_map, ← hsnd, map_map]
    rfl

theorem rearrange_framesOf (env : Env) {a : Session} (ps : List Bytes) (base : ℕ)
    (ho : a.cfg.orderedDelivery = true) (ht : transportIsTcp a.nominatedTransport = false)
    (hs : a.sendDataSeq = base % 2 ^ 32) (σ : Equiv.Perm (Fin (a.framesOf env ps).length)) :
    rearrange (a.framesOf env ps) σ =
      (placed ps σ).map fun x => be32 (base + x.1) ++ x.2 := by
  have hframes : a.framesOf env ps = (ps.zipIdx base).map fun x => be32 x.2 ++ x.1 :=
    framesOf_eq env base ho ht hs
  have hget (i : ℕ) (hi : i < ps.length) :
      (a.framesOf env ps)[i]? = some (be32 (base + i) ++ ps.getD i []) := by
    rw [hframes, List.getElem?_map, List.getElem?_zipIdx, getD_eq_getElem?_getD,
      List.getElem?_eq_getElem hi]
    rfl
  rw [rearrange, placed, map_ofFn]
  refine ofFn_inj.mpr (funext fun k => ?_)
  have hk : (σ k : ℕ) < (a.framesOf env ps).length := (σ k).isLt
  have hframe := hget (σ k) (by simpa [hframes] using hk)
  rw [List.getElem?_eq_getElem hk] at hframe
  exact Option.some.inj hframe

/-- Sequence numbers survive the wrap if and only if the frames arrive lap by lap. -/
theorem delivers_across_wrap_iff (env : Env) {a b : Session} (ps : List Bytes)
    (ho : a.cfg.orderedDelivery = true) (ht : transportIsTcp a.nominatedTransport = false)
    (hr : b.recvDataSeq < 2 ^ 32) (hs : a.sendDataSeq = b.recvDataSeq)
    (hb : b.recvReorderBuf = []) (σ : Equiv.Perm (Fin (a.framesOf env ps).length))
    (hσ : ∀ k, (σ k : ℕ) < k + 64 ∧ (k : ℕ) < σ k + 64) :
    (b.deliverAll (rearrange (a.framesOf env ps) σ)).log =
        (ps.map Effect.onData).reverse ++ b.log ↔
      Monotone fun k => (b.recvDataSeq + σ k) / 2 ^ 32 := by
  have hbase : b.recvDataSeq = b.recvDataSeq % 2 ^ 32 := (Nat.mod_eq_of_lt hr).symm
  have hlen : (a.framesOf env ps).length = ps.length := by
    simp [framesOf_eq env b.recvDataSeq ho ht (hs.trans hbase)]
  rw [rearrange_framesOf env ps b.recvDataSeq ho ht (hs.trans hbase),
    deliverAll_placed_iff ps b.recvDataSeq hbase hb hlen hσ, placed_lapByLap]

/-- A sender whose next frame has the last number. -/
def lastNumber : Session := { freshOrdered with sendDataSeq := 2 ^ 32 - 1 }

/-- The last number before the wrap and the first one after it, in the order they were sent. -/
theorem last_and_first_delivered :
    (({ freshOrdered with recvDataSeq := 2 ^ 32 - 1 } : Session).deliverAll
        [be32 (2 ^ 32 - 1) ++ [5], be32 0 ++ [6]]).log = [.onData [6], .onData [5]] := by
  have h := (delivers_across_wrap_iff .lan
    (a := lastNumber) (b := { freshOrdered with recvDataSeq := 2 ^ 32 - 1 }) [[5], [6]] rfl rfl
    (by decide) rfl rfl (Equiv.refl _) (fun k => ⟨by simp, by simp⟩)).mpr ?_
  · exact h
  · intro k l hkl
    exact Nat.div_le_div_right (Nat.add_le_add_left hkl _)

def swappedPair : Equiv.Perm (Fin 2) := Equiv.swap 0 1

theorem swappedPair_displaced :
    ∀ k, (swappedPair k : ℕ) < k + 64 ∧ (k : ℕ) < swappedPair k + 64 := by decide

private theorem overtaking_lost (hr : b.recvDataSeq = 2 ^ 32 - 1) (hb : b.recvReorderBuf = []) :
    (b.deliverAll (rearrange (lastNumber.framesOf .lan [[5], [6]]) swappedPair)).log ≠
      ([[5], [6]].map Effect.onData).reverse ++ b.log := by
  intro hlog
  have hframes := rearrange_framesOf .lan (a := lastNumber) [[5], [6]] (2 ^ 32 - 1) rfl rfl rfl
    swappedPair
  have hiff := deliverAll_placed_iff (b := b) [[5], [6]] (2 ^ 32 - 1) hr hb rfl
    swappedPair_displaced
  rw [hframes] at hlog
  have hlaps := placed_lapByLap.mp (hiff.mp hlog)
  have h := hlaps (Fin.zero_le (1 : Fin 2))
  exact absurd h (by decide)

/-- After `2 ^ 32 - 1` frames the next one is overtaken by the one behind it, which is lost. -/
theorem overtaking_frame_lost :
    let b := freshOrdered.deliverAll
      (freshOrdered.framesOf .lan (List.replicate (2 ^ 32 - 1) []))
    b.recvDataSeq = 2 ^ 32 - 1 ∧ b.recvReorderBuf = [] ∧
      (∀ k, (swappedPair k : ℕ) < k + 64 ∧ (k : ℕ) < swappedPair k + 64) ∧
      (b.deliverAll (rearrange (lastNumber.framesOf .lan [[5], [6]]) swappedPair)).log ≠
        ([[5], [6]].map Effect.onData).reverse ++ b.log := by
  have hrun (ps : List Bytes) (hps : ps.length = 2 ^ 32 - 1) :
      let b := freshOrdered.deliverAll (freshOrdered.framesOf .lan ps)
      b.recvReorderBuf = [] ∧ b.recvDataSeq = (2 ^ 32 - 1) % 2 ^ 32 := by
    rw [framesOf_eq .lan 0 rfl rfl rfl]
    have h := deliverAll_inSequence (s := freshOrdered) ps 0 rfl rfl (by omega)
    rw [Nat.zero_add, hps] at h
    exact ⟨h.1, h.2.1⟩
  obtain ⟨hb, hr⟩ := hrun (List.replicate (2 ^ 32 - 1) []) length_replicate
  exact ⟨hr, hb, swappedPair_displaced, overtaking_lost hr hb⟩

end LinkIce.Session
