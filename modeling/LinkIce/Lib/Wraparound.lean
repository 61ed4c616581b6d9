import LinkIce.Lib.InOrder
import Mathlib.Data.List.Perm.Basic

/-! A receiver that counts modulo `M`, beside one whose numbers do not wrap round. The two agree
for as long as no frame overtakes one of an earlier lap of the count. -/
namespace LinkIce.InOrder

open List

variable {α : Type*} {M N W D base : ℕ} {i j : ℕ}

def lap (M base i : ℕ) : ℕ := (base + i) / M

/-- The `i`-th frame under the number it is sent with. -/
def onWire (M base : ℕ) (x : ℕ × α) : ℕ × α := ((base + x.1) % M, x.2)

theorem lap_mono (h : i ≤ j) : lap M base i ≤ lap M base j :=
  Nat.div_le_div_right (Nat.add_le_add_left h base)

/-- Within a lap the numbers are ordered as the frames are. -/
theorem mod_lt_mod_iff (h : lap M base i = lap M base j) :
    (base + i) % M < (base + j) % M ↔ i < j := by
  have hi := Nat.div_add_mod (base + i) M
  have hj := Nat.div_add_mod (base + j) M
  unfold lap at h
  rw [h] at hi
  omega

theorem mod_eq_mod_iff (h : lap M base i = lap M base j) :
    (base + i) % M = (base + j) % M ↔ i = j := by
  have hij := mod_lt_mod_iff h
  have hji := mod_lt_mod_iff h.symm
  omega

theorem mod_lt_mod_of_lap_lt (h : lap M base i < lap M base j) (hd : j < i + M) :
    (base + j) % M < (base + i) % M := by
  have hi := Nat.div_add_mod (base + i) M
  have hj := Nat.div_add_mod (base + j) M
  have hlap : M * ((base + i) / M + 1) ≤ M * ((base + j) / M) := Nat.mul_le_mul_left M h
  rw [Nat.mul_add, Nat.mul_one] at hlap
  omega

theorem store_map_onWire {x : ℕ × α} {ys : List (ℕ × α)}
    (h : ∀ y ∈ ys, lap M base x.1 = lap M base y.1) :
    store (onWire M base x) (ys.map (onWire M base)) = (store x ys).map (onWire M base) := by
  induction ys with
  | nil => rfl
  | cons y ys ih =>
    have hy := h y mem_cons_self
    have hrest := ih fun z hz => h z (mem_cons_of_mem y hz)
    have hlt : (onWire M base x).1 < (onWire M base y).1 ↔ x.1 < y.1 := mod_lt_mod_iff hy
    have heq : (onWire M base x).1 = (onWire M base y).1 ↔ x.1 = y.1 := mod_eq_mod_iff hy
    simp only [map_cons, store, hlt, heq]
    split_ifs
    · rfl
    · rfl
    · rw [map_cons, hrest]

/-- `r` counts modulo `M` what `a` counts without an end; what waits is of the present lap. -/
structure Wraps (M base : ℕ) (r a : InOrder α) : Prop where
  next : r.next = (base + a.next) % M
  waiting : r.waiting = a.waiting.map (onWire M base)
  delivered : r.delivered = a.delivered.map (onWire M base)
  lap : ∀ x ∈ a.waiting, lap M base x.1 = lap M base a.next
  ahead : ∀ x ∈ a.waiting, a.next ≤ x.1

namespace Wraps

variable {r a : InOrder α} {x : ℕ × α}

theorem init (M base : ℕ) : Wraps M base ⟨base % M, [], []⟩ (⟨0, [], []⟩ : InOrder α) :=
  ⟨rfl, rfl, rfl, nofun, nofun⟩

theorem onWire_beq (h : Wraps M base r a) (hx : x ∈ a.waiting) :
    ((onWire M base x).1 == r.next) = (x.1 == a.next) := by
  rw [h.next, Bool.eq_iff_iff, beq_iff_eq, beq_iff_eq]
  exact mod_eq_mod_iff (h.lap x hx)

theorem find? (h : Wraps M base r a) :
    (r.waiting.find? fun y => y.1 == r.next) =
      (a.waiting.find? fun y => y.1 == a.next).map (onWire M base) := by
  have hmem := fun x (hx : x ∈ a.waiting) => h.onWire_beq hx
  rw [h.waiting, List.find?_map]
  congr 1
  generalize a.waiting = ys at hmem
  induction ys with
  | nil => rfl
  | cons y ys ih =>
    have hy := hmem y mem_cons_self
    rw [List.find?_cons, List.find?_cons, Function.comp_apply, hy,
      ih fun x hx => hmem x (mem_cons_of_mem y hx)]

theorem filter (h : Wraps M base r a) :
    (r.waiting.filter fun y => y.1 != r.next) =
      (a.waiting.filter fun y => y.1 != a.next).map (onWire M base) := by
  rw [h.waiting, filter_map]
  congr 1
  refine filter_congr fun x hx => ?_
  rw [Function.comp_apply, bne, bne, h.onWire_beq hx]

theorem advance (h : Wraps M base r a) (hN : a.next + 1 < N) (x : ℕ × α) {ws : List (ℕ × α)}
    (hws : ∀ y ∈ ws, y ∈ a.waiting ∧ y.1 ≠ a.next) :
    Wraps M base ⟨(r.next + 1) % M, ws.map (onWire M base), r.delivered ++ [onWire M base x]⟩
      ⟨(a.next + 1) % N, ws, a.delivered ++ [x]⟩ := by
  have hahead (y : ℕ × α) (hy : y ∈ ws) : a.next + 1 ≤ y.1 := by
    obtain ⟨hmem, hne⟩ := hws y hy
    have := h.ahead y hmem
    omega
  constructor
  · dsimp only
    rw [h.next, Nat.mod_add_mod, Nat.mod_eq_of_lt hN, Nat.add_assoc]
  · rfl
  · rw [map_append, h.delivered]
    rfl
  · intro y hy
    dsimp only
    rw [Nat.mod_eq_of_lt hN]
    apply le_antisymm
    · rw [h.lap y (hws y hy).1]
      exact lap_mono (Nat.le_succ _)
    · exact lap_mono (hahead y hy)
  · intro y hy
    dsimp only
    rw [Nat.mod_eq_of_lt hN]
    exact hahead y hy

theorem drain (fuel : ℕ) (h : Wraps M base r a) (hN : ∀ x ∈ a.waiting, x.1 + 1 < N) :
    Wraps M base (drain M fuel r) (drain N fuel a) := by
  induction fuel generalizing r a with
  | zero => exact h
  | succ fuel ih =>
    simp only [InOrder.drain, h.find?, h.filter]
    cases hfind : a.waiting.find? fun y => y.1 == a.next with
    | none => exact h
    | some y =>
      have hy := mem_of_find?_eq_some hfind
      have hyn : y.1 = a.next := by simpa using List.find?_some hfind
      have hlt : a.next + 1 < N := by rw [← hyn]; exact hN y hy
      have hws (z : ℕ × α) (hz : z ∈ a.waiting.filter fun y => y.1 != a.next) :
          z ∈ a.waiting ∧ z.1 ≠ a.next := by simpa using hz
      exact ih (h.advance hlt y hws) fun z hz => hN z (hws z hz).1

/-- One frame of the present lap. -/
theorem receive (h : Wraps M base r a) (hgap : ∀ y ∈ a.waiting, y.1 ≠ a.next)
    (hN : ∀ y ∈ a.waiting, y.1 + 1 < N) (hx : x.1 + 1 < N) (hle : a.next ≤ x.1)
    (hlap : InOrder.lap M base x.1 = InOrder.lap M base a.next) (hW : a.waiting.length < W) :
    Wraps M base (r.receive M W (onWire M base x)) (a.receive N W x) := by
  have hlt : (onWire M base x).1 < r.next ↔ x.1 < a.next := by
    rw [h.next]
    exact mod_lt_mod_iff hlap
  have heq : (onWire M base x).1 = r.next ↔ x.1 = a.next := by
    rw [h.next]
    exact mod_eq_mod_iff hlap
  have hlen : r.waiting.length = a.waiting.length := by rw [h.waiting, length_map]
  have hold : ¬ x.1 < a.next := Nat.not_lt.mpr hle
  unfold InOrder.receive
  rw [if_neg (hlt.not.mpr hold), if_neg hold]
  by_cases hdue : x.1 = a.next
  · rw [if_pos (heq.mpr hdue), if_pos hdue, hlen, h.waiting]
    exact drain _ (h.advance (hdue ▸ hx) x fun y hy => ⟨hy, hgap y hy⟩) hN
  · have hroom : ¬ W ≤ a.waiting.length := Nat.not_le.mpr hW
    rw [if_neg (heq.not.mpr hdue), if_neg hdue, hlen, if_neg hroom, if_neg hroom]
    constructor
    · exact h.next
    · dsimp only
      rw [h.waiting]
      exact store_map_onWire fun y hy => hlap.trans (h.lap y hy).symm
    · exact h.delivered
    · intro y hy
      rcases mem_store hy with rfl | hy
      · exact hlap
      · exact h.lap y hy
    · intro y hy
      rcases mem_store hy with rfl | hy
      · exact hle
      · exact h.ahead y hy

end Wraps

/-! ### How many frames can have been handed on -/

def kept (r : InOrder α) : ℕ := r.delivered.length + r.waiting.length

theorem kept_drain_le (M fuel : ℕ) (r : InOrder α) : (drain M fuel r).kept ≤ r.kept := by
  induction fuel generalizing r with
  | zero => exact le_rfl
  | succ fuel ih =>
    simp only [drain]
    cases hfind : r.waiting.find? fun y => y.1 == r.next with
    | none => exact le_rfl
    | some y =>
      have hlt : (r.waiting.filter fun y => y.1 != r.next).length < r.waiting.length :=
        length_filter_lt_length_iff_exists.mpr
          ⟨y, mem_of_find?_eq_some hfind, by simpa using List.find?_some hfind⟩
      refine (ih _).trans ?_
      simp only [kept, length_append, length_singleton]
      omega

theorem kept_receive_le (r : InOrder α) (x : ℕ × α) : (r.receive M W x).kept ≤ r.kept + 1 := by
  unfold receive
  split_ifs
  · exact Nat.le_succ _
  · refine (kept_drain_le _ _ _).trans ?_
    simp only [kept, length_append, length_singleton]
    omega
  all_goals
    have := length_store_le x r.waiting
    simp only [kept]
    omega

theorem kept_receives_le (xs : List (ℕ × α)) (r : InOrder α) :
    (xs.foldl (receive M W) r).kept ≤ r.kept + xs.length := by
  induction xs generalizing r with
  | nil => exact le_rfl
  | cons x xs ih =>
    have h := ih (r.receive M W x)
    have hx := kept_receive_le (M := M) (W := W) r x
    simp only [foldl_cons, length_cons]
    omega

/-! ### A rearranged sequence -/

/-- The first `n` frames in an order in which each is less than `D` places from its own. -/
structure Rearranged (D n : ℕ) (xs : List (ℕ × α)) : Prop where
  perm : (xs.map Prod.fst).Perm (List.range n)
  displaced : ∀ k x, xs[k]? = some x → x.1 < k + D ∧ k < x.1 + D

namespace Rearranged

variable {n : ℕ} {fs gs xs : List (ℕ × α)} {x : ℕ × α}

theorem length (h : Rearranged D n xs) : xs.length = n := by simpa using h.perm.length_eq

theorem nodup (h : Rearranged D n xs) : (xs.map Prod.fst).Nodup :=
  h.perm.nodup_iff.mpr nodup_range

theorem mem_iff (h : Rearranged D n xs) : i ∈ xs.map Prod.fst ↔ i < n :=
  h.perm.mem_iff.trans mem_range

theorem notMem_of_mem (h : Rearranged D n (fs ++ gs)) (hx : x ∈ gs) : x.1 ∉ fs.map Prod.fst := by
  have hd := h.nodup
  rw [map_append] at hd
  exact fun hin => disjoint_of_nodup_append hd hin (mem_map_of_mem hx)

theorem exists_mem (h : Rearranged D n (fs ++ gs)) (hi : i < n) (hfs : i ∉ fs.map Prod.fst) :
    ∃ x ∈ gs, x.1 = i := by
  have hin := h.mem_iff.mpr hi
  rw [map_append, mem_append] at hin
  exact mem_map.mp (hin.resolve_left hfs)

theorem length_lt (h : Rearranged D n (fs ++ gs)) (hx : x ∈ gs) : fs.length < x.1 + D := by
  obtain ⟨k, hk, rfl⟩ := mem_iff_getElem.mp hx
  have hget : (fs ++ gs)[fs.length + k]? = some gs[k] := by
    rw [List.getElem?_append_right (Nat.le_add_right _ _), Nat.add_sub_cancel_left,
      List.getElem?_eq_getElem hk]
  have := (h.displaced _ _ hget).2
  omega

theorem head_lt (h : Rearranged D n (fs ++ x :: gs)) : x.1 < fs.length + D :=
  (h.displaced fs.length x (by simp)).1

end Rearranged

/-- After the frames `fs`: what was numbered before the first gap has been handed on, and the
rest of what arrived waits. -/
def Follows (M base n : ℕ) (fs : List (ℕ × α)) (r : InOrder α) : Prop :=
  ∃ m a, Upto (n + 1) fs m a ∧ Wraps M base r a ∧ a.kept ≤ fs.length

namespace Follows

variable {n : ℕ} {fs gs : List (ℕ × α)} {r : InOrder α} {x : ℕ × α}

theorem init (M base n : ℕ) : Follows M base n [] (⟨base % M, [], []⟩ : InOrder α) :=
  ⟨0, ⟨0, [], []⟩, .init (Nat.succ_pos n) rfl rfl rfl, .init M base, le_rfl⟩

theorem kept_le (h : Follows M base n fs r) : r.kept ≤ fs.length := by
  obtain ⟨m, a, -, hw, hk⟩ := h
  rw [kept, hw.delivered, hw.waiting, length_map, length_map]
  exact hk

/-- A frame that overtakes none of an earlier lap. -/
theorem receive (h : Follows M base n fs r) (hxs : Rearranged D n (fs ++ x :: gs)) (hD : D ≤ W)
    (hlap : ∀ y ∈ gs, lap M base x.1 ≤ lap M base y.1) :
    Follows M base n (fs ++ [x]) (r.receive M W (onWire M base x)) := by
  obtain ⟨m, a, hu, hw, hk⟩ := h
  have hnew : x.1 ∉ fs.map Prod.fst := hxs.notMem_of_mem mem_cons_self
  have hxn : x.1 < n := hxs.mem_iff.mp (by simp)
  have hmx : m ≤ x.1 := by
    by_contra hlt
    exact hnew (hu.mem_of_lt (Nat.lt_of_not_le hlt))
  have hnext : a.next = m := hu.next.trans (Nat.mod_eq_of_lt (by omega))
  obtain ⟨y, hy, hym⟩ := hxs.exists_mem (lt_of_le_of_lt hmx hxn) hu.gap
  -- the first gap is in the lap of the frame
  have hsame : lap M base x.1 = lap M base a.next := by
    rw [hnext]
    refine le_antisymm ?_ (lap_mono hmx)
    rcases mem_cons.mp hy with rfl | hy
    · exact (congrArg (lap M base) hym).le
    · exact hym ▸ hlap y hy
  -- and fewer than `D` frames wait behind it
  have hwait : a.waiting.length < D := by
    have hlen := congrArg List.length hu.delivered
    have hpos := hxs.length_lt hy
    rw [length_map, length_range] at hlen
    unfold kept at hk
    omega
  have hfsn {i : ℕ} (hi : i ∈ (fs ++ [x]).map Prod.fst) : i < n := by
    refine hxs.mem_iff.mp ?_
    simp only [map_append, map_cons, mem_append, mem_cons] at hi ⊢
    tauto
  have hwn (z : ℕ × α) (hz : z ∈ a.waiting) : m < z.1 ∧ z.1 < n := by
    obtain ⟨hin, hlt⟩ := (hu.keys z.1).mp (mem_map_of_mem hz)
    exact ⟨hlt, hfsn (by simp [mem_map.mp hin])⟩
  obtain ⟨m', hu'⟩ := hu.receive (W := W) (x := x) (by omega)
    (fun i hi => (hfsn hi).trans (Nat.lt_succ_self n)) fun ho => by
      have := ho.2
      omega
  refine ⟨m', a.receive (n + 1) W x, hu', hw.receive ?_ ?_ (by omega) (hnext ▸ hmx) hsame
    (by omega), ?_⟩
  · intro z hz
    have := (hwn z hz).1
    omega
  · intro z hz
    have := (hwn z hz).2
    omega
  · have := kept_receive_le (M := n + 1) (W := W) a x
    simp only [length_append, length_singleton]
    omega

theorem drops (h : Follows M base n fs r) (hxs : Rearranged D n (fs ++ x :: gs))
    (hM : 2 * D ≤ M) {y : ℕ × α} (hy : y ∈ gs) (hlap : lap M base y.1 < lap M base x.1) :
    r.receive M W (onWire M base x) = r := by
  obtain ⟨m, a, hu, hw, -⟩ := h
  have hmy : m ≤ y.1 := by
    by_contra hlt
    exact hxs.notMem_of_mem (mem_cons_of_mem x hy) (hu.mem_of_lt (Nat.lt_of_not_le hlt))
  have hyn : y.1 < n := hxs.mem_iff.mp (mem_map_of_mem (by simp [hy]))
  have hnext : a.next = m := hu.next.trans (Nat.mod_eq_of_lt (by omega))
  obtain ⟨z, hz, hzm⟩ := hxs.exists_mem (lt_of_le_of_lt hmy hyn) hu.gap
  have hlate := hxs.length_lt hz
  have hearly := hxs.head_lt
  have hold : (onWire M base x).1 < r.next := by
    rw [hw.next, hnext]
    exact mod_lt_mod_of_lap_lt (lt_of_le_of_lt (lap_mono hmy) hlap) (by omega)
  unfold InOrder.receive
  rw [if_pos hold]

theorem delivered (h : Follows M base n fs r) (hxs : Rearranged D n fs) :
    ∃ ds : List (ℕ × α), r.delivered = ds.map (onWire M base) ∧
      ds.map Prod.fst = List.range n ∧ ∀ x ∈ ds, x ∈ fs := by
  obtain ⟨m, a, hu, hw, -⟩ := h
  have hmn : m = n := by
    apply le_antisymm
    · by_contra hlt
      exact absurd (hxs.mem_iff.mp (hu.mem_of_lt (Nat.lt_of_not_le hlt))) (lt_irrefl n)
    · by_contra hlt
      exact hu.gap (hxs.mem_iff.mpr (Nat.lt_of_not_le hlt))
  exact ⟨a.delivered, hw.delivered, hmn ▸ hu.delivered,
    fun x hx => hu.mem x (mem_append_left _ hx)⟩

end Follows

/-- No frame overtakes one of an earlier lap. -/
def LapByLap (M base : ℕ) (xs : List (ℕ × α)) : Prop :=
  xs.Pairwise fun x y => lap M base x.1 ≤ lap M base y.1

section rearranged

variable {n : ℕ} {fs gs : List (ℕ × α)} {r : InOrder α}

theorem Follows.receives (h : Follows M base n fs r) (hxs : Rearranged D n (fs ++ gs)) (hD : D ≤ W)
    (hgs : LapByLap M base gs) :
    Follows M base n (fs ++ gs) ((gs.map (onWire M base)).foldl (InOrder.receive M W) r) := by
  induction gs generalizing fs r with
  | nil => simpa using h
  | cons x gs ih =>
    obtain ⟨hx, hgs⟩ := pairwise_cons.mp hgs
    have hstep := h.receive hxs hD hx
    rw [append_cons] at hxs ⊢
    exact ih hstep hxs hgs

theorem Follows.kept_lt (h : Follows M base n fs r) (hxs : Rearranged D n (fs ++ gs)) (hD : D ≤ W)
    (hM : 2 * D ≤ M) (hgs : ¬ LapByLap M base gs) :
    ((gs.map (onWire M base)).foldl (InOrder.receive M W) r).kept < n := by
  induction gs generalizing fs r with
  | nil => exact absurd List.Pairwise.nil hgs
  | cons x gs ih =>
    rw [map_cons, foldl_cons]
    by_cases hx : ∀ y ∈ gs, lap M base x.1 ≤ lap M base y.1
    · have hrest : ¬ LapByLap M base gs := fun h => hgs (pairwise_cons.mpr ⟨hx, h⟩)
      have hstep := h.receive hxs hD hx
      rw [append_cons] at hxs
      exact ih hstep hxs hrest
    · push Not at hx
      obtain ⟨y, hy, hlap⟩ := hx
      rw [h.drops hxs hM hy hlap]
      have hle := kept_receives_le (M := M) (W := W) (gs.map (onWire M base)) r
      have hk := h.kept_le
      have hlen := hxs.length
      simp only [length_append, length_cons, length_map] at hlen hle
      omega

end rearranged

end LinkIce.InOrder
