import Mathlib.Algebra.GroupWithZero.Nat
import Mathlib.Data.Finset.Card
import Mathlib.Data.List.Range
import Mathlib.Tactic.SplitIfs

/-! A receiver that hands numbered frames on in the order of their numbers. Numbers are counted
modulo `M`; frames ahead of a gap wait in a sorted list, and the gap is given up when `W` of
them wait. -/
namespace LinkIce

open List

structure InOrder (α : Type*) where
  next : ℕ
  waiting : List (ℕ × α)
  delivered : List (ℕ × α)

namespace InOrder

variable {α : Type*} {M W : ℕ} {fs ys : List (ℕ × α)} {m : ℕ} {r : InOrder α} {x : ℕ × α}

/-- File a frame under its number, in place of an earlier one with that number. -/
def store (x : ℕ × α) : List (ℕ × α) → List (ℕ × α)
  | [] => [x]
  | y :: rest =>
    if x.1 < y.1 then x :: y :: rest
    else if x.1 = y.1 then x :: rest
    else y :: store x rest

def drain (M : ℕ) : ℕ → InOrder α → InOrder α
  | 0, r => r
  | fuel + 1, r =>
    match r.waiting.find? fun y => y.1 == r.next with
    | none => r
    | some y => drain M fuel
        ⟨(r.next + 1) % M, r.waiting.filter fun y => y.1 != r.next, r.delivered ++ [y]⟩

def receive (M W : ℕ) (r : InOrder α) (x : ℕ × α) : InOrder α :=
  if x.1 < r.next then r
  else if x.1 = r.next then
    drain M r.waiting.length ⟨(r.next + 1) % M, r.waiting, r.delivered ++ [x]⟩
  else
    { r with
      next := if W ≤ r.waiting.length then (r.waiting.head?.map (·.1)).getD r.next else r.next
      waiting := store x r.waiting }

/-- The frame is ahead of a gap and the window is full. -/
def overflows (W : ℕ) (r : InOrder α) (x : ℕ × α) : Prop := r.next < x.1 ∧ W ≤ r.waiting.length

theorem mem_store {x y : ℕ × α} (h : y ∈ store x ys) : y = x ∨ y ∈ ys := by
  induction ys with
  | nil => exact .inl (by simpa [store] using h)
  | cons z ys ih =>
    simp only [store] at h
    split_ifs at h with hlt heq
    · simpa using h
    · rcases mem_cons.mp h with h | h
      · exact .inl h
      · exact .inr (by simp [h])
    · rcases mem_cons.mp h with rfl | h
      · exact .inr (by simp)
      · rcases ih h with h | h
        · exact .inl h
        · exact .inr (by simp [h])

theorem mem_keys_store {k : ℕ} : k ∈ (store x ys).map Prod.fst ↔ k = x.1 ∨ k ∈ ys.map Prod.fst := by
  induction ys with
  | nil => simp [store]
  | cons z ys ih =>
    simp only [store]
    split_ifs with hlt heq
    · simp
    · simp [heq]
    · simp only [map_cons, mem_cons, ih]
      exact or_left_comm

theorem length_store_le (x : ℕ × α) (ys : List (ℕ × α)) : (store x ys).length ≤ ys.length + 1 := by
  induction ys with
  | nil => simp [store]
  | cons z ys ih =>
    simp only [store]
    split_ifs
    · simp
    · simp
    · simpa using ih

theorem length_drain_le (M fuel : ℕ) (r : InOrder α) :
    (drain M fuel r).waiting.length ≤ r.waiting.length := by
  induction fuel generalizing r with
  | zero => exact le_rfl
  | succ fuel ih =>
    simp only [drain]
    split
    · exact le_rfl
    · exact (ih _).trans (length_filter_le _ _)

theorem length_receive_le (ho : ¬ r.overflows W x)
    (h : r.waiting.length ≤ W) : (r.receive M W x).waiting.length ≤ W := by
  unfold receive
  split_ifs with hlt heq
  · exact h
  · exact (length_drain_le _ _ _).trans h
  all_goals
    have hroom : ¬ W ≤ r.waiting.length := fun hw => ho ⟨by omega, hw⟩
    have := length_store_le x r.waiting
    dsimp only
    omega

/-- The frames below `m` have been handed on in order; what came of the rest waits. -/
structure Upto (M : ℕ) (fs : List (ℕ × α)) (m : ℕ) (r : InOrder α) : Prop where
  le : m ≤ M
  next : r.next = m % M
  delivered : r.delivered.map Prod.fst = List.range m
  mem : ∀ x ∈ r.delivered ++ r.waiting, x ∈ fs
  keys : ∀ k, k ∈ r.waiting.map Prod.fst ↔ k ∈ fs.map Prod.fst ∧ m < k
  gap : m ∉ fs.map Prod.fst

namespace Upto

theorem init (hM : 0 < M) (hn : r.next = 0) (hw : r.waiting = [])
    (hd : r.delivered = []) : Upto M [] 0 r :=
  ⟨hM.le, by simp [hn], by simp [hd], by simp [hw, hd], by simp [hw], by simp⟩

/-- All of the frames below `m` have arrived. -/
theorem mem_of_lt (h : Upto M fs m r) {k : ℕ} (hk : k < m) : k ∈ fs.map Prod.fst := by
  have : k ∈ r.delivered.map Prod.fst := h.delivered ▸ mem_range.mpr hk
  obtain ⟨x, hx, rfl⟩ := mem_map.mp this
  exact mem_map_of_mem (h.mem x (mem_append_left _ hx))

theorem mono {gs : List (ℕ × α)} {m' : ℕ} {r' : InOrder α} (h : Upto M fs m r)
    (h' : Upto M gs m' r') (hsub : fs ⊆ gs) : m ≤ m' := by
  by_contra hlt
  obtain ⟨y, hy, hk⟩ := mem_map.mp (h.mem_of_lt (Nat.lt_of_not_le hlt))
  exact h'.gap (hk ▸ mem_map_of_mem (hsub hy))

end Upto

/-- Between two rounds of the loop: everything from `m` on that has arrived waits. -/
structure Draining (M : ℕ) (fs : List (ℕ × α)) (m : ℕ) (r : InOrder α) : Prop where
  le : m ≤ M
  next : r.next = m % M
  delivered : r.delivered.map Prod.fst = List.range m
  mem : ∀ x ∈ r.delivered ++ r.waiting, x ∈ fs
  keys : ∀ k, k ∈ r.waiting.map Prod.fst ↔ k ∈ fs.map Prod.fst ∧ m ≤ k

namespace Draining

theorem upto (h : Draining M fs m r) (hm : m ∉ r.waiting.map Prod.fst) : Upto M fs m r := by
  have hgap : m ∉ fs.map Prod.fst := fun hin => hm ((h.keys m).mpr ⟨hin, le_rfl⟩)
  refine ⟨h.le, h.next, h.delivered, h.mem, fun k => ?_, hgap⟩
  rw [h.keys k]
  refine and_congr_right fun hk => ⟨fun hmk => ?_, le_of_lt⟩
  exact lt_of_le_of_ne hmk fun hkm => hgap (hkm ▸ hk)

theorem step (h : Draining M fs m r) (hm : m < M) {y : ℕ × α} (hy : y ∈ r.waiting) (hym : y.1 = m) :
    Draining M fs (m + 1)
      ⟨(r.next + 1) % M, r.waiting.filter fun y => y.1 != r.next, r.delivered ++ [y]⟩ := by
  have hnext : r.next = m := h.next.trans (Nat.mod_eq_of_lt hm)
  refine ⟨hm, by rw [hnext], ?_, fun x hx => ?_, fun k => ?_⟩
  · rw [map_append, h.delivered, map_singleton, hym, range_succ]
  · simp only [append_assoc, mem_append, mem_singleton, mem_filter] at hx
    rcases hx with hx | rfl | ⟨hx, -⟩
    · exact h.mem x (mem_append_left _ hx)
    · exact h.mem x (mem_append_right _ hy)
    · exact h.mem x (mem_append_right _ hx)
  · have hk := h.keys k
    simp only [mem_map, mem_filter, hnext, bne_iff_ne] at hk ⊢
    constructor
    · rintro ⟨x, ⟨hx, hne⟩, rfl⟩
      obtain ⟨hin, hle⟩ := hk.mp ⟨x, hx, rfl⟩
      exact ⟨hin, by omega⟩
    · rintro ⟨hin, hle⟩
      obtain ⟨x, hx, rfl⟩ := hk.mpr ⟨hin, by omega⟩
      exact ⟨x, ⟨hx, by omega⟩, rfl⟩

end Draining

theorem drain_upto (hfs : ∀ k ∈ fs.map Prod.fst, k < M) {fuel m : ℕ}
    (hfuel : r.waiting.length ≤ fuel) (h : Draining M fs m r) :
    ∃ m', Upto M fs m' (drain M fuel r) := by
  induction fuel generalizing r m with
  | zero =>
    have hw : r.waiting = [] := length_eq_zero_iff.mp (by omega)
    exact ⟨m, h.upto (by simp [hw])⟩
  | succ fuel ih =>
    simp only [drain]
    cases hfind : r.waiting.find? fun y => y.1 == r.next with
    | none =>
      refine ⟨m, h.upto fun hm => ?_⟩
      have hlt := hfs m ((h.keys m).mp hm).1
      obtain ⟨y, hy, hym⟩ := mem_map.mp hm
      have := List.find?_eq_none.mp hfind y hy
      rw [h.next, Nat.mod_eq_of_lt hlt] at this
      simp [hym] at this
    | some y =>
      have hy := mem_of_find?_eq_some hfind
      have hyn : y.1 = r.next := by simpa using List.find?_some hfind
      obtain ⟨hyfs, hym⟩ := (h.keys y.1).mp (mem_map_of_mem hy)
      have hlt : m < M := lt_of_le_of_lt hym (hfs _ hyfs)
      have hm : r.next = m := h.next.trans (Nat.mod_eq_of_lt hlt)
      refine ih ?_ (h.step hlt hy (hyn.trans hm))
      have : (r.waiting.filter fun y => y.1 != r.next).length < r.waiting.length :=
        length_filter_lt_length_iff_exists.mpr ⟨y, hy, by simp [hyn]⟩
      dsimp only
      omega

/-- One frame, while the numbers have not wrapped round. -/
theorem Upto.receive (h : Upto M fs m r) (hm : m < M) (hfs : ∀ k ∈ (fs ++ [x]).map Prod.fst, k < M)
    (ho : ¬ r.overflows W x) : ∃ m', Upto M (fs ++ [x]) m' (r.receive M W x) := by
  have hnext : r.next = m := h.next.trans (Nat.mod_eq_of_lt hm)
  have hmem {y : ℕ × α} (hy : y ∈ r.delivered ++ r.waiting) : y ∈ fs ++ [x] :=
    mem_append_left _ (h.mem y hy)
  unfold InOrder.receive
  split_ifs with hlt heq hw
  · -- an old number
    refine ⟨m, h.le, h.next, h.delivered, fun y => hmem, fun k => ?_, ?_⟩
    · rw [h.keys k, map_append, mem_append]
      refine and_congr_left fun hk => ⟨.inl, fun hin => hin.resolve_right fun hkx => ?_⟩
      simp only [map_singleton, mem_singleton] at hkx
      omega
    · simp only [map_append, mem_append, map_singleton, mem_singleton]
      rintro (hin | hin)
      · exact h.gap hin
      · omega
  · -- the number that is due
    refine drain_upto hfs le_rfl (m := m + 1) ⟨hm, by rw [hnext], ?_, fun y hy => ?_, fun k => ?_⟩
    · rw [map_append, h.delivered, map_singleton, heq, hnext, range_succ]
    · simp only [append_assoc, mem_append, mem_singleton] at hy
      rcases hy with hy | rfl | hy
      · exact hmem (mem_append_left _ hy)
      · simp
      · exact hmem (mem_append_right _ hy)
    · rw [h.keys k]
      simp only [map_append, mem_append, map_singleton, mem_singleton]
      constructor
      · rintro ⟨hin, hlt⟩
        exact ⟨.inl hin, hlt⟩
      · rintro ⟨hin | hin, hle⟩
        · exact ⟨hin, hle⟩
        · omega
  · exact absurd ⟨by omega, hw⟩ ho
  · -- a number ahead of the gap
    refine ⟨m, h.le, h.next, h.delivered, fun y hy => ?_, fun k => ?_, ?_⟩
    · rcases mem_append.mp hy with hy | hy
      · exact hmem (mem_append_left _ hy)
      · rcases mem_store hy with rfl | hy
        · simp
        · exact hmem (mem_append_right _ hy)
    · simp only [mem_keys_store, h.keys k, map_append, mem_append, map_singleton, mem_singleton]
      constructor
      · rintro (rfl | ⟨hin, hlt⟩)
        · exact ⟨.inr rfl, by omega⟩
        · exact ⟨.inl hin, hlt⟩
      · rintro ⟨hin | hin, hlt⟩
        · exact .inr ⟨hin, hlt⟩
        · exact .inl hin
    · simp only [map_append, mem_append, map_singleton, mem_singleton]
      rintro (hin | hin)
      · exact h.gap hin
      · omega

/-- All of the `M` numbers have been handed on and the count starts over. -/
structure Wrapped (M : ℕ) (fs : List (ℕ × α)) (r : InOrder α) : Prop where
  next : r.next = 0
  delivered : r.delivered.map Prod.fst = List.range M
  mem : ∀ x ∈ r.delivered, x ∈ fs
  keys : 0 ∉ r.waiting.map Prod.fst

def Receives (M : ℕ) (fs : List (ℕ × α)) (r : InOrder α) : Prop :=
  (∃ m < M, Upto M fs m r) ∨ Wrapped M fs r

namespace Receives

theorem of_upto {m : ℕ} (h : Upto M fs m r) (hfs : ∀ k ∈ fs.map Prod.fst, k < M) :
    Receives M fs r := by
  rcases h.le.lt_or_eq with hm | rfl
  · exact .inl ⟨m, hm, h⟩
  · refine .inr ⟨by rw [h.next, Nat.mod_self], h.delivered,
      fun x hx => h.mem x (mem_append_left _ hx), fun hk => ?_⟩
    obtain ⟨hin, hlt⟩ := (h.keys 0).mp hk
    exact absurd (hfs 0 hin) (by omega)

theorem receive (h : Receives M fs r) (hfs : ∀ k ∈ (fs ++ [x]).map Prod.fst, k < M)
    (ho : ¬ r.overflows W x) (hx : x.1 = 0 → ∃ k < M, k ∉ fs.map Prod.fst) :
    Receives M (fs ++ [x]) (r.receive M W x) := by
  rcases h with ⟨m, hm, h⟩ | h
  · obtain ⟨m', h'⟩ := h.receive hm hfs ho
    exact of_upto h' hfs
  · have hne : x.1 ≠ 0 := by
      intro h0
      obtain ⟨k, hk, hfs⟩ := hx h0
      have : k ∈ r.delivered.map Prod.fst := h.delivered ▸ mem_range.mpr hk
      obtain ⟨y, hy, rfl⟩ := mem_map.mp this
      exact hfs (mem_map_of_mem (h.mem y hy))
    have hroom : ¬ W ≤ r.waiting.length := fun hw => ho ⟨by rw [h.next]; omega, hw⟩
    unfold InOrder.receive
    rw [if_neg (by rw [h.next]; omega), if_neg (by rw [h.next]; omega), if_neg hroom]
    refine .inr ⟨h.next, h.delivered, fun y hy => mem_append_left _ (h.mem y hy), fun hk => ?_⟩
    rcases mem_keys_store.mp hk with hk | hk
    · exact hne hk.symm
    · exact h.keys hk

theorem upto (h : Receives M fs r) (hcard : (fs.map Prod.fst).toFinset.card < M) :
    ∃ m < M, Upto M fs m r := by
  rcases h with h | h
  · exact h
  · have hsub : Finset.range M ⊆ (fs.map Prod.fst).toFinset := by
      intro k hk
      have : k ∈ r.delivered.map Prod.fst := h.delivered ▸ mem_range.mpr (by simpa using hk)
      obtain ⟨y, hy, rfl⟩ := mem_map.mp this
      exact mem_toFinset.mpr (mem_map_of_mem (h.mem y hy))
    have := Finset.card_le_card hsub
    simp only [Finset.card_range] at this
    omega

theorem delivered (h : Receives M fs r) {n : ℕ} (hn : n ≤ M)
    (hfs : ∀ k, k ∈ fs.map Prod.fst ↔ k < n) :
    r.delivered.map Prod.fst = List.range n ∧ ∀ x ∈ r.delivered, x ∈ fs := by
  rcases h with ⟨m, hm, h⟩ | h
  · have hle : n ≤ m := by
      by_contra hlt
      exact h.gap ((hfs m).mpr (by omega))
    have hge : m ≤ n := by
      by_contra hlt
      exact absurd ((hfs n).mp (h.mem_of_lt (by omega))) (lt_irrefl n)
    rw [le_antisymm hle hge]
    exact ⟨h.delivered, fun x hx => h.mem x (mem_append_left _ hx)⟩
  · have hge : M ≤ n := by
      by_contra hlt
      have : n ∈ r.delivered.map Prod.fst := h.delivered ▸ mem_range.mpr (by omega)
      obtain ⟨y, hy, hyn⟩ := mem_map.mp this
      exact absurd ((hfs n).mp (hyn ▸ mem_map_of_mem (h.mem y hy))) (lt_irrefl n)
    rw [le_antisymm hn hge]
    exact ⟨h.delivered, h.mem⟩

end Receives

end InOrder

end LinkIce
