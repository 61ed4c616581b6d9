import LinkIce.Lib.Runs
import Mathlib.Data.List.Basic
import Mathlib.Data.List.Sort

/-! A queue of bounded length in front of an outlet. What arrives while the outlet is shut is
parked, and the oldest entry makes room; what is parked leaves when the outlet opens. -/
namespace LinkIce

open List

inductive Post (α : Type*)
  | direct (a : α)
  | park (a : α)
  | release

namespace Post

variable {α : Type*}

def payload : Post α → Option α
  | direct a | park a => some a
  | release => none

def isPark : Post α → Bool
  | park _ => true
  | _ => false

def isRelease : Post α → Bool
  | release => true
  | _ => false

end Post

/-- `out` is what has left, oldest first. -/
structure Lot (α : Type*) where
  parked : List α := []
  out : List α := []

variable {α : Type*} {cap : ℕ} {m : Post α} {ms : List (Post α)} {i : ℕ}

namespace Lot

def step (cap : ℕ) (l : Lot α) : Post α → Lot α
  | .direct a => { l with out := l.out ++ [a] }
  | .park a => { l with
      parked := (if cap ≤ l.parked.length then l.parked.drop 1 else l.parked) ++ [a] }
  | .release => ⟨[], l.out ++ l.parked⟩

/-- Nothing passes by what is parked. -/
def Orderly (l : Lot α) (m : Post α) : Prop := ∀ a, m = .direct a → l.parked = []

end Lot

def parksAhead (ms : List (Post α)) : ℕ := (ms.takeWhile fun m => !m.isRelease).countP Post.isPark

@[simp] theorem parksAhead_park {a : α} : parksAhead (.park a :: ms) = parksAhead ms + 1 :=
  countP_cons_of_pos rfl

@[simp] theorem parksAhead_release : parksAhead (.release :: ms) = 0 := rfl

def releases (ms : List (Post α)) : Bool := ms.any Post.isRelease

/-- What arrives at place `i` leaves: at once, or with the next release unless `cap` others are
parked before it. -/
def leaves (cap : ℕ) (ms : List (Post α)) (i : ℕ) : Bool :=
  match ms[i]? with
  | some (.direct _) => true
  | some (.park _) => releases (ms.drop (i + 1)) && decide (parksAhead (ms.drop (i + 1)) < cap)
  | _ => false

def places (cap : ℕ) (ms : List (Post α)) : List ℕ := (List.range ms.length).filter (leaves cap ms)

def payloadAt (ms : List (Post α)) (i : ℕ) : Option α := ms[i]?.bind Post.payload

theorem mem_places : i ∈ places cap ms ↔ leaves cap ms i = true := by
  simp only [places, mem_filter, mem_range, and_iff_right_iff_imp]
  intro h
  by_contra hi
  simp [leaves, List.getElem?_eq_none (not_lt.mp hi)] at h

theorem places_sorted : (places cap ms).Pairwise (· < ·) :=
  pairwise_lt_range.filter _

theorem payloadAt_of_leaves (h : leaves cap ms i = true) : ∃ a, payloadAt ms i = some a := by
  unfold leaves at h
  unfold payloadAt
  split at h
  · rename_i a hi
    exact ⟨a, by rw [hi]; rfl⟩
  · rename_i a hi
    exact ⟨a, by rw [hi]; rfl⟩
  · cases h

theorem map_payloadAt : (places cap ms).map (payloadAt ms) =
    ((places cap ms).filterMap (payloadAt ms)).map some := by
  have hall : ∀ i ∈ places cap ms, ∃ a, payloadAt ms i = some a := fun i hi =>
    payloadAt_of_leaves (mem_places.mp hi)
  generalize places cap ms = is at hall ⊢
  induction is with
  | nil => rfl
  | cons i is ih =>
    obtain ⟨a, ha⟩ := hall i (by simp)
    rw [filterMap_cons_some ha, map_cons, map_cons, ha,
      ih fun j hj => hall j (mem_cons_of_mem i hj)]

theorem payloads_cons :
    (places cap (m :: ms)).filterMap (payloadAt (m :: ms)) =
      (if leaves cap (m :: ms) 0 then m.payload.toList else []) ++
        (places cap ms).filterMap (payloadAt ms) := by
  have hshift : (List.map Nat.succ (List.range ms.length)).filter (leaves cap (m :: ms)) =
      (places cap ms).map Nat.succ := by
    rw [filter_map]
    rfl
  have htail : ((places cap ms).map Nat.succ).filterMap (payloadAt (m :: ms)) =
      (places cap ms).filterMap (payloadAt ms) := by
    rw [filterMap_map]
    rfl
  rw [places, length_cons, range_succ_eq_map, filter_cons, hshift]
  split_ifs
  · rw [filterMap_cons, htail]
    have hhead : payloadAt (m :: ms) 0 = m.payload := rfl
    rw [hhead]
    cases m.payload <;> rfl
  · exact htail

theorem drop_of_park {P : List α} (hP : P.length ≤ cap) (hcap : 0 < cap) (a : α) (n : ℕ) :
    let Q := (if cap ≤ P.length then P.drop 1 else P) ++ [a]
    Q.drop (Q.length + n - cap) = P.drop (P.length + (n + 1) - cap) ++
      (if n < cap then [a] else []) := by
  intro Q
  by_cases hfull : cap ≤ P.length
  · have hlen : P.length = cap := le_antisymm hP hfull
    have hQ : Q = P.drop 1 ++ [a] := by simp only [Q, if_pos hfull]
    have hQlen : Q.length = cap := by
      rw [hQ]
      simp only [length_append, length_drop, length_singleton]
      omega
    rw [hQlen, hlen, hQ, drop_append, drop_drop]
    congr 1
    · congr 1
      omega
    · have hshort : (P.drop 1).length = cap - 1 := by rw [length_drop, hlen]
      rw [hshort]
      split_ifs with hn
      · rw [show cap + n - cap - (cap - 1) = 0 by omega, drop_zero]
      · exact drop_eq_nil_of_le (by simp only [length_singleton]; omega)
  · have hQ : Q = P ++ [a] := by simp only [Q, if_neg hfull]
    have hQlen : Q.length = P.length + 1 := by rw [hQ, length_append, length_singleton]
    rw [hQlen, hQ, drop_append]
    congr 1
    · congr 1
      omega
    · split_ifs with hn
      · rw [show P.length + 1 + n - cap - P.length = 0 by omega, drop_zero]
      · exact drop_eq_nil_of_le (by simp only [length_singleton]; omega)

/-- What has left in the end: of what is parked at the start the part that is not pushed out,
and then what the places of the run say. -/
theorem Lot.run_out (hcap : 0 < cap) {l : Lot α} (hl : l.parked.length ≤ cap)
    (h : Along (Lot.step cap) Lot.Orderly l ms) :
    (ms.foldl (Lot.step cap) l).out = l.out ++
      (if releases ms then l.parked.drop (l.parked.length + parksAhead ms - cap) else []) ++
      (places cap ms).filterMap (payloadAt ms) := by
  induction ms generalizing l with
  | nil => simp [releases, places]
  | cons m ms ih =>
    rw [payloads_cons, foldl_cons]
    cases m with
    | direct a =>
      have hempty : l.parked = [] := h.1 a rfl
      have hstep : (l.step cap (.direct a)).parked.length ≤ cap := hl
      rw [ih hstep h.2]
      simp [Lot.step, hempty, leaves, Post.payload]
    | park a =>
      have hdrop := drop_of_park hl hcap a (parksAhead ms)
      have hlen : (l.step cap (.park a)).parked.length ≤ cap := by
        simp only [Lot.step, length_append, length_singleton]
        split_ifs with hfull
        · rw [length_drop]
          omega
        · omega
      rw [ih hlen h.2]
      simp only [Lot.step] at hdrop ⊢
      rw [hdrop]
      have hrel : releases (.park a :: ms) = releases ms := rfl
      have hleaves : leaves cap (.park a :: ms) 0 =
          (releases ms && decide (parksAhead ms < cap)) := rfl
      rw [hrel, hleaves, parksAhead_park]
      cases releases ms <;> simp [Post.payload]
    | release =>
      rw [ih (Nat.zero_le _) h.2]
      have hkept : l.parked.drop (l.parked.length - cap) = l.parked := by
        rw [Nat.sub_eq_zero_of_le hl, drop_zero]
      have hrel : releases (.release :: ms) = true := rfl
      have hleaves : leaves cap (.release :: ms) 0 = false := rfl
      simp only [Lot.step, hrel, hleaves, parksAhead_release, Nat.add_zero, hkept, if_true,
        drop_nil, ite_self, append_nil, Bool.false_eq_true, if_false, nil_append]

end LinkIce
