import Mathlib.Algebra.GroupWithZero.Nat
import Mathlib.Data.List.Sort
import Mathlib.Data.List.Dedup

/-! The path-MTU search of RFC 8899: a ladder walk, then bisection. -/
namespace LinkIce

open List

def probeGranularity : ℕ := 8
def probeLossThreshold : ℕ := 2

inductive PathMtuState
  | base | searching | searchComplete | error
  deriving DecidableEq, Repr

structure PathMtuProbe where
  steps : List ℕ
  ladderIdx : ℕ := 0
  low : ℕ := 0
  high : ℕ := 0
  current : ℕ := 0
  effective : ℕ := 0
  lossCount : ℕ := 0
  state : PathMtuState := .base
  deriving DecidableEq, Repr

namespace PathMtuProbe

/-- Sorted, without duplicates, and strictly above the base. -/
def ladder (base : ℕ) (steps : List ℤ) : List ℕ :=
  ((steps.insertionSort (· ≤ ·)).dedup.filter fun v => 0 < v ∧ base < v.toNat).map Int.toNat

def make (base : ℕ) (steps : List ℤ) : PathMtuProbe :=
  match ladder base steps with
  | [] => { steps := [], effective := base, state := .searchComplete }
  | s :: rest =>
    { steps := s :: rest, effective := base, state := .searching, current := s }

def nextProbeSize (p : PathMtuProbe) : Option ℕ :=
  if p.state = .searchComplete ∨ p.current = 0 then none else some p.current

def isComplete (p : PathMtuProbe) : Bool := p.state = .searchComplete

def complete (p : PathMtuProbe) : PathMtuProbe := { p with state := .searchComplete, current := 0 }

def onProbeAck (p : PathMtuProbe) : PathMtuProbe :=
  if p.state = .searchComplete then p
  else
    let p := { p with effective := p.current, lossCount := 0 }
    if p.high ≠ 0 then
      let p := { p with low := p.current }
      if p.high - p.low ≤ probeGranularity then p.complete
      else { p with current := (p.low + p.high) / 2, state := .searching }
    else if p.steps.length ≤ p.ladderIdx + 1 then p.complete
    else
      { p with
        ladderIdx := p.ladderIdx + 1
        current := p.steps.getD (p.ladderIdx + 1) 0
        state := .searching }

def onProbeLoss (p : PathMtuProbe) : PathMtuProbe :=
  if p.state = .searchComplete then p
  else
    let p := { p with lossCount := p.lossCount + 1 }
    if p.lossCount < probeLossThreshold then p
    else
      let p := { p with lossCount := 0, state := .error, high := p.current, low := p.effective }
      if p.high - p.low ≤ probeGranularity then p.complete
      else { p with current := (p.low + p.high) / 2, state := .searching }

/-- As long as the search goes on there is a size to probe, not below the one in use; on the
ladder it is the current rung. -/
structure Valid (p : PathMtuProbe) : Prop where
  steps : ∀ x ∈ p.steps, 0 < x
  current : p.isComplete = false → 0 < p.current
  sorted : p.steps.Pairwise (· ≤ ·)
  rung : p.isComplete = false → p.high = 0 → p.steps[p.ladderIdx]? = some p.current
  rising : p.isComplete = false → p.effective ≤ p.current

variable {p : PathMtuProbe}

theorem ladder_pos (base : ℕ) (steps : List ℤ) : ∀ x ∈ ladder base steps, 0 < x := by
  intro x hx
  obtain ⟨v, hv, rfl⟩ := mem_map.mp hx
  have hpos := (mem_filter.mp hv).2
  simp only [decide_eq_true_eq] at hpos
  omega

theorem ladder_above (base : ℕ) (steps : List ℤ) : ∀ x ∈ ladder base steps, base ≤ x := by
  intro x hx
  obtain ⟨v, hv, rfl⟩ := mem_map.mp hx
  have habove := (mem_filter.mp hv).2
  simp only [decide_eq_true_eq] at habove
  exact habove.2.le

theorem ladder_sorted (base : ℕ) (steps : List ℤ) : (ladder base steps).Pairwise (· ≤ ·) := by
  have hsort : (steps.insertionSort (· ≤ ·)).Pairwise (· ≤ ·) := pairwise_insertionSort _ _
  have hkept := (hsort.sublist (dedup_sublist _)).filter fun v => 0 < v ∧ base < v.toNat
  exact hkept.map Int.toNat fun a b hab => Int.toNat_le_toNat hab

theorem valid_make (base : ℕ) (steps : List ℤ) : (make base steps).Valid := by
  have hpos := ladder_pos base steps
  have habove := ladder_above base steps
  have hsorted := ladder_sorted base steps
  unfold make
  cases hl : ladder base steps with
  | nil => exact ⟨nofun, nofun, .nil, nofun, nofun⟩
  | cons s rest =>
    rw [hl] at hpos habove hsorted
    exact ⟨hpos, fun _ => hpos s mem_cons_self, hsorted, fun _ _ => rfl,
      fun _ => habove s mem_cons_self⟩

@[simp] theorem make_effective {base : ℕ} {steps : List ℤ} :
    (make base steps).effective = base := by
  unfold make
  split <;> rfl

theorem nextProbeSize_complete (h : p.isComplete = true) : p.nextProbeSize = none :=
  if_pos (.inl (of_decide_eq_true h))

theorem nextProbeSize_valid (hp : p.Valid) (h : p.isComplete = false) :
    p.nextProbeSize = some p.current := by
  have hs : p.state ≠ .searchComplete := of_decide_eq_false h
  have hc := hp.current h
  exact if_neg (not_or.mpr ⟨hs, by omega⟩)

/-- A window wider than the granularity is halved at a positive size inside it. -/
theorem bisect_pos {low high : ℕ} (h : ¬ high - low ≤ probeGranularity) :
    0 < (low + high) / 2 ∧ low ≤ (low + high) / 2 ∧ high ≠ 0 := by
  unfold probeGranularity at h
  omega

theorem valid_complete (hp : ∀ x ∈ p.steps, 0 < x) (hs : p.steps.Pairwise (· ≤ ·)) :
    p.complete.Valid := ⟨hp, nofun, hs, nofun, nofun⟩

private theorem next_rung {steps : List ℕ} {i x : ℕ} (hs : steps.Pairwise (· ≤ ·))
    (hx : steps[i]? = some x) (h : i + 1 < steps.length) :
    steps[i + 1]? = some (steps.getD (i + 1) 0) ∧ x ≤ steps.getD (i + 1) 0 := by
  obtain ⟨hi, rfl⟩ := List.getElem?_eq_some_iff.mp hx
  have hnext : steps.getD (i + 1) 0 = steps[i + 1] := by
    rw [getD_eq_getElem?_getD, List.getElem?_eq_getElem h]
    rfl
  rw [hnext]
  exact ⟨List.getElem?_eq_getElem h, pairwise_iff_getElem.mp hs i (i + 1) hi h (by omega)⟩

theorem Valid.onProbeAck (hp : p.Valid) : p.onProbeAck.Valid := by
  unfold PathMtuProbe.onProbeAck
  split
  · exact hp
  · rename_i hsearch
    have hgoing : p.isComplete = false := decide_eq_false hsearch
    dsimp only
    split
    · split
      · exact valid_complete hp.steps hp.sorted
      · rename_i hhigh hwide
        obtain ⟨hpos, hlow, -⟩ := bisect_pos hwide
        exact ⟨hp.steps, fun _ => hpos, hp.sorted, fun _ hzero => absurd hzero hhigh, fun _ => hlow⟩
    · split
      · exact valid_complete hp.steps hp.sorted
      · rename_i hhigh hrungs
        have hrung := hp.rung hgoing (not_not.mp hhigh)
        obtain ⟨hget, hup⟩ := next_rung hp.sorted hrung (not_le.mp hrungs)
        have hpos := hp.current hgoing
        exact ⟨hp.steps, fun _ => lt_of_lt_of_le hpos hup, hp.sorted, fun _ _ => hget, fun _ => hup⟩

theorem Valid.onProbeLoss (hp : p.Valid) : p.onProbeLoss.Valid := by
  unfold PathMtuProbe.onProbeLoss
  split
  · exact hp
  · dsimp only
    split
    · exact ⟨hp.steps, hp.current, hp.sorted, hp.rung, hp.rising⟩
    · split
      · exact valid_complete hp.steps hp.sorted
      · rename_i hwide
        obtain ⟨hpos, hlow, hhigh⟩ := bisect_pos hwide
        exact ⟨hp.steps, fun _ => hpos, hp.sorted, fun _ hzero => absurd hzero hhigh, fun _ => hlow⟩

theorem onProbeAck_effective (h : p.isComplete = false) : p.onProbeAck.effective = p.current := by
  unfold PathMtuProbe.onProbeAck
  rw [if_neg (of_decide_eq_false h)]
  dsimp only
  split
  · split <;> rfl
  · split <;> rfl

theorem Valid.le_onProbeAck (hp : p.Valid) (h : p.isComplete = false) :
    p.effective ≤ p.onProbeAck.effective := by
  rw [onProbeAck_effective h]
  exact hp.rising h

theorem onProbeLoss_effective : p.onProbeLoss.effective = p.effective := by
  unfold PathMtuProbe.onProbeLoss
  split
  · rfl
  · dsimp only
    split
    · rfl
    · split <;> rfl

end PathMtuProbe

end LinkIce
