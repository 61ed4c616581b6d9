import Mathlib.Algebra.BigOperators.Group.List.Basic
import Mathlib.Algebra.GroupWithZero.Nat
import Mathlib.Data.List.Infix
import Mathlib.Data.List.Forall2
import Mathlib.Tactic.SplitIfs

/-! Reassembly of self-delimiting frames from a stream that is cut into chunks at arbitrary
places. A loop takes frames off the front of its buffer as long as there is one; the bytes
behind a frame may get lost while it is dispatched. -/
namespace LinkIce

open List

/-- Reads the frame at the front of a buffer. Whether there is one, and which, is decided by
its own bytes. -/
structure FrameReader (α μ : Type*) where
  take : List α → Option (μ × List α)
  size : μ → ℕ
  size_pos : ∀ m, 0 < size m
  take_size : ∀ {b m r}, take b = some (m, r) → size m + r.length = b.length
  take_append : ∀ {b m r} (c : List α), take b = some (m, r) → take (b ++ c) = some (m, r ++ c)

namespace FrameReader

variable {α μ : Type*} (R : FrameReader α μ)

def IsFrame (m : μ) (f : List α) : Prop := R.take f = some (m, [])

/-- The messages are taken off the front of the buffer one after the other. -/
inductive Takes : List α → List μ → List α → Prop
  | nil (b : List α) : Takes b [] b
  | cons {b r r' : List α} {m : μ} {ms : List μ} (h : R.take b = some (m, r))
      (ht : Takes r ms r') : Takes b (m :: ms) r'

/-- One run of the loop. With each message comes the number of bytes that were lost behind
it. -/
inductive Drains : List α → List (μ × ℕ) → List α → Prop
  | stop {b : List α} (h : R.take b = none) : Drains b [] b
  | keep {b r b' : List α} {m : μ} {out : List (μ × ℕ)} (h : R.take b = some (m, r))
      (hd : Drains r out b') : Drains b ((m, 0) :: out) b'
  | lose {b r b' : List α} {m : μ} {out : List (μ × ℕ)} (h : R.take b = some (m, r))
      (hd : Drains [] out b') : Drains b ((m, r.length) :: out) b'

inductive Receives : List α → List (List α) → List (μ × ℕ) → List α → Prop
  | nil (b : List α) : Receives b [] [] b
  | cons {b b' b'' c : List α} {cs : List (List α)} {out out' : List (μ × ℕ)}
      (h : R.Drains (b ++ c) out b') (hr : Receives b' cs out' b'') :
      Receives b (c :: cs) (out ++ out') b''

def frames : ℕ → List α → List (μ × List α)
  | 0, _ => []
  | fuel + 1, b =>
    match R.take b with
    | none => []
    | some (m, r) => (m, r) :: frames fuel r

def leftover : List α → List (μ × List α) → List α
  | b, [] => b
  | _, (_, r) :: out => leftover r out

/-- The messages that the chunks complete, each with the bytes that have come behind it. -/
def arrivals : List α → List (List α) → List (μ × List α)
  | _, [] => []
  | b, c :: cs =>
    let out := R.frames (b ++ c).length (b ++ c)
    out ++ arrivals (leftover (b ++ c) out) cs

variable {R} {b b' b'' c f r r' : List α} {m : μ} {ms : List μ} {fs cs : List (List α)}
  {out : List (μ × ℕ)}

theorem IsFrame.length (h : R.IsFrame m f) : f.length = R.size m := by
  have hs := R.take_size h
  simpa using hs.symm

theorem IsFrame.take_append (h : R.IsFrame m f) (c : List α) : R.take (f ++ c) = some (m, c) := by
  simpa using R.take_append c h

namespace Takes

variable {ms' : List μ}

theorem append (h : R.Takes b ms r) (c : List α) : R.Takes (b ++ c) ms (r ++ c) := by
  induction h with
  | nil b => exact .nil _
  | cons h _ ih => exact .cons (R.take_append c h) ih

theorem trans (h : R.Takes b ms r) (h' : R.Takes r ms' r') : R.Takes b (ms ++ ms') r' := by
  induction h with
  | nil b => exact h'
  | cons h _ ih => exact .cons h (ih h')

theorem unique (h : R.Takes b ms r) (hr : R.take r = none) (h' : R.Takes b ms' r')
    (hr' : R.take r' = none) : ms = ms' ∧ r = r' := by
  induction h generalizing ms' with
  | nil b =>
    cases h' with
    | nil => exact ⟨rfl, rfl⟩
    | cons h' _ => cases hr.symm.trans h'
  | cons h _ ih =>
    cases h' with
    | nil => cases hr'.symm.trans h
    | cons h₂ ht₂ =>
      obtain ⟨rfl, rfl⟩ := Prod.mk.inj (Option.some.inj (h.symm.trans h₂))
      obtain ⟨hms, hrest⟩ := ih hr ht₂
      exact ⟨by rw [hms], hrest⟩

end Takes

theorem take_eq_none_of_partial (hf : R.IsFrame m f) (hp : b <+: f) (hne : b ≠ f) :
    R.take b = none := by
  obtain ⟨c, rfl⟩ := hp
  cases h : R.take b with
  | none => rfl
  | some x =>
    have hx := R.take_append c h
    rw [hf] at hx
    have hnil := (Prod.mk.inj (Option.some.inj hx)).2
    have hc : c = [] := (append_eq_nil_iff.mp hnil.symm).2
    exact absurd (by simp [hc]) hne

theorem Drains.takes (h : R.Drains b out b') (hl : ∀ o ∈ out, o.2 = 0) :
    R.Takes b (out.map (·.1)) b' ∧ R.take b' = none := by
  induction h with
  | stop h => exact ⟨.nil _, h⟩
  | keep h _ ih =>
    obtain ⟨ht, hn⟩ := ih fun o ho => hl o (mem_cons_of_mem _ ho)
    exact ⟨.cons h ht, hn⟩
  | lose h _ ih =>
    obtain ⟨ht, hn⟩ := ih fun o ho => hl o (mem_cons_of_mem _ ho)
    have hr := eq_nil_of_length_eq_zero (hl _ mem_cons_self)
    rw [hr] at h
    exact ⟨.cons h ht, hn⟩

theorem Receives.takes (h : R.Receives b cs out b') (hb : R.take b = none)
    (hl : ∀ o ∈ out, o.2 = 0) :
    R.Takes (b ++ cs.flatten) (out.map (·.1)) b' ∧ R.take b' = none := by
  induction h with
  | nil b => exact ⟨by simpa using Takes.nil b, hb⟩
  | @cons _ _ _ _ cs _ _ hd _ ih =>
    obtain ⟨ht, hn⟩ := hd.takes fun o ho => hl o (mem_append_left _ ho)
    obtain ⟨ht', hn'⟩ := ih hn fun o ho => hl o (mem_append_right _ ho)
    have hfirst := ht.append cs.flatten
    rw [append_assoc] at hfirst
    rw [flatten_cons, map_append]
    exact ⟨hfirst.trans ht', hn'⟩

/-! ### What is lost is missing -/

def lost (out : List (μ × ℕ)) : ℕ := (out.map (·.2)).sum

variable (R) in
def sizes (ms : List μ) : ℕ := (ms.map R.size).sum

theorem Drains.length (h : R.Drains b out b') :
    R.sizes (out.map (·.1)) + lost out + b'.length = b.length := by
  induction h with
  | stop => simp [sizes, lost]
  | keep h _ ih =>
    have hs := R.take_size h
    simp only [sizes, lost, map_cons, sum_cons] at ih ⊢
    omega
  | lose h _ ih =>
    have hs := R.take_size h
    simp only [sizes, lost, map_cons, sum_cons, length_nil] at ih ⊢
    omega

theorem Receives.length (h : R.Receives b cs out b') :
    R.sizes (out.map (·.1)) + lost out + b'.length = b.length + cs.flatten.length := by
  induction h with
  | nil => simp [sizes, lost]
  | cons hd _ ih =>
    have hs := hd.length
    simp only [sizes, lost, map_append, sum_append, flatten_cons, length_append] at hs ih ⊢
    omega

end FrameReader

end LinkIce
