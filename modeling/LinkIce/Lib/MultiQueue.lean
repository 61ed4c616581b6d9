import Mathlib.Logic.Function.Basic

/-! A family of queues, one for each key, as the abstract meaning of a keyed FIFO. -/
namespace LinkIce

open List

inductive QueueOp (κ α : Type*)
  | put (k : κ) (x : α)
  | take (k : κ)

namespace MultiQueue

variable {κ α : Type*} [DecidableEq κ]

def step (q : κ → List α) : QueueOp κ α → κ → List α
  | .put k x => Function.update q k (q k ++ [x])
  | .take k => Function.update q k (q k).tail

def run (q : κ → List α) (ops : List (QueueOp κ α)) : κ → List α := ops.foldl step q

def puts (k : κ) : List (QueueOp κ α) → List α
  | [] => []
  | .put j x :: ops => (if j = k then [x] else []) ++ puts k ops
  | .take _ :: ops => puts k ops

def takes (k : κ) (q : κ → List α) : List (QueueOp κ α) → List α
  | [] => []
  | .put j x :: ops => takes k (step q (.put j x)) ops
  | .take j :: ops => (if j = k then (q k).take 1 else []) ++ takes k (step q (.take j)) ops

theorem step_other {q : κ → List α} {k : κ} (op : QueueOp κ α)
    (h : match op with | .put j _ | .take j => j ≠ k) : step q op k = q k := by
  cases op with
  | put j x => exact Function.update_of_ne (Ne.symm h) _ _
  | take j => exact Function.update_of_ne (Ne.symm h) _ _

theorem takes_append_run (k : κ) (q : κ → List α) (ops : List (QueueOp κ α)) :
    takes k q ops ++ run q ops k = q k ++ puts k ops := by
  induction ops generalizing q with
  | nil => simp [takes, puts, run]
  | cons op ops ih =>
    have hrest := ih (step q op)
    cases op with
    | put j x =>
      simp only [takes, puts, run, foldl_cons] at hrest ⊢
      rw [hrest]
      by_cases hj : j = k
      · subst hj
        simp [step]
      · rw [step_other _ hj, if_neg hj, nil_append]
    | take j =>
      simp only [takes, puts, run, foldl_cons] at hrest ⊢
      rw [append_assoc, hrest]
      by_cases hj : j = k
      · subst hj
        rw [if_pos rfl, ← append_assoc]
        congr 1
        simp only [step, Function.update_self]
        cases q j <;> rfl
      · rw [step_other _ hj, if_neg hj, nil_append]

end MultiQueue

end LinkIce
