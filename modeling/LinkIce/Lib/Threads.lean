import LinkIce.Lib.Runs
import Mathlib.Data.Multiset.AddSub

/-! Calls that run concurrently on a shared state. A call is a list of sections, each of them
atomic; a section that has run may put further sections of its call before the rest. Calls
start and run their next section in any order. -/
namespace LinkIce

/-- The shared state and what each call has still to run. -/
structure Threads (σ ω : Type*) where
  state : σ
  threads : List (List ω)

inductive ThreadEvent (κ α : Type*)
  | call (c : κ)
  | run (i : ℕ) (answer : α)

namespace Threads

variable {σ ω κ α : Type*} {entry : σ → κ → List ω} {exec : σ → ω → α → σ × List ω}
  {w : Threads σ ω} {e : ThreadEvent κ α} {P : σ → Multiset ω → ω → α → Prop} {i : ℕ}

def next (w : Threads σ ω) (i : ℕ) : Option ω := w.threads[i]?.bind List.head?

def step (entry : σ → κ → List ω) (exec : σ → ω → α → σ × List ω) (w : Threads σ ω) :
    ThreadEvent κ α → Threads σ ω
  | .call c => { w with threads := w.threads ++ [entry w.state c] }
  | .run i a =>
    match w.threads[i]? with
    | some (op :: rest) =>
      ⟨(exec w.state op a).1, w.threads.set i ((exec w.state op a).2 ++ rest)⟩
    | _ => w

def pending (w : Threads σ ω) : Multiset ω := w.threads.flatten

def Idle (w : Threads σ ω) : Prop := ∀ t ∈ w.threads, t = []

instance [DecidableEq ω] : Decidable w.Idle := inferInstanceAs (Decidable (∀ t ∈ w.threads, t = []))

theorem Idle.pending (h : w.Idle) : w.pending = 0 := by
  have hnil : w.threads.flatten = [] := List.flatten_eq_nil_iff.mpr h
  rw [Threads.pending, hnil]
  rfl

private theorem flatten_set {ts : List (List ω)} {t : List ω} (h : ts[i]? = some t)
    (u : List ω) : ∃ R : Multiset ω, (ts.flatten : Multiset ω) = (t : Multiset ω) + R ∧
      ((ts.set i u).flatten : Multiset ω) = (u : Multiset ω) + R := by
  induction ts generalizing i with
  | nil => cases h
  | cons x ts ih =>
    cases i with
    | zero =>
      obtain rfl : x = t := by simpa using h
      exact ⟨ts.flatten, rfl, rfl⟩
    | succ i =>
      obtain ⟨R, hold, hnew⟩ := ih (by simpa using h)
      have hswap (y : List ω) : (x : Multiset ω) + (y + R) = y + (x + R) := by
        rw [← Multiset.add_assoc, Multiset.add_comm (x : Multiset ω), Multiset.add_assoc]
      refine ⟨x + R, ?_, ?_⟩
      · rw [List.flatten_cons, ← Multiset.coe_add, hold, hswap]
      · rw [List.set_cons_succ, List.flatten_cons, ← Multiset.coe_add, hnew, hswap]

section inversion

variable (entry exec) {a : α}

theorem step_call {c : κ} :
    (w.step entry exec (.call c : ThreadEvent κ α)).state = w.state ∧
      (w.step entry exec (.call c : ThreadEvent κ α)).pending = w.pending + entry w.state c := by
  refine ⟨rfl, ?_⟩
  simp [step, pending]

theorem step_run {op : ω} (h : w.next i = some op) :
    ∃ R, w.pending = op ::ₘ R ∧
      (w.step entry exec (.run i a)).state = (exec w.state op a).1 ∧
      (w.step entry exec (.run i a)).pending = (exec w.state op a).2 + R := by
  obtain ⟨t, ht, hop⟩ := Option.bind_eq_some_iff.mp h
  obtain ⟨rest, rfl⟩ : ∃ rest, t = op :: rest := by
    cases t with
    | nil => cases hop
    | cons x rest =>
      obtain rfl : x = op := by simpa using hop
      exact ⟨rest, rfl⟩
  obtain ⟨R, hold, hnew⟩ := flatten_set ht ((exec w.state op a).2 ++ rest)
  have hstep : w.step entry exec (.run i a) =
      ⟨(exec w.state op a).1, w.threads.set i ((exec w.state op a).2 ++ rest)⟩ := by
    simp only [step, ht]
  refine ⟨rest + R, ?_, by rw [hstep], ?_⟩
  · rw [pending, hold, ← Multiset.cons_coe, Multiset.cons_add]
  · rw [hstep, pending, hnew, ← Multiset.coe_add, Multiset.add_assoc]

theorem step_none (h : w.next i = none) : w.step entry exec (.run i a : ThreadEvent κ α) = w := by
  unfold next at h
  unfold step
  dsimp only
  cases ht : w.threads[i]? with
  | none => rfl
  | some t =>
    rw [ht] at h
    cases t with
    | nil => rfl
    | cons x rest => cases h

end inversion

def Permits (P : σ → Multiset ω → ω → α → Prop) (w : Threads σ ω) : ThreadEvent κ α → Prop
  | .call _ => True
  | .run i a => ∀ op, w.next i = some op → P w.state w.pending op a

theorem Permits.of_next {op : ω} {a : α} (hn : w.next i = some op) (h : P w.state w.pending op a) :
    w.Permits P (.run i a : ThreadEvent κ α) := by
  intro op' hop'
  rw [hn, Option.some.injEq] at hop'
  exact hop' ▸ h

/-- The event runs a section that meets `P`. -/
def Runs (P : σ → ω → α → Prop) (w : Threads σ ω) : ThreadEvent κ α → Prop
  | .call _ => False
  | .run i a => ∃ op, w.next i = some op ∧ P w.state op a

/-- Only sections bring about and undo what `M` says of the shared state. -/
theorem step_state_iff {M : σ → Prop} {closes opens : σ → ω → α → Prop}
    (h : ∀ s op a, M (exec s op a).1 ↔ M s ∧ ¬ closes s op a ∨ opens s op a) :
    M (w.step entry exec e).state ↔ M w.state ∧ ¬ w.Runs closes e ∨ w.Runs opens e := by
  cases e with
  | call c => simp [Runs, step]
  | run i a =>
    cases hn : w.next i with
    | none => simp [step_none entry exec hn, Runs, hn]
    | some op =>
      obtain ⟨R, -, hs, -⟩ := step_run entry exec hn (a := a)
      rw [hs, h]
      simp [Runs, hn]

def weight (f : σ → ω → ℕ) (w : Threads σ ω) : ThreadEvent κ α → ℕ
  | .call _ => 0
  | .run i _ => (w.next i).elim 0 (f w.state)

theorem step_invariant_weight {I : ℕ → σ → Multiset ω → Prop}
    {f : σ → ω → ℕ} {n : ℕ} (hcall : ∀ s Q c, I n s Q → I n s (Q + entry s c))
    (hrun : ∀ s R op a, P s (op ::ₘ R) op a → I n s (op ::ₘ R) →
      I (n + f s op) (exec s op a).1 ((exec s op a).2 + R))
    (hp : w.Permits P e) (hI : I n w.state w.pending) :
    I (n + w.weight f e) (w.step entry exec e).state (w.step entry exec e).pending := by
  cases e with
  | call c =>
    obtain ⟨hs, hq⟩ := step_call (w := w) entry exec
    rw [hs, hq]
    exact hcall _ _ c hI
  | run i a =>
    change I (n + (w.next i).elim 0 (f w.state)) _ _
    cases hn : w.next i with
    | none => rwa [step_none entry exec hn]
    | some op =>
      obtain ⟨R, hq, hs', hq'⟩ := step_run entry exec hn
      have hop := hp op hn
      rw [hq] at hop hI
      rw [hs', hq']
      exact hrun _ R op a hop hI

/-- What calls keep on entry and sections keep as they run, a permitted step keeps. -/
theorem step_invariant {I : σ → Multiset ω → Prop} (hcall : ∀ s Q c, I s Q → I s (Q + entry s c))
    (hrun : ∀ s R op a, P s (op ::ₘ R) op a → I s (op ::ₘ R) →
      I (exec s op a).1 ((exec s op a).2 + R))
    (hp : w.Permits P e) (hI : I w.state w.pending) :
    I (w.step entry exec e).state (w.step entry exec e).pending :=
  step_invariant_weight (I := fun _ => I) (f := fun _ _ => 0) (n := 0) hcall hrun hp hI

end Threads

end LinkIce
