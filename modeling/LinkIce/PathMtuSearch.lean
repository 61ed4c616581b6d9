import LinkIce.Lib.Runs
import LinkIce.PathMtu
import Mathlib.Algebra.Order.BigOperators.Group.List
import Mathlib.Algebra.Order.Group.Nat

/-! The path-MTU search ends, and it ends next to the size that the path really carries. -/
namespace LinkIce

open List

inductive ProbeEvent
  | ack | loss
  deriving DecidableEq, Repr

namespace PathMtuProbe

variable {p q : PathMtuProbe} {e : ProbeEvent} {es : List ProbeEvent} {T base : ℕ}
  {steps : List ℤ} {high low x : ℕ}

def step (p : PathMtuProbe) : ProbeEvent → PathMtuProbe
  | .ack => p.onProbeAck
  | .loss => p.onProbeLoss

def run (base : ℕ) (steps : List ℤ) (es : List ProbeEvent) : PathMtuProbe :=
  es.foldl step (make base steps)

/-! ### What one event does to a search that goes on -/

/-- The search stops at the size in use, or halves the window between it and a lost size. -/
inductive Narrowed (p : PathMtuProbe) (low high : ℕ) : PathMtuProbe → Prop
  | stop : high - low ≤ probeGranularity →
      Narrowed p low high
        { p with
          low, high, effective := low, lossCount := 0, state := .searchComplete, current := 0 }
  | halve : ¬ high - low ≤ probeGranularity →
      Narrowed p low high
        { p with
          low, high, effective := low, lossCount := 0, state := .searching
          current := (low + high) / 2 }

inductive Acked (p : PathMtuProbe) : PathMtuProbe → Prop
  | bisect {q : PathMtuProbe} : p.high ≠ 0 → Narrowed p p.current p.high q → Acked p q
  | top : p.high = 0 → p.steps.length ≤ p.ladderIdx + 1 →
      Acked p
        { p with effective := p.current, lossCount := 0, state := .searchComplete, current := 0 }
  | climb : p.high = 0 → p.ladderIdx + 1 < p.steps.length →
      Acked p
        { p with
          effective := p.current, lossCount := 0, state := .searching
          ladderIdx := p.ladderIdx + 1, current := p.steps.getD (p.ladderIdx + 1) 0 }

inductive Lost (p : PathMtuProbe) : PathMtuProbe → Prop
  | first : p.lossCount = 0 → Lost p { p with lossCount := 1 }
  | giveUp {q : PathMtuProbe} : p.lossCount ≠ 0 → Narrowed p p.effective p.current q → Lost p q

theorem step_complete (h : p.isComplete = true) : p.step e = p := by
  have hstate : p.state = .searchComplete := of_decide_eq_true h
  cases e with
  | ack => exact if_pos hstate
  | loss => exact if_pos hstate

theorem onProbeAck_acked (h : p.isComplete = false) : Acked p p.onProbeAck := by
  unfold onProbeAck
  rw [if_neg (of_decide_eq_false h)]
  dsimp only
  split
  · rename_i hhigh
    apply Acked.bisect hhigh
    split
    · rename_i hnarrow
      exact .stop hnarrow
    · rename_i hwide
      exact .halve hwide
  · rename_i hladder
    split
    · rename_i htop
      exact .top (not_not.mp hladder) htop
    · rename_i hrungs
      exact .climb (not_not.mp hladder) (not_le.mp hrungs)

theorem onProbeLoss_lost (h : p.isComplete = false) : Lost p p.onProbeLoss := by
  unfold onProbeLoss
  rw [if_neg (of_decide_eq_false h)]
  dsimp only
  split
  · rename_i hfirst
    have hzero : p.lossCount = 0 := by
      unfold probeLossThreshold at hfirst
      omega
    rw [hzero]
    exact .first hzero
  · rename_i hsecond
    have hone : p.lossCount ≠ 0 := by
      unfold probeLossThreshold at hsecond
      omega
    apply Lost.giveUp hone
    split
    · rename_i hnarrow
      exact .stop hnarrow
    · rename_i hwide
      exact .halve hwide

theorem bisect_inside (h : ¬ high - low ≤ probeGranularity) :
    low < (low + high) / 2 ∧ (low + high) / 2 < high := by
  unfold probeGranularity at h
  omega

/-! ### The search ends -/

structure Windowed (p : PathMtuProbe) : Prop extends Valid p where
  streak : p.lossCount ≤ 1
  window : p.isComplete = false → p.high ≠ 0 → p.low = p.effective ∧ p.low < p.current ∧
    p.current < p.high

theorem windowed_make (base : ℕ) (steps : List ℤ) : (make base steps).Windowed := by
  have hvalid := valid_make base steps
  unfold make at hvalid ⊢
  split at hvalid
  · exact ⟨hvalid, Nat.zero_le 1, nofun⟩
  · exact ⟨hvalid, Nat.zero_le 1, fun _ hhigh => absurd rfl hhigh⟩

theorem Narrowed.windowed (h : Narrowed p low high q) (hq : q.Valid) : q.Windowed := by
  cases h with
  | stop _ => exact ⟨hq, Nat.zero_le 1, nofun⟩
  | halve hwide => exact ⟨hq, Nat.zero_le 1, fun _ _ => ⟨rfl, bisect_inside hwide⟩⟩

theorem Windowed.step (hp : p.Windowed) (e : ProbeEvent) : (p.step e).Windowed := by
  cases hdone : p.isComplete with
  | true =>
    rw [step_complete hdone]
    exact hp
  | false =>
    cases e with
    | ack =>
      have hvalid := hp.toValid.onProbeAck
      have hacked := onProbeAck_acked hdone
      change p.onProbeAck.Windowed
      generalize p.onProbeAck = q at hvalid hacked
      cases hacked with
      | bisect _ hnarrowed => exact hnarrowed.windowed hvalid
      | top _ _ => exact ⟨hvalid, Nat.zero_le 1, nofun⟩
      | climb hladder _ =>
        exact ⟨hvalid, Nat.zero_le 1, fun _ hhigh => absurd hladder hhigh⟩
    | loss =>
      have hvalid := hp.toValid.onProbeLoss
      have hlost := onProbeLoss_lost hdone
      change p.onProbeLoss.Windowed
      generalize p.onProbeLoss = q at hvalid hlost
      cases hlost with
      | first _ => exact ⟨hvalid, Nat.le_refl 1, hp.window⟩
      | giveUp _ hnarrowed => exact hnarrowed.windowed hvalid

/-- The events that the search can still take: two for each rung left, and two for each byte of
the window. -/
def work (p : PathMtuProbe) : ℕ :=
  if p.isComplete then 0
  else if p.high = 0 then 2 * (p.steps.length - p.ladderIdx) + 2 * p.steps.sum - p.lossCount
  else 2 * (p.high - p.low) - p.lossCount

theorem Narrowed.work_le (h : Narrowed p low high q) : q.work ≤ 2 * (high - low) := by
  cases h with
  | stop _ => exact Nat.zero_le _
  | halve hwide =>
    have hhigh : high ≠ 0 := (bisect_pos hwide).2.2
    exact Nat.le_of_eq (if_neg hhigh)

theorem Windowed.work_eq (hp : p.Windowed) (hgoing : p.isComplete = false) :
    (p.high = 0 ∧ p.ladderIdx < p.steps.length ∧ p.current ≤ p.steps.sum ∧
      p.work + p.lossCount = 2 * (p.steps.length - p.ladderIdx) + 2 * p.steps.sum) ∨
    (p.high ≠ 0 ∧ p.low = p.effective ∧ p.low < p.current ∧ p.current < p.high ∧
      p.work + p.lossCount = 2 * (p.high - p.low)) := by
  have hstreak := hp.streak
  have hsome : ¬ p.isComplete = true := by simp [hgoing]
  by_cases hhigh : p.high = 0
  · obtain ⟨hidx, hcur⟩ := List.getElem?_eq_some_iff.mp (hp.rung hgoing hhigh)
    have hmem : p.current ∈ p.steps := hcur ▸ getElem_mem hidx
    have hsum : p.current ≤ p.steps.sum := single_le_sum (fun _ _ => Nat.zero_le _) _ hmem
    rw [work, if_neg hsome, if_pos hhigh]
    exact .inl ⟨hhigh, hidx, hsum, by omega⟩
  · obtain ⟨hlow, habove, hbelow⟩ := hp.window hgoing hhigh
    rw [work, if_neg hsome, if_neg hhigh]
    exact .inr ⟨hhigh, hlow, habove, hbelow, by omega⟩

theorem Windowed.work_step (hp : p.Windowed) (hgoing : p.isComplete = false) (e : ProbeEvent) :
    (p.step e).work < p.work := by
  have hstreak := hp.streak
  have hwork := hp.work_eq hgoing
  cases e with
  | ack =>
    have hacked := onProbeAck_acked hgoing
    change p.onProbeAck.work < p.work
    generalize p.onProbeAck = q at hacked
    cases hacked with
    | bisect hhigh hnarrowed =>
      have hle := hnarrowed.work_le
      omega
    | top _ _ =>
      have hsome : p.work ≠ 0 := by omega
      exact Nat.pos_of_ne_zero hsome
    | climb hladder hrungs =>
      have hnext : work { p with
          effective := p.current, lossCount := 0, state := .searching
          ladderIdx := p.ladderIdx + 1, current := p.steps.getD (p.ladderIdx + 1) 0 } =
          2 * (p.steps.length - (p.ladderIdx + 1)) + 2 * p.steps.sum := if_pos hladder
      omega
  | loss =>
    have hlost := onProbeLoss_lost hgoing
    have hq : p.onProbeLoss.Windowed := hp.step .loss
    change p.onProbeLoss.work < p.work
    generalize p.onProbeLoss = q at hlost hq
    cases hlost with
    | first hzero =>
      have hnext := hq.work_eq hgoing
      dsimp only at hnext
      omega
    | giveUp _ hnarrowed =>
      have hle := hnarrowed.work_le
      have hrising := hp.rising hgoing
      omega

theorem Windowed.complete_of_work_le (hp : p.Windowed) (hlen : p.work ≤ es.length) :
    (es.foldl PathMtuProbe.step p).isComplete = true := by
  induction es generalizing p with
  | nil =>
    cases hdone : p.isComplete with
    | true => exact hdone
    | false =>
      have hstreak := hp.streak
      have hwork := hp.work_eq hdone
      have hnone : p.work = 0 := Nat.le_zero.mp hlen
      omega
  | cons e es ih =>
    apply ih (hp.step e)
    cases hdone : p.isComplete with
    | true =>
      rw [step_complete hdone, work, if_pos hdone]
      exact Nat.zero_le _
    | false =>
      have hless := hp.work_step hdone e
      simp only [length_cons] at hlen
      omega

@[simp] theorem make_steps : (make base steps).steps = ladder base steps := by
  unfold make
  split <;> simp_all

def eventBound (base : ℕ) (steps : List ℤ) : ℕ :=
  2 * (ladder base steps).length + 2 * (ladder base steps).sum

theorem work_make_le (base : ℕ) (steps : List ℤ) :
    (make base steps).work ≤ eventBound base steps := by
  unfold eventBound make
  split
  · exact Nat.zero_le _
  · rename_i s rest hladder
    rw [hladder]
    exact Nat.le_refl _

/-! ### The size in use -/

theorem Windowed.le_step (hp : p.Windowed) (e : ProbeEvent) :
    p.effective ≤ (p.step e).effective := by
  cases hdone : p.isComplete with
  | true => rw [step_complete hdone]
  | false =>
    cases e with
    | ack => exact hp.le_onProbeAck hdone
    | loss => exact Nat.le_of_eq (onProbeLoss_effective).symm

theorem Windowed.run (hp : p.Windowed) (es : List ProbeEvent) :
    (es.foldl PathMtuProbe.step p).Windowed :=
  List.foldlRecOn es _ hp fun _ hq e _ => hq.step e

theorem Windowed.le_run (hp : p.Windowed) (es : List ProbeEvent) :
    p.effective ≤ (es.foldl PathMtuProbe.step p).effective := by
  induction es generalizing p with
  | nil => exact Nat.le_refl _
  | cons e es ih => exact Nat.le_trans (hp.le_step e) (ih (hp.step e))

def acknowledged : PathMtuProbe → List ProbeEvent → List ℕ
  | _, [] => []
  | p, e :: es => (if e = .ack then p.nextProbeSize.toList else []) ++ acknowledged (p.step e) es

theorem Windowed.effective_step (hp : p.Windowed) (e : ProbeEvent) :
    (p.step e).effective = p.effective ∨ e = .ack ∧ (p.step e).effective ∈ p.nextProbeSize := by
  cases hdone : p.isComplete with
  | true => exact .inl (by rw [step_complete hdone])
  | false =>
    cases e with
    | ack =>
      have hsize : p.nextProbeSize = some p.current := nextProbeSize_valid hp.toValid hdone
      have heff : p.onProbeAck.effective = p.current := onProbeAck_effective hdone
      exact .inr ⟨rfl, hsize.trans (congrArg some heff.symm)⟩
    | loss => exact .inl (onProbeLoss_effective)

theorem Windowed.effective_run (hp : p.Windowed) (es : List ProbeEvent) :
    (es.foldl PathMtuProbe.step p).effective = p.effective ∨
      (es.foldl PathMtuProbe.step p).effective ∈ p.acknowledged es := by
  induction es generalizing p with
  | nil => exact .inl rfl
  | cons e es ih =>
    simp only [foldl_cons, acknowledged, mem_append]
    rcases ih (hp.step e) with hsame | hlater
    · rw [hsame]
      rcases hp.effective_step e with hkept | ⟨rfl, hsize⟩
      · exact .inl hkept
      · exact .inr (.inl (by simpa using hsize))
    · exact .inr (.inr hlater)

/-! ### A path that carries sizes up to a threshold -/

/-- The path carries what is not above `T`, but may lose a probe once. -/
def Carries (T : ℕ) (p : PathMtuProbe) : ProbeEvent → Prop
  | .ack => p.current ≤ T
  | .loss => T < p.current ∨ p.lossCount = 0

instance (T : ℕ) (p : PathMtuProbe) : ∀ e, Decidable (Carries T p e)
  | .ack => inferInstanceAs (Decidable (p.current ≤ T))
  | .loss => inferInstanceAs (Decidable (T < p.current ∨ p.lossCount = 0))

/-- The size in use is carried, the upper end of the window is not. -/
structure Bracket (T : ℕ) (p : PathMtuProbe) : Prop where
  below : p.effective ≤ T
  above : p.high ≠ 0 → T < p.high
  ends : p.isComplete = true → p.steps = [] ∨ p.effective ∈ p.steps.getLast? ∨
    p.high ≠ 0 ∧ p.high ≤ p.effective + probeGranularity

theorem Narrowed.bracket (h : Narrowed p low high q) (hlow : low ≤ T)
    (hhigh : T < high) : Bracket T q := by
  cases h with
  | stop hnarrow =>
    refine ⟨hlow, fun _ => hhigh, fun _ => .inr (.inr ⟨?_, ?_⟩)⟩
    · exact Nat.ne_zero_of_lt hhigh
    · exact Nat.sub_le_iff_le_add'.mp hnarrow
  | halve _ => exact ⟨hlow, fun _ => hhigh, nofun⟩

theorem Bracket.step (hb : Bracket T p) (hp : p.Windowed) (he : Carries T p e) :
    Bracket T (p.step e) := by
  cases hdone : p.isComplete with
  | true =>
    rw [step_complete hdone]
    exact hb
  | false =>
    cases e with
    | ack =>
      have hacked := onProbeAck_acked hdone
      change Bracket T p.onProbeAck
      generalize p.onProbeAck = q at hacked
      cases hacked with
      | bisect hhigh hnarrowed => exact hnarrowed.bracket he (hb.above hhigh)
      | top hladder htop =>
        obtain ⟨hidx, hcur⟩ := List.getElem?_eq_some_iff.mp (hp.rung hdone hladder)
        have hlast : p.ladderIdx = p.steps.length - 1 := by omega
        have hmem : p.steps.getLast? = some p.current := by
          rw [List.getLast?_eq_getElem?, ← hlast]
          exact hp.rung hdone hladder
        exact ⟨he, fun hhigh => absurd hladder hhigh, fun _ => .inr (.inl hmem)⟩
      | climb hladder _ => exact ⟨he, fun hhigh => absurd hladder hhigh, nofun⟩
    | loss =>
      have hlost := onProbeLoss_lost hdone
      change Bracket T p.onProbeLoss
      generalize p.onProbeLoss = q at hlost
      cases hlost with
      | first _ => exact ⟨hb.below, hb.above, hb.ends⟩
      | giveUp hsecond hnarrowed =>
        have habove : T < p.current := he.resolve_right hsecond
        exact hnarrowed.bracket hb.below habove

theorem bracket_make (h : base ≤ T) : Bracket T (make base steps) := by
  unfold make
  split
  · exact ⟨h, nofun, fun _ => .inl rfl⟩
  · exact ⟨h, fun hhigh => absurd rfl hhigh, nofun⟩

theorem step_steps (p : PathMtuProbe) (e : ProbeEvent) : (p.step e).steps = p.steps := by
  cases hdone : p.isComplete with
  | true => rw [step_complete hdone]
  | false =>
    cases e with
    | ack =>
      have hacked := onProbeAck_acked hdone
      change p.onProbeAck.steps = p.steps
      generalize p.onProbeAck = q at hacked
      cases hacked with
      | bisect _ hnarrowed => cases hnarrowed <;> rfl
      | top _ _ => rfl
      | climb _ _ => rfl
    | loss =>
      have hlost := onProbeLoss_lost hdone
      change p.onProbeLoss.steps = p.steps
      generalize p.onProbeLoss = q at hlost
      cases hlost with
      | first _ => rfl
      | giveUp _ hnarrowed => cases hnarrowed <;> rfl

theorem run_steps : (run base steps es).steps = ladder base steps := by
  refine List.foldlRecOn es step (motive := fun p => p.steps = ladder base steps)
    make_steps ?_
  intro p hp e _
  rw [step_steps, hp]

theorem mem_ladder : x ∈ ladder base steps ↔ (x : ℤ) ∈ steps ∧ base < x := by
  simp only [ladder, mem_map, mem_filter, mem_dedup, mem_insertionSort, decide_eq_true_eq]
  constructor
  · rintro ⟨v, ⟨hv, hpos, habove⟩, rfl⟩
    rw [Int.toNat_of_nonneg hpos.le]
    exact ⟨hv, habove⟩
  · rintro ⟨hx, habove⟩
    exact ⟨x, ⟨hx, by omega, by simpa using habove⟩, by simp⟩

theorem largest_of_getLast? (h : x ∈ (ladder base steps).getLast?) :
    (x : ℤ) ∈ steps ∧ ∀ v ∈ steps, v ≤ x := by
  obtain ⟨hstep, habove⟩ := mem_ladder.mp (mem_of_mem_getLast? h)
  refine ⟨hstep, fun v hv => ?_⟩
  by_cases hlow : v ≤ base
  · omega
  · have hrung : v.toNat ∈ ladder base steps := by
      rw [mem_ladder, Int.toNat_of_nonneg (by omega)]
      exact ⟨hv, by omega⟩
    have hle : v.toNat ≤ x := by
      obtain ⟨front, hfront⟩ := List.getLast?_eq_some_iff.mp h
      have hsorted := ladder_sorted base steps
      rw [hfront] at hrung hsorted
      rcases mem_append.mp hrung with hmem | hmem
      · exact (pairwise_append.mp hsorted).2.2 _ hmem x mem_cons_self
      · exact Nat.le_of_eq (mem_singleton.mp hmem)
    omega

theorem above_of_ladder_nil (h : ladder base steps = []) : ∀ v ∈ steps, v ≤ base := by
  intro v hv
  by_contra hlow
  have hrung : v.toNat ∈ ladder base steps := by
    rw [mem_ladder, Int.toNat_of_nonneg (by omega)]
    exact ⟨hv, by omega⟩
  rw [h] at hrung
  exact absurd hrung not_mem_nil

/-- As long as the path carries what is not above `T`, the window stays around `T`. -/
theorem run_bracket (hT : base ≤ T) (h : Along step (Carries T) (make base steps) es) :
    Bracket T (run base steps es) := by
  have hboth : (run base steps es).Windowed ∧ Bracket T (run base steps es) :=
    h.invariant (I := fun p => p.Windowed ∧ Bracket T p)
      (fun p e he hp => ⟨hp.1.step e, hp.2.step hp.1 he⟩)
      ⟨windowed_make base steps, bracket_make hT⟩
  exact hboth.2

/-- **The path-MTU search.** Whatever becomes of its probes, the search takes a bounded number of
events, never lowers the size in use, and uses only the base and acknowledged sizes. Over a path
that carries exactly the sizes up to `T` it ends with the largest step, without a step to try, or
less than the granularity below `T`. -/
theorem search_correct (base : ℕ) (steps : List ℤ) (es : List ProbeEvent) :
    (eventBound base steps ≤ es.length → (run base steps es).isComplete = true) ∧
    (∀ fs, fs <+: es → (run base steps fs).effective ≤ (run base steps es).effective) ∧
    ((run base steps es).effective = base ∨
      (run base steps es).effective ∈ (make base steps).acknowledged es) ∧
    ∀ T, base ≤ T → Along step (Carries T) (make base steps) es →
      (run base steps es).effective ≤ T ∧
      ((run base steps es).isComplete = true →
        (((run base steps es).effective : ℤ) ∈ steps ∧
          ∀ v ∈ steps, v ≤ (run base steps es).effective) ∨
        (∀ v ∈ steps, v ≤ base) ∨
        T - (run base steps es).effective < probeGranularity) := by
  have hstart := windowed_make base steps
  refine ⟨fun hlen => ?_, ?_, ?_, fun T hT hpath => ?_⟩
  · exact hstart.complete_of_work_le ((work_make_le base steps).trans hlen)
  · rintro fs ⟨gs, rfl⟩
    have hlater := (hstart.run fs).le_run gs
    rw [run, run, foldl_append]
    exact hlater
  · have heff := hstart.effective_run es
    rw [make_effective] at heff
    exact heff
  · have hb := run_bracket hT hpath
    refine ⟨hb.below, fun hdone => ?_⟩
    have hends := hb.ends hdone
    rw [run_steps] at hends
    rcases hends with hnone | hlast | ⟨hhigh, hclose⟩
    · exact .inr (.inl (above_of_ladder_nil hnone))
    · exact .inl (largest_of_getLast? hlast)
    · have habove := hb.above hhigh
      exact .inr (.inr (by unfold probeGranularity at hclose ⊢; omega))

/-- Over a path that carries 1350 bytes the search loses a probe, climbs to 1280, gives up 1400
and halves its way to 1347. -/
def searchOf1350 : List ProbeEvent :=
  [.loss, .ack, .loss, .loss, .ack, .loss, .loss, .loss, .loss, .ack]

theorem search_of_1350 :
    Along step (Carries 1350) (make 1200 [1280, 1400]) searchOf1350 ∧
      (run 1200 [1280, 1400] searchOf1350).isComplete = true ∧
      (run 1200 [1280, 1400] searchOf1350).effective ≤ 1350 :=
  ⟨by decide, by decide,
    ((search_correct 1200 [1280, 1400] searchOf1350).2.2.2 1350 (by decide) (by decide)).1⟩

end PathMtuProbe

end LinkIce
