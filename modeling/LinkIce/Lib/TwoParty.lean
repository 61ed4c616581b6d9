import LinkIce.Lib.Runs
import Mathlib.Data.List.Basic
import Mathlib.Logic.Function.Basic

/-! Two agents of one kind and the messages on their way between them. A message may arrive
at any time and in any order; whether it may also get lost or arrive more than once depends
on the moves that a run is allowed to make. -/
namespace LinkIce

open Option

inductive Side
  | left | right
  deriving DecidableEq, Repr

namespace Side

def other : Side → Side
  | left => right
  | right => left

@[simp] theorem other_other {x : Side} : x.other.other = x := by cases x <;> rfl

theorem other_ne (x : Side) : x.other ≠ x := by cases x <;> decide

theorem eq_or_eq_other (x y : Side) : y = x ∨ y = x.other := by
  cases x <;> cases y <;> decide

instance decidableForall {p : Side → Prop} [DecidablePred p] : Decidable (∀ x, p x) :=
  decidable_of_iff (p .left ∧ p .right)
    ⟨fun h x => by cases x; exacts [h.1, h.2], fun h => ⟨h .left, h .right⟩⟩

end Side

variable {S M E : Type*}

/-- Both agents, and for each of them the messages on their way to it. -/
structure Duo (S M : Type*) where
  agent : Side → S
  inbox : Side → List M

/-- Something happens at an agent, a message arrives at it and may do so again, or a message
gets lost. -/
inductive NetMove (E M : Type*)
  | act (x : Side) (e : E)
  | deliver (x : Side) (m : M) (again : Bool) (e : E)
  | lose (x : Side) (m : M)

/-- Where the move takes place, and what happens there. -/
def NetMove.event : NetMove E M → Option (Side × E)
  | act x e | deliver x _ _ e => some (x, e)
  | lose _ _ => none

namespace Duo

variable {sent : S → S → List M} {d : Duo S M}
  {x y : Side} {t : S} {m : M}

/-- Agent `x` gets into state `t`. What it has sent on the way there is in flight. -/
def put (sent : S → S → List M) (x : Side) (t : S) (d : Duo S M) : Duo S M where
  agent := Function.update d.agent x t
  inbox := Function.update d.inbox x.other (sent (d.agent x) t ++ d.inbox x.other)

@[simp] theorem put_agent_self : (d.put sent x t).agent x = t := Function.update_self ..

@[simp] theorem put_agent_other : (d.put sent x t).agent x.other = d.agent x.other :=
  Function.update_of_ne x.other_ne ..

@[simp] theorem put_inbox_self : (d.put sent x t).inbox x = d.inbox x :=
  Function.update_of_ne x.other_ne.symm ..

@[simp] theorem put_inbox_other :
    (d.put sent x t).inbox x.other = sent (d.agent x) t ++ d.inbox x.other :=
  Function.update_self ..

variable [DecidableEq M] {n : M}

def drop (x : Side) (m : M) (d : Duo S M) : Duo S M :=
  { d with inbox := Function.update d.inbox x ((d.inbox x).erase m) }

def move (step : Side → S → E → S) (sent : S → S → List M) (d : Duo S M) : NetMove E M → Duo S M
  | .act x e => d.put sent x (step x (d.agent x) e)
  | .deliver x m again e =>
    (if again then d else d.drop x m).put sent x (step x (d.agent x) e)
  | .lose x m => d.drop x m

theorem drop_inbox_self : (d.drop x m).inbox x = (d.inbox x).erase m := Function.update_self ..

theorem drop_inbox_of_ne (h : y ≠ x) : (d.drop x m).inbox y = d.inbox y :=
  Function.update_of_ne h ..

theorem mem_of_mem_drop (h : n ∈ (d.drop x m).inbox y) : n ∈ d.inbox y := by
  by_cases hxy : y = x
  · rw [hxy, drop_inbox_self] at h
    rw [hxy]
    exact List.mem_of_mem_erase h
  · rwa [drop_inbox_of_ne hxy] at h

theorem mem_drop_of_ne (h : n ∈ d.inbox y) (hn : n ≠ m ∨ y ≠ x) : n ∈ (d.drop x m).inbox y := by
  by_cases hxy : y = x
  · rw [hxy] at h ⊢
    rw [drop_inbox_self]
    exact (List.mem_erase_of_ne (hn.resolve_right (not_not.mpr hxy))).mpr h
  · rwa [drop_inbox_of_ne hxy]

section move

variable {step : Side → S → E → S} {mv : NetMove E M} {e : E}

/-- A move at `x` runs the event there, and perhaps takes a message out of the inbox. -/
theorem move_eq_put (h : mv.event = some (x, e)) :
    ∃ d₁ : Duo S M, (d₁ = d ∨ ∃ m, d₁ = d.drop x m) ∧
      d.move step sent mv = d₁.put sent x (step x (d.agent x) e) := by
  cases mv with
  | act y f =>
    obtain ⟨rfl, rfl⟩ := Prod.mk.inj (some.inj h)
    exact ⟨d, .inl rfl, rfl⟩
  | deliver y m again f =>
    obtain ⟨rfl, rfl⟩ := Prod.mk.inj (some.inj h)
    cases again with
    | true => exact ⟨d, .inl rfl, rfl⟩
    | false => exact ⟨d.drop y m, .inr ⟨m, rfl⟩, rfl⟩
  | lose => cases h

theorem move_agent_self (h : mv.event = some (x, e)) :
    (d.move step sent mv).agent x = step x (d.agent x) e := by
  obtain ⟨d₁, -, hmv⟩ := move_eq_put h
  rw [hmv, put_agent_self]

theorem move_agent_other (h : mv.event = some (x, e)) :
    (d.move step sent mv).agent x.other = d.agent x.other := by
  obtain ⟨d₁, rfl | ⟨m, rfl⟩, hmv⟩ := move_eq_put h
  all_goals
    rw [hmv, put_agent_other]
  rfl

theorem mem_move_self (h : mv.event = some (x, e))
    (hn : n ∈ (d.move step sent mv).inbox x) : n ∈ d.inbox x := by
  obtain ⟨d₁, hd, hmv⟩ := move_eq_put h
  rw [hmv, put_inbox_self] at hn
  rcases hd with rfl | ⟨m, rfl⟩
  · exact hn
  · exact mem_of_mem_drop hn

theorem move_inbox_other (h : mv.event = some (x, e)) :
    (d.move step sent mv).inbox x.other =
      sent (d.agent x) (step x (d.agent x) e) ++ d.inbox x.other := by
  obtain ⟨d₁, rfl | ⟨m, rfl⟩, hmv⟩ := move_eq_put h
  all_goals
    rw [hmv, put_inbox_other]
  rw [drop_inbox_of_ne x.other_ne]
  rfl

theorem mem_move (hn : n ∈ (d.move step sent mv).inbox x) :
    n ∈ d.inbox x ∨ ∃ e, mv.event = some (x.other, e) ∧
      n ∈ sent (d.agent x.other) (step x.other (d.agent x.other) e) := by
  cases hy : mv.event with
  | none =>
    cases mv with
    | lose => exact .inl (mem_of_mem_drop hn)
    | _ => cases hy
  | some ye =>
    obtain ⟨y, e⟩ := ye
    rcases x.eq_or_eq_other y with rfl | rfl
    · exact .inl (mem_move_self hy hn)
    · have hbox : (d.move step sent mv).inbox x.other.other = _ := move_inbox_other hy
      rw [Side.other_other] at hbox
      rw [hbox] at hn
      exact (List.mem_append.mp hn).symm.imp_right fun hn => ⟨e, rfl, hn⟩

theorem mem_move_of_ne (h : mv.event = some (x, e)) (hn : n ∈ d.inbox x)
    (hne : ∀ m again, mv = .deliver x m again e → n ≠ m) :
    n ∈ (d.move step sent mv).inbox x := by
  cases mv with
  | act y f =>
    obtain ⟨rfl, rfl⟩ := Prod.mk.inj (some.inj h)
    rwa [move, put_inbox_self]
  | deliver y m again f =>
    obtain ⟨rfl, rfl⟩ := Prod.mk.inj (some.inj h)
    rw [move, put_inbox_self]
    cases again with
    | true => exact hn
    | false => exact mem_drop_of_ne hn (.inl (hne m false rfl))
  | lose => cases h

end move

end Duo

end LinkIce
