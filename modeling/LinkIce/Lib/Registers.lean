import Mathlib.Data.List.Induction

/-! A register that some events write and some events clear. -/
namespace LinkIce

open List Option

variable {E V : Type*} {write : E → Option V} {clears : E → Bool} {d v : V} {es fs : List E} {e : E}

/-- The value after the events when nothing clears the register. -/
def lastWrite (write : E → Option V) (v : V) (es : List E) : V :=
  es.foldl (fun v e => (write e).getD v) v

/-- The value after the events when a clearing event first puts `d` back. -/
def lastWriteSince (write : E → Option V) (clears : E → Bool) (d v : V) (es : List E) : V :=
  es.foldl (fun v e => (write e).getD (if clears e then d else v)) v

theorem lastWrite_append :
    lastWrite write v (es ++ fs) = lastWrite write (lastWrite write v es) fs :=
  foldl_append

theorem lastWrite_concat : lastWrite write v (es ++ [e]) = (write e).getD (lastWrite write v es) :=
  lastWrite_append

theorem lastWriteSince_append : lastWriteSince write clears d v (es ++ fs) =
    lastWriteSince write clears d (lastWriteSince write clears d v es) fs :=
  foldl_append

theorem lastWriteSince_concat : lastWriteSince write clears d v (es ++ [e]) =
    (write e).getD (if clears e then d else lastWriteSince write clears d v es) :=
  lastWriteSince_append

theorem lastWrite_of_unwritten (h : ∀ e ∈ es, write e = none) : lastWrite write v es = v := by
  induction es with
  | nil => rfl
  | cons e es ih =>
    have htail := ih fun f hf => h f (mem_cons_of_mem e hf)
    simpa only [lastWrite, foldl_cons, h e mem_cons_self, getD_none] using htail

theorem lastWriteSince_of_unwritten (h : ∀ e ∈ es, write e = none) :
    lastWriteSince write clears d d es = d := by
  induction es with
  | nil => rfl
  | cons e es ih =>
    have htail := ih fun f hf => h f (mem_cons_of_mem e hf)
    simpa only [lastWriteSince, foldl_cons, h e mem_cons_self, getD_none, ite_self] using htail

/-- Clearing makes no difference when each clearing event is followed by a write or finds the
register as it leaves it. -/
theorem lastWriteSince_eq_lastWrite_iff :
    lastWriteSince write clears d d es = lastWrite write d es ↔
      ∀ pre e post, es = pre ++ e :: post → clears e = true →
        (∃ f ∈ e :: post, (write f).isSome = true) ∨ lastWrite write d pre = d := by
  constructor
  · rintro h pre e post rfl he
    by_cases hw : ∃ f ∈ e :: post, (write f).isSome = true
    · exact .inl hw
    · have hnone : ∀ f ∈ e :: post, write f = none := by
        intro f hf
        rw [← not_isSome_iff_eq_none]
        exact fun hs => hw ⟨f, hf, hs⟩
      have hcleared : lastWriteSince write clears d d (pre ++ e :: post) = d := by
        have hpost : ∀ f ∈ post, write f = none := fun f hf => hnone f (mem_cons_of_mem e hf)
        rw [append_cons, lastWriteSince_append, lastWriteSince_concat,
          hnone e mem_cons_self, getD_none, if_pos he]
        exact lastWriteSince_of_unwritten hpost
      rw [hcleared, lastWrite_append, lastWrite_of_unwritten hnone] at h
      exact .inr h.symm
  · intro h
    induction es using List.reverseRecOn with
    | nil => rfl
    | append_singleton es e ih =>
      rw [lastWriteSince_concat, lastWrite_concat]
      cases hw : write e with
      | some w => rfl
      | none =>
        simp only [getD_none]
        split_ifs with he
        · have hlast := h es e [] rfl he
          simp only [mem_singleton, exists_eq_left, hw, isSome_none,
            Bool.false_eq_true, false_or] at hlast
          exact hlast.symm
        · refine ih fun pre c post hes hc => ?_
          have hmore := h pre c (post ++ [e]) (by simp [hes]) hc
          refine hmore.imp_left ?_
          rintro ⟨f, hf, hs⟩
          rw [← cons_append, mem_append, mem_singleton] at hf
          obtain hf | rfl := hf
          · exact ⟨f, hf, hs⟩
          · simp [hw] at hs

end LinkIce
