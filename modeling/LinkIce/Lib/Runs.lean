import Mathlib.Data.List.Infix

/-! Runs of a deterministic machine, and conditions on each of their steps. -/
namespace LinkIce

variable {S E α : Type*} {step : S → E → S} {P Q : S → E → Prop} {I : S → Prop} {s : S} {G : Type*}
  {es fs : List E} {f : S → E → ℕ}

/-- `P` holds of the state and the event at every step of the run. -/
def Along (step : S → E → S) (P : S → E → Prop) : S → List E → Prop
  | _, [] => True
  | s, e :: es => P s e ∧ Along step P (step s e) es

instance decidableAlong [∀ s e, Decidable (P s e)] : ∀ s es, Decidable (Along step P s es)
  | _, [] => isTrue trivial
  | s, e :: es =>
    have := decidableAlong (step s e) es
    inferInstanceAs (Decidable (P s e ∧ Along step P (step s e) es))

theorem along_append :
    Along step P s (es ++ fs) ↔ Along step P s es ∧ Along step P (es.foldl step s) fs := by
  induction es generalizing s with
  | nil => simp [Along]
  | cons e es ih => simp only [List.cons_append, Along, ih, List.foldl_cons, and_assoc]

theorem Along.restrict (h : Along step P s fs) (hp : es <+: fs) : Along step P s es := by
  obtain ⟨gs, rfl⟩ := hp
  exact (along_append.mp h).1

theorem along_iff_each_step :
    Along step P s es ↔ ∀ fs e, fs ++ [e] <+: es → P (fs.foldl step s) e := by
  constructor
  · intro h fs e hp
    exact (along_append.mp (h.restrict hp)).2.1
  · intro h
    induction es generalizing s with
    | nil => trivial
    | cons e es ih =>
      refine ⟨h [] e (by simp), ih fun fs f hp => ?_⟩
      exact h (e :: fs) f (by simpa using hp)

theorem Along.and (hP : Along step P s es) (hQ : Along step Q s es) :
    Along step (fun s e => P s e ∧ Q s e) s es := by
  induction es generalizing s with
  | nil => trivial
  | cons e es ih => exact ⟨⟨hP.1, hQ.1⟩, ih hP.2 hQ.2⟩

/-- A property that every permitted step keeps holds at the end of the run. -/
theorem Along.invariant (h : Along step P s es)
    (hI : ∀ s e, P s e → I s → I (step s e)) (hs : I s) : I (es.foldl step s) := by
  induction es generalizing s with
  | nil => exact hs
  | cons e es ih => exact ih h.2 (hI s e h.1 hs)

theorem Along.reached {e : E} (h : Along step P s es)
    (hI : ∀ s e, P s e → I s → I (step s e)) (hf : fs ++ [e] <+: es)
    (he : I (step (fs.foldl step s) e)) : I (es.foldl step s) := by
  obtain ⟨gs, rfl⟩ := hf
  rw [List.foldl_append]
  apply (along_append.mp h).2.invariant hI
  rw [List.foldl_append]
  exact he

/-- The machine with a history variable, which it writes and never reads. -/
def withHistory {G : Type*} (step : S → E → S) (note : G → S → E → G) (w : S × G) (e : E) :
    S × G :=
  (step w.1 e, note w.2 w.1 e)

theorem withHistory_fst (note : G → S → E → G) (w : S × G) (es : List E) :
    (es.foldl (withHistory step note) w).1 = es.foldl step w.1 := by
  induction es generalizing w with
  | nil => rfl
  | cons e es ih => exact ih _

theorem along_withHistory {note : G → S → E → G} {w : S × G} :
    Along (withHistory step note) (fun w e => P w.1 e) w es ↔ Along step P w.1 es := by
  induction es generalizing w with
  | nil => rfl
  | cons e es ih => exact and_congr_right fun _ => ih

theorem along_forall {R : α → S → E → Prop} :
    (∀ a, Along step (R a) s es) ↔ Along step (fun s e => ∀ a, R a s e) s es := by
  simp only [along_iff_each_step]
  exact ⟨fun h fs e hp a => h a fs e hp, fun h a fs e hp => h fs e hp a⟩

def tally (step : S → E → S) (f : S → E → ℕ) : S → List E → ℕ
  | _, [] => 0
  | s, e :: es => f s e + tally step f (step s e) es

theorem tally_eq_zero_iff : tally step f s es = 0 ↔ Along step (fun s e => f s e = 0) s es := by
  induction es generalizing s with
  | nil => exact ⟨fun _ => trivial, fun _ => rfl⟩
  | cons e es ih => rw [tally, Nat.add_eq_zero_iff, ih, Along]

theorem Along.invariant_tally {I : ℕ → S → Prop} {n : ℕ}
    (h : Along step P s es) (hI : ∀ n s e, P s e → I n s → I (n + f s e) (step s e))
    (hs : I n s) : I (n + tally step f s es) (es.foldl step s) := by
  induction es generalizing s n with
  | nil => exact hs
  | cons e es ih =>
    have hrest := ih h.2 (hI n s e h.1 hs)
    rw [Nat.add_assoc] at hrest
    exact hrest

theorem along_congr (hI : ∀ s e, P s e → I s → I (step s e)) (hs : I s)
    (h : ∀ s e, I s → (Q s e ↔ P s e)) : Along step Q s es ↔ Along step P s es := by
  induction es generalizing s with
  | nil => rfl
  | cons e es ih =>
    simp only [Along, h s e hs]
    exact and_congr_right fun hp => ih (hI s e hp hs)

/-- Some step of the run meets `P`. -/
def Later (step : S → E → S) (P : S → E → Prop) : S → List E → Prop
  | _, [] => False
  | s, e :: es => P s e ∨ Later step P (step s e) es

/-- Whatever a step opens, a later one closes. -/
def Matched {α : Type*} (step : S → E → S) (opens closes : α → S → E → Prop) : S → List E → Prop
  | _, [] => True
  | s, e :: es => (∀ a, opens a s e → Later step (closes a) (step s e) es) ∧
      Matched step opens closes (step s e) es

/-- Nothing is left open just if whatever was open, or is opened, is closed later. -/
theorem none_open_iff_matched {M : α → S → Prop} {opens closes : α → S → E → Prop}
    (h : ∀ a s e, M a (step s e) ↔ M a s ∧ ¬ closes a s e ∨ opens a s e) :
    (∀ a, ¬ M a (es.foldl step s)) ↔
      (∀ a, M a s → Later step (closes a) s es) ∧ Matched step opens closes s es := by
  induction es generalizing s with
  | nil => simp [Later, Matched]
  | cons e es ih =>
    simp only [List.foldl_cons, ih, Later, Matched, h, ← and_assoc]
    refine and_congr_left fun _ => ⟨fun hall => ⟨fun a ha => ?_, fun a ha => hall a (.inr ha)⟩, ?_⟩
    · by_cases hc : closes a s e
      · exact .inl hc
      · exact .inr (hall a (.inl ⟨ha, hc⟩))
    · rintro ⟨hold, hnew⟩ a (⟨ha, hc⟩ | ha)
      · exact (hold a ha).resolve_left hc
      · exact hnew a ha

/-- If exactly the steps that meet `P` keep `I`, then exactly the runs that meet `P`
throughout stay in `I`. -/
theorem forall_prefix_iff_along (h : ∀ s e, I s → (I (step s e) ↔ P s e))
    (hs : I s) : (∀ fs, fs <+: es → I (fs.foldl step s)) ↔ Along step P s es := by
  constructor
  · intro hI
    induction es generalizing s with
    | nil => trivial
    | cons e es ih =>
      have he : I (step s e) := hI [e] (by simp)
      exact ⟨(h s e hs).mp he, ih he fun fs hfs => hI (e :: fs) (by simpa using hfs)⟩
  · intro hP fs hfs
    exact (hP.restrict hfs).invariant (fun s e hp hs => (h s e hs).mpr hp) hs

theorem observed_iff_along {G J : S → Prop}
    (hgood : ∀ s e, G (step s e) → G s) (hJ : ∀ s e, J s → J (step s e))
    (hI : ∀ s e, P s e → I s → I (step s e)) (hwell : ∀ s, I s → G s)
    (hbad : ∀ s e, J s → ¬ P s e → ¬ G (step s e)) (hj : J s) (hi : I s) :
    G (es.foldl step s) ↔ Along step P s es := by
  have hback (s : S) (es : List E) (h : G (es.foldl step s)) : G s := by
    induction es generalizing s with
    | nil => exact h
    | cons e es ih => exact hgood s e (ih _ h)
  constructor
  · intro h
    clear hi
    induction es generalizing s with
    | nil => trivial
    | cons e es ih =>
      refine ⟨?_, ih (hJ s e hj) h⟩
      by_contra hp
      exact hbad s e hj hp (hback _ es h)
  · intro h
    exact hwell _ (h.invariant hI hi)

end LinkIce
