import Mathlib.Data.List.Forall2

/-! Pointwise relations between lists. -/
namespace LinkIce

open List

variable {α : Type*} {R : α → α → Prop} {a b : α} {as bs : List α} {f : α → α} {i : ℕ}

theorem forall₂_refl (hR : ∀ a, R a a) (as : List α) : List.Forall₂ R as as :=
  List.forall₂_same.mpr fun a _ => hR a

theorem forall₂_trans (hR : ∀ a b c, R a b → R b c → R a c) {as bs cs : List α}
    (hab : List.Forall₂ R as bs) (hbc : List.Forall₂ R bs cs) : List.Forall₂ R as cs := by
  induction hab generalizing cs with
  | nil => exact hbc
  | cons h _ ih =>
    cases hbc with
    | cons h' htl => exact .cons (hR _ _ _ h h') (ih htl)

theorem forall₂_and {S : α → α → Prop} (hR : List.Forall₂ R as bs)
    (hS : List.Forall₂ S as bs) : List.Forall₂ (fun a b => R a b ∧ S a b) as bs := by
  induction hR with
  | nil => exact .nil
  | cons h _ ih =>
    cases hS with
    | cons h' htl => exact .cons ⟨h, h'⟩ (ih htl)

/-- Every element on the right has a partner on the left. -/
theorem exists_left_of_mem (h : List.Forall₂ R as bs) (hb : b ∈ bs) : ∃ a ∈ as, R a b := by
  induction h with
  | nil => simp at hb
  | @cons a b' _ _ hab _ ih =>
    rcases mem_cons.mp hb with rfl | hb
    · exact ⟨a, by simp, hab⟩
    · obtain ⟨a', ha', hr⟩ := ih hb
      exact ⟨a', by simp [ha'], hr⟩

/-- Every element on the left has a partner on the right. -/
theorem exists_right_of_mem (h : List.Forall₂ R as bs) (ha : a ∈ as) : ∃ b ∈ bs, R a b := by
  obtain ⟨b, hb, hr⟩ := exists_left_of_mem (R := fun b a => R a b) h.flip ha
  exact ⟨b, hb, hr⟩

theorem countP_le_of_forall₂ {p : α → Bool} (hR : ∀ a b, R a b → p b = true → p a = true)
    (h : List.Forall₂ R as bs) : bs.countP p ≤ as.countP p := by
  induction h with
  | nil => exact Nat.le_refl _
  | @cons a b _ _ hab _ ih =>
    rw [countP_cons, countP_cons]
    by_cases hb : p b = true
    · rw [if_pos hb, if_pos (hR a b hab hb)]
      omega
    · rw [if_neg hb]
      omega

theorem countP_modify_le (p : α → Bool) (f : α → α) (as : List α) (i : ℕ) :
    (as.modify i f).countP p ≤ as.countP p + 1 := by
  induction as generalizing i with
  | nil => simp
  | cons a as ih =>
    cases i with
    | zero =>
      simp only [modify_zero_cons, countP_cons]
      split_ifs <;> omega
    | succ i =>
      have := ih i
      simp only [modify_succ_cons, countP_cons]
      omega

/-- What a list holds after one of its elements was written. -/
theorem exists_left_of_getElem? (h : List.Forall₂ R as bs)
    (hb : bs[i]? = some b) : ∃ a, as[i]? = some a ∧ R a b := by
  obtain ⟨hlt, rfl⟩ := List.getElem?_eq_some_iff.mp hb
  have hlt' : i < as.length := h.length_eq ▸ hlt
  exact ⟨as[i], List.getElem?_eq_getElem hlt', h.get hlt' hlt⟩

theorem exists_right_of_getElem? (h : List.Forall₂ R as bs)
    (ha : as[i]? = some a) : ∃ b, bs[i]? = some b ∧ R a b := by
  obtain ⟨hlt, rfl⟩ := List.getElem?_eq_some_iff.mp ha
  have hlt' : i < bs.length := h.length_eq ▸ hlt
  exact ⟨bs[i], List.getElem?_eq_getElem hlt', h.get hlt hlt'⟩

theorem mem_modify (h : b ∈ as.modify i f) : b ∈ as ∨ ∃ a, as[i]? = some a ∧ b = f a := by
  obtain ⟨j, hj⟩ := mem_iff_getElem?.mp h
  rw [List.getElem?_modify] at hj
  obtain ⟨a, ha, rfl⟩ := Option.map_eq_some_iff.mp hj
  split_ifs with hij
  · exact .inr ⟨a, hij ▸ ha, rfl⟩
  · exact .inl (mem_of_getElem? ha)

/-- Writing one element keeps a reflexive relation that the write keeps. -/
theorem forall₂_modify_at (hR : ∀ a, R a a)
    (hf : ∀ a, as[i]? = some a → R a (f a)) : List.Forall₂ R as (as.modify i f) := by
  induction as generalizing i with
  | nil => simp
  | cons a as ih =>
    cases i with
    | zero => exact .cons (hf a rfl) (forall₂_refl hR as)
    | succ i => exact .cons (hR a) (ih fun b hb => hf b hb)

theorem forall₂_modify (hR : ∀ a, R a a) (hf : ∀ a, R a (f a)) (as : List α) (i : ℕ) :
    List.Forall₂ R as (as.modify i f) :=
  forall₂_modify_at hR fun a _ => hf a

end LinkIce
