import Mathlib.Data.Set.Basic

/-! Finite paths of a labelled step relation and the invariant rules for them. A step
without a label is always permitted; a labelled one only if its label is in the set the
path is indexed by. -/
namespace LinkIce

variable {S L : Type*}

inductive Path (step : S → Option L → S → Prop) (A : Set L) : S → S → Prop
  | refl (s : S) : Path step A s s
  | tail {s t u : S} {l : Option L} (hp : Path step A s t) (hs : step t l u)
      (ha : ∀ a ∈ l, a ∈ A) : Path step A s u

namespace Path

variable {step : S → Option L → S → Prop} {A B : Set L} {s t u : S}

theorem trans (hst : Path step A s t) (htu : Path step A t u) : Path step A s u := by
  induction htu with
  | refl => exact hst
  | tail _ hs ha ih => exact ih.tail hs ha

theorem after (htu : Path step A t u) (hst : Path step A s t) : Path step A s u := hst.trans htu

theorem silent (h : step s none t) : Path step A s t :=
  (refl s).tail h (by simp)

theorem visible {l : L} (h : step s (some l) t) (ha : l ∈ A) : Path step A s t :=
  (refl s).tail h (by simpa using ha)

theorem of_eq (h : s = t) : Path step A s t := h ▸ refl s

theorem mono (hAB : A ⊆ B) (h : Path step A s t) : Path step B s t := by
  induction h with
  | refl => exact refl s
  | tail _ hs ha ih => exact ih.tail hs fun a hl => hAB (ha a hl)

/-- A property that every permitted step keeps holds at the end of the path. -/
theorem invariant {I : S → Prop} (h : Path step A s t)
    (hI : ∀ {u v : S} {l : Option L}, (∀ a ∈ l, a ∈ A) → step u l v → I u → I v) (hs : I s) :
    I t := by
  induction h with
  | refl => exact hs
  | tail _ hst ha ih => exact hI ha hst ih

theorem foldl {α : Type*} {f : S → α → S} (hf : ∀ s a, Path step A s (f s a)) (as : List α)
    (s : S) : Path step A s (as.foldl f s) := by
  induction as generalizing s with
  | nil => exact refl s
  | cons a as ih => exact (hf s a).trans (ih (f s a))

end Path

end LinkIce
