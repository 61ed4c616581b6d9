import LinkIce.Lib.Bytes
import Mathlib.Data.List.Basic
import Mathlib.Data.List.TakeWhile

/-! Fields of fixed size in a byte string: integers, zero-padded strings and arrays of
blocks. -/
namespace LinkIce

open List

variable {b : Bytes} {n : ℕ}

theorem ofNat_mul_add_toNat {a : UInt8} : UInt8.ofNat (n * 256 + a.toNat) = a := by
  apply UInt8.toNat_inj.mp
  have ha := a.toNat_lt
  rw [UInt8.toNat_ofNat']
  omega

/-- Reading and writing an integer gives its bytes back. -/
theorem be16_read16 (h : 2 ≤ b.length) : be16 (read16 b) = b.take 2 := by
  match b, h with
  | a₀ :: a₁ :: rest, _ =>
    have h₁ := a₁.toNat_lt
    have hdiv : (a₀.toNat * 256 + a₁.toNat) / 256 = a₀.toNat := by omega
    simp only [read16, be16, hdiv, UInt8.ofNat_toNat, ofNat_mul_add_toNat, take_succ_cons,
      take_zero]

theorem be32_read32 (h : 4 ≤ b.length) : be32 (read32 b) = b.take 4 := by
  match b, h with
  | a₀ :: a₁ :: a₂ :: a₃ :: rest, _ =>
    have h₁ := a₁.toNat_lt
    have h₂ := a₂.toNat_lt
    have h₃ := a₃.toNat_lt
    have e₀ : (a₀.toNat * 2 ^ 24 + a₁.toNat * 2 ^ 16 + a₂.toNat * 2 ^ 8 + a₃.toNat) / 2 ^ 24 =
        a₀.toNat := by omega
    have e₁ : (a₀.toNat * 2 ^ 24 + a₁.toNat * 2 ^ 16 + a₂.toNat * 2 ^ 8 + a₃.toNat) / 2 ^ 16 =
        a₀.toNat * 256 + a₁.toNat := by omega
    have e₂ : (a₀.toNat * 2 ^ 24 + a₁.toNat * 2 ^ 16 + a₂.toNat * 2 ^ 8 + a₃.toNat) / 2 ^ 8 =
        (a₀.toNat * 256 + a₁.toNat) * 256 + a₂.toNat := by omega
    have e₃ : a₀.toNat * 2 ^ 24 + a₁.toNat * 2 ^ 16 + a₂.toNat * 2 ^ 8 + a₃.toNat =
        ((a₀.toNat * 256 + a₁.toNat) * 256 + a₂.toNat) * 256 + a₃.toNat := by omega
    simp only [read32, be32, e₀, e₁, e₂]
    rw [e₃]
    simp only [UInt8.ofNat_toNat, ofNat_mul_add_toNat, take_succ_cons, take_zero]

theorem be16_mod (n : ℕ) : be16 (n % 2 ^ 16) = be16 n := by
  have hread := read16_be16 n []
  rw [append_nil] at hread
  have hwrite := be16_read16 (Nat.le_of_eq (length_be16 n).symm)
  rw [hread] at hwrite
  exact hwrite

theorem be32_mod (n : ℕ) : be32 (n % 2 ^ 32) = be32 n := by
  have hread := read32_be32 n []
  rw [append_nil] at hread
  have hwrite := be32_read32 (Nat.le_of_eq (length_be32 n).symm)
  rw [hread] at hwrite
  exact hwrite

theorem read32_lt (b : Bytes) : read32 b < 2 ^ 32 := by
  unfold read32
  split
  · rename_i a b c d _
    have ha := a.toNat_lt
    have hb := b.toNat_lt
    have hc := c.toNat_lt
    have hd := d.toNat_lt
    omega
  · omega

/-! ### Zero-padded strings -/

def cstr (b : Bytes) : Bytes := b.takeWhile (· ≠ 0)

theorem cstr_eq_self (h : 0 ∉ b) : cstr b = b := by
  refine takeWhile_eq_self_iff.mpr fun a ha => ?_
  have hne : a ≠ 0 := by
    rintro rfl
    exact h ha
  simpa using hne

theorem zero_notMem_cstr : 0 ∉ cstr b := fun h => by
  have hne := mem_takeWhile_imp h
  simp at hne

theorem ofBytes_eq (h : b.length ≤ n) :
    (Block.ofBytes n b).1 = b ++ List.replicate (n - b.length) 0 := by
  have hlen : min (n - b.length) n = n - b.length := by omega
  have htake : (b ++ List.replicate n (0 : UInt8)).take n =
      b ++ List.replicate (n - b.length) 0 := by
    rw [List.take_append, take_of_length_le h, take_replicate, hlen]
  exact htake

theorem ofBytes_append (x : Block n) (rest : Bytes) : Block.ofBytes n (x.1 ++ rest) = x := by
  apply Subtype.ext
  simp only [Block.ofBytes, append_assoc]
  exact take_left' x.2

theorem cstr_ofBytes (hn : b.length ≤ n) (h : 0 ∉ b) : cstr (Block.ofBytes n b).1 = b := by
  have hpad : (List.replicate (n - b.length) (0 : UInt8)).takeWhile (· ≠ 0) = [] := by
    cases n - b.length with
    | zero => rfl
    | succ k => simp [replicate_succ]
  have hself := cstr_eq_self h
  unfold cstr at hself ⊢
  rw [ofBytes_eq hn, takeWhile_append, hself, if_pos rfl, hpad, append_nil]

/-! ### Arrays of blocks -/

def blocks (n : ℕ) : ℕ → Bytes → List (Block n)
  | 0, _ => []
  | count + 1, data => Block.ofBytes n data :: blocks n count (data.drop n)

theorem length_blocks {n count : ℕ} {data : Bytes} : (blocks n count data).length = count := by
  induction count generalizing data with
  | zero => rfl
  | succ count ih => rw [blocks, length_cons, ih]

theorem length_flatMap_of_size {α : Type} {f : α → Bytes} (hf : ∀ x, (f x).length = n)
    {xs : List α} : (xs.flatMap f).length = xs.length * n := by
  induction xs with
  | nil => simp
  | cons x xs ih =>
    rw [flatMap_cons, length_append, hf, ih, length_cons, Nat.succ_mul, Nat.add_comm]

theorem blocks_flatMap (xs : List (Block n)) (rest : Bytes) :
    blocks n xs.length (xs.flatMap (·.1) ++ rest) = xs := by
  induction xs with
  | nil => rfl
  | cons x xs ih =>
    rw [flatMap_cons, append_assoc, length_cons, blocks, ofBytes_append, drop_left' x.2, ih]

end LinkIce
