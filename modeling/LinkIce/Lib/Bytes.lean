import Mathlib.Algebra.GroupWithZero.Nat
import Mathlib.Data.Nat.Basic
import Mathlib.Tactic.SplitIfs

/-! Byte strings, fixed-size blocks and big-endian integers. -/
namespace LinkIce

open List

abbrev Bytes := List UInt8

instance : LawfulBEq Bytes := inferInstance

abbrev Block (n : ℕ) := {b : Bytes // b.length = n}

def Block.zero (n : ℕ) : Block n := ⟨List.replicate n 0, length_replicate⟩

/-- The first `n` bytes of `b`, padded with zeros when `b` is shorter. -/
def Block.ofBytes (n : ℕ) (b : Bytes) : Block n :=
  ⟨(b ++ List.replicate n 0).take n, by simp⟩

def be16 (n : ℕ) : Bytes := [UInt8.ofNat (n / 256), UInt8.ofNat n]

def be32 (n : ℕ) : Bytes :=
  [UInt8.ofNat (n / 2 ^ 24), UInt8.ofNat (n / 2 ^ 16), UInt8.ofNat (n / 2 ^ 8), UInt8.ofNat n]

def be64 (n : ℕ) : Bytes := be32 (n / 2 ^ 32) ++ be32 n

/-- Big-endian reads. Every caller checks the length first. -/
def read16 : Bytes → ℕ
  | a :: b :: _ => a.toNat * 256 + b.toNat
  | _ => 0

def read32 : Bytes → ℕ
  | a :: b :: c :: d :: _ =>
    a.toNat * 2 ^ 24 + b.toNat * 2 ^ 16 + c.toNat * 2 ^ 8 + d.toNat
  | _ => 0

def read64 (b : Bytes) : ℕ := read32 b * 2 ^ 32 + read32 (b.drop 4)

def align4 (n : ℕ) : ℕ := (n + 3) / 4 * 4

@[simp] theorem length_be16 (n : ℕ) : (be16 n).length = 2 := rfl

@[simp] theorem length_be32 (n : ℕ) : (be32 n).length = 4 := rfl

@[simp] theorem length_be64 (n : ℕ) : (be64 n).length = 8 := rfl

theorem le_align4 (n : ℕ) : n ≤ align4 n := by
  unfold align4
  omega

theorem align4_mod (n : ℕ) : align4 n % 4 = 0 := by
  unfold align4
  omega

theorem read16_be16 (n : ℕ) (rest : Bytes) : read16 (be16 n ++ rest) = n % 65536 := by
  simp only [be16, cons_append, nil_append, read16, UInt8.toNat_ofNat']
  omega

theorem read16_append {b : Bytes} (h : 2 ≤ b.length) (rest : Bytes) :
    read16 (b ++ rest) = read16 b := by
  match b, h with
  | _ :: _ :: _, _ => rfl

theorem read32_be32 (n : ℕ) (rest : Bytes) : read32 (be32 n ++ rest) = n % 2 ^ 32 := by
  simp only [be32, cons_append, nil_append, read32, UInt8.toNat_ofNat']
  omega

theorem read64_be64 {n : ℕ} {rest : Bytes} : read64 (be64 n ++ rest) = n % 2 ^ 64 := by
  have hd : (be64 n ++ rest).drop 4 = be32 n ++ rest := rfl
  rw [read64, hd, read32_be32, be64, append_assoc, read32_be32]
  omega

end LinkIce
