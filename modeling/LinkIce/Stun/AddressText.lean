import LinkIce.Stun.Message
import Mathlib.Data.Nat.Digits.Lemmas

/-! The texts of addresses. `inet_ntop` and `inet_pton` are parameters of the development; the
functions here stand for them where a run is evaluated. -/
namespace LinkIce

open List

def decimal (n : ℕ) : Bytes := (Nat.toDigits 10 n).map fun c => UInt8.ofNat c.toNat

theorem toNat_of_mem_decimal {n : ℕ} {b : UInt8} (h : b ∈ decimal n) :
    48 ≤ b.toNat ∧ b.toNat ≤ 57 := by
  obtain ⟨c, hc, rfl⟩ := mem_map.mp h
  have hdigit := Nat.isDigit_of_mem_toDigits (by decide) (by decide) hc
  simp only [Char.isDigit, Bool.and_eq_true, decide_eq_true_eq] at hdigit
  have hlow : 48 ≤ c.toNat := UInt32.le_iff_toNat_le.mp hdigit.1
  have hhigh : c.toNat ≤ 57 := UInt32.le_iff_toNat_le.mp hdigit.2
  rw [UInt8.toNat_ofNat_of_lt' (Nat.lt_of_le_of_lt hhigh (by decide))]
  exact ⟨hlow, hhigh⟩

namespace Stun.Inet

def dotted (a b c d : UInt8) : Bytes :=
  [0x2E].intercalate [decimal a.toNat, decimal b.toNat, decimal c.toNat, decimal d.toNat]

def readOctet (text : Bytes) : Option UInt8 :=
  let n := text.foldl (fun n c => n * 10 + (c.toNat - 48)) 0
  if n < 256 ∧ decimal n = text then some (UInt8.ofNat n) else none

theorem readOctet_decimal (b : UInt8) : readOctet (decimal b.toNat) = some b := by
  have h : ∀ n : Fin 256, readOctet (decimal n) = some (UInt8.ofNat n) := by decide +kernel
  simpa using h ⟨b.toNat, b.toNat_lt⟩

def hex (b : UInt8) : Bytes :=
  let digit (n : ℕ) : UInt8 := UInt8.ofNat (if n < 10 then 48 + n else 87 + n)
  [digit (b.toNat / 16), digit (b.toNat % 16)]

def readHex : Bytes → Bytes
  | h :: l :: rest =>
    let value (c : UInt8) : ℕ := if c < 0x3A then c.toNat - 48 else c.toNat - 87
    UInt8.ofNat (value h * 16 + value l) :: readHex rest
  | _ => []

theorem readHex_hex (b : UInt8) (rest : Bytes) : readHex (hex b ++ rest) = b :: readHex rest := by
  have h : ∀ n : Fin 256, readHex (hex (UInt8.ofNat n)) = [UInt8.ofNat n] := by decide +kernel
  have hb := h ⟨b.toNat, b.toNat_lt⟩
  simp only [UInt8.ofNat_toNat] at hb
  simp only [hex, readHex, cons_append, nil_append, List.cons.injEq, and_true] at hb ⊢
  exact hb

def groups : Bytes → Bytes
  | a :: b :: rest => hex a ++ (hex b ++ if rest = [] then [] else 0x3A :: groups rest)
  | _ => []

private theorem filter_hex (b : UInt8) (rest : Bytes) :
    (hex b ++ rest).filter (· ≠ 0x3A) = hex b ++ rest.filter (· ≠ 0x3A) := by
  have h : ∀ n : Fin 256, (hex (UInt8.ofNat n)).filter (· ≠ 0x3A) = hex (UInt8.ofNat n) := by
    decide +kernel
  have hb := h ⟨b.toNat, b.toNat_lt⟩
  rw [UInt8.ofNat_toNat] at hb
  rw [filter_append, hb]

theorem readHex_groups : ∀ bytes : Bytes, bytes.length % 2 = 0 →
    readHex ((groups bytes).filter (· ≠ 0x3A)) = bytes
  | [], _ => rfl
  | [_], h => by simp at h
  | a :: b :: rest, h => by
    have ih := readHex_groups rest (by simp only [length_cons] at h; omega)
    rw [groups, filter_hex, filter_hex, readHex_hex, readHex_hex]
    split_ifs with hrest
    · simp [hrest, readHex]
    · rw [filter_cons_of_neg (by simp), ih]

/-- IPv4 addresses in dotted form, IPv6 addresses as `::` or in full. -/
def posix : Inet where
  ntop4 a := dotted (a.1.getD 0 0) (a.1.getD 1 0) (a.1.getD 2 0) (a.1.getD 3 0)
  ntop6 a := if a = Block.zero 16 then [0x3A, 0x3A] else groups a.1
  pton4 text :=
    match (text.splitOn 0x2E).map readOctet with
    | [some a, some b, some c, some d] => some (Block.ofBytes 4 [a, b, c, d])
    | _ => none
  pton6 text :=
    if text = [0x3A, 0x3A] then some (Block.zero 16)
    else
      let a := Block.ofBytes 16 (readHex (text.filter (· ≠ 0x3A)))
      if groups a.1 = text then some a else none

structure RoundTrips (net : Inet) : Prop where
  v4 : ∀ a, net.pton4 (net.ntop4 a) = some a
  v6 : ∀ a, net.pton6 (net.ntop6 a) = some a

theorem posix_roundTrips : posix.RoundTrips where
  v4 := by
    rintro ⟨bytes, hlen⟩
    match bytes, hlen with
    | [a, b, c, d], _ =>
      have hdot (n : ℕ) : (0x2E : UInt8) ∉ decimal n := fun h => by
        have := (toNat_of_mem_decimal h).1
        simp at this
      simp only [posix, dotted, getD_cons_zero, getD_cons_succ]
      rw [splitOn_intercalate _ (by simp [hdot]) (by simp)]
      simp only [map_cons, map_nil, readOctet_decimal]
      rfl
  v6 := by
    intro a
    by_cases hz : a = Block.zero 16
    · simp [posix, hz]
    · have hread := readHex_groups a.1 (by rw [a.2])
      have hlong : groups a.1 ≠ [0x3A, 0x3A] := by
        intro h
        rw [h] at hread
        have := a.2
        simp [← hread, readHex] at this
      have hblock : Block.ofBytes 16 a.1 = a := Subtype.ext (take_left' a.2)
      simp only [posix]
      rw [if_neg hz, if_neg hlong, hread, hblock, if_pos rfl]

end Stun.Inet

end LinkIce
