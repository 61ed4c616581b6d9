import LinkIce.Stun.AddressText
import LinkIce.Stun.Authenticity

/-! The declared length. Both walks over the attributes stop where it ends, but neither
`parse_stun` nor `verify_integrity` holds the value of the last attribute to it. -/
namespace LinkIce.Stun

open List Option

/-- How many bytes the last attribute lays claim to behind the end of `rem`, with `left` and
`rem` as in `parseLoop`. -/
def overhang : ℕ → ℕ → Bytes → ℕ
  | 0, _, _ => 0
  | fuel + 1, left, rem =>
    if left < 4 then 0
    else
      let attrLen := read16 (rem.drop 2)
      if rem.length < 4 + attrLen then 4 + attrLen - rem.length
      else overhang fuel (left - (4 + align4 attrLen)) (rem.drop (4 + align4 attrLen))

def overhangOf (d : Bytes) : ℕ :=
  let msgLen := read16 (d.drop 2)
  overhang msgLen msgLen (d.drop 20)

variable {H : Hmac} {net : Inet} {key raw d s rem : Bytes} {m : StunMessage} {fuel left off : ℕ}

/-! ### Bytes behind the message -/

theorem read16_drop_append {k : ℕ} (h : k + 2 ≤ rem.length) (s : Bytes) :
    read16 ((rem ++ s).drop k) = read16 (rem.drop k) := by
  rw [drop_append_of_le_length (by omega)]
  exact read16_append (by rw [length_drop]; omega) s

private theorem attributes_rest {fuel size : ℕ} :
    attributes fuel (rem.length - size) ((rem ++ s).drop size) =
      attributes fuel (rem.drop size).length (rem.drop size ++ s) := by
  by_cases h : size ≤ rem.length
  · rw [drop_append_of_le_length h, length_drop]
  · have hlen : (rem.drop size).length < 4 := by
      rw [length_drop]
      omega
    rw [attributes_done (by omega), attributes_done hlen]

/-- The walk over the whole of `rem` reads what is there, and then the attribute that hangs
over into `s` if it fits. -/
theorem attributes_append (fuel : ℕ) (rem s : Bytes) :
    ∃ as, attributes fuel rem.length (rem ++ s) = attributes fuel rem.length rem ++ as ∧
      (as = [] ↔ overhang fuel rem.length rem = 0 ∨ s.length < overhang fuel rem.length rem) := by
  induction fuel generalizing rem with
  | zero => exact ⟨[], rfl, by simp [overhang]⟩
  | succ fuel ih =>
    by_cases hleft : rem.length < 4
    · refine ⟨[], ?_, by simp [overhang, hleft]⟩
      rw [attributes_done hleft, attributes_done hleft]
      rfl
    have htype := read16_append (show 2 ≤ rem.length by omega) s
    have hlen := read16_drop_append (k := 2) (show 2 + 2 ≤ rem.length by omega) s
    unfold overhang
    rw [if_neg hleft]
    dsimp only
    by_cases hfits : rem.length < 4 + read16 (rem.drop 2)
    · rw [if_pos hfits, attributes_short hfits]
      by_cases hover : s.length < 4 + read16 (rem.drop 2) - rem.length
      · have hshort : (rem ++ s).length < 4 + read16 ((rem ++ s).drop 2) := by
          rw [hlen, length_append]
          omega
        exact ⟨[], by rw [attributes_short hshort]; rfl, by simp [hover]⟩
      · have hlong : 4 + read16 ((rem ++ s).drop 2) ≤ (rem ++ s).length := by
          rw [hlen, length_append]
          omega
        rw [attributes_succ (by omega) hlong]
        exact ⟨_, rfl, iff_of_false (cons_ne_nil _ _) (by omega)⟩
    · obtain ⟨as, has, hempty⟩ := ih (rem.drop (4 + align4 (read16 (rem.drop 2))))
      refine ⟨as, ?_, ?_⟩
      · have hlong : 4 + read16 ((rem ++ s).drop 2) ≤ (rem ++ s).length := by
          rw [hlen, length_append]
          omega
        have hvalue : ((rem ++ s).drop 4).take (read16 (rem.drop 2)) =
            (rem.drop 4).take (read16 (rem.drop 2)) := by
          rw [drop_append_of_le_length (by omega),
            take_append_of_le_length (by rw [length_drop]; omega)]
        rw [attributes_succ (by omega) hlong, attributes_succ (by omega) (by omega), htype, hlen,
          hvalue, attributes_rest, has, length_drop, cons_append]
      · rw [if_neg hfits, hempty, length_drop]

theorem read32_append (h : 4 ≤ rem.length) : read32 (rem ++ s) = read32 rem := by
  match rem with
  | _ :: _ :: _ :: _ :: _ => rfl
  | [] | [_] | [_, _] | [_, _, _] => simp at h

theorem parseStun_complete (h : 20 + read16 (raw.drop 2) ≤ raw.length) :
    parseStun net raw = if read32 (raw.drop 4) ≠ magicCookie then none
      else some (StunMessage.setCodes net
        { msgType := read16 raw, txnId := Block.ofBytes 12 (raw.drop 8) } (attributesOf raw)) := by
  unfold parseStun attributesOf
  rw [if_neg (by omega)]
  dsimp only
  rw [if_neg (not_lt.mpr h), parseLoop_eq]

theorem header_append (hd : 20 ≤ d.length) (s : Bytes) :
    read16 (d ++ s) = read16 d ∧ read16 ((d ++ s).drop 2) = read16 (d.drop 2) ∧
      read32 ((d ++ s).drop 4) = read32 (d.drop 4) ∧
      Block.ofBytes 12 ((d ++ s).drop 8) = Block.ofBytes 12 (d.drop 8) := by
  refine ⟨read16_append (by omega) s, read16_drop_append (by omega) s, ?_, ?_⟩
  · rw [drop_append_of_le_length (by omega)]
    exact read32_append (by rw [length_drop]; omega)
  · rw [drop_append_of_le_length (by omega), ← ofBytes_take,
      take_append_of_le_length (by rw [length_drop]; omega), ofBytes_take]

/-- The values that `parse_stun` reads are those of the declared message, and so is the
result, if and only if the last attribute keeps inside the declared length or is too long for
the datagram as well. -/
theorem parse_reads_declared_message_iff (net : Inet) (d s : Bytes)
    (hd : d.length = 20 + read16 (d.drop 2)) :
    (parseStun net (d ++ s) = parseStun net d ∧
      ((parseStun net d).isSome = true → attributesOf (d ++ s) = attributesOf d)) ↔
      read32 (d.drop 4) ≠ magicCookie ∨ overhangOf d = 0 ∨ s.length < overhangOf d := by
  obtain ⟨htype, hlen, hcookie, htxn⟩ := header_append (show 20 ≤ d.length by omega) s
  have hrest : (d ++ s).drop 20 = d.drop 20 ++ s := drop_append_of_le_length (by omega)
  have harea : (d.drop 20).length = read16 (d.drop 2) := by
    rw [length_drop]
    omega
  obtain ⟨as, has, hempty⟩ := attributes_append (read16 (d.drop 2)) (d.drop 20) s
  rw [harea] at has hempty
  have hattrs : attributesOf (d ++ s) = attributesOf d ++ as := by
    rw [attributesOf, hlen, hrest]
    exact has
  have hlong : 20 + read16 ((d ++ s).drop 2) ≤ (d ++ s).length := by
    rw [hlen, length_append]
    omega
  rw [parseStun_complete hlong, parseStun_complete hd.ge, htype, hcookie, htxn, hattrs]
  by_cases hc : read32 (d.drop 4) ≠ magicCookie
  · simp [hc]
  · rw [if_neg hc, if_neg hc]
    constructor
    · rintro ⟨-, hsame⟩
      exact .inr (hempty.mp (append_right_eq_self.mp (hsame rfl)))
    · intro h
      rw [hempty.mpr (h.resolve_left hc), append_nil]
      exact ⟨rfl, fun _ => rfl⟩

/-- A USERNAME of one byte whose value lies behind the declared length. -/
def danglingUsername : Bytes :=
  header bindingRequest 4 (Block.zero 12) ++ be16 AttrKind.username.code ++ be16 1

theorem byte_behind_message_is_read :
    ¬ ∃ net : Inet, parseStun net (danglingUsername ++ [0x41]) =
      parseStun net danglingUsername := by
  rintro ⟨net, h⟩
  have hread : attributesOf (danglingUsername ++ [0x41]) = [(AttrKind.username.code, [0x41])] := by
    decide
  have hnone : attributesOf danglingUsername = [] := by decide
  rw [parseStun_complete (by decide), parseStun_complete (by decide), if_neg (by decide),
    if_neg (by decide), hread, hnone] at h
  have huser := congrArg StunMessage.username (some.inj h)
  simp [StunMessage.setCodes, StunMessage.setCode, StunMessage.setAttr] at huser

/-- Two bytes are not enough for a value of three. -/
theorem long_username_not_read :
    let d := header bindingRequest 4 (Block.zero 12) ++ be16 AttrKind.username.code ++ be16 3
    d.length = 20 + read16 (d.drop 2) ∧
      parseStun .posix (d ++ [0x41, 0x42]) = parseStun .posix d := by
  refine ⟨by decide, ((parse_reads_declared_message_iff _ _ _ (by decide)).mpr ?_).1⟩
  decide

/-! ### The place of MESSAGE-INTEGRITY -/

end LinkIce.Stun
