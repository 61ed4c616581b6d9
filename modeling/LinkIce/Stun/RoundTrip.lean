import LinkIce.Lib.Fields
import LinkIce.Stun.Parser
import Mathlib.Algebra.Order.BigOperators.Group.List
import Mathlib.Algebra.Order.Group.Nat

/-! What is built is what is parsed, and what is signed verifies. Neither depends on the
digest function. -/
namespace LinkIce.Stun

open List

/-- The attributes that the parser reads, with `left` and `rem` as in `parseLoop`. -/
def attributes : ℕ → ℕ → Bytes → List (ℕ × Bytes)
  | 0, _, _ => []
  | fuel + 1, left, rem =>
    if left < 4 then []
    else
      let attrLen := read16 (rem.drop 2)
      if rem.length < 4 + attrLen then []
      else
        (read16 rem, (rem.drop 4).take attrLen) ::
          attributes fuel (left - (4 + align4 attrLen)) (rem.drop (4 + align4 attrLen))

def attributesOf (raw : Bytes) : List (ℕ × Bytes) :=
  let msgLen := read16 (raw.drop 2)
  attributes msgLen msgLen (raw.drop 20)

section attributes

variable {net : Inet} {fuel left : ℕ} {rem : Bytes}

def StunMessage.setCodes (net : Inet) (msg : StunMessage) (as : List (ℕ × Bytes)) : StunMessage :=
  as.foldl (fun msg a => msg.setCode net a.1 a.2) msg

theorem parseLoop_eq {msg : StunMessage} :
    parseLoop net fuel left rem msg = msg.setCodes net (attributes fuel left rem) := by
  induction fuel generalizing left rem msg with
  | zero => rfl
  | succ fuel ih =>
    unfold parseLoop attributes
    split_ifs
    · rfl
    · dsimp only
      split_ifs
      · rfl
      · rw [ih]
        rfl

theorem attributes_done (h : left < 4) : attributes fuel left rem = [] := by
  cases fuel with
  | zero => rfl
  | succ fuel => rw [attributes, if_pos h]

theorem attributes_succ (hl : 4 ≤ left) (hr : 4 + read16 (rem.drop 2) ≤ rem.length) :
    attributes (fuel + 1) left rem = (read16 rem, (rem.drop 4).take (read16 (rem.drop 2))) ::
      attributes fuel (left - (4 + align4 (read16 (rem.drop 2))))
        (rem.drop (4 + align4 (read16 (rem.drop 2)))) := by
  rw [attributes, if_neg (by omega)]
  dsimp only
  rw [if_neg (by omega)]

end attributes

namespace Attr

def note (net : Inet) (msg : StunMessage) : Attr → StunMessage
  | tlv k v => msg.setAttr net k v
  | integrity _ => { msg with hasIntegrity := true }
  | fingerprint => { msg with hasFingerprint := true }

def isIntegrity : Attr → Bool
  | integrity _ => true
  | _ => false

def size (a : Attr) : ℕ := 4 + align4 a.valueLength

end Attr

namespace StunBuilder

def message (net : Inet) (b : StunBuilder) : StunMessage :=
  b.attrs.foldl (Attr.note net) { msgType := b.msgType, txnId := b.txnId }

def signedWith (key : Bytes) (b : StunBuilder) : Bool :=
  b.attrs.find? Attr.isIntegrity = some (.integrity key)

/-- No field of the header wraps, and every attribute has room and may sign. -/
def fits (b : StunBuilder) : Bool :=
  decide (b.msgType < 65536 ∧ b.attrsSize < 65536) &&
    b.attrs.all fun
      | .tlv k _ => k ≠ .messageIntegrity
      | _ => true

def tailBytes (H : Hmac) (b : StunBuilder) : Bytes → List Attr → Bytes
  | _, [] => []
  | acc, a :: as => a.encode H b acc ++ tailBytes H b (acc ++ a.encode H b acc) as

variable (H : Hmac) (net : Inet) (b : StunBuilder) {fuel : ℕ} {key acc : Bytes} {a : Attr}
  {as : List Attr}

theorem message_add : (b.add a).message net = a.note net (b.message net) := by
  simp [message, add, foldl_append]

theorem message_addPaddingTo {target : ℕ} :
    (b.addPaddingTo target).message net = b.message net := by
  unfold addPaddingTo
  dsimp only
  split_ifs
  · rfl
  · rw [message_add]
    rfl

theorem message_header : (b.message net).msgType = b.msgType ∧ (b.message net).txnId = b.txnId := by
  have hnote (a : Attr) (msg : StunMessage) :
      (a.note net msg).msgType = msg.msgType ∧ (a.note net msg).txnId = msg.txnId := by
    cases a with
    | tlv k v =>
      cases k <;> simp only [Attr.note, StunMessage.setAttr] <;> (try split_ifs) <;> simp
    | integrity | fingerprint => exact ⟨rfl, rfl⟩
  have hfold (as : List Attr) (msg : StunMessage) :
      (as.foldl (Attr.note net) msg).msgType = msg.msgType ∧
        (as.foldl (Attr.note net) msg).txnId = msg.txnId := by
    induction as generalizing msg with
    | nil => exact ⟨rfl, rfl⟩
    | cons a as ih => exact ⟨(ih _).1.trans (hnote a msg).1, (ih _).2.trans (hnote a msg).2⟩
  exact hfold b.attrs _

theorem message_msgType : (b.message net).msgType = b.msgType := (message_header net b).1

theorem message_txnId : (b.message net).txnId = b.txnId := (message_header net b).2

private theorem encodeFrom_eq : b.encodeFrom H acc as = acc ++ b.tailBytes H acc as := by
  induction as generalizing acc with
  | nil => simp [encodeFrom, tailBytes]
  | cons a as ih =>
    have hstep : b.encodeFrom H acc (a :: as) = b.encodeFrom H (acc ++ a.encode H b acc) as := rfl
    rw [hstep, ih, tailBytes, append_assoc]

theorem attrBytes_eq : b.attrBytes H = b.tailBytes H [] b.attrs := by
  rw [attrBytes, encodeFrom_eq, nil_append]

theorem length_value (acc : Bytes) (a : Attr) : (a.value H b acc).length = a.valueLength := by
  cases a with
  | tlv k v => rfl
  | integrity key => exact (H key _).2
  | fingerprint => rfl

theorem length_addAttr (type : ℕ) (value : Bytes) :
    (addAttr type value).length = 4 + align4 value.length := by
  have h := le_align4 value.length
  simp only [addAttr, length_append, length_be16, length_replicate]
  omega

private theorem length_encode : (a.encode H b acc).length = a.size := by
  rw [Attr.encode, length_addAttr, length_value, Attr.size]

theorem length_tailBytes (acc : Bytes) (as : List Attr) :
    (b.tailBytes H acc as).length = (as.map Attr.size).sum := by
  induction as generalizing acc with
  | nil => rfl
  | cons a as ih => simp [tailBytes, length_encode, ih]

theorem length_attrBytes : (b.attrBytes H).length = b.attrsSize := by
  rw [attrBytes_eq, length_tailBytes]
  rfl

theorem tailBytes_append {bs : List Attr} :
    b.tailBytes H acc (as ++ bs) =
      b.tailBytes H acc as ++ b.tailBytes H (acc ++ b.tailBytes H acc as) bs := by
  induction as generalizing acc with
  | nil => simp [tailBytes]
  | cons a as ih => simp [tailBytes, ih]

/-! ### One attribute -/

section oneAttribute

variable (type : ℕ) (value rest : Bytes) {left : ℕ}

theorem addAttr_append :
    addAttr type value ++ rest = be16 type ++ (be16 value.length ++ (value ++
      (List.replicate (align4 value.length - value.length) 0 ++ rest))) := by
  simp [addAttr]

theorem read16_addAttr : read16 (addAttr type value ++ rest) = type % 65536 := by
  rw [addAttr_append, read16_be16]

theorem read16_drop_addAttr :
    read16 ((addAttr type value ++ rest).drop 2) = value.length % 65536 := by
  rw [addAttr_append, drop_left' (by simp), read16_be16]

theorem take_drop_addAttr : ((addAttr type value ++ rest).drop 4).take value.length = value := by
  rw [addAttr_append, ← append_assoc, drop_left' (by simp), take_left]

theorem drop_addAttr : (addAttr type value ++ rest).drop (4 + align4 value.length) = rest :=
  drop_left' (length_addAttr type value)

theorem attributes_addAttr (ht : type < 65536) (hv : value.length < 65536) (hl : 4 ≤ left) :
    attributes (fuel + 1) left (addAttr type value ++ rest) =
      (type, value) :: attributes fuel (left - (4 + align4 value.length)) rest := by
  have hlen : 4 + value.length ≤ (addAttr type value ++ rest).length := by
    rw [length_append, length_addAttr]
    have := le_align4 value.length
    omega
  have hread : read16 ((addAttr type value ++ rest).drop 2) = value.length := by
    rw [read16_drop_addAttr, Nat.mod_eq_of_lt hv]
  rw [attributes_succ hl (by rwa [hread]), hread, read16_addAttr, Nat.mod_eq_of_lt ht,
    take_drop_addAttr, drop_addAttr]

theorem findIntegrity_addAttr (ht : type < 65536) (hv : value.length < 65536) (hl : 4 ≤ left) :
    findIntegrity (fuel + 1) left (addAttr type value ++ rest) =
      if type = AttrKind.messageIntegrity.code then some 0
      else (findIntegrity fuel (left - (4 + align4 value.length)) rest).map
        (4 + align4 value.length + ·) := by
  simp only [findIntegrity]
  rw [if_neg (by omega), read16_addAttr, read16_drop_addAttr, Nat.mod_eq_of_lt ht,
    Nat.mod_eq_of_lt hv, drop_addAttr]

end oneAttribute

/-! ### The whole message -/

theorem setCode_value (acc : Bytes) (a : Attr) (msg : StunMessage) :
    msg.setCode net a.kind.code (a.value H b acc) = a.note net msg := by
  unfold StunMessage.setCode
  rw [AttrKind.ofCode?_code]
  cases a <;> rfl

theorem valueLength_lt (h : (as.map Attr.size).sum < 65536)
    (ha : a ∈ as) : a.valueLength < 65536 := by
  have hle : a.size ≤ (as.map Attr.size).sum :=
    single_le_sum (by simp) _ (mem_map_of_mem ha)
  have := le_align4 a.valueLength
  have hsize : a.size = 4 + align4 a.valueLength := rfl
  omega

/-- The attributes read are those written. -/
theorem attributes_tailBytes (as : List Attr) (hs : (as.map Attr.size).sum < 65536) (acc : Bytes)
    (hf : (as.map Attr.size).sum ≤ fuel) (msg : StunMessage) :
    msg.setCodes net (attributes fuel (as.map Attr.size).sum (b.tailBytes H acc as)) =
        as.foldl (Attr.note net) msg ∧
      (attributes fuel (as.map Attr.size).sum (b.tailBytes H acc as)).map Prod.fst =
        as.map (·.kind.code) := by
  induction as generalizing acc fuel msg with
  | nil =>
    rw [attributes_done (by simp)]
    exact ⟨rfl, rfl⟩
  | cons a as ih =>
    have hv : (a.value H b acc).length < 65536 := by
      rw [length_value]
      exact valueLength_lt hs (by simp)
    have hsize : 4 + align4 (a.value H b acc).length = a.size := by rw [length_value, Attr.size]
    simp only [map_cons, sum_cons, Attr.size] at hs hf
    obtain ⟨fuel, rfl⟩ : ∃ n, fuel = n + 1 := ⟨fuel - 1, by omega⟩
    have hleft : ((a :: as).map Attr.size).sum - a.size = (as.map Attr.size).sum := by simp
    rw [tailBytes, Attr.encode, attributes_addAttr _ _ _ (AttrKind.code_lt _) hv
      (by simp [Attr.size]; omega), hsize, hleft]
    rw [foldl_cons, ← setCode_value H net b acc]
    obtain ⟨hnote, hkinds⟩ := ih (by omega) (acc ++ a.encode H b acc) (show _ ≤ fuel by omega) _
    exact ⟨hnote, congrArg (_ :: ·) hkinds⟩

theorem build_append : b.build H =
    be16 b.msgType ++ (be16 (b.attrBytes H).length ++ (be32 magicCookie ++
      (b.txnId.1 ++ b.attrBytes H))) := by
  simp [build, header]

theorem length_build : (b.build H).length = 20 + b.attrsSize := by
  rw [build_append]
  simp only [length_append, length_be16, length_be32, b.txnId.2, length_attrBytes]
  omega

theorem drop_build : (b.build H).drop 20 = b.attrBytes H := by
  rw [build]
  refine drop_left' ?_
  simp [header, b.txnId.2]

theorem fits_size {b : StunBuilder} (h : b.fits = true) :
    b.msgType < 65536 ∧ b.attrsSize < 65536 := by
  simp only [fits, Bool.and_eq_true, decide_eq_true_eq] at h
  exact h.1

theorem read16_drop_build (hs : b.attrsSize < 65536) :
    read16 ((b.build H).drop 2) = b.attrsSize := by
  rw [build_append, drop_left' (by simp), read16_be16, length_attrBytes, Nat.mod_eq_of_lt hs]

/-- The parser reads back what was written. -/
theorem parseStun_written (ht : b.msgType < 65536) (hs : b.attrsSize < 65536) :
    parseStun net (b.build H) = some (b.message net) := by
  have hlen := read16_drop_build H b hs
  have htype : read16 (b.build H) = b.msgType := by
    rw [build_append, read16_be16, Nat.mod_eq_of_lt ht]
  have hcookie : read32 ((b.build H).drop 4) = magicCookie := by
    rw [build_append, ← append_assoc, drop_left' (by simp), read32_be32]
    rfl
  have htxn : Block.ofBytes 12 ((b.build H).drop 8) = b.txnId := by
    rw [build_append, ← append_assoc, ← append_assoc, drop_left' (by simp)]
    exact ofBytes_append b.txnId _
  unfold parseStun
  rw [if_neg (by rw [length_build]; omega), if_neg (by simp [hcookie])]
  dsimp only
  rw [hlen, if_neg (by rw [length_build]; omega), drop_build, attrBytes_eq, htype, htxn]
  rw [parseLoop_eq]
  exact congrArg some (attributes_tailBytes H net b b.attrs hs [] le_rfl _).1

theorem parseStun_build (h : b.fits = true) : parseStun net (b.build H) = some (b.message net) :=
  parseStun_written H net b (fits_size h).1 (fits_size h).2

theorem findIntegrity_tailBytes (pre post : List Attr) (key : Bytes) (acc : Bytes)
    (hs : ((pre ++ .integrity key :: post).map Attr.size).sum < 65536)
    (hpre : ∀ a ∈ pre, a.kind ≠ .messageIntegrity)
    (hf : ((pre ++ .integrity key :: post).map Attr.size).sum ≤ fuel) :
    findIntegrity fuel ((pre ++ .integrity key :: post).map Attr.size).sum
      (b.tailBytes H acc (pre ++ .integrity key :: post)) = some (pre.map Attr.size).sum := by
  induction pre generalizing acc fuel with
  | nil =>
    simp only [nil_append, map_cons, sum_cons, Attr.size] at hs hf ⊢
    obtain ⟨fuel, rfl⟩ : ∃ n, fuel = n + 1 := ⟨fuel - 1, by omega⟩
    have hv : ((Attr.integrity key).value H b acc).length < 65536 := by
      rw [length_value, Attr.valueLength]
      omega
    have hkind : (Attr.integrity key).kind.code = AttrKind.messageIntegrity.code := rfl
    rw [tailBytes, Attr.encode, findIntegrity_addAttr _ _ _ (AttrKind.code_lt _) hv (by omega),
      if_pos hkind]
    rfl
  | cons a pre ih =>
    have hv : (a.value H b acc).length < 65536 := by
      rw [length_value]
      exact valueLength_lt hs (by simp)
    have hsize : 4 + align4 (a.value H b acc).length = a.size := by rw [length_value, Attr.size]
    have hk : a.kind.code ≠ AttrKind.messageIntegrity.code := fun hc =>
      hpre a (by simp) (AttrKind.code_injective hc)
    simp only [cons_append, map_cons, sum_cons] at hs hf ⊢
    obtain ⟨fuel, rfl⟩ : ∃ n, fuel = n + 1 := ⟨fuel - 1, by simp only [Attr.size] at hf; omega⟩
    rw [tailBytes, Attr.encode, findIntegrity_addAttr _ _ _ (AttrKind.code_lt _) hv
      (by simp only [Attr.size]; omega), if_neg hk, hsize, Nat.add_sub_cancel_left,
      ih _ (by omega) (fun a ha => hpre a (by simp [ha])) (by simp only [Attr.size] at hf ⊢; omega)]
    rfl

/-! ### The signed part -/

section signed

variable {b} {pre post : List Attr}

theorem kind_ne_integrity (h : b.fits = true) (hab : b.attrs = pre ++ .integrity key :: post)
    (hpre : ∀ a ∈ pre, a.isIntegrity = false) : ∀ a ∈ pre, a.kind ≠ .messageIntegrity := by
  intro a ha hc
  have hmem : a ∈ b.attrs := by rw [hab]; simp [ha]
  cases a with
  | tlv k v =>
    simp only [fits, Bool.and_eq_true] at h
    have hne : k ≠ .messageIntegrity := by simpa using all_eq_true.mp h.2 _ hmem
    exact hne hc
  | integrity k => cases hpre _ ha
  | fingerprint => cases hc

theorem integrityOffset_first (hs : b.attrsSize < 65536)
    (hab : b.attrs = pre ++ .integrity key :: post)
    (hpre : ∀ a ∈ pre, a.kind ≠ .messageIntegrity) :
    integrityOffset (b.build H) = some (pre.map Attr.size).sum := by
  have hlen := read16_drop_build H b hs
  have hsize : b.attrsSize = ((pre ++ .integrity key :: post).map Attr.size).sum := by
    rw [← hab]
    rfl
  unfold integrityOffset
  rw [hlen, drop_build, attrBytes_eq, hab, hsize]
  exact findIntegrity_tailBytes H b pre post key [] (hsize ▸ hs) hpre le_rfl

theorem integrityOffset_build (h : b.fits = true) (hab : b.attrs = pre ++ .integrity key :: post)
    (hpre : ∀ a ∈ pre, a.isIntegrity = false) :
    integrityOffset (b.build H) = some (pre.map Attr.size).sum :=
  integrityOffset_first H (fits_size h).2 hab (kind_ne_integrity h hab hpre)

theorem attrBytes_signed (hab : b.attrs = pre ++ .integrity key :: post) :
    b.attrBytes H = b.tailBytes H [] pre ++
      ((Attr.integrity key).encode H b (b.tailBytes H [] pre) ++
        b.tailBytes H (b.tailBytes H [] pre ++ (Attr.integrity key).encode H b
          (b.tailBytes H [] pre)) post) := by
  rw [attrBytes_eq, hab, tailBytes_append, nil_append, tailBytes]

theorem coveredMessage_build (hab : b.attrs = pre ++ .integrity key :: post) :
    coveredMessage (b.build H) (pre.map Attr.size).sum =
      header b.msgType ((pre.map Attr.size).sum + 24) b.txnId ++ b.tailBytes H [] pre := by
  unfold coveredMessage
  rw [drop_build, attrBytes_signed H hab, take_left' (length_tailBytes H b [] pre),
    build_append, take_left' (by simp), ← append_assoc (be16 b.msgType),
    drop_left' (by simp), ← append_assoc (be32 magicCookie),
    take_left' (by simp [b.txnId.2])]
  simp [header]

theorem digest_build (hab : b.attrs = pre ++ .integrity key :: post) :
    ((b.build H).drop (20 + (pre.map Attr.size).sum + 4)).take 20 =
      (H key (header b.msgType ((pre.map Attr.size).sum + 24) b.txnId ++
        b.tailBytes H [] pre)).1 := by
  have hprelen := length_tailBytes H b [] pre
  have hv : ((Attr.integrity key).value H b (b.tailBytes H [] pre)).length = 20 :=
    length_value H b _ _
  rw [Nat.add_assoc, ← drop_drop, drop_build, attrBytes_signed H hab, ← drop_drop,
    drop_left' hprelen]
  have hread := take_drop_addAttr AttrKind.messageIntegrity.code
    ((Attr.integrity key).value H b (b.tailBytes H [] pre))
    (b.tailBytes H (b.tailBytes H [] pre ++ (Attr.integrity key).encode H b
      (b.tailBytes H [] pre)) post)
  rw [hv] at hread
  refine Eq.trans hread ?_
  rw [Attr.value, hprelen]

theorem verifyIntegrity_first (hs : b.attrsSize < 65536)
    (hab : b.attrs = pre ++ .integrity key :: post)
    (hpre : ∀ a ∈ pre, a.kind ≠ .messageIntegrity) :
    verifyIntegrity H (b.build H) key = true := by
  have hlong : ¬ (b.build H).length < 44 := by
    have hsize : b.attrsSize = (b.attrs.map Attr.size).sum := rfl
    rw [length_build, hsize, hab]
    simp [Attr.size, Attr.valueLength, align4]
    omega
  unfold verifyIntegrity
  rw [if_neg hlong, integrityOffset_first H hs hab hpre]
  dsimp only
  rw [coveredMessage_build H hab, digest_build H hab]
  exact beq_self_eq_true _

end signed

theorem verifyIntegrity_build (h : b.fits = true) (hk : b.signedWith key = true) :
    verifyIntegrity H (b.build H) key = true := by
  obtain ⟨-, pre, post, hab, hpre⟩ :=
    List.find?_eq_some_iff_append.mp (of_decide_eq_true hk)
  have hpre' : ∀ a ∈ pre, a.isIntegrity = false := fun a ha => by simpa using hpre a ha
  exact verifyIntegrity_first H (fits_size h).2 hab (kind_ne_integrity h hab hpre')

private theorem note_hasIntegrity (msg : StunMessage) (a : Attr)
    (h : msg.hasIntegrity = true ∨ a.isIntegrity = true) :
    (a.note net msg).hasIntegrity = true := by
  cases a with
  | tlv k v =>
    have hm := h.resolve_right Bool.false_ne_true
    rw [Attr.note, StunMessage.setAttr_hasIntegrity, hm, Bool.true_or]
  | integrity key => rfl
  | fingerprint => exact h.resolve_right Bool.false_ne_true

theorem message_hasIntegrity {b : StunBuilder}
    (h : b.signedWith key = true) : (b.message net).hasIntegrity = true := by
  have hany : ∃ a ∈ b.attrs, a.isIntegrity = true :=
    ⟨_, mem_of_find?_eq_some (of_decide_eq_true h), rfl⟩
  unfold message
  generalize ({ msgType := b.msgType, txnId := b.txnId } : StunMessage) = msg
  have hkeep (as : List Attr) (msg : StunMessage) (hm : msg.hasIntegrity = true) :
      (as.foldl (Attr.note net) msg).hasIntegrity = true := by
    induction as generalizing msg with
    | nil => exact hm
    | cons a as ih => exact ih _ (note_hasIntegrity net msg a (.inl hm))
  obtain ⟨a, ha, hi⟩ := hany
  obtain ⟨pre, post, hab⟩ := append_of_mem ha
  rw [hab, foldl_append, foldl_cons]
  exact hkeep post _ (note_hasIntegrity net _ a (.inr hi))

end StunBuilder

end LinkIce.Stun
