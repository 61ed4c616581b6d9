import LinkIce.Stun.RoundTrip

/-! What the digest vouches for. It covers the attributes before MESSAGE-INTEGRITY, while the
parser goes on to read those behind it. -/
namespace LinkIce.Stun

open List Option

def notIntegrity (a : ℕ × Bytes) : Bool := a.1 ≠ AttrKind.messageIntegrity.code

def signedAttributes (raw : Bytes) : List (ℕ × Bytes) := (attributesOf raw).takeWhile notIntegrity

/-- The attributes behind the first MESSAGE-INTEGRITY. -/
def trailingAttributes (raw : Bytes) : List (ℕ × Bytes) :=
  ((attributesOf raw).dropWhile notIntegrity).tail

def signedBytes (raw : Bytes) : Option Bytes := (integrityOffset raw).map (coveredMessage raw)

namespace StunMessage

/-- The same message, with or without a fingerprint. -/
def Same (m m' : StunMessage) : Prop :=
  { m with hasFingerprint := false } = { m' with hasFingerprint := false }

instance (m m' : StunMessage) : Decidable (m.Same m') :=
  inferInstanceAs (Decidable (_ = _))

end StunMessage

/-- The message as far as the digest covers it. -/
def authenticatedPart (net : Inet) (raw : Bytes) : StunMessage :=
  { StunMessage.setCodes net
      { msgType := read16 raw, txnId := Block.ofBytes 12 (raw.drop 8) } (signedAttributes raw) with
    hasIntegrity := true }

/-- The attributes that `parse_stun` decodes into a field, apart from the two that it only notes
the presence of. -/
def decodedKinds : List AttrKind :=
  [.xorMappedAddress, .xorPeerAddress, .xorRelayedAddress, .priority, .lifetime, .useCandidate,
    .iceControlling, .iceControlled, .errorCode, .username, .realm, .nonce, .connectionId, .data]

/-- Only attributes of the given types stand behind the first MESSAGE-INTEGRITY. -/
def TrailsOnly (types : Set ℕ) (raw : Bytes) : Prop := ∀ a ∈ trailingAttributes raw, a.1 ∈ types

/-- The message passes the gate of `on_carrier_data`. -/
structure Accepts (H : Hmac) (net : Inet) (key raw : Bytes) (m : StunMessage) : Prop where
  parsed : parseStun net raw = some m
  hasIntegrity : m.hasIntegrity = true
  verified : verifyIntegrity H raw key = true

variable {H : Hmac} {net : Inet} {key raw raw' : Bytes} {m m' msg : StunMessage} {b : StunBuilder}
  {fuel left n : ℕ} {rem : Bytes} {as : List (ℕ × Bytes)}

/-! ### The attributes of a message -/

theorem StunMessage.setCodes_hasIntegrity :
    (msg.setCodes net as).hasIntegrity = (msg.hasIntegrity || !as.all notIntegrity) := by
  induction as generalizing msg with
  | nil => simp [setCodes]
  | cons a as ih =>
    have hcons : msg.setCodes net (a :: as) = (msg.setCode net a.1 a.2).setCodes net as := rfl
    have hone : (msg.setCode net a.1 a.2).hasIntegrity = (msg.hasIntegrity || !notIntegrity a) := by
      unfold setCode notIntegrity
      cases hk : AttrKind.ofCode? a.1 with
      | none =>
        have hne : a.1 ≠ AttrKind.messageIntegrity.code := by
          intro hc
          rw [hc, AttrKind.ofCode?_code] at hk
          cases hk
        simp [hne]
      | some k =>
        dsimp only
        rw [setAttr_hasIntegrity, ← AttrKind.code_of_ofCode? hk]
        by_cases hi : k = .messageIntegrity
        · simp [hi]
        · have hc : k.code ≠ AttrKind.messageIntegrity.code :=
            fun hc => hi (AttrKind.code_injective hc)
          simp [hi, hc]
    rw [hcons, ih, hone, all_cons]
    cases msg.hasIntegrity <;> cases notIntegrity a <;> rfl

theorem parseStun_eq_some : parseStun net raw = some m ↔
    20 ≤ raw.length ∧ read32 (raw.drop 4) = magicCookie ∧
      20 + read16 (raw.drop 2) ≤ raw.length ∧ m = StunMessage.setCodes net
        { msgType := read16 raw, txnId := Block.ofBytes 12 (raw.drop 8) } (attributesOf raw) := by
  unfold parseStun attributesOf
  split_ifs with hlen hcookie
  · simp [hlen]
  · simp [hcookie]
  · dsimp only
    split_ifs with hdecl
    · simp [hdecl]
    · rw [parseLoop_eq, some.injEq]
      constructor
      · rintro rfl
        exact ⟨by omega, not_not.mp hcookie, by omega, rfl⟩
      · rintro ⟨-, -, -, rfl⟩
        rfl

/-! ### The walk up to MESSAGE-INTEGRITY -/

/-- Both loops pass the attributes `as`, `off` bytes, and find MESSAGE-INTEGRITY next. -/
inductive SignedWalk : Bytes → List (ℕ × Bytes) → ℕ → Prop
  | here {rem : Bytes} : read16 rem = AttrKind.messageIntegrity.code →
      4 + read16 (rem.drop 2) ≤ rem.length → SignedWalk rem [] 0
  | skip {rem : Bytes} {as : List (ℕ × Bytes)} {off : ℕ} :
      read16 rem ≠ AttrKind.messageIntegrity.code → 4 + read16 (rem.drop 2) ≤ rem.length →
      SignedWalk (rem.drop (4 + align4 (read16 (rem.drop 2)))) as off →
      SignedWalk rem ((read16 rem, (rem.drop 4).take (read16 (rem.drop 2))) :: as)
        (4 + align4 (read16 (rem.drop 2)) + off)

theorem attributes_short (hr : rem.length < 4 + read16 (rem.drop 2)) :
    attributes fuel left rem = [] := by
  cases fuel with
  | zero => rfl
  | succ fuel =>
    rw [attributes]
    dsimp only
    rw [if_pos hr, ite_self]

theorem read16_take {b : Bytes} (hn : 2 ≤ n) : read16 (b.take n) = read16 b := by
  obtain ⟨n, rfl⟩ : ∃ k, n = k + 2 := ⟨n - 2, by omega⟩
  match b with
  | [] => rfl
  | [_] => rfl
  | _ :: _ :: _ => rfl

theorem drop_take_congr {b b' : Bytes} (h : b.take n = b'.take n) (k : ℕ) :
    (b.drop k).take (n - k) = (b'.drop k).take (n - k) := by
  rw [← drop_take, h, drop_take]

namespace SignedWalk

variable {off : ℕ}

theorem of_found (h : findIntegrity fuel left rem = some off)
    (ha : (attributes fuel left rem).all notIntegrity = false) :
    off + 4 ≤ left ∧ SignedWalk rem ((attributes fuel left rem).takeWhile notIntegrity) off := by
  induction fuel generalizing left rem off with
  | zero => cases h
  | succ fuel ih =>
    by_cases hr : rem.length < 4 + read16 (rem.drop 2)
    · rw [attributes_short hr] at ha
      cases ha
    · unfold findIntegrity at h
      split_ifs at h with hleft hhere
      · obtain rfl := some.inj h
        rw [attributes_succ (by omega) (by omega),
          takeWhile_cons_of_neg (by simp [notIntegrity, hhere])]
        exact ⟨by omega, .here hhere (by omega)⟩
      · have hother :
            notIntegrity (read16 rem, (rem.drop 4).take (read16 (rem.drop 2))) = true := by
          simpa [notIntegrity] using hhere
        obtain ⟨off', hoff, rfl⟩ := map_eq_some_iff.mp h
        rw [attributes_succ (by omega) (by omega)] at ha ⊢
        rw [all_cons, hother, Bool.true_and] at ha
        rw [takeWhile_cons_of_pos hother]
        obtain ⟨hle, hwalk⟩ := ih hoff ha
        exact ⟨by omega, .skip hhere (by omega) hwalk⟩

theorem length_le (h : SignedWalk rem as off) : off + 4 ≤ rem.length := by
  induction h with
  | here _ hr => omega
  | skip _ _ _ ih =>
    rw [length_drop] at ih
    omega

theorem eq_of_take {rem' : Bytes} {as' : List (ℕ × Bytes)} {off' : ℕ} (h : SignedWalk rem as off)
    (h' : SignedWalk rem' as' off') (ho : off = off') (hb : rem.take off = rem'.take off) :
    as = as' := by
  induction h generalizing rem' as' off' with
  | here =>
    cases h' with
    | here => rfl
    | skip => omega
  | @skip rem as off _ _ hw ih =>
    cases h' with
    | here => omega
    | @skip _ as' off' _ _ hw' =>
      have hle := le_align4 (read16 (rem.drop 2))
      have htype : read16 rem = read16 rem' := by
        have h0 := congrArg read16 hb
        rwa [read16_take (by omega), read16_take (by omega)] at h0
      have hlen : read16 (rem.drop 2) = read16 (rem'.drop 2) := by
        have h2 := congrArg read16 (drop_take_congr hb 2)
        rwa [read16_take (by omega), read16_take (by omega)] at h2
      have hvalue : (rem.drop 4).take (read16 (rem.drop 2)) =
          (rem'.drop 4).take (read16 (rem.drop 2)) := by
        have h4 := congrArg (List.take (read16 (rem.drop 2))) (drop_take_congr hb 4)
        rwa [take_take, take_take, min_eq_left (by omega)] at h4
      have hrest := drop_take_congr hb (4 + align4 (read16 (rem.drop 2)))
      rw [Nat.add_sub_cancel_left] at hrest
      rw [htype, hvalue, hlen]
      rw [← hlen] at ho hw'
      rw [ih hw' (by omega) hrest]

end SignedWalk

/-! ### Accepted messages -/

theorem Accepts.reaches (h : Accepts H net key raw m) :
    (attributesOf raw).all notIntegrity = false := by
  have hi := h.hasIntegrity
  rw [(parseStun_eq_some.mp h.parsed).2.2.2, StunMessage.setCodes_hasIntegrity] at hi
  simpa using hi

theorem Accepts.walk (h : Accepts H net key raw m) : ∃ off, integrityOffset raw = some off ∧
    off + 4 ≤ read16 (raw.drop 2) ∧ SignedWalk (raw.drop 20) (signedAttributes raw) off := by
  have hfound : ∃ off, integrityOffset raw = some off := by
    have hv := h.verified
    unfold verifyIntegrity at hv
    split_ifs at hv
    cases ho : integrityOffset raw with
    | none => simp [ho] at hv
    | some off => exact ⟨off, rfl⟩
  obtain ⟨off, hoff⟩ := hfound
  exact ⟨off, hoff, SignedWalk.of_found hoff h.reaches⟩

theorem StunMessage.setCodes_append {bs : List (ℕ × Bytes)} :
    msg.setCodes net (as ++ bs) = (msg.setCodes net as).setCodes net bs := by
  rw [setCodes, foldl_append]
  rfl

theorem StunMessage.setCode_integrity {v : Bytes} :
    msg.setCode net AttrKind.messageIntegrity.code v = { msg with hasIntegrity := true } := by
  rw [setCode, AttrKind.ofCode?_code]
  rfl

private theorem attributesOf_split (h : (attributesOf raw).all notIntegrity = false) :
    ∃ v, attributesOf raw = signedAttributes raw ++
      (AttrKind.messageIntegrity.code, v) :: trailingAttributes raw := by
  have hsplit : signedAttributes raw ++ (attributesOf raw).dropWhile notIntegrity =
      attributesOf raw := takeWhile_append_dropWhile
  have hhead := List.head?_dropWhile_not notIntegrity (attributesOf raw)
  have htail : trailingAttributes raw = ((attributesOf raw).dropWhile notIntegrity).tail := rfl
  cases hd : (attributesOf raw).dropWhile notIntegrity with
  | nil =>
    rw [all_eq_true.mpr (dropWhile_eq_nil_iff.mp hd)] at h
    cases h
  | cons a rest =>
    rw [hd] at hsplit hhead htail
    have ha : a.1 = AttrKind.messageIntegrity.code := by simpa [notIntegrity] using hhead
    exact ⟨a.2, by rw [htail, ← ha]; exact hsplit.symm⟩

theorem Accepts.message_eq (h : Accepts H net key raw m) :
    m = (authenticatedPart net raw).setCodes net (trailingAttributes raw) := by
  obtain ⟨v, hv⟩ := attributesOf_split h.reaches
  have hcons (msg : StunMessage) : msg.setCodes net ((AttrKind.messageIntegrity.code, v) ::
      trailingAttributes raw) = (msg.setCode net AttrKind.messageIntegrity.code v).setCodes net
        (trailingAttributes raw) := rfl
  rw [(parseStun_eq_some.mp h.parsed).2.2.2, hv, StunMessage.setCodes_append, hcons,
    StunMessage.setCode_integrity]
  rfl

theorem ofBytes_take {b : Bytes} : Block.ofBytes n (b.take n) = Block.ofBytes n b := by
  apply Subtype.ext
  simp only [Block.ofBytes, List.take_append, take_take, take_replicate, length_take, min_self]
  congr 2
  omega

private theorem coveredMessage_inj {off off' : ℕ} (h : 20 + off ≤ raw.length)
    (h' : 20 + off' ≤ raw'.length) (hc : coveredMessage raw off = coveredMessage raw' off') :
    off = off' ∧ raw.take 2 = raw'.take 2 ∧ (raw.drop 4).take 16 = (raw'.drop 4).take 16 ∧
      (raw.drop 20).take off = (raw'.drop 20).take off' := by
  have hlen := congrArg List.length hc
  simp only [coveredMessage, length_append, length_take, length_drop, length_be16] at hlen
  obtain rfl : off = off' := by omega
  unfold coveredMessage at hc
  have htail := append_inj' hc (by simp only [length_take, length_drop]; omega)
  have hids := append_inj' htail.1 (by simp only [length_take, length_drop]; omega)
  exact ⟨rfl, append_cancel_right hids.1, hids.2, htail.2⟩

theorem authenticatedPart_congr (h : Accepts H net key raw m) (h' : Accepts H net key raw' m')
    (hs : signedBytes raw = signedBytes raw') :
    authenticatedPart net raw = authenticatedPart net raw' := by
  obtain ⟨off, hoff, -, hwalk⟩ := h.walk
  obtain ⟨off', hoff', -, hwalk'⟩ := h'.walk
  have hlong := hwalk.length_le
  have hlong' := hwalk'.length_le
  rw [length_drop] at hlong hlong'
  rw [signedBytes, signedBytes, hoff, hoff', map_some, map_some, some.injEq] at hs
  obtain ⟨ho, htype, hids, hattrs⟩ := coveredMessage_inj (by omega) (by omega) hs
  have hsigned : signedAttributes raw = signedAttributes raw' :=
    hwalk.eq_of_take hwalk' ho (ho ▸ hattrs)
  have hmsgType : read16 raw = read16 raw' := by
    have h2 := congrArg read16 htype
    rwa [read16_take le_rfl, read16_take le_rfl] at h2
  have htxn : Block.ofBytes 12 (raw.drop 8) = Block.ofBytes 12 (raw'.drop 8) := by
    have h8 := congrArg (List.drop 4) hids
    rw [drop_take, drop_take, drop_drop, drop_drop] at h8
    rw [← ofBytes_take, h8, ofBytes_take]
  unfold authenticatedPart
  rw [hsigned, hmsgType, htxn]

theorem StunMessage.Same.trans {m'' : StunMessage} (h : m.Same m') (h' : m'.Same m'') :
    m.Same m'' := Eq.trans h h'

theorem StunMessage.setCode_same {t : ℕ} (v : Bytes)
    (hi : msg.hasIntegrity = true) (ht : ∀ k ∈ decodedKinds, k.code ≠ t) :
    (msg.setCode net t v).Same msg := by
  unfold setCode
  cases hk : AttrKind.ofCode? t with
  | none => rfl
  | some k =>
    have hout : k ∉ decodedKinds := fun h => ht k h (AttrKind.code_of_ofCode? hk)
    cases k <;> first | exact absurd (by decide) hout | simp [Same, setAttr, hi]

theorem StunMessage.setCodes_same (hi : msg.hasIntegrity = true)
    (has : ∀ a ∈ as, ∀ k ∈ decodedKinds, k.code ≠ a.1) : (msg.setCodes net as).Same msg := by
  induction as generalizing msg with
  | nil => rfl
  | cons a as ih =>
    have hone : (msg.setCode net a.1 a.2).Same msg := setCode_same a.2 hi (has a (by simp))
    have hkeep : (msg.setCode net a.1 a.2).hasIntegrity = true :=
      (congrArg hasIntegrity hone).trans hi
    exact (ih hkeep fun a ha => has a (by simp [ha])).trans hone

/-! ### Built messages -/

theorem accepts_build (H : Hmac) (net : Inet) (hf : b.fits = true)
    (hk : b.signedWith key = true) : Accepts H net key (b.build H) (b.message net) :=
  ⟨b.parseStun_build H net hf, StunBuilder.message_hasIntegrity net hk,
    b.verifyIntegrity_build H hf hk⟩

theorem signedBytes_build {pre post : List Attr} (hf : b.fits = true)
    (hab : b.attrs = pre ++ .integrity key :: post) (hpre : ∀ a ∈ pre, a.isIntegrity = false) :
    signedBytes (b.build H) = some (header b.msgType ((pre.map Attr.size).sum + 24) b.txnId ++
      b.tailBytes H [] pre) := by
  rw [signedBytes, StunBuilder.integrityOffset_build H hf hab hpre, map_some,
    StunBuilder.coveredMessage_build H hab]

def signedThen (key : Bytes) (as : List Attr) : StunBuilder :=
  ⟨bindingRequest, Block.zero 12, .integrity key :: as⟩

def someValue : Bytes := [0, 1, 0, 0, 0, 0, 0, 0]

theorem signedThen_trails (net : Inet) {types : Set ℕ} {as : List Attr}
    (hs : (signedThen key as).attrsSize < 65536) (has : ∀ a ∈ as, a.kind.code ∈ types) :
    TrailsOnly types ((signedThen key as).build H) := by
  have hkinds : (attributesOf ((signedThen key as).build H)).map Prod.fst =
      AttrKind.messageIntegrity.code :: as.map (·.kind.code) := by
    unfold attributesOf
    rw [StunBuilder.read16_drop_build H _ hs, StunBuilder.drop_build, StunBuilder.attrBytes_eq]
    exact (StunBuilder.attributes_tailBytes H net _ _ hs [] le_rfl
      { msgType := 0, txnId := Block.zero 12 }).2
  obtain ⟨a, rest, hsplit, ha, hrest⟩ := map_eq_cons_iff.mp hkinds
  intro c hc
  unfold trailingAttributes at hc
  rw [hsplit, dropWhile_cons_of_neg (by simp [notIntegrity, ha])] at hc
  obtain ⟨a', ha', hcode⟩ := mem_map.mp (hrest ▸ mem_map_of_mem hc)
  exact hcode ▸ has a' ha'

private theorem signedThen_differs (key : Bytes) {k : AttrKind} (hk : k ∈ decodedKinds) :
    ¬ ((signedThen key []).message net).Same ((signedThen key [.tlv k someValue]).message net) := by
  cases k
  all_goals first
    | exact absurd hk (by decide)
    | simp [StunMessage.Same, signedThen, StunBuilder.message, Attr.note, StunMessage.setAttr,
        someValue, decodeXorAddr]

/-- Messages with the same signed bytes are read alike as long as only attributes of the given
types stand behind MESSAGE-INTEGRITY, if and only if `parse_stun` decodes none of those types. -/
theorem signed_bytes_determine_message_iff (H : Hmac) (net : Inet) (key : Bytes) (types : Set ℕ) :
    (∀ raw m raw' m', Accepts H net key raw m → Accepts H net key raw' m' →
      signedBytes raw = signedBytes raw' → TrailsOnly types raw → TrailsOnly types raw' →
        m.Same m') ↔ ∀ k ∈ decodedKinds, k.code ∉ types := by
  constructor
  · intro h k hk hmem
    have hplain : (signedThen key []).fits = true := by
      simp [signedThen, StunBuilder.fits, StunBuilder.attrsSize, Attr.valueLength, bindingRequest,
        align4]
    have hnot : k ≠ .messageIntegrity := by
      rintro rfl
      exact absurd hk (by decide)
    have hfull : (signedThen key [.tlv k someValue]).fits = true := by
      simp [signedThen, StunBuilder.fits, StunBuilder.attrsSize, Attr.valueLength, bindingRequest,
        align4, someValue, hnot]
    have hsigned : signedBytes ((signedThen key []).build H) =
        signedBytes ((signedThen key [.tlv k someValue]).build H) := by
      rw [signedBytes_build hplain (nil_append _).symm (by simp),
        signedBytes_build hfull (nil_append _).symm (by simp)]
      rfl
    exact signedThen_differs key hk (h _ _ _ _ (accepts_build H net hplain (decide_eq_true rfl))
      (accepts_build H net hfull (decide_eq_true rfl)) hsigned
      (signedThen_trails net (StunBuilder.fits_size hplain).2 (by simp))
      (signedThen_trails net (StunBuilder.fits_size hfull).2 (by simpa [Attr.kind] using hmem)))
  · intro h raw m raw' m' ha ha' hs ht ht'
    have hpart {raw : Bytes} {m : StunMessage} (ha : Accepts H net key raw m)
        (ht : TrailsOnly types raw) : m.Same (authenticatedPart net raw) := by
      rw [ha.message_eq]
      exact StunMessage.setCodes_same rfl fun a hm k hk hc => h k hk (hc ▸ ht a hm)
    have hright := hpart ha' ht'
    rw [← authenticatedPart_congr ha ha' hs] at hright
    exact (hpart ha ht).trans hright.symm

def ordinaryCheck (key : Bytes) : StunBuilder :=
  ((⟨bindingRequest, Block.zero 12, []⟩ : StunBuilder).addIceControlling 7).addIntegrity key

theorem ordinaryCheck_fits (key : Bytes) : (ordinaryCheck key).fits = true := by
  simp [ordinaryCheck, StunBuilder.fits, StunBuilder.addIntegrity, StunBuilder.addIceControlling,
    StunBuilder.add, StunBuilder.attrsSize, Attr.valueLength, bindingRequest, align4]

private theorem addUseCandidate_fits (h : b.fits = true)
    (hroom : b.attrsSize + 4 < 65536) : b.addUseCandidate.fits = true := by
  have hsize : b.addUseCandidate.attrsSize = b.attrsSize + 4 := by
    simp [StunBuilder.addUseCandidate, StunBuilder.add, StunBuilder.attrsSize, Attr.valueLength,
      align4]
  simp only [StunBuilder.fits, Bool.and_eq_true, decide_eq_true_eq] at h ⊢
  refine ⟨⟨h.1.1, by omega⟩, ?_⟩
  simp only [StunBuilder.addUseCandidate, StunBuilder.add, all_append, h.2]
  rfl

/-- USE-CANDIDATE appended to the check is accepted under every key. -/
theorem appended_use_candidate_accepted :
    ¬ ∃ (H : Hmac) (net : Inet) (key : Bytes), ∀ raw m raw' m', Accepts H net key raw m →
      Accepts H net key raw' m' → signedBytes raw = signedBytes raw' → m.Same m' := by
  rintro ⟨H, net, key, h⟩
  have hf := ordinaryCheck_fits key
  have hf' := addUseCandidate_fits hf (by
    simp [ordinaryCheck, StunBuilder.addIntegrity, StunBuilder.addIceControlling, StunBuilder.add,
      StunBuilder.attrsSize, Attr.valueLength, align4])
  have hpre : ∀ a ∈ [Attr.tlv .iceControlling (be64 7)], a.isIntegrity = false := by
    simp [Attr.isIntegrity]
  have hsigned : signedBytes ((ordinaryCheck key).build H) =
      signedBytes ((ordinaryCheck key).addUseCandidate.build H) := by
    rw [signedBytes_build hf rfl hpre, signedBytes_build hf' rfl hpre]
    rfl
  have hsame := h _ _ _ _ (accepts_build H net hf (decide_eq_true rfl))
    (accepts_build H net hf' (decide_eq_true rfl)) hsigned
  have huse := congrArg StunMessage.useCandidate hsame
  cases huse

end LinkIce.Stun
