import LinkIce.Candidate
import LinkIce.Lib.Fields

/-! The signal envelope: credentials, flags and candidates in binary form. Host names of
mDNS candidates travel in a trailer behind the fixed-size entries. -/
namespace LinkIce

open List

variable {c : Candidate} {cands cs cs' : List Candidate} {data : Bytes} {n flags : ℕ}
  {t : CandidateType}

namespace CandidateType

def ofCode : ℕ → CandidateType
  | 0 => host
  | 1 => srflx
  | 2 => relay
  | 3 => prflx
  | 4 => hostMdns
  | c => other c

end CandidateType

namespace AddressFamily

def code : AddressFamily → ℕ
  | ipv4 => 1
  | ipv6 => 2
  | other c => c

def ofCode : ℕ → AddressFamily
  | 1 => ipv4
  | 2 => ipv6
  | c => other c

end AddressFamily

namespace TransportType

def ofCode : ℕ → TransportType
  | 0 => udp
  | 1 => tcpActive
  | 2 => tcpPassive
  | _ => tcpSimultaneousOpen

end TransportType

def iceSignalFlagMask : ℕ := 0xFFFF0000

def iceSignalCountMask : ℕ := 0x0000FFFF

def iceSignalFlagLite : ℕ := 1 <<< 16

def iceSignalFlagSymmetric : ℕ := 1 <<< 17


def maxIceCandidates : ℕ := 256

/-- `CandidateWire`: type and transport share the first byte, bit 7 of it is reserved. -/
def toWire (c : Candidate) : Block 24 :=
  ⟨[UInt8.ofNat ((c.type.code &&& 0x1F) ||| ((c.transport.code &&& 0x03) <<< 5)),
      UInt8.ofNat c.family.code] ++ be16 c.port ++ be32 c.priority ++ c.addr.1, by
    simp [c.addr.2]⟩

def fromWire (w : Block 24) : Candidate where
  type := .ofCode (w.1.getD 0 0 &&& 0x1F).toNat
  transport := .ofCode ((w.1.getD 0 0 >>> 5) &&& 0x03).toNat
  family := .ofCode (w.1.getD 1 0).toNat
  port := read16 (w.1.drop 2)
  priority := read32 (w.1.drop 4)
  addr := Block.ofBytes 16 (w.1.drop 8)

/-- The candidate takes part in the host name trailer. -/
def Candidate.named (c : Candidate) : Bool := c.type = .hostMdns && c.hostname ≠ []

def hostnameField (c : Candidate) : Bytes :=
  let name := c.hostname.take maxMdnsHostnameLen
  be16 name.length ++ name

/-- The trailer is there only if some candidate needs it. -/
def mdnsTrailer (cands : List Candidate) : Bytes :=
  let mdnsCount := (cands.filter (·.named)).length
  if 0 < mdnsCount then be32 mdnsCount ++ (cands.filter (·.named)).flatMap hostnameField else []

/-- `ufrag` and `pwd` are C strings. -/
def serializeSignal (ufrag pwd : Bytes) (cands : List Candidate) (flags : ℕ) : Bytes :=
  (Block.ofBytes 8 (cstr ufrag)).1 ++ (Block.ofBytes 32 (cstr pwd)).1 ++
    be32 ((flags &&& iceSignalFlagMask) ||| (cands.length &&& iceSignalCountMask)) ++
    cands.flatMap (fun c => (toWire c).1) ++ mdnsTrailer cands

structure IceSignalData where
  ufrag : Block 8
  pwd : Block 32
  candidateCount : ℕ
  deriving DecidableEq, Repr

structure DecodedSignal where
  hdr : IceSignalData
  candidates : List Candidate
  flags : ℕ
  deriving DecidableEq, Repr

/-- Walk the host names in lock-step with the mDNS candidates: the candidates with their
names, the number of names and the bytes behind them. -/
def takeHostnames : List Candidate → Bytes → Option (List Candidate × ℕ × Bytes)
  | [], data => some ([], 0, data)
  | c :: cs, data =>
    if c.type ≠ .hostMdns then (takeHostnames cs data).map fun r => (c :: r.1, r.2)
    else if data.length < 2 then none
    else
      let len := read16 data
      let data := data.drop 2
      if len = 0 ∨ maxMdnsHostnameLen < len then none
      else if data.length < len then none
      else (takeHostnames cs (data.drop len)).map fun r =>
        ({ c with hostname := data.take len } :: r.1, r.2.1 + 1, r.2.2)

def takeTrailer (cands : List Candidate) (data : Bytes) : Option (List Candidate) :=
  let mdnsCount := cands.countP (·.type = .hostMdns)
  if data = [] then if mdnsCount = 0 then some cands else none
  else if mdnsCount = 0 then none
  else if data.length < 4 then none
  else
    let trailerCount := read32 data
    if trailerCount ≠ mdnsCount then none
    else
      match takeHostnames cands (data.drop 4) with
      | none => none
      | some (cands, hnIndex, rest) =>
        if rest ≠ [] then none else if hnIndex ≠ trailerCount then none else some cands

def deserializeSignal (data : Bytes) : Option DecodedSignal :=
  if data.length < 44 then none
  else
    let packed := read32 (data.drop 40)
    let flags := packed &&& iceSignalFlagMask
    let count := packed &&& iceSignalCountMask
    let hdr : IceSignalData :=
      ⟨Block.ofBytes 8 data, Block.ofBytes 32 (data.drop 8), count⟩
    if maxIceCandidates < count then none
    else if data.length < 44 + count * 24 then none
    else
      let cands := (blocks 24 count (data.drop 44)).map fromWire
      (takeTrailer cands (data.drop (44 + count * 24))).map fun cands => ⟨hdr, cands, flags⟩

/-! ### One entry -/

theorem CandidateType.code_ofCode (n : ℕ) : (CandidateType.ofCode n).code = n := by
  unfold CandidateType.ofCode
  split <;> rfl

theorem AddressFamily.code_ofCode (n : ℕ) : (AddressFamily.ofCode n).code = n := by
  unfold AddressFamily.ofCode
  split <;> rfl

theorem TransportType.code_ofCode (h : n < 4) : (TransportType.ofCode n).code = n := by
  match n, h with
  | 0, _ | 1, _ | 2, _ | 3, _ => rfl

theorem CandidateType.ofCode_code (h : ∀ n, t ≠ .other n) : CandidateType.ofCode t.code = t := by
  cases t with
  | other n => exact absurd rfl (h n)
  | _ => rfl

theorem AddressFamily.ofCode_code {f : AddressFamily} (h : ∀ n, f = .other n → n = 0) :
    AddressFamily.ofCode f.code = f := by
  cases f with
  | other n =>
    obtain rfl := h n rfl
    rfl
  | _ => rfl

theorem unpack_typeByte (h : ∀ n, t ≠ .other n) {tx : TransportType} :
    let b := UInt8.ofNat ((t.code &&& 0x1F) ||| ((tx.code &&& 0x03) <<< 5))
    (b &&& 0x1F).toNat = t.code ∧ TransportType.ofCode ((b >>> 5) &&& 0x03).toNat = tx := by
  cases t with
  | other n => exact absurd rfl (h n)
  | _ => cases tx <;> decide

theorem pack_typeByte {b : UInt8} :
    UInt8.ofNat (((b &&& 0x1F).toNat &&& 0x1F) ||| ((((b >>> 5) &&& 0x03).toNat &&& 0x03) <<< 5)) =
      b &&& 0x7F := by
  have hall : ∀ n < 256, UInt8.ofNat (((UInt8.ofNat n &&& 0x1F).toNat &&& 0x1F) |||
      ((((UInt8.ofNat n >>> 5) &&& 0x03).toNat &&& 0x03) <<< 5)) = UInt8.ofNat n &&& 0x7F := by
    decide +kernel
  have hb := hall b.toNat b.toNat_lt
  rwa [UInt8.ofNat_toNat] at hb

namespace Candidate

/-- An enumerated type and family, and a host name exactly on mDNS candidates. Family 0 is
that of an unset address. -/
structure Shaped (c : Candidate) : Prop where
  type : ∀ n, c.type ≠ .other n
  family : ∀ n, c.family = .other n → n = 0
  hostname : if c.type = .hostMdns then c.hostname ≠ [] ∧ c.hostname.length ≤ maxMdnsHostnameLen
    else c.hostname = []

/-- A foundation without the bar that tuple keys are joined with, and a priority. -/
structure Listable (c : Candidate) : Prop where
  foundation : 0x7C ∉ c.foundation
  priority : 0 < c.priority

/-- A candidate as the agent makes them. -/
structure Own (c : Candidate) : Prop extends Shaped c, Listable c

/-- What an entry of the envelope can hold. -/
structure Signalable (c : Candidate) : Prop extends Shaped c where
  port : c.port < 2 ^ 16
  priority : c.priority < 2 ^ 32

/-- The candidate as the peer sees it; foundations are not sent. -/
def signalled (c : Candidate) : Candidate := { c with foundation := [] }

/-- The fixed-size part of it. -/
def entry (c : Candidate) : Candidate := { c.signalled with hostname := [] }

end Candidate

theorem fromWire_toWire (h : c.Signalable) : fromWire (toWire c) = c.entry := by
  obtain ⟨ht, htx⟩ := unpack_typeByte h.type
  have htype : (fromWire (toWire c)).type = c.type := by
    rw [← CandidateType.ofCode_code h.type, ← ht]
    rfl
  have hfam : (fromWire (toWire c)).family = c.family := by
    have hlt : c.family.code < 256 := by
      cases hf : c.family with
      | other n => simp [AddressFamily.code, h.family n hf]
      | _ => simp [AddressFamily.code]
    have hcode : (UInt8.ofNat c.family.code).toNat = c.family.code := by
      rw [UInt8.toNat_ofNat', Nat.mod_eq_of_lt hlt]
    have hof := AddressFamily.ofCode_code h.family
    rw [← hcode] at hof
    exact hof
  have hport : (fromWire (toWire c)).port = c.port := by
    have hdrop : (toWire c).1.drop 2 = be16 c.port ++ (be32 c.priority ++ c.addr.1) := by
      simp [toWire]
    have hmod : c.port % 65536 = c.port := Nat.mod_eq_of_lt h.port
    rw [fromWire, hdrop, read16_be16, hmod]
  have hprio : (fromWire (toWire c)).priority = c.priority := by
    have hdrop : (toWire c).1.drop 4 = be32 c.priority ++ c.addr.1 := by
      simp [toWire, be16]
    rw [fromWire, hdrop, read32_be32, Nat.mod_eq_of_lt h.priority]
  have haddr : (fromWire (toWire c)).addr = c.addr := by
    have hdrop : (toWire c).1.drop 8 = c.addr.1 ++ [] := by
      simp [toWire, be16, be32]
    rw [fromWire, hdrop, ofBytes_append]
  have htrans : (fromWire (toWire c)).transport = c.transport := htx
  calc fromWire (toWire c)
      = { type := (fromWire (toWire c)).type, family := (fromWire (toWire c)).family
          port := (fromWire (toWire c)).port, priority := (fromWire (toWire c)).priority
          addr := (fromWire (toWire c)).addr
          transport := (fromWire (toWire c)).transport } := rfl
    _ = c.entry := by rw [htype, hfam, hport, hprio, haddr, htrans]; rfl

def clearReserved (w : Block 24) : Bytes := (w.1.getD 0 0 &&& 0x7F) :: w.1.drop 1

theorem toWire_fromWire {w : Block 24} : (toWire (fromWire w)).1 = clearReserved w := by
  obtain ⟨w, hw⟩ := w
  match w, hw with
  | b₀ :: b₁ :: rest, hw =>
    have hlen : rest.length = 22 := by simpa using hw
    have h₀ : UInt8.ofNat (((CandidateType.ofCode (b₀ &&& 0x1F).toNat).code &&& 0x1F) |||
        (((TransportType.ofCode ((b₀ >>> 5) &&& 0x03).toNat).code &&& 0x03) <<< 5)) =
          b₀ &&& 0x7F := by
      have hlt : ((b₀ >>> 5) &&& 0x03).toNat < 4 := by
        rw [UInt8.toNat_and]
        exact lt_of_le_of_lt Nat.and_le_right (by decide)
      rw [CandidateType.code_ofCode, TransportType.code_ofCode hlt, pack_typeByte]
    have h₁ : UInt8.ofNat (AddressFamily.ofCode b₁.toNat).code = b₁ := by
      rw [AddressFamily.code_ofCode, UInt8.ofNat_toNat]
    have hport : be16 (read16 rest) = rest.take 2 := be16_read16 (by omega)
    have hprio : be32 (read32 (rest.drop 2)) = (rest.drop 2).take 4 :=
      be32_read32 (by rw [length_drop]; omega)
    have haddr : (Block.ofBytes 16 (rest.drop 6)).1 = rest.drop 6 := by
      have hfull : (rest.drop 6).length = 16 := by rw [length_drop]; omega
      simpa using congrArg Subtype.val (ofBytes_append ⟨rest.drop 6, hfull⟩ [])
    have hrest : rest.take 2 ++ (rest.drop 2).take 4 ++ rest.drop 6 = rest := by
      rw [append_assoc, show rest.drop 6 = (rest.drop 2).drop 4 by rw [drop_drop],
        take_append_drop, take_append_drop]
    calc (toWire (fromWire ⟨b₀ :: b₁ :: rest, hw⟩)).1
        = [b₀ &&& 0x7F, b₁] ++ be16 (read16 rest) ++ be32 (read32 (rest.drop 2)) ++
            (Block.ofBytes 16 (rest.drop 6)).1 := by
          rw [← h₀, ← h₁]
          simp only [toWire, fromWire, AddressFamily.code_ofCode, UInt8.ofNat_toNat]
          rfl
      _ = (b₀ &&& 0x7F) :: b₁ :: rest := by
          rw [hport, hprio, haddr]
          conv_rhs => rw [← hrest]
          simp

/-! ### The trailer -/

theorem countP_entry (cands : List Candidate) :
    (cands.map Candidate.entry).countP (·.type = .hostMdns) =
      cands.countP (·.type = .hostMdns) := by
  rw [countP_map]
  rfl

theorem Candidate.Signalable.named_eq (h : c.Signalable) :
    c.named = decide (c.type = .hostMdns) := by
  have hname := h.hostname
  by_cases ht : c.type = .hostMdns
  · rw [if_pos ht] at hname
    simp [Candidate.named, ht, hname.1]
  · simp [Candidate.named, ht]

theorem Candidate.Signalable.entry_eq (h : c.Signalable)
    (ht : c.type ≠ .hostMdns) : c.entry = c.signalled := by
  have hname := h.hostname
  rw [if_neg ht] at hname
  simp [Candidate.entry, Candidate.signalled, hname]

/-- The names find their candidates again. -/
theorem takeHostnames_hostnameField (cands : List Candidate)
    (h : ∀ c ∈ cands, c.Signalable) (rest : Bytes) :
    takeHostnames (cands.map Candidate.entry)
        ((cands.filter (·.named)).flatMap hostnameField ++ rest) =
      some (cands.map Candidate.signalled, cands.countP (·.type = .hostMdns), rest) := by
  induction cands with
  | nil => rfl
  | cons c cs ih =>
    have hc := h c (by simp)
    have ih' := ih fun c hc => h c (by simp [hc])
    by_cases ht : c.type = .hostMdns
    · have hname := hc.hostname
      rw [if_pos ht] at hname
      obtain ⟨hne, hlen⟩ := hname
      have hpos : 0 < c.hostname.length := length_pos_iff.mpr hne
      have htake : c.hostname.take maxMdnsHostnameLen = c.hostname := take_of_length_le hlen
      have hmod : c.hostname.length % 65536 = c.hostname.length := by
        have hcap : maxMdnsHostnameLen = 64 := rfl
        omega
      have hfield : (((c :: cs).filter (·.named)).flatMap hostnameField ++ rest) =
          be16 c.hostname.length ++ (c.hostname ++
            ((cs.filter (·.named)).flatMap hostnameField ++ rest)) := by
        rw [filter_cons_of_pos (by rw [hc.named_eq]; exact decide_eq_true ht),
          flatMap_cons, hostnameField, htake]
        simp only [append_assoc]
      have htype : c.entry.type = .hostMdns := ht
      rw [map_cons, takeHostnames, if_neg (not_not_intro htype), hfield, read16_be16, hmod]
      dsimp only
      have htwo (b : Bytes) : ¬ (be16 c.hostname.length ++ b).length < 2 := by
        rw [length_append, length_be16]
        omega
      rw [if_neg (htwo _), drop_left' (length_be16 _), if_neg (by omega), if_neg (by simp),
        drop_left, take_left, ih', countP_cons_of_pos (by simp [ht])]
      rfl
    · have htype : c.entry.type ≠ .hostMdns := ht
      have hskip : c.named = false := by
        rw [hc.named_eq]
        exact decide_eq_false ht
      rw [filter_cons_of_neg (by simp [hskip]), map_cons, takeHostnames, if_pos htype, ih',
        countP_cons_of_neg (by simp [ht])]
      simp [hc.entry_eq ht]

private theorem filter_named_length (h : ∀ c ∈ cands, c.Signalable) :
    (cands.filter (·.named)).length = cands.countP (·.type = .hostMdns) := by
  rw [countP_eq_length_filter]
  congr 1
  exact filter_congr fun c hc => (h c hc).named_eq

theorem takeTrailer_mdnsTrailer (h : ∀ c ∈ cands, c.Signalable) (hcount : cands.length < 2 ^ 32) :
    takeTrailer (cands.map Candidate.entry) (mdnsTrailer cands) =
      some (cands.map Candidate.signalled) := by
  have hlen := filter_named_length h
  have hle : cands.countP (·.type = .hostMdns) ≤ cands.length := countP_le_length
  have hnames := takeHostnames_hostnameField cands h []
  rw [append_nil] at hnames
  unfold takeTrailer mdnsTrailer
  dsimp only
  rw [countP_entry, hlen]
  by_cases hz : cands.countP (·.type = .hostMdns) = 0
  · have hplain : cands.map Candidate.entry = cands.map Candidate.signalled := by
      refine map_congr_left fun c hc => (h c hc).entry_eq ?_
      simpa using countP_eq_zero.mp hz c hc
    rw [hz, if_neg (lt_irrefl 0), if_pos rfl, if_pos rfl, hplain]
  · have hpos : 0 < cands.countP (·.type = .hostMdns) := Nat.pos_of_ne_zero hz
    have hne (m : ℕ) (b : Bytes) : be32 m ++ b ≠ [] := by simp [be32]
    rw [if_pos hpos, if_neg (hne _ _), if_neg hz, if_neg (by simp), read32_be32,
      Nat.mod_eq_of_lt (by omega), if_neg (not_not_intro rfl), drop_left' (length_be32 _),
      hnames]
    simp

/-! ### Count and flags -/

def packCount (flags n : ℕ) : ℕ := (flags &&& iceSignalFlagMask) ||| (n &&& iceSignalCountMask)

theorem packCount_lt {n : ℕ} : packCount flags n < 2 ^ 32 := by
  have hf : flags &&& iceSignalFlagMask < 2 ^ 32 := lt_of_le_of_lt Nat.and_le_right (by decide)
  have hn : n &&& iceSignalCountMask < 2 ^ 32 := lt_of_le_of_lt Nat.and_le_right (by decide)
  exact Nat.or_lt_two_pow hf hn

theorem packCount_flags {n : ℕ} :
    packCount flags n &&& iceSignalFlagMask = flags &&& iceSignalFlagMask := by
  have hself : iceSignalFlagMask &&& iceSignalFlagMask = iceSignalFlagMask := Nat.and_self _
  have hdisj : iceSignalCountMask &&& iceSignalFlagMask = 0 := by decide
  rw [packCount, Nat.and_or_distrib_right, Nat.and_assoc, Nat.and_assoc, hself, hdisj, Nat.and_zero,
    Nat.or_zero]

theorem and_countMask (h : n < 2 ^ 16) : n &&& iceSignalCountMask = n :=
  (Nat.and_two_pow_sub_one_eq_mod n 16).trans (Nat.mod_eq_of_lt h)

theorem packCount_count (h : n < 2 ^ 16) : packCount flags n &&& iceSignalCountMask = n := by
  have hdisj : iceSignalFlagMask &&& iceSignalCountMask = 0 := by decide
  rw [packCount, and_countMask h, Nat.and_or_distrib_right, Nat.and_assoc, hdisj, Nat.and_zero,
    Nat.zero_or, and_countMask h]

theorem packCount_masks {packed : ℕ} (h : packed < 2 ^ 32)
    (hn : packed &&& iceSignalCountMask < 2 ^ 16) :
    packCount (packed &&& iceSignalFlagMask) (packed &&& iceSignalCountMask) = packed := by
  have hself : iceSignalFlagMask &&& iceSignalFlagMask = iceSignalFlagMask := Nat.and_self _
  have hall : iceSignalFlagMask ||| iceSignalCountMask = 2 ^ 32 - 1 := by decide
  rw [packCount, and_countMask hn, Nat.and_assoc, hself, ← Nat.and_or_distrib_left, hall,
    Nat.and_two_pow_sub_one_eq_mod, Nat.mod_eq_of_lt h]

/-! ### The whole envelope -/

/-- The decoder on the encoder's output. Longer credentials are cut. -/
theorem deserializeSignal_serializeSignal {ufrag pwd : Bytes}
    (hu : 0 ∉ ufrag) (hp : 0 ∉ pwd) (hc : ∀ c ∈ cands, c.Signalable)
    (hn : cands.length ≤ maxIceCandidates) (hf : flags &&& iceSignalFlagMask = flags) :
    deserializeSignal (serializeSignal ufrag pwd cands flags) =
      some ⟨⟨Block.ofBytes 8 ufrag, Block.ofBytes 32 pwd, cands.length⟩,
        cands.map Candidate.signalled, flags⟩ := by
  have hn' : cands.length ≤ 256 := hn
  have hbytes : serializeSignal ufrag pwd cands flags =
      (Block.ofBytes 8 ufrag).1 ++ ((Block.ofBytes 32 pwd).1 ++
        (be32 (packCount flags cands.length) ++
          ((cands.map toWire).flatMap (·.1) ++ mdnsTrailer cands))) := by
    rw [serializeSignal, cstr_eq_self hu, cstr_eq_self hp, flatMap_map]
    simp only [append_assoc, packCount]
  generalize serializeSignal ufrag pwd cands flags = data at hbytes
  have hd₈ : data.drop 8 = (Block.ofBytes 32 pwd).1 ++
      (be32 (packCount flags cands.length) ++
        ((cands.map toWire).flatMap (·.1) ++ mdnsTrailer cands)) := by
    rw [hbytes, drop_left' (Block.ofBytes 8 ufrag).2]
  have hd₄₀ : data.drop 40 = be32 (packCount flags cands.length) ++
      ((cands.map toWire).flatMap (·.1) ++ mdnsTrailer cands) := by
    rw [show data.drop 40 = (data.drop 8).drop 32 by rw [drop_drop], hd₈,
      drop_left' (Block.ofBytes 32 pwd).2]
  have hd₄₄ : data.drop 44 = (cands.map toWire).flatMap (·.1) ++ mdnsTrailer cands := by
    rw [show data.drop 44 = (data.drop 40).drop 4 by rw [drop_drop], hd₄₀,
      drop_left' (length_be32 _)]
  have hwires : ((cands.map toWire).flatMap (·.1)).length = cands.length * 24 := by
    rw [length_flatMap_of_size fun w : Block 24 => w.2, length_map]
  have htail : data.drop (44 + cands.length * 24) = mdnsTrailer cands := by
    rw [← drop_drop, hd₄₄, drop_left' hwires]
  have hlen : 44 + cands.length * 24 ≤ data.length := by
    have h₄₄ := congrArg List.length hd₄₄
    have h₈ := congrArg List.length hbytes
    rw [length_drop, length_append, hwires] at h₄₄
    simp only [length_append, (Block.ofBytes 8 ufrag).2, (Block.ofBytes 32 pwd).2,
      length_be32] at h₈
    omega
  have hread : read32 (data.drop 40) = packCount flags cands.length := by
    rw [hd₄₀, read32_be32, Nat.mod_eq_of_lt (packCount_lt)]
  have hcount : packCount flags cands.length &&& iceSignalCountMask = cands.length :=
    packCount_count (by omega)
  have hflags : packCount flags cands.length &&& iceSignalFlagMask = flags := by
    rw [packCount_flags, hf]
  have hentries : (blocks 24 cands.length (data.drop 44)).map fromWire =
      cands.map Candidate.entry := by
    have hblocks := blocks_flatMap (cands.map toWire) (mdnsTrailer cands)
    rw [length_map] at hblocks
    rw [hd₄₄, hblocks, map_map]
    exact map_congr_left fun c h => fromWire_toWire (hc c h)
  have hufrag : Block.ofBytes 8 data = Block.ofBytes 8 ufrag := by
    rw [hbytes, ofBytes_append]
  have hpwd : Block.ofBytes 32 (data.drop 8) = Block.ofBytes 32 pwd := by
    rw [hd₈, ofBytes_append]
  unfold deserializeSignal
  dsimp only
  rw [if_neg (by omega), hread, hcount, hflags, if_neg (not_lt.mpr hn), if_neg (by omega), hentries,
    htail, takeTrailer_mdnsTrailer hc (by omega), hufrag, hpwd]
  rfl

/-- Every signal with encodable candidates is read back as it was written. -/
theorem signal_round_trip {ufrag pwd : Bytes} {cands : List Candidate} {flags : ℕ}
    (hu : ufrag.length ≤ 8) (hu₀ : 0 ∉ ufrag) (hp : pwd.length ≤ 32) (hp₀ : 0 ∉ pwd)
    (hc : ∀ c ∈ cands, c.Signalable) (hn : cands.length ≤ maxIceCandidates)
    (hf : flags &&& iceSignalFlagMask = flags) :
    ∃ d, deserializeSignal (serializeSignal ufrag pwd cands flags) = some d ∧
      cstr d.hdr.ufrag.1 = ufrag ∧ cstr d.hdr.pwd.1 = pwd ∧ d.flags = flags ∧
      d.candidates = cands.map Candidate.signalled :=
  ⟨_, deserializeSignal_serializeSignal hu₀ hp₀ hc hn hf, cstr_ofBytes hu hu₀,
    cstr_ofBytes hp hp₀, rfl, rfl⟩

/-- A plain host candidate and one that hides behind the name "a.local". -/
def mixedCandidates : List Candidate :=
  [{ type := .host, family := .ipv4, port := 1234, priority := computePriority .host 65535 1 },
    { type := .hostMdns, family := .ipv4, port := 1234, transport := .tcpPassive,
      priority := computePriority .hostMdns 65535 1, hostname := [97, 46, 108, 111, 99, 97, 108] }]

private theorem mixedCandidates_signalable : ∀ c ∈ mixedCandidates, c.Signalable := by
  intro c hc
  rcases mem_cons.mp hc with rfl | hc
  · exact ⟨⟨by simp, by simp, by decide⟩, by decide, by decide⟩
  · obtain rfl := mem_singleton.mp hc
    exact ⟨⟨by simp, by simp, by decide⟩, by decide, by decide⟩

theorem mixed_signal_round_trip :
    ∃ d, deserializeSignal (serializeSignal [117] [112, 119] mixedCandidates iceSignalFlagLite) =
        some d ∧ cstr d.hdr.ufrag.1 = [117] ∧ cstr d.hdr.pwd.1 = [112, 119] ∧
      d.flags = iceSignalFlagLite ∧ d.candidates = mixedCandidates.map Candidate.signalled :=
  signal_round_trip (by decide) (by decide) (by decide) (by decide) mixedCandidates_signalable
    (by decide) (by decide)

/-! ### What the decoder accepts -/

/-- Names are assigned to the mDNS candidates only, and every byte of them is accounted for. -/
theorem takeHostnames_sound {data rest : Bytes} (h : takeHostnames cs data = some (cs', n, rest)) :
    data = (cs'.filter (·.named)).flatMap hostnameField ++ rest ∧
      (cs'.filter (·.named)).length = cs.countP (·.type = .hostMdns) ∧
      cs'.map toWire = cs.map toWire := by
  induction cs generalizing data cs' n with
  | nil =>
    obtain ⟨rfl, hr⟩ := Prod.mk.inj (Option.some.inj h)
    obtain ⟨rfl, rfl⟩ := Prod.mk.inj hr
    exact ⟨rfl, rfl, rfl⟩
  | cons c cs ih =>
    rw [takeHostnames] at h
    by_cases ht : c.type = .hostMdns
    · rw [if_neg (not_not_intro ht)] at h
      dsimp only at h
      split_ifs at h with hshort hbad hcut
      simp only [Option.map_eq_some_iff, Prod.exists, Prod.mk.injEq] at h
      obtain ⟨ds, m, rest', hds, rfl, rfl, rfl⟩ := h
      obtain ⟨hdata, hlen, hwire⟩ := ih hds
      obtain ⟨hpos, hcap⟩ := not_or.mp hbad
      have hname : ((data.drop 2).take (read16 data)).length = read16 data := by
        rw [length_take]
        omega
      have hnamed :
          Candidate.named { c with hostname := (data.drop 2).take (read16 data) } = true := by
        have hne : (data.drop 2).take (read16 data) ≠ [] := by
          intro hnil
          rw [hnil] at hname
          exact hpos hname.symm
        simp [Candidate.named, ht, hne]
      have hfield : hostnameField { c with hostname := (data.drop 2).take (read16 data) } =
          be16 (read16 data) ++ (data.drop 2).take (read16 data) := by
        rw [hostnameField]
        dsimp only
        rw [take_of_length_le (by omega), hname]
      refine ⟨?_, ?_, ?_⟩
      · rw [filter_cons_of_pos hnamed, flatMap_cons, hfield, be16_read16 (by omega),
          append_assoc, append_assoc, ← hdata, take_append_drop,
          take_append_drop]
      · rw [filter_cons_of_pos hnamed, length_cons, hlen, countP_cons_of_pos (by simp [ht])]
      · rw [map_cons, map_cons, hwire]
        rfl
    · rw [if_pos ht] at h
      simp only [Option.map_eq_some_iff, Prod.exists, Prod.mk.injEq] at h
      obtain ⟨ds, m, rest', hds, rfl, rfl, rfl⟩ := h
      obtain ⟨hdata, hlen, hwire⟩ := ih hds
      have hskip : c.named = false := by simp [Candidate.named, ht]
      refine ⟨?_, ?_, ?_⟩
      · rw [filter_cons_of_neg (by simp [hskip])]
        exact hdata
      · rw [filter_cons_of_neg (by simp [hskip]), countP_cons_of_neg (by simp [ht])]
        exact hlen
      · rw [map_cons, map_cons, hwire]

theorem takeTrailer_sound (h : takeTrailer cs data = some cs') :
    data = mdnsTrailer cs' ∧ cs'.map toWire = cs.map toWire := by
  unfold takeTrailer at h
  dsimp only at h
  split_ifs at h with hnil hzero hzero' hshort hcount
  · obtain rfl := Option.some.inj h
    have hnone : cs.filter (·.named) = [] := by
      refine filter_eq_nil_iff.mpr fun c hc => ?_
      have ht : c.type ≠ .hostMdns := by simpa using countP_eq_zero.mp hzero c hc
      simp [Candidate.named, ht]
    exact ⟨by simp [mdnsTrailer, hnone, hnil], rfl⟩
  · cases hnames : takeHostnames cs (data.drop 4) with
    | none => simp [hnames] at h
    | some r =>
      obtain ⟨ds, n, rest⟩ := r
      rw [hnames] at h
      dsimp only at h
      split_ifs at h with hrest hindex
      obtain rfl := Option.some.inj h
      obtain ⟨hdata, hlen, hwire⟩ := takeHostnames_sound hnames
      rw [not_not.mp hrest, append_nil] at hdata
      have hpos : 0 < (ds.filter (·.named)).length := by
        rw [hlen]
        exact Nat.pos_of_ne_zero hzero'
      refine ⟨?_, hwire⟩
      rw [mdnsTrailer, if_pos hpos, hlen, ← not_not.mp hcount, ← hdata, be32_read32 (by omega),
        take_append_drop]

/-- The envelope with the bytes cleared that the decoder does not look at: those behind
the first NUL of a credential and the reserved bit of every entry. -/
def canonicalSignal (data : Bytes) : Bytes :=
  let count := read32 (data.drop 40) &&& iceSignalCountMask
  (Block.ofBytes 8 (cstr (data.take 8))).1 ++ (Block.ofBytes 32 (cstr ((data.drop 8).take 32))).1 ++
    (data.drop 40).take 4 ++ (blocks 24 count (data.drop 44)).flatMap clearReserved ++
    data.drop (44 + count * 24)

theorem deserializeSignal_sound {d : DecodedSignal} (h : deserializeSignal data = some d) :
    serializeSignal (cstr d.hdr.ufrag.1) (cstr d.hdr.pwd.1) d.candidates d.flags =
        canonicalSignal data ∧
      44 + (read32 (data.drop 40) &&& iceSignalCountMask) * 24 ≤ data.length := by
  unfold deserializeSignal at h
  dsimp only at h
  split_ifs at h with hshort hmany hcut
  obtain ⟨cands, htrailer, rfl⟩ := Option.map_eq_some_iff.mp h
  obtain ⟨htail, hwire⟩ := takeTrailer_sound htrailer
  have hmax : maxIceCandidates = 256 := rfl
  have hlen : cands.length = read32 (data.drop 40) &&& iceSignalCountMask := by
    have hmap := congrArg List.length hwire
    simpa [length_blocks] using hmap
  have hentries : cands.flatMap (fun c => (toWire c).1) =
      (blocks 24 (read32 (data.drop 40) &&& iceSignalCountMask) (data.drop 44)).flatMap
        clearReserved := by
    have hbytes := congrArg (List.flatMap fun w : Block 24 => w.1) hwire
    rw [flatMap_map, map_map, flatMap_map] at hbytes
    rw [hbytes]
    exact flatMap_congr fun w _ => toWire_fromWire
  have hword : be32 ((read32 (data.drop 40) &&& iceSignalFlagMask &&& iceSignalFlagMask) |||
      (cands.length &&& iceSignalCountMask)) = (data.drop 40).take 4 := by
    have hpack := packCount_masks (read32_lt (data.drop 40)) (by omega)
    rw [packCount] at hpack
    rw [hlen, hpack, be32_read32 (by rw [length_drop]; omega)]
  have hufrag : (Block.ofBytes 8 data).1 = data.take 8 :=
    take_append_of_le_length (by omega)
  have hpwd : (Block.ofBytes 32 (data.drop 8)).1 = (data.drop 8).take 32 :=
    take_append_of_le_length (by rw [length_drop]; omega)
  have hcstr (b : Bytes) : cstr (cstr b) = cstr b := cstr_eq_self (zero_notMem_cstr)
  constructor
  · rw [serializeSignal, canonicalSignal]
    dsimp only
    rw [hcstr, hcstr, hufrag, hpwd, hword, hentries, ← htail]
  · omega

private theorem length_canonicalSignal
    (h : 44 + (read32 (data.drop 40) &&& iceSignalCountMask) * 24 ≤ data.length) :
    (canonicalSignal data).length = data.length := by
  have hentry (w : Block 24) : (clearReserved w).length = 24 := by
    rw [clearReserved, length_cons, length_drop, w.2]
  rw [canonicalSignal, length_append, length_append, length_append,
    length_append, length_flatMap_of_size hentry, length_blocks, (Block.ofBytes 8 _).2,
    (Block.ofBytes 32 _).2, length_take, length_drop, length_drop]
  omega

/-- Whatever the decoder accepts, the encoder writes again, up to the bits that the decoder
ignores; blobs that decode to one signal differ in those bits only. -/
theorem serialize_deserialize {data : Bytes} {d : DecodedSignal}
    (h : deserializeSignal data = some d) :
    serializeSignal (cstr d.hdr.ufrag.1) (cstr d.hdr.pwd.1) d.candidates d.flags =
        canonicalSignal data ∧ (canonicalSignal data).length = data.length ∧
      ∀ data', deserializeSignal data' = some d → canonicalSignal data' = canonicalSignal data := by
  obtain ⟨hdata, hlen⟩ := deserializeSignal_sound h
  exact ⟨hdata, length_canonicalSignal hlen, fun data' h' =>
    (deserializeSignal_sound h').1.symm.trans hdata⟩

/-- One host candidate with the reserved bit set, and a byte behind the end of the ufrag. -/
def sloppySignal : Bytes :=
  [117, 0, 118, 0, 0, 0, 0, 0] ++ List.replicate 32 112 ++ be32 1 ++
    [0x80, 1, 4, 210, 126, 255, 255, 255] ++ [10, 0, 0, 1] ++ List.replicate 12 0

theorem sloppy_signal_cleaned :
    ∃ d, deserializeSignal sloppySignal = some d ∧
      serializeSignal (cstr d.hdr.ufrag.1) (cstr d.hdr.pwd.1) d.candidates d.flags =
        canonicalSignal sloppySignal := by
  have hsome : (deserializeSignal sloppySignal).isSome = true := by decide +kernel
  obtain ⟨d, hd⟩ := Option.isSome_iff_exists.mp hsome
  exact ⟨d, hd, (serialize_deserialize hd).1⟩

/-- The encoder does not write these bytes. -/
theorem sloppy_signal_accepted :
    ∃ d, deserializeSignal sloppySignal = some d ∧
      serializeSignal (cstr d.hdr.ufrag.1) (cstr d.hdr.pwd.1) d.candidates d.flags ≠
        sloppySignal := by
  have hany : (deserializeSignal sloppySignal).any (fun d => decide
      (serializeSignal (cstr d.hdr.ufrag.1) (cstr d.hdr.pwd.1) d.candidates d.flags ≠
        sloppySignal)) = true := by
    decide +kernel
  obtain ⟨d, hd, hne⟩ := (Option.any_eq_true _ _).mp hany
  exact ⟨d, hd, of_decide_eq_true hne⟩

end LinkIce
