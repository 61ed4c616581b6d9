import LinkIce.Lib.Fields
import LinkIce.Mdns.Message

/-! What the mDNS responder writes it reads back. -/
namespace LinkIce.Mdns
open Stun List Option

variable {bytes rest : Bytes} {label : Bytes} {labels : List Bytes} {c : NameCursor}
  {cur fuel size off : ℕ} {host : HostName} {net : Inet}

/-! ### Names -/

def dotted : List Bytes → Bytes
  | [] => []
  | label :: labels => label ++ labels.flatMap (dot :: ·)

def wireLabels (labels : List Bytes) : Bytes :=
  labels.flatMap fun label => UInt8.ofNat label.length :: label

/-- The size that `encode_name` compares with its limit. -/
def wireSize (labels : List Bytes) : ℕ := (labels.map fun label => 1 + label.length).sum

structure IsLabel (label : Bytes) : Prop where
  nonempty : label ≠ []
  short : label.length ≤ 63
  plain : dot ∉ label

/-- A host name of labels that fit, perhaps with the dot of the root behind them. -/
structure HostName where
  labels : List Bytes
  rooted : Bool
  valid : ∀ label ∈ labels, IsLabel label
  fits : wireSize labels ≤ 255
  some_of_rooted : rooted = true → labels ≠ []

def HostName.name (host : HostName) : Bytes := dotted host.labels

def HostName.text (host : HostName) : Bytes :=
  host.name ++ if host.rooted then [dot] else []

theorem length_wireLabels (labels : List Bytes) : (wireLabels labels).length = wireSize labels := by
  induction labels with
  | nil => rfl
  | cons label labels ih =>
    simp only [wireLabels, wireSize, flatMap_cons, map_cons, sum_cons,
      length_append, length_cons] at ih ⊢
    omega

private theorem encodeNameFrom_label (hlabel : IsLabel label)
    (hrest : rest.head? = none ∨ rest.head? = some dot) (hfits : size + 1 + label.length ≤ 255) :
    encodeNameFrom (fuel + 1) (label ++ rest) size =
      ((encodeNameFrom fuel (rest.drop 1) (size + 1 + label.length)).1,
        UInt8.ofNat label.length :: label ++
          (encodeNameFrom fuel (rest.drop 1) (size + 1 + label.length)).2) := by
  have hpos := length_pos_iff.mpr hlabel.nonempty
  have hshort := hlabel.short
  have htake : (label ++ rest).takeWhile (· ≠ dot) = label := by
    have hall : ∀ c ∈ label, decide (c ≠ dot) = true := fun c hc =>
      decide_eq_true fun h => hlabel.plain (h ▸ hc)
    rw [takeWhile_append_of_pos hall]
    have hnone : rest.takeWhile (· ≠ dot) = [] := by
      cases rest with
      | nil => rfl
      | cons c cs =>
        obtain h | h := hrest
        · exact absurd h (by simp)
        · obtain rfl := some.inj h
          rfl
    rw [hnone, append_nil]
  have hdrop : (label ++ rest).drop (label.length + 1) = rest.drop 1 := by
    rw [← drop_drop, drop_left]
  rw [encodeNameFrom, if_neg (by simp [hlabel.nonempty])]
  dsimp only
  rw [htake, hdrop, if_neg (by omega), if_neg (by omega), if_neg (by omega)]

theorem encodeNameFrom_dotted {tail : Bytes} (hlabels : ∀ l ∈ labels, IsLabel l)
    (hfits : size + wireSize labels ≤ 255) (hfuel : labels.length < fuel)
    (htail : tail = [] ∨ tail = [dot] ∧ labels ≠ []) :
    encodeNameFrom fuel (dotted labels ++ tail) size = (true, wireLabels labels ++ [0]) := by
  induction labels generalizing fuel size with
  | nil =>
    obtain rfl := htail.resolve_right fun h => h.2 rfl
    cases fuel with
    | zero => rfl
    | succ fuel => rfl
  | cons label labels ih =>
    obtain ⟨fuel, rfl⟩ : ∃ k, fuel = k + 1 := ⟨fuel - 1, by omega⟩
    have hlabel := hlabels label mem_cons_self
    have hothers : ∀ l ∈ labels, IsLabel l := fun l hl => hlabels l (mem_cons_of_mem _ hl)
    simp only [wireSize, map_cons, sum_cons] at hfits
    have hrest : encodeNameFrom fuel ((labels.flatMap (dot :: ·) ++ tail).drop 1)
        (size + 1 + label.length) = (true, wireLabels labels ++ [0]) := by
      cases labels with
      | nil =>
        have hnil : ([].flatMap (dot :: ·) ++ tail).drop 1 = [] := by
          rcases htail with rfl | ⟨rfl, -⟩ <;> rfl
        rw [hnil]
        cases fuel with
        | zero => rfl
        | succ fuel => rfl
      | cons next labels =>
        have hdrop : ((next :: labels).flatMap (dot :: ·) ++ tail).drop 1 =
            dotted (next :: labels) ++ tail := rfl
        rw [hdrop]
        apply ih hothers
        · unfold wireSize
          omega
        · simpa using hfuel
        · exact htail.imp id fun h => ⟨h.1, cons_ne_nil _ _⟩
    have hhead : (labels.flatMap (dot :: ·) ++ tail).head? = none ∨
        (labels.flatMap (dot :: ·) ++ tail).head? = some dot := by
      cases labels with
      | nil => rcases htail with rfl | ⟨rfl, -⟩ <;> simp
      | cons next labels => exact .inr rfl
    rw [dotted, append_assoc, encodeNameFrom_label hlabel hhead (by omega), hrest]
    simp [wireLabels]

private theorem length_le_dotted (hlabels : ∀ l ∈ labels, IsLabel l) :
    labels.length ≤ (dotted labels).length := by
  have hdots (ls : List Bytes) : ls.length ≤ (ls.flatMap (dot :: ·)).length := by
    induction ls with
    | nil => exact Nat.le_refl 0
    | cons l ls ih =>
      simp only [flatMap_cons, length_append, length_cons]
      omega
  cases labels with
  | nil => exact Nat.le_refl 0
  | cons label labels =>
    have hfirst := length_pos_iff.mpr (hlabels label mem_cons_self).nonempty
    have hothers := hdots labels
    simp only [dotted, length_append, length_cons]
    omega

theorem encodeName_text : encodeName host.text = (true, wireLabels host.labels ++ [0]) := by
  have hlen := length_le_dotted host.valid
  have htail : (if host.rooted then [dot] else []) = [] ∨
      (if host.rooted then [dot] else []) = [dot] ∧ host.labels ≠ [] := by
    cases hrooted : host.rooted with
    | true => exact .inr ⟨rfl, host.some_of_rooted hrooted⟩
    | false => exact .inl rfl
  apply encodeNameFrom_dotted host.valid _ _ htail
  · simpa using host.fits
  · simp only [HostName.text, HostName.name, length_append]
    omega

theorem lowercase_dotted (labels : List Bytes) :
    lowercase (dotted labels) = dotted (labels.map lowercase) := by
  have hdots (ls : List Bytes) :
      lowercase (ls.flatMap (dot :: ·)) = (ls.map lowercase).flatMap (dot :: ·) := by
    simp only [lowercase, map_flatMap, flatMap_map, map_cons]
    rfl
  cases labels with
  | nil => rfl
  | cons label labels =>
    have happ : lowercase (label ++ labels.flatMap (dot :: ·)) =
        lowercase label ++ lowercase (labels.flatMap (dot :: ·)) := map_append
    rw [dotted, happ, hdots]
    rfl

private theorem lengthByte {n : ℕ} (hpos : 0 < n) (h : n ≤ 63) :
    UInt8.ofNat n ≠ 0 ∧ UInt8.ofNat n &&& 0xC0 = 0 ∧ (UInt8.ofNat n).toNat = n := by
  have hall : ∀ n < 64, 0 < n →
      UInt8.ofNat n ≠ 0 ∧ UInt8.ofNat n &&& 0xC0 = 0 ∧ (UInt8.ofNat n).toNat = n := by decide
  exact hall n (by omega) hpos

theorem decodeNameFrom_label (hlabel : IsLabel label)
    (hbytes : bytes.drop c.cur = UInt8.ofNat label.length :: label ++ rest)
    (hfits : c.total + 1 + label.length ≤ 255) :
    decodeNameFrom bytes (fuel + 1) c = decodeNameFrom bytes fuel { c with
      cur := c.cur + 1 + label.length
      total := c.total + 1 + label.length
      name := if c.name = [] then lowercase label else c.name ++ dot :: lowercase label } := by
  obtain ⟨hzero, hplain, hlen⟩ := lengthByte (length_pos_iff.mpr hlabel.nonempty) hlabel.short
  have hfirst : bytes[c.cur]? = some (UInt8.ofNat label.length) := by
    have hget := congrArg (·[0]?) hbytes
    simpa using hget
  have hbehind : bytes.drop (c.cur + 1) = label ++ rest := by
    rw [← drop_drop, hbytes]
    rfl
  have hroom : c.cur + 1 + label.length ≤ bytes.length := by
    have hcount := congrArg List.length hbytes
    simp only [length_drop, length_append, length_cons] at hcount
    omega
  rw [decodeNameFrom, nameRound, hfirst]
  dsimp only
  rw [if_neg hzero, hplain, if_neg (by decide), if_neg (by decide), hlen, if_neg (by omega),
    if_neg (by omega), hbehind, take_left]

theorem drop_label (hbytes : bytes.drop cur = UInt8.ofNat label.length :: label ++ rest) :
    bytes.drop (cur + 1 + label.length) = rest := by
  rw [Nat.add_assoc, ← drop_drop, hbytes]
  simp [Nat.add_comm]

/-- The reader on written labels, behind a name that has begun. -/
theorem decodeNameFrom_labels (hlabels : ∀ l ∈ labels, IsLabel l) (hname : c.name ≠ [])
    (hbytes : bytes.drop c.cur = wireLabels labels ++ 0 :: rest)
    (hfits : c.total + wireSize labels ≤ 255) (hfuel : labels.length < fuel) :
    decodeNameFrom bytes fuel c = some (c.name ++ (labels.map lowercase).flatMap (dot :: ·),
      c.next.getD (c.cur + wireSize labels + 1)) := by
  induction labels generalizing fuel c with
  | nil =>
    obtain ⟨fuel, rfl⟩ : ∃ k, fuel = k + 1 := ⟨fuel - 1, by omega⟩
    have hfirst : bytes[c.cur]? = some 0 := by
      have hget := congrArg (·[0]?) hbytes
      simpa [wireLabels] using hget
    rw [decodeNameFrom, nameRound, hfirst]
    simp [wireSize]
  | cons label labels ih =>
    obtain ⟨fuel, rfl⟩ : ∃ k, fuel = k + 1 := ⟨fuel - 1, by omega⟩
    simp only [wireSize, map_cons, sum_cons] at hfits
    have hbytes' : bytes.drop c.cur =
        UInt8.ofNat label.length :: label ++ (wireLabels labels ++ 0 :: rest) := by
      rw [hbytes, wireLabels, flatMap_cons, append_assoc]
      rfl
    rw [decodeNameFrom_label (hlabels label mem_cons_self) hbytes' (by omega), if_neg hname,
      ih (fun l hl => hlabels l (mem_cons_of_mem _ hl)) (by simp) (drop_label hbytes')
        (by dsimp only [wireSize]; omega) (by simpa using hfuel)]
    simp only [wireSize, map_cons, flatMap_cons, sum_cons, append_assoc, cons_append]
    congr 3
    omega

private theorem length_le_wireSize (labels : List Bytes) : labels.length ≤ wireSize labels := by
  induction labels with
  | nil => exact Nat.le_refl 0
  | cons label labels ih =>
    simp only [wireSize, map_cons, sum_cons, length_cons] at ih ⊢
    omega

/-- The name comes back in lower case, with the offset behind its last byte. -/
theorem decodeName_written (hbytes : bytes.drop off = wireLabels host.labels ++ [0] ++ rest) :
    decodeName bytes off =
      some (lowercase host.name, off + (wireLabels host.labels ++ [0]).length) := by
  have hfits := host.fits
  have hcount := length_le_wireSize host.labels
  rw [HostName.name, lowercase_dotted, length_append, length_wireLabels]
  rw [append_assoc] at hbytes
  unfold decodeName
  cases hlabels : host.labels with
  | nil =>
    rw [hlabels] at hbytes
    have hfirst : bytes[off]? = some 0 := by
      have hget := congrArg (·[0]?) hbytes
      simpa [wireLabels] using hget
    rw [decodeNameFrom, nameRound, hfirst]
    simp [wireSize, dotted]
  | cons label labels =>
    have hvalid := host.valid
    rw [hlabels] at hbytes hfits hcount hvalid
    simp only [wireSize, map_cons, sum_cons] at hfits
    have hlabel := hvalid label mem_cons_self
    have hbytes' : bytes.drop off =
        UInt8.ofNat label.length :: label ++ (wireLabels labels ++ 0 :: rest) := by
      rw [hbytes, wireLabels, flatMap_cons, append_assoc]
      rfl
    have hnonempty : lowercase label ≠ [] := by
      simpa [lowercase] using hlabel.nonempty
    have hfew := length_le_wireSize labels
    unfold wireSize at hfew
    rw [decodeNameFrom_label hlabel hbytes' (by dsimp only; omega), if_pos rfl,
      decodeNameFrom_labels (fun l hl => hvalid l (mem_cons_of_mem _ hl)) hnonempty
        (drop_label hbytes') (by unfold wireSize; omega) (by omega)]
    simp only [dotted, wireSize, map_cons, sum_cons, getD_none]
    congr 2
    simp
    omega

/-! ### Addresses -/

def decimalValue (digits : Bytes) : ℕ := digits.foldl (fun n c => n * 10 + (c.toNat - 0x30)) 0

structure OctetText where
  digits : Bytes
  nonempty : digits ≠ []
  decimal : ∀ c ∈ digits, 0x30 ≤ c ∧ c ≤ 0x39
  small : decimalValue digits ≤ 255

def OctetText.octet (o : OctetText) : UInt8 := UInt8.ofNat (decimalValue o.digits)

structure Ipv4Text where
  a : OctetText
  b : OctetText
  c : OctetText
  d : OctetText

def Ipv4Text.text (ip : Ipv4Text) : Bytes :=
  ip.a.digits ++ dot :: (ip.b.digits ++ dot :: (ip.c.digits ++ dot :: ip.d.digits))

def Ipv4Text.octets (ip : Ipv4Text) : Bytes := [ip.a.octet, ip.b.octet, ip.c.octet, ip.d.octet]

def Ipv4Text.canonical (ip : Ipv4Text) : Bytes := dottedQuad ip.octets

structure Ipv6Text (net : Inet) where
  text : Bytes
  addr : Block 16
  valid : net.pton6 text = some addr

def Ipv6Text.canonical {net : Inet} (ip : Ipv6Text net) : Bytes := net.ntop6 ip.addr

private theorem scanDigits_append {digits : Bytes} (hdigits : ∀ c ∈ digits, 0x30 ≤ c ∧ c ≤ 0x39)
    (hrest : ∀ c ∈ rest.head?, ¬ (0x30 ≤ c ∧ c ≤ 0x39)) (n : ℕ) :
    scanDigits (digits ++ rest) n =
      (digits.foldl (fun n c => n * 10 + (c.toNat - 0x30)) n, rest) := by
  induction digits generalizing n with
  | nil =>
    cases rest with
    | nil => rfl
    | cons c cs =>
      rw [nil_append, scanDigits, if_neg (hrest c rfl)]
      rfl
  | cons c digits ih =>
    have hothers : ∀ d ∈ digits, 0x30 ≤ d ∧ d ≤ 0x39 := fun d hd =>
      hdigits d (mem_cons_of_mem c hd)
    rw [cons_append, scanDigits, if_pos (hdigits c mem_cons_self), ih hothers]
    rfl

theorem scanHhu_digits (o : OctetText) (hrest : ∀ c ∈ rest.head?, ¬ (0x30 ≤ c ∧ c ≤ 0x39)) :
    scanHhu (o.digits ++ rest) = some (o.octet, rest) := by
  have hscan := scanDigits_append o.decimal hrest 0
  obtain ⟨c, cs, hcons⟩ := exists_cons_of_ne_nil o.nonempty
  have hdigit : 0x30 ≤ c ∧ c ≤ 0x39 := o.decimal c (hcons ▸ mem_cons_self)
  have hspace : ¬ (c = 0x20 ∨ (0x09 ≤ c ∧ c ≤ 0x0D)) := by
    rintro (rfl | ⟨-, hlow⟩)
    · exact absurd hdigit (by decide)
    · exact absurd (UInt8.le_trans hdigit.1 hlow) (by decide)
  have hminus : c ≠ 0x2D := by
    rintro rfl
    exact absurd hdigit (by decide)
  have hplus : c ≠ 0x2B := by
    rintro rfl
    exact absurd hdigit (by decide)
  rw [OctetText.octet, decimalValue]
  rw [hcons, cons_append] at hscan ⊢
  unfold scanHhu
  rw [dropWhile_cons_of_neg (by simpa using hspace)]
  simp [hminus, hplus, hdigit, hscan]

private theorem dot_no_digit (s : Bytes) : ∀ c ∈ (dot :: s).head?, ¬ (0x30 ≤ c ∧ c ≤ 0x39) := by
  rintro _ ⟨⟩
  decide

theorem scanOctets_text (ip : Ipv4Text) : scanOctets ip.text = some ⟨ip.octets, rfl⟩ := by
  have hlast : scanHhu (ip.d.digits ++ []) = some (ip.d.octet, []) := scanHhu_digits ip.d nofun
  rw [append_nil] at hlast
  unfold scanOctets Ipv4Text.text
  rw [scanHhu_digits ip.a (dot_no_digit _)]
  simp only [bind_eq_bind, bind_some, scanDot, if_true,
    scanHhu_digits ip.b (dot_no_digit _), scanHhu_digits ip.c (dot_no_digit _), hlast]
  rfl

/-! ### Messages -/

structure Resource where
  qtype : ℕ
  rdata : Bytes

def Resource.read (net : Inet) (name : Bytes) (r : Resource) : Option DnsAnswer :=
  recordAnswer net name r.qtype 0x8001 r.rdata

theorem read_aaaa (name : Bytes) (ip : Ipv6Text net) :
    Resource.read net name ⟨dnsTypeAaaa, ip.addr.1⟩ = some { name, ipv6 := ip.canonical } := by
  have haddr : Block.ofBytes 16 ip.addr.1 = ip.addr := by
    have happ := ofBytes_append ip.addr []
    rwa [append_nil] at happ
  have htype : ¬ dnsTypeAaaa = dnsTypeA := by decide
  unfold Resource.read recordAnswer
  rw [if_neg fun h => htype h.2.1, if_pos ⟨rfl, rfl, ip.addr.2⟩, haddr]
  rfl

private theorem emitAnswer_text {qtype : ℕ} {rdata : Bytes} :
    emitAnswer host.text qtype rdata = (wireLabels host.labels ++ [0]) ++
      (be16 qtype ++ be16 0x8001 ++ be32 dnsTtlSeconds ++ be16 rdata.length ++ rdata) := by
  unfold emitAnswer
  rw [encodeName_text]
  simp only [if_true, append_assoc]

/-- The parser on a run of records of one host. -/
theorem parseItems_emitted (net : Inet) (host : HostName) {rs : List Resource}
    (hrs : ∀ r ∈ rs, r.qtype < 2 ^ 16 ∧ r.rdata.length < 2 ^ 16)
    (hbytes : bytes.drop off = rs.flatMap fun r => emitAnswer host.text r.qtype r.rdata) :
    ∃ behind, parseItems (parseAnswer net bytes) rs.length off =
      some (rs.map fun r => r.read net (lowercase host.name), behind) := by
  induction rs generalizing off with
  | nil => exact ⟨off, rfl⟩
  | cons r rs ih =>
    obtain ⟨hqtype, hrdata⟩ := hrs r mem_cons_self
    rw [flatMap_cons, emitAnswer_text, append_assoc] at hbytes
    have hname := decodeName_written hbytes
    rw [length_cons, parseItems, parseAnswer, hname]
    generalize hnext : off + (wireLabels host.labels ++ [0]).length = next
    have hbehind : bytes.drop next = be16 r.qtype ++ (be16 0x8001 ++ (be32 dnsTtlSeconds ++
        (be16 r.rdata.length ++ (r.rdata ++
          rs.flatMap fun r => emitAnswer host.text r.qtype r.rdata)))) := by
      rw [← hnext, ← drop_drop, hbytes, drop_left]
      simp only [append_assoc]
    have hclass : bytes.drop (next + 2) = be16 0x8001 ++ (be32 dnsTtlSeconds ++
        (be16 r.rdata.length ++ (r.rdata ++
          rs.flatMap fun r => emitAnswer host.text r.qtype r.rdata))) := by
      rw [← drop_drop, hbehind]
      rfl
    have hsize : bytes.drop (next + 8) = be16 r.rdata.length ++ (r.rdata ++
        rs.flatMap fun r => emitAnswer host.text r.qtype r.rdata) := by
      rw [show next + 8 = next + 2 + 6 from rfl, ← drop_drop, hclass]
      rfl
    have hdata : bytes.drop (next + 10) = r.rdata ++
        rs.flatMap fun r => emitAnswer host.text r.qtype r.rdata := by
      rw [show next + 10 = next + 8 + 2 from rfl, ← drop_drop, hsize]
      rfl
    have hrest : bytes.drop (next + 10 + r.rdata.length) =
        rs.flatMap fun r => emitAnswer host.text r.qtype r.rdata := by
      rw [← drop_drop, hdata, drop_left]
    have hroom : next + 10 + r.rdata.length ≤ bytes.length := by
      have hlen := congrArg List.length hbehind
      simp only [length_drop, length_append, length_be16, length_be32] at hlen
      omega
    have hwhole : r.qtype % 65536 = r.qtype := Nat.mod_eq_of_lt hqtype
    have hwhole' : r.rdata.length % 65536 = r.rdata.length := Nat.mod_eq_of_lt hrdata
    obtain ⟨behind, ih⟩ := ih (fun r hr => hrs r (mem_cons_of_mem _ hr)) hrest
    dsimp only
    rw [hbehind, hclass, hsize, hdata, read16_be16, read16_be16, read16_be16, hwhole, hwhole',
      if_neg (by omega), if_neg (by omega), take_left]
    dsimp only
    rw [ih]
    exact ⟨behind, rfl⟩

def header (txnId flags questions answers : ℕ) : Bytes :=
  be16 txnId ++ be16 flags ++ be16 questions ++ be16 answers ++ be16 0 ++ be16 0

theorem read_header (txnId flags questions answers : ℕ) (body : Bytes)
    (hbytes : bytes = header txnId flags questions answers ++ body) :
    read16 bytes = txnId % 65536 ∧ read16 (bytes.drop 2) = flags % 65536 ∧
      read16 (bytes.drop 4) = questions % 65536 ∧ read16 (bytes.drop 6) = answers % 65536 ∧
      bytes.drop dnsHeaderSize = body ∧ ¬ bytes.length < dnsHeaderSize := by
  subst hbytes
  refine ⟨read16_be16 _ _, read16_be16 _ _, read16_be16 _ _, read16_be16 _ _, rfl, ?_⟩
  have hlen : (header txnId flags questions answers).length = dnsHeaderSize := rfl
  rw [length_append, hlen]
  exact Nat.not_lt.mpr (Nat.le_add_right _ _)

theorem parse_query {txnId : UInt16} {wantAaaa : Bool} :
    parseDnsMessage net (encodeDnsQuery host.text txnId.toNat wantAaaa) =
      some { isResponse := false, txnId := txnId.toNat, question := lowercase host.name
             qtype := if wantAaaa then dnsTypeAaaa else dnsTypeA } := by
  have hid : txnId.toNat < 65536 := txnId.toNat_lt
  generalize hqtype : (if wantAaaa then dnsTypeAaaa else dnsTypeA) = qtype
  have hsmall : qtype < 65536 := by
    rw [← hqtype]
    cases wantAaaa <;> decide
  have hbytes : encodeDnsQuery host.text txnId.toNat wantAaaa = header txnId.toNat 0 1 0 ++
      (wireLabels host.labels ++ [0] ++ (be16 qtype ++ be16 dnsClassIn)) := by
    unfold encodeDnsQuery header
    rw [encodeName_text, hqtype]
    simp only [if_true, append_assoc]
  generalize encodeDnsQuery host.text txnId.toNat wantAaaa = bytes at hbytes
  obtain ⟨hread, hflags, hquestions, hanswers, hbody, hlong⟩ := read_header _ _ _ _ _ hbytes
  have hname := decodeName_written hbody
  generalize hnext : dnsHeaderSize + (wireLabels host.labels ++ [0]).length = next at hname
  have hbehind : bytes.drop next = be16 qtype ++ be16 dnsClassIn := by
    rw [← hnext, ← drop_drop, hbody, drop_left]
  have hroom : next + 4 ≤ bytes.length := by
    have hlen := congrArg List.length hbehind
    simp only [length_drop, length_append, length_be16] at hlen
    omega
  have hparse : parseItems (parseQuestion bytes) 1 dnsHeaderSize =
      some ([(lowercase host.name, qtype)], next + 4) := by
    rw [parseItems, parseQuestion, hname]
    dsimp only
    rw [if_neg (Nat.not_lt.mpr hroom), hbehind, read16_be16, Nat.mod_eq_of_lt hsmall]
    rfl
  unfold parseDnsMessage
  rw [if_neg hlong, hread, hflags, hquestions, hanswers, hparse, Nat.mod_eq_of_lt hid]
  rfl

private theorem parse_response (net : Inet) (host : HostName) (txnId : UInt16) {v4 : List Ipv4Text}
    {v6 : List (Ipv6Text net)} (hcount : v4.length + v6.length ≤ 65535) :
    parseDnsMessage net (encodeDnsResponse net host.text txnId.toNat (v4.map (·.text))
        (v6.map (·.text))) =
      some { isResponse := true, txnId := txnId.toNat
             answers := v4.map (fun ip => { name := lowercase host.name, ipv4 := ip.canonical }) ++
               v6.map fun ip => { name := lowercase host.name, ipv6 := ip.canonical } } := by
  have hid : txnId.toNat < 65536 := txnId.toNat_lt
  let rs : List Resource := v4.map (fun ip => ⟨dnsTypeA, ip.octets⟩) ++
    v6.map fun ip => ⟨dnsTypeAaaa, ip.addr.1⟩
  have hrs : ∀ r ∈ rs, r.qtype < 2 ^ 16 ∧ r.rdata.length < 2 ^ 16 := by
    intro r hr
    rcases mem_append.mp hr with hr | hr
    · obtain ⟨ip, -, rfl⟩ := mem_map.mp hr
      exact ⟨(by decide : dnsTypeA < 2 ^ 16), (by decide : 4 < 2 ^ 16)⟩
    · obtain ⟨ip, -, rfl⟩ := mem_map.mp hr
      exact ⟨(by decide : dnsTypeAaaa < 2 ^ 16), ip.addr.2.symm ▸ (by decide : 16 < 2 ^ 16)⟩
  have hscan : (v4.map (·.text)).filterMap scanOctets = v4.map fun ip => ⟨ip.octets, rfl⟩ := by
    rw [filterMap_map, ← filterMap_eq_map]
    exact congrArg (v4.filterMap ·) (funext scanOctets_text)
  have hpton : (v6.map (·.text)).filterMap net.pton6 = v6.map (·.addr) := by
    rw [filterMap_map, ← filterMap_eq_map]
    exact congrArg (v6.filterMap ·) (funext Ipv6Text.valid)
  have hbytes : encodeDnsResponse net host.text txnId.toNat (v4.map (·.text)) (v6.map (·.text)) =
      header txnId.toNat 0x8400 0 rs.length ++
        rs.flatMap fun r => emitAnswer host.text r.qtype r.rdata := by
    unfold encodeDnsResponse header
    rw [hscan, hpton]
    simp only [rs, length_map, length_append, flatMap_append, flatMap_map, append_assoc]
  generalize encodeDnsResponse net host.text txnId.toNat (v4.map (·.text)) (v6.map (·.text)) =
    bytes at hbytes
  obtain ⟨hread, hflags, hquestions, hanswers, hbody, hlong⟩ := read_header _ _ _ _ _ hbytes
  have hlen : rs.length < 65536 := by
    simp only [rs, length_append, length_map]
    omega
  obtain ⟨behind, hparse⟩ := parseItems_emitted net host hrs hbody
  have hfour (ip : Ipv4Text) : Resource.read net (lowercase host.name) ⟨dnsTypeA, ip.octets⟩ =
      some { name := lowercase host.name, ipv4 := ip.canonical } := rfl
  unfold parseDnsMessage
  rw [if_neg hlong, hread, hflags, hquestions, hanswers, Nat.mod_eq_of_lt hid,
    Nat.mod_eq_of_lt hlen, Nat.zero_mod, parseItems]
  dsimp only
  rw [hparse]
  simp [rs, Function.comp_def, hfour, read_aaaa]

/-- **What is written is read back**: a query as its name and type, a response as its addresses in
order, in canonical text. -/
theorem dns_round_trip (net : Inet) (host : HostName) (txnId : UInt16) (wantAaaa : Bool)
    (v4 : List Ipv4Text) (v6 : List (Ipv6Text net)) (hcount : v4.length + v6.length ≤ 65535) :
    parseDnsMessage net (encodeDnsQuery host.text txnId.toNat wantAaaa) =
        some { isResponse := false, txnId := txnId.toNat, question := lowercase host.name
               qtype := if wantAaaa then dnsTypeAaaa else dnsTypeA } ∧
    parseDnsMessage net (encodeDnsResponse net host.text txnId.toNat (v4.map (·.text))
        (v6.map (·.text))) =
      some { isResponse := true, txnId := txnId.toNat
             answers := v4.map (fun ip => { name := lowercase host.name, ipv4 := ip.canonical }) ++
               v6.map fun ip => { name := lowercase host.name, ipv6 := ip.canonical } } :=
  ⟨parse_query, parse_response net host txnId hcount⟩

def abLocal : HostName where
  labels := [[0x41, 0x62], [0x6C, 0x6F, 0x63, 0x61, 0x6C]]
  rooted := true
  valid := by
    simp only [forall_mem_cons, not_mem_nil, false_imp_iff, implies_true, and_true]
    exact ⟨⟨by decide, by decide, by decide⟩, ⟨by decide, by decide, by decide⟩⟩
  fits := by decide
  some_of_rooted := by decide

def sevenText : OctetText where
  digits := [0x30, 0x37]
  nonempty := by decide
  decimal := forall_mem_cons.mpr ⟨by decide, forall_mem_singleton.mpr (by decide)⟩
  small := by decide

def zeroText : Ipv6Text .posix := ⟨[0x3A, 0x3A], Block.zero 16, by decide⟩

/-- "07.07.07.07" comes back as "7.7.7.7", under the name "ab.local". -/
theorem ab_local_round_trip :
    ([⟨sevenText, sevenText, sevenText, sevenText⟩] : List Ipv4Text).length + [zeroText].length ≤
        65535 ∧
    parseDnsMessage .posix (encodeDnsResponse .posix abLocal.text (5 : UInt16).toNat
        ([⟨sevenText, sevenText, sevenText, sevenText⟩].map Ipv4Text.text)
        ([zeroText].map Ipv6Text.text)) =
      some { isResponse := true, txnId := 5
             answers := [
               { name := [0x61, 0x62, 0x2E, 0x6C, 0x6F, 0x63, 0x61, 0x6C]
                 ipv4 := [0x37, 0x2E, 0x37, 0x2E, 0x37, 0x2E, 0x37] },
               { name := [0x61, 0x62, 0x2E, 0x6C, 0x6F, 0x63, 0x61, 0x6C]
                 ipv6 := [0x3A, 0x3A] }] } := by
  refine ⟨by decide, ?_⟩
  have htrip := (dns_round_trip .posix abLocal 5 false
    [⟨sevenText, sevenText, sevenText, sevenText⟩] [zeroText] (by decide)).2
  exact htrip.trans (by decide)

end LinkIce.Mdns
