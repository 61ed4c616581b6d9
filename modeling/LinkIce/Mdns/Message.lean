import LinkIce.Candidate

/-! DNS messages, as the mDNS responder writes and reads them. -/
namespace LinkIce
open Stun

/-- The outcome of one mDNS query: whether it was answered, the A and the AAAA records. -/
structure MdnsResolveResult where
  resolved : Bool
  ipv4 : List Bytes
  ipv6 : List Bytes
  deriving DecidableEq, Repr

namespace Mdns

def toLower (c : UInt8) : UInt8 := if 0x41 ≤ c ∧ c ≤ 0x5A then c + 0x20 else c

def lowercase (s : Bytes) : Bytes := s.map toLower

def isMdnsLocalName (name : Bytes) : Bool :=
  let suffix : Bytes := [0x2E, 0x6C, 0x6F, 0x63, 0x61, 0x6C]
  decide (suffix.length < name.length ∧ name.length ≤ maxMdnsHostnameLen) &&
    lowercase (name.drop (name.length - suffix.length)) == suffix && !name.contains 0

def dot : UInt8 := 0x2E

def dnsTypeA : ℕ := 1
def dnsTypeAaaa : ℕ := 28
def dnsClassIn : ℕ := 1
def dnsTtlSeconds : ℕ := 120
def dnsHeaderSize : ℕ := 12

/-! ### Writing -/

/-- The loop of `encode_name` on what is left of the name. The bytes are what it appends, also when
it fails. -/
def encodeNameFrom : ℕ → Bytes → ℕ → Bool × Bytes
  | 0, _, _ => (true, [0])
  | fuel + 1, name, encodedSize =>
    if name = [] then (true, [0])
    else
      let label := name.takeWhile (· ≠ dot)
      if label.length = 0 then (if label.length = name.length then (true, [0]) else (false, []))
      else if 63 < label.length then (false, [])
      else
        let chunk := UInt8.ofNat label.length :: label
        if 255 < encodedSize + 1 + label.length then (false, chunk)
        else
          let r := encodeNameFrom fuel (name.drop (label.length + 1))
            (encodedSize + 1 + label.length)
          (r.1, chunk ++ r.2)

/-- Each round takes a byte at least, so the loop ends within the length of the name. -/
def encodeName (name : Bytes) : Bool × Bytes := encodeNameFrom (name.length + 1) name 0

def encodeDnsQuery (hostname : Bytes) (txnId : ℕ) (wantAaaa : Bool) : Bytes :=
  let name := encodeName hostname
  if name.1 then
    be16 txnId ++ be16 0 ++ be16 1 ++ be16 0 ++ be16 0 ++ be16 0 ++ name.2 ++
      be16 (if wantAaaa then dnsTypeAaaa else dnsTypeA) ++ be16 dnsClassIn
  else []

/-- One record. When the name cannot be written, its first labels stay in the packet. -/
def emitAnswer (hostname : Bytes) (qtype : ℕ) (rdata : Bytes) : Bytes :=
  let name := encodeName hostname
  if name.1 then
    name.2 ++ be16 qtype ++ be16 0x8001 ++ be32 dnsTtlSeconds ++ be16 rdata.length ++ rdata
  else name.2

def scanDigits : Bytes → ℕ → ℕ × Bytes
  | [], n => (n, [])
  | c :: cs, n =>
    if 0x30 ≤ c ∧ c ≤ 0x39 then scanDigits cs (n * 10 + (c.toNat - 0x30)) else (n, c :: cs)

/-- `%hhu` of `sscanf`: white space, a sign, digits; the value is cut to eight bits. -/
def scanHhu (s : Bytes) : Option (UInt8 × Bytes) :=
  let s := s.dropWhile fun c => c = 0x20 ∨ (0x09 ≤ c ∧ c ≤ 0x0D)
  let negative := s.head? = some 0x2D
  let s := if negative ∨ s.head? = some 0x2B then s.drop 1 else s
  match s with
  | [] => none
  | c :: _ =>
    if 0x30 ≤ c ∧ c ≤ 0x39 then
      let r := scanDigits s 0
      some (if negative then 0 - UInt8.ofNat r.1 else UInt8.ofNat r.1, r.2)
    else none

def scanDot : Bytes → Option Bytes
  | [] => none
  | c :: cs => if c = dot then some cs else none

/-- `sscanf(ip, "%hhu.%hhu.%hhu.%hhu", ..) == 4`; what follows is not looked at. -/
def scanOctets (ip : Bytes) : Option (Block 4) := do
  let (a, s) ← scanHhu ip
  let (b, s) ← scanHhu (← scanDot s)
  let (c, s) ← scanHhu (← scanDot s)
  let (d, _) ← scanHhu (← scanDot s)
  return ⟨[a, b, c, d], rfl⟩

/-- The count in the header is of all addresses, also of those that are skipped. -/
def encodeDnsResponse (net : Inet) (hostname : Bytes) (txnId : ℕ) (ipv4 ipv6 : List Bytes) :
    Bytes :=
  be16 txnId ++ be16 0x8400 ++ be16 0 ++ be16 (ipv4.length + ipv6.length) ++ be16 0 ++ be16 0 ++
    (ipv4.filterMap scanOctets).flatMap (fun o => emitAnswer hostname dnsTypeA o.1) ++
    (ipv6.filterMap net.pton6).flatMap fun b => emitAnswer hostname dnsTypeAaaa b.1

/-! ### Reading -/

/-- The variables of `decode_name` between two rounds of its loop. `next` is set once a pointer has
been followed. -/
structure NameCursor where
  cur : ℕ
  total : ℕ := 0
  jumps : ℕ := 0
  name : Bytes := []
  next : Option ℕ := none

/-- What a round comes to: an end, a pointer followed or a label read. -/
inductive NameRound
  | fail
  | done (name : Bytes) (next : ℕ)
  | pointer (c : NameCursor)
  | label (c : NameCursor)

def nameRound (bytes : Bytes) (c : NameCursor) : NameRound :=
  match bytes[c.cur]? with
  | none => .fail
  | some len =>
    if len = 0 then .done c.name (c.next.getD (c.cur + 1))
    else if len &&& 0xC0 = 0xC0 then
      match bytes[c.cur + 1]? with
      | none => .fail
      | some low =>
        let target := (len &&& 0x3F).toNat * 256 + low.toNat
        if bytes.length ≤ target then .fail
        else if 16 < c.jumps + 1 then .fail
        else .pointer
          { c with cur := target, jumps := c.jumps + 1, next := some (c.next.getD (c.cur + 2)) }
    else if len &&& 0xC0 ≠ 0 then .fail
    else if bytes.length < c.cur + 1 + len.toNat then .fail
    else if 255 < c.total + 1 + len.toNat then .fail
    else
      let label := lowercase ((bytes.drop (c.cur + 1)).take len.toNat)
      .label
        { c with
          cur := c.cur + 1 + len.toNat
          total := c.total + 1 + len.toNat
          name := if c.name = [] then label else c.name ++ dot :: label }

def decodeNameFrom (bytes : Bytes) : ℕ → NameCursor → Option (Bytes × ℕ)
  | 0, _ => none
  | fuel + 1, c =>
    match nameRound bytes c with
    | .fail => none
    | .done name next => some (name, next)
    | .pointer c => decodeNameFrom bytes fuel c
    | .label c => decodeNameFrom bytes fuel c

/-- A round follows one of 16 pointers or adds to a total of at most 255, so the fuel is never used
up. -/
def decodeName (bytes : Bytes) (off : ℕ) : Option (Bytes × ℕ) :=
  decodeNameFrom bytes 272 { cur := off }

structure DnsAnswer where
  name : Bytes
  ipv4 : Bytes := []
  ipv6 : Bytes := []
  deriving DecidableEq, Repr

structure DnsParsedMessage where
  isResponse : Bool
  txnId : ℕ
  question : Bytes := []
  qtype : ℕ := 0
  answers : List DnsAnswer := []
  deriving DecidableEq, Repr

def parseItems {α : Type} (item : ℕ → Option (α × ℕ)) : ℕ → ℕ → Option (List α × ℕ)
  | 0, off => some ([], off)
  | n + 1, off =>
    match item off with
    | none => none
    | some (a, next) => (parseItems item n next).map fun r => (a :: r.1, r.2)

def parseQuestion (bytes : Bytes) (off : ℕ) : Option ((Bytes × ℕ) × ℕ) :=
  match decodeName bytes off with
  | none => none
  | some (name, next) =>
    if bytes.length < next + 4 then none
    else some ((name, read16 (bytes.drop next)), next + 4)

def dottedQuad (o : Bytes) : Bytes :=
  decimal (o.getD 0 0).toNat ++ dot :: decimal (o.getD 1 0).toNat ++
    dot :: decimal (o.getD 2 0).toNat ++ dot :: decimal (o.getD 3 0).toNat

/-- The address of a record, if it is one of the two kinds. The upper bit of the class is the
cache-flush flag. -/
def recordAnswer (net : Inet) (name : Bytes) (rtype rclass : ℕ) (rdata : Bytes) :
    Option DnsAnswer :=
  if rclass % 2 ^ 15 = dnsClassIn ∧ rtype = dnsTypeA ∧ rdata.length = 4 then
    some { name, ipv4 := dottedQuad rdata }
  else if rclass % 2 ^ 15 = dnsClassIn ∧ rtype = dnsTypeAaaa ∧ rdata.length = 16 then
    some { name, ipv6 := net.ntop6 (Block.ofBytes 16 rdata) }
  else none

def parseAnswer (net : Inet) (bytes : Bytes) (off : ℕ) : Option (Option DnsAnswer × ℕ) :=
  match decodeName bytes off with
  | none => none
  | some (name, next) =>
    if bytes.length < next + 10 then none
    else
      let rdlen := read16 (bytes.drop (next + 8))
      if bytes.length < next + 10 + rdlen then none
      else some (recordAnswer net name (read16 (bytes.drop next))
        (read16 (bytes.drop (next + 2))) ((bytes.drop (next + 10)).take rdlen), next + 10 + rdlen)

def parseDnsMessage (net : Inet) (bytes : Bytes) : Option DnsParsedMessage :=
  if bytes.length < dnsHeaderSize then none
  else
    match parseItems (parseQuestion bytes) (read16 (bytes.drop 4)) dnsHeaderSize with
    | none => none
    | some (questions, off) =>
      (parseItems (parseAnswer net bytes) (read16 (bytes.drop 6)) off).map fun r =>
        { isResponse := decide (0x8000 ≤ read16 (bytes.drop 2))
          txnId := read16 bytes
          question := (questions.head?.map Prod.fst).getD []
          qtype := (questions.head?.map Prod.snd).getD 0
          answers := r.1.filterMap id }

end Mdns

end LinkIce
