import LinkIce.Stun.AddressText

/-! ICE candidates, their priorities and their foundations. -/
namespace LinkIce
open Stun (Inet)

/-- `other` holds the wire values that no enumerator names. -/
inductive CandidateType
  | host | srflx | relay | prflx | hostMdns
  | other (code : ℕ)
  deriving DecidableEq, Repr

inductive AddressFamily
  | ipv4 | ipv6
  | other (code : ℕ)
  deriving DecidableEq, Repr

inductive TransportType
  | udp | tcpActive | tcpPassive | tcpSimultaneousOpen
  deriving DecidableEq, Repr

def CandidateType.code : CandidateType → ℕ
  | host => 0
  | srflx => 1
  | relay => 2
  | prflx => 3
  | hostMdns => 4
  | other c => c

def TransportType.code : TransportType → ℕ
  | udp => 0
  | tcpActive => 1
  | tcpPassive => 2
  | tcpSimultaneousOpen => 3

def transportIsTcp (t : TransportType) : Bool := t != .udp

structure Candidate where
  type : CandidateType := .host
  family : AddressFamily := .other 0
  port : ℕ := 0
  priority : ℕ := 0
  addr : Block 16 := Block.zero 16
  hostname : Bytes := []
  transport : TransportType := .udp
  foundation : Bytes := []
  deriving DecidableEq, Repr

namespace Candidate

/-- An unresolved mDNS candidate is named by its host name. -/
def addressStr (net : Inet) (c : Candidate) : Bytes :=
  if c.type = .hostMdns ∧ c.hostname ≠ [] then c.hostname
  else if c.family = .ipv4 then net.ntop4 (Block.ofBytes 4 c.addr.1)
  else net.ntop6 c.addr

/-- Text that is no address leaves the candidate as it is. -/
def setAddress (net : Inet) (c : Candidate) (text : Bytes) : Candidate :=
  match net.pton4 text with
  | some a => { c with family := .ipv4, addr := Block.ofBytes 16 (a.1 ++ c.addr.1.drop 4) }
  | none =>
    match net.pton6 text with
    | some a => { c with family := .ipv6, addr := a }
    | none => c

end Candidate

def maxMdnsHostnameLen : ℕ := 64

def fnvMix (h : ℕ) (b : ℕ) : ℕ := ((h ^^^ b) * 0x100000001b3) % 2 ^ 64

/-- FNV-1a over type, base address, server address and transport, in decimal. -/
def computeFoundation (type : CandidateType) (base server : Bytes) (tx : TransportType) : Bytes :=
  let mixAll (h : ℕ) (bs : Bytes) : ℕ := bs.foldl (fun h b => fnvMix h b.toNat) h
  let h := fnvMix (fnvMix 0xcbf29ce484222325 type.code) 0xFF
  let h := fnvMix (mixAll h base) 0xFF
  let h := fnvMix (mixAll h server) 0xFF
  decimal (fnvMix h tx.code)

theorem bar_notMem_decimal {n : ℕ} : 0x7C ∉ decimal n := by
  intro hmem
  have hhigh := (toNat_of_mem_decimal hmem).2
  exact absurd hhigh (by decide)

def typePref : CandidateType → ℕ
  | .host | .hostMdns => 126
  | .prflx => 110
  | .srflx => 100
  | .relay | .other _ => 0

def computePriority (type : CandidateType) (localPref component : ℕ) : ℕ :=
  (typePref type <<< 24) ||| (localPref <<< 8) ||| (256 - component)

theorem computePriority_pos {type : CandidateType} {localPref component : ℕ} (h : component < 256) :
    0 < computePriority type localPref component := by
  have hlast : 256 - component ≤ computePriority type localPref component := Nat.right_le_or
  omega

def pairPriority (controllingPrio controlledPrio : ℕ) (isControlling : Bool) : ℕ :=
  let g := if isControlling then controllingPrio else controlledPrio
  let d := if isControlling then controlledPrio else controllingPrio
  (min g d <<< 32) + 2 * max g d + (if d < g then 1 else 0)

structure CandidateFilter where
  excludeIpv4 : Bool := false
  excludeIpv6 : Bool := false
  relayOnly : Bool := false
  hostOnly : Bool := false
  deriving DecidableEq, Repr

def candidateAllowed (type : CandidateType) (family : AddressFamily) (f : CandidateFilter) : Bool :=
  !(f.excludeIpv4 && family = .ipv4) && !(f.excludeIpv6 && family = .ipv6) &&
    !(f.relayOnly && type ≠ .relay) && !(f.hostOnly && type ≠ .host)

end LinkIce
