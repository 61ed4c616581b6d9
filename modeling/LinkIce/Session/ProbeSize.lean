import LinkIce.Session.Nomination
import LinkIce.Session.Script
import LinkIce.Stun.RoundTrip

/-! How long a path-MTU probe really is. -/
namespace LinkIce
open Stun

namespace Stun.StunBuilder

variable (b : StunBuilder) {target : ℕ}

theorem attrsSize_add {a : Attr} :
    (b.add a).attrsSize = b.attrsSize + (4 + align4 a.valueLength) := by
  simp [attrsSize, add]

private theorem attrsSize_mod : b.attrsSize % 4 = 0 := by
  unfold attrsSize
  induction b.attrs with
  | nil => rfl
  | cons a as ih =>
    have ha := align4_mod a.valueLength
    simp only [List.map_cons, List.sum_cons]
    omega

theorem attrsSize_addPaddingTo (hroom : 20 + b.attrsSize + 4 ≤ target)
    (hcap : target ≤ 65507) : 20 + (b.addPaddingTo target).attrsSize = target / 4 * 4 := by
  have hmod := b.attrsSize_mod
  have hfiller : align4 (target / 4 * 4 - (20 + b.attrsSize) - 4) =
      target / 4 * 4 - (20 + b.attrsSize) - 4 := by
    unfold align4
    omega
  unfold addPaddingTo
  dsimp only
  rw [if_neg (by omega), attrsSize_add]
  simp only [Attr.valueLength, List.length_replicate, hfiller]
  omega

theorem addPaddingTo_full (hfull : target < 20 + b.attrsSize + 4) : b.addPaddingTo target = b := by
  unfold addPaddingTo
  dsimp only
  rw [if_pos (by omega)]

end Stun.StunBuilder

namespace Session

variable {H : Hmac} {env : Env} {s : Session} {txn : TransactionId} {size : ℕ}

def checkUsername (s : Session) : Bytes := s.remoteUfrag ++ [0x3A] ++ s.localUfrag

def barePmtuMessage (s : Session) (txn : TransactionId) : StunBuilder :=
  let b := ((⟨bindingRequest, txn, []⟩ : StunBuilder).addUsername s.checkUsername).addPriority 0
  if s.controlling then b.addIceControlling s.tiebreaker else b.addIceControlled s.tiebreaker

theorem attrsSize_barePmtuMessage :
    (s.barePmtuMessage txn).attrsSize = 24 + align4 s.checkUsername.length := by
  unfold barePmtuMessage
  dsimp only
  split
  · simp only [StunBuilder.addIceControlling, StunBuilder.addPriority, StunBuilder.addUsername,
      StunBuilder.attrsSize_add, Attr.valueLength, length_be32, length_be64]
    simp [StunBuilder.attrsSize, align4]
    omega
  · simp only [StunBuilder.addIceControlled, StunBuilder.addPriority, StunBuilder.addUsername,
      StunBuilder.attrsSize_add, Attr.valueLength, length_be32, length_be64]
    simp [StunBuilder.attrsSize, align4]
    omega

theorem length_pmtuMessage : ((s.pmtuMessage txn size).build H).length =
    20 + ((s.barePmtuMessage txn).addPaddingTo size).attrsSize + 32 := by
  have hmsg : s.pmtuMessage txn size = (((s.barePmtuMessage txn).addPaddingTo size).addIntegrity
      s.remotePwd).addFingerprint := rfl
  rw [hmsg, StunBuilder.length_build, StunBuilder.addFingerprint, StunBuilder.addIntegrity,
    StunBuilder.attrsSize_add, StunBuilder.attrsSize_add]
  have hintegrity : 4 + align4 (Attr.integrity s.remotePwd).valueLength = 24 := by
    simp [Attr.valueLength, align4]
  have hfingerprint : 4 + align4 Attr.fingerprint.valueLength = 8 := by
    simp [Attr.valueLength, align4]
  omega

theorem length_pmtuMessage_of_room (hroom : 48 + align4 s.checkUsername.length ≤ size)
    (hcap : size ≤ 65507) :
    ((s.pmtuMessage txn size).build H).length = size / 4 * 4 + 32 := by
  have hbare : (s.barePmtuMessage txn).attrsSize = 24 + align4 s.checkUsername.length :=
    attrsSize_barePmtuMessage
  rw [length_pmtuMessage, StunBuilder.attrsSize_addPaddingTo _ (by omega) hcap]

theorem length_pmtuMessage_ne (hcap : size ≤ 65507) :
    ((s.pmtuMessage txn size).build H).length ≠ size / 4 * 4 := by
  by_cases hroom : 48 + align4 s.checkUsername.length ≤ size
  · rw [length_pmtuMessage_of_room hroom hcap]
    omega
  · have hbare : (s.barePmtuMessage txn).attrsSize = 24 + align4 s.checkUsername.length :=
      attrsSize_barePmtuMessage
    rw [length_pmtuMessage, StunBuilder.addPaddingTo_full _ (by omega)]
    omega

private theorem sendPmtuProbe_log (h : ¬ (s.nominatedCid = 0 ∨ (!s.hasCarrier) = true)) :
    (s.sendPmtuProbe env size).log =
      .udpSend s.nominatedCid (.stun (s.pmtuMessage (env.txnId s.draws) size)) :: s.log := by
  have htimer (t : Session) : t.armPmtuTimer.log = t.log := by
    unfold armPmtuTimer
    split <;> rfl
  unfold sendPmtuProbe
  rw [if_neg h]
  exact htimer _

/-- **No probe has the size that it tests.** Whatever the credentials, the datagram that a search
sends differs from the size it asked for; when the user name leaves room for filler, as it does
for two names of eight bytes, it is 32 bytes too long. -/
theorem pmtu_probe_never_exact (H : Hmac) (env : Env) (s : Session) (probe : PathMtuProbe)
    (size : ℕ) (hprobe : s.pmtuProbe = some probe) (hsize : probe.nextProbeSize = some size)
    (hcap : size ≤ 65507) (hstate : s.state = .connected) (hidle : s.pmtuInflight = none)
    (hcid : s.nominatedCid ≠ 0) (hcarrier : s.hasCarrier = true) :
    ∃ b : StunBuilder,
      (s.startPathMtuProbe env).log = .udpSend s.nominatedCid (.stun b) ::
        .mtuProbeSent (env.txnId s.draws) :: s.log ∧
      (b.build H).length ≠ size / 4 * 4 ∧
      (48 + align4 s.checkUsername.length ≤ size → (b.build H).length = size / 4 * 4 + 32) := by
  refine ⟨s.pmtuMessage (env.txnId s.draws) size, ?_, length_pmtuMessage_ne hcap,
    fun hroom => length_pmtuMessage_of_room hroom hcap⟩
  have hopen : ¬ (s.nominatedCid = 0 ∨ (!s.hasCarrier) = true) := by simp [hcid, hcarrier]
  have hnote : s.noteMtuProbe env size = { s.emit (.mtuProbeSent (env.txnId s.draws)) with
      mtuTrials := ⟨s.nominatedPath, size, none⟩ :: s.mtuTrials } := if_neg hopen
  unfold startPathMtuProbe
  rw [hprobe]
  dsimp only
  rw [if_neg (by simp [hstate, hidle]), hsize]
  dsimp only
  rw [hnote]
  exact sendPmtuProbe_log hopen

def probing : Session :=
  { create .lan {} {} true 7 with
    state := .connected, nominatedCid := 1, hasCarrier := true, remoteUfrag := [0x75, 0x76]
    pmtuProbe := some (.make 1200 [1280]) }

theorem probing_never_exact : ∃ b : StunBuilder,
    (probing.startPathMtuProbe .lan).log = [.udpSend 1 (.stun b), .mtuProbeSent (Env.lan.txnId 1)] ∧
      (b.build zeroHmac).length ≠ 1280 ∧
      (48 + align4 probing.checkUsername.length ≤ 1280 →
        (b.build zeroHmac).length = 1312) :=
  pmtu_probe_never_exact zeroHmac .lan probing (.make 1200 [1280]) 1280 rfl
    (by decide) (by decide) rfl rfl (by decide) rfl

/-- The search asks for 1280 bytes and 1312 are sent. -/
theorem probe_of_1280_is_longer :
    ¬ ∃ H : Hmac, ((probing.pmtuMessage (Env.lan.txnId 1) 1280).build H).length = 1280 := by
  rintro ⟨H, hexact⟩
  exact length_pmtuMessage_ne (by decide) hexact

end Session

end LinkIce
