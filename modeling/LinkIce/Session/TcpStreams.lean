import LinkIce.Session.AutoRestart
import LinkIce.Session.LinkPaths
import LinkIce.Session.Script
import LinkIce.Turn.Streams

/-! The reassembly loop of `on_tcp_carrier_data`. The messages it dispatches reach the whole
session, so one of them can throw away the bytes behind it. -/
namespace LinkIce
open Stun List

namespace Session

variable {H : Hmac} {env : Env} {A : Set Label} {s t : Session} {cid : Cid} {frame msg b : Bytes}
  {fromTcp relay : Bool} {m : StunMessage} {ep : Endpoint}

theorem onKeepalive_spent (h : s.losesConsent)
    (hr : s.cfg.consentMaxRecovery ≤ s.consentRecoveryAttempts) :
    s.onKeepalive env = s.withoutConsent.notifyConsentLoss env := by
  rw [onKeepalive_lost h]
  exact if_neg (not_lt.mpr hr)

end Session

end LinkIce
