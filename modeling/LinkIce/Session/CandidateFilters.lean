import LinkIce.Session.LocalCandidates
import LinkIce.Session.Script

/-! The operator's candidate filter, over everything that brings a local candidate in. -/
namespace LinkIce
open Stun

namespace Candidate

variable {f : CandidateFilter} {c : Candidate}

@[simp] theorem passes_withFoundation {net : Inet} :
    (c.withFoundation net).passes f = c.passes f := by
  simp [passes]

theorem passes_of_ne_hostMdns (h : c.type ≠ .hostMdns) :
    c.passes f = candidateAllowed c.type c.family f := by
  rw [passes, if_neg h]

end Candidate

namespace Session

variable {H : Hmac} {env : Env} {s t : Session} {c : Candidate} {e : Event} {f : CandidateFilter}
  {l : Option Label}

structure Filtered (s : Session) : Prop where
  locals : ∀ c ∈ s.localCandidates, c.passes s.cfg.candidateFilter = true
  published : ∀ d, .onGathered d ∈ s.log →
    ∀ c ∈ d.candidates, c.passes s.cfg.candidateFilter = true

theorem pushLocal_passes (hc : c.passes f = true)
    (hs : ∀ d ∈ s.localCandidates, d.passes f = true) :
    ∀ d ∈ (s.pushLocal c).localCandidates, d.passes f = true := by
  intro d hd
  rcases mem_pushLocal.mp hd with hd | rfl
  exacts [hs d hd, hc]

private theorem passes_of_allowed (h : candidateAllowed c.type c.family f = true) :
    c.passes f = true := by
  unfold Candidate.passes
  split_ifs with ht
  · simp only [candidateAllowed, ht, Bool.and_eq_true, Bool.not_eq_true', Bool.and_eq_false_iff,
      decide_eq_false_iff_not, not_not] at h ⊢
    simp_all
  · exact h

theorem act_localsPass (h : Act env s l t)
    (hl : ∀ c, l = some (.prflx c) → c.passes s.cfg.candidateFilter = true)
    (hs : ∀ c ∈ s.localCandidates, c.passes s.cfg.candidateFilter = true) :
    ∀ c ∈ t.localCandidates, c.passes s.cfg.candidateFilter = true := by
  by_cases hk : ∀ a ∈ l, a.touchesLocals = false
  · rcases act_locals h hk with ht | ht
    · rwa [ht]
    · intro c hc
      rw [ht] at hc
      obtain ⟨d, hd, rfl⟩ := List.mem_map.mp hc
      simpa using hs d hd
  · cases h with
    | hosts l h hr hf => exact hf hs
    | srflx c _ ht ha =>
      refine pushLocal_passes ?_ hs
      rwa [Candidate.passes_of_ne_hostMdns (by simp [ht]), ht]
    | prflx c => exact pushLocal_passes (hl c rfl) hs
    | relay c ha => exact pushLocal_passes (passes_of_allowed ha) hs
    | takeover k =>
      intro c hc
      rcases mem_takeoverLocals hc with ⟨hc, -⟩ | ⟨-, ha⟩
      exacts [hs c hc, passes_of_allowed ha]
    | restart => simp [reset_locals]
    | autoRestart now => simp [reset_locals]
    | _ => exact absurd (by simp [Label.touchesLocals]) hk

theorem act_filtered (h : Act env s l t)
    (hl : ∀ c, l = some (.prflx c) → c.passes s.cfg.candidateFilter = true) (hs : s.Filtered) :
    t.Filtered := by
  have hcfg := (act_cfg h).1
  refine ⟨?_, fun d hd => ?_⟩
  · rw [hcfg]
    exact act_localsPass h hl hs.locals
  · rw [hcfg]
    rcases act_published h hd with hd | rfl
    exacts [hs.published d hd, hs.locals]

/-- A response to a check shows an address of ours that the filter rejects. -/
def learnsRejected (H : Hmac) (env : Env) (s : Session) (e : Event) : Prop :=
  ∃ d ∈ s.inbound e, ∃ m ∈ d.accepted H env, ∃ c, d.session.learnsPrflx env m c ∧
    c.passes s.cfg.candidateFilter = false

private theorem prflx_allowed (h : .prflx c ∈ s.allowed H env e) :
    ∃ d ∈ s.inbound e, ∃ m ∈ d.accepted H env, d.session.learnsPrflx env m c := by
  rcases h with h | ⟨d, hd, ⟨h, -⟩ | ⟨m, -, h⟩ | ⟨m, hm, h⟩⟩
  · cases e with
    | task k => cases k <;> exact h.2.elim
    | _ => exact h.elim
  · cases h
  · exact h.elim
  · exact ⟨d, hd, m, hm, h⟩

theorem step_filtered (h : ¬ s.learnsRejected H env e) (hs : s.Filtered) :
    (s.step H env e).Filtered := by
  refine ((step_steps H env s e).invariant (I := fun u => u.Filtered ∧ u.cfg = s.cfg)
    (fun {u v l} hl hact hu => ⟨act_filtered hact (fun c hc => ?_) hu.1,
      (act_cfg hact).1.trans hu.2⟩) ⟨hs, rfl⟩).1
  by_contra hn
  obtain ⟨d, hd, m, hm, hlearns⟩ := prflx_allowed (hl _ hc)
  rw [hu.2, Bool.not_eq_true] at hn
  exact h ⟨d, hd, m, hm, c, hlearns, hn⟩

/-- In a run without such responses no candidate that the filter rejects gets in or out. -/
theorem run_filtered (H : Hmac) (env : Env) (cfg : IceConfig) (w : Wiring) (controlling : Bool)
    (tiebreaker : ℕ) (es : List Event)
    (h : Along (step H env) (fun s e => ¬ s.learnsRejected H env e)
      (create env cfg w controlling tiebreaker) es) :
    ∀ fs, fs <+: es → ((create env cfg w controlling tiebreaker).run H env fs).Filtered := by
  intro fs hp
  refine (h.restrict hp).invariant (fun _ _ => step_filtered) ⟨?_, ?_⟩
  · simp [create]
  · simp [create]

/-! ### An address that a peer shows us -/

def peerMapped (pwd : Bytes) (txn : TransactionId) (ip : Bytes) (port : ℕ) : StunBuilder :=
  ((⟨bindingResponse, txn, [.tlv .xorMappedAddress
    (encodeXorAddr Env.lan.net ip port txn)]⟩ : StunBuilder).addIntegrity pwd).addFingerprint

def hostOnly : IceConfig := { candidateFilter := { hostOnly := true } }

def checkAnswered (b : StunBuilder) : List Input :=
  [.event .gather, .event (.addRemoteCandidates [1] [2] [peerHost] false), .stun 6 b]

/-- Behind a NAT the answer brings a candidate in that is no host candidate. -/
theorem mapped_address_unfiltered :
    ¬ ∃ H : Hmac, ((create .lan hostOnly {} true 7).run H .lan ((checkAnswered
      (peerMapped [2] (Env.lan.txnId 3) (Inet.dotted 203 0 113 7) 4000)).map
        (·.toEvent H))).Filtered := by
  rintro ⟨H, h⟩
  have hplay : ((create .lan hostOnly {} true 7).play .lan (checkAnswered
      (peerMapped [2] (Env.lan.txnId 3) (Inet.dotted 203 0 113 7) 4000))).any
      (fun s => s.localCandidates.any fun c => !c.passes s.cfg.candidateFilter) = true := by
    decide +kernel
  obtain ⟨c, hc, hn⟩ := List.any_eq_true.mp (run_of_play_any hplay H)
  rw [h.locals c hc] at hn
  cases hn

def unmapped (env : Env) (_ : Session) : Input → Bool
  | .event _ => true
  | .stun _ b => (b.message env.net).xorMapped.isNone

private theorem not_learnsRejected_of_unmapped (s : Session) (i : Input)
    (hf : (s.feed env i).isSome = true) (hi : unmapped env s i = true) :
    ¬ s.learnsRejected H env (i.toEvent H) := by
  rintro ⟨d, hd, m, hm, c, ⟨-, -, p, -, mapped, hx, -⟩, -⟩
  obtain ⟨cid, b, rfl, rfl, rfl⟩ := accepted_of_feed hf hd hm
  rw [unmapped, hx] at hi
  cases hi

/-- The same run with an answer that shows nothing, up to the published candidate. -/
theorem unmapped_address_filtered :
    ((create .lan hostOnly {} true 7).play .lan (checkAnswered
        (peerResponse [2] (Env.lan.txnId 3)))).any
      (fun s => s.localCandidates ≠ [] && s.log.any (·.isPublication)) = true ∧
    ∀ fs, fs <+: (checkAnswered (peerResponse [2] (Env.lan.txnId 3))).map
        (·.toEvent zeroHmac) →
      ((create .lan hostOnly {} true 7).run zeroHmac .lan fs).Filtered :=
  ⟨by decide +kernel, run_filtered _ .lan hostOnly {} true 7 _
    (along_of_play not_learnsRejected_of_unmapped (by decide +kernel))⟩

end Session

end LinkIce
