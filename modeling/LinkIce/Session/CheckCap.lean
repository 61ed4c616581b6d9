import LinkIce.Session.Script

/-! The number of checks in flight. -/
namespace LinkIce
open Stun

namespace Session

variable {H : Hmac} {env : Env} {s t : Session} {e : Event} {i : ℕ}

theorem inProgressCount_le_of_calms (h : List.Forall₂ CheckPair.Calms s.checkList t.checkList) :
    t.inProgressCount ≤ s.inProgressCount := CheckPair.Calms.countP_le h

theorem inProgressCount_congr (h : t.checkList = s.checkList) :
    t.inProgressCount = s.inProgressCount := by
  rw [inProgressCount, h]
  rfl

theorem modifyPair_inProgressCount {f : CheckPair → CheckPair} (hf : ∀ p, CheckPair.Calms p (f p))
    : (s.modifyPair i f).inProgressCount ≤ s.inProgressCount :=
  inProgressCount_le_of_calms (forall₂_modify CheckPair.Calms.refl hf _ i)

theorem pickNominee_inProgressCount : (s.pickNominee env).inProgressCount ≤ s.inProgressCount := by
  unfold pickNominee
  split
  · exact Nat.le_refl _
  · rename_i i _
    have hflag : (({ s with nomineeSelected := true } : Session).modifyPair i fun p =>
        { p with nomineeCheckSent := true }).inProgressCount ≤ s.inProgressCount := by
      refine modifyPair_inProgressCount (fun p h => ?_)
      exact h
    exact (inProgressCount_le_of_calms (sendCheck_calms env _)).trans hflag

theorem succeedPair_inProgressCount {p : CheckPair} :
    (s.succeedPair i p).inProgressCount ≤ s.inProgressCount := by
  have hmark : (s.modifyPair i fun p =>
      { p with valid := true, state := .succeeded }).inProgressCount ≤ s.inProgressCount :=
    modifyPair_inProgressCount (fun _ h => by cases h)
  exact (CheckPair.Calms.countP_le (CheckPair.unfreezeSiblings_calms _ _ _)).trans hmark

theorem reset_inProgressCount : (s.reset env).inProgressCount = 0 := by
  obtain ⟨n, -, hcore⟩ := reset_core env s
  have hnil : (s.reset env).checkList = [] := congrArg Core.checkList hcore
  rw [inProgressCount, hnil]
  rfl

/-- Only a triggered check ignores the cap. -/
theorem act_inProgressCount {l : Option Label} (h : Act env s l t)
    (hl : ∀ stale strays, l ≠ some (.trigger stale strays true))
    (hs : s.inProgressCount ≤ checkConcurrencyCap) :
    t.inProgressCount ≤ checkConcurrencyCap := by
  cases h with
  | quiet h | work h | release h | deliver h | turnInput h =>
    rwa [inProgressCount_congr h.checkList]
  | rebuild =>
    rw [buildCheckList_idle]
    exact Nat.zero_le _
  | check i | liteCheck i => exact (inProgressCount_le_of_calms (sendCheck_calms env s)).trans hs
  | repaint ps h hc =>
    rw [max_eq_left hs] at hc
    exact hc
  | pick => exact pickNominee_inProgressCount.trans hs
  | succeed i p => exact succeedPair_inProgressCount.trans hs
  | respond | reject => rwa [inProgressCount_congr (reply_keeps).checkList]
  | defer i =>
    have hmark : (s.markPendingNomination i).inProgressCount ≤ s.inProgressCount := by
      refine modifyPair_inProgressCount (fun p h => ?_)
      dsimp only at h
      split_ifs at h
      exact h
    exact hmark.trans hs
  | nominateDeferred i =>
    have hclear : (s.modifyPair i fun p => { p with pendingNomination := false }).inProgressCount ≤
        s.inProgressCount := by
      refine modifyPair_inProgressCount (fun p h => ?_)
      exact h
    exact hclear.trans hs
  | trigger l rem =>
    have hlt : s.inProgressCount < checkConcurrencyCap := by
      by_contra hge
      exact hl _ _ (by rw [decide_eq_true (not_lt.mp hge)])
    have hpush : (s.checkList ++ [s.triggeredPair env l rem]).countP (·.state = .inProgress) ≤
        s.inProgressCount + 1 := by
      rw [List.countP_append]
      exact Nat.add_le_add_left (List.countP_le_length) _
    exact hpush.trans hlt
  | forget => exact Nat.zero_le _
  | restart =>
    rw [reset_inProgressCount]
    exact Nat.zero_le _
  | autoRestart now =>
    rw [reset_inProgressCount]
    exact Nat.zero_le _
  | _ => exact hs

/-- A request opens a pair for its source while the cap is reached. -/
def triggersAtCap (H : Hmac) (env : Env) (s : Session) (e : Event) : Prop :=
  ∃ d ∈ s.inbound e, ∃ m ∈ d.accepted H env, m.msgType = bindingRequest ∧
    d.session.triggersFull env m d.cid d.fromTcp

private theorem triggersAtCap_of_allowed {stale strays : Bool}
    (h : .trigger stale strays true ∈ s.allowed H env e) : s.triggersAtCap H env e := by
  rcases h with h | ⟨d, hd, ⟨h, -⟩ | ⟨m, -, h⟩ | ⟨m, hm, h⟩⟩
  · cases e with
    | task k => cases k <;> exact h.2.elim
    | _ => exact h.elim
  · cases h
  · exact h.elim
  · exact ⟨d, hd, m, hm, h.1, h.2.2.2 rfl⟩

theorem step_inProgressCount (h : ¬ s.triggersAtCap H env e)
    (hs : s.inProgressCount ≤ checkConcurrencyCap) :
    (s.step H env e).inProgressCount ≤ checkConcurrencyCap := by
  refine (step_steps H env s e).invariant (I := fun u => u.inProgressCount ≤ checkConcurrencyCap)
    (fun hl hact hu => act_inProgressCount hact (fun stale strays ha => ?_) hu) hs
  exact h (triggersAtCap_of_allowed (hl _ ha))

/-- In a run without such requests the cap holds throughout. -/
theorem checks_capped (H : Hmac) (env : Env) (cfg : IceConfig) (w : Wiring) (controlling : Bool)
    (tiebreaker : ℕ) (es : List Event)
    (h : Along (step H env) (fun s e => ¬ s.triggersAtCap H env e)
      (create env cfg w controlling tiebreaker) es) :
    ∀ fs, fs <+: es → ((create env cfg w controlling tiebreaker).run H env fs).inProgressCount ≤
      checkConcurrencyCap := by
  intro fs hp
  exact (h.restrict hp).invariant (I := fun s => s.inProgressCount ≤ checkConcurrencyCap)
    (fun _ _ => step_inProgressCount) (Nat.zero_le _)

/-! ### A request on an old path -/

def nearHost (n : ℕ) : Candidate :=
  hostCandidate .ipv4 (Block.ofBytes 16 [10, 0, 0, UInt8.ofNat (11 + n)]) 6000 65535

/-- The peer restarts with `n` new candidates; a check from its old address is still on the
way. -/
def oldPathChecked (n : ℕ) : List Input :=
  [.event .gather, .event (.addRemoteCandidates [1] [2] [peerHost] false),
    .event (.addRemoteCandidates [3] [4] ((List.range n).map nearHost) false),
    .stun 6 (peerRequest [0, 0, 0, 0] (Env.lan.txnId 99) true false 9)]

theorem old_path_exceeds_cap :
    ¬ ∃ H : Hmac, ((create .lan {} {} false 7).run H .lan
      ((oldPathChecked 10).map (·.toEvent H))).inProgressCount ≤ checkConcurrencyCap := by
  rintro ⟨H, h⟩
  have hplay : ((create .lan {} {} false 7).play .lan (oldPathChecked 10)).any
      (fun s => checkConcurrencyCap < s.inProgressCount) = true := by
    decide +kernel
  have hrun := of_decide_eq_true (run_of_play_any hplay H)
  omega

def sparesCap (env : Env) (s : Session) : Input → Bool
  | .event _ => true
  | .stun cid b =>
    let m := b.message env.net
    let t := if s.sameRole m then s.flipRole env else s
    !(t.requestHandled env m cid false).opensFull env (t.endpointOf false cid)

private theorem not_triggersAtCap_of_spares (s : Session) (i : Input)
    (hf : (s.feed env i).isSome = true) (hi : sparesCap env s i = true) :
    ¬ s.triggersAtCap H env (i.toEvent H) := by
  rintro ⟨d, hd, m, hm, -, -, hfull⟩
  obtain ⟨cid, b, rfl, rfl, rfl⟩ := accepted_of_feed hf hd hm
  rw [sparesCap] at hi
  dsimp only at hi hfull
  rw [hfull] at hi
  cases hi

/-- With nine new candidates there is room for the triggered check. -/
theorem old_path_within_cap :
    ((create .lan {} {} false 7).play .lan (oldPathChecked 9)).any
      (fun s => s.inProgressCount = checkConcurrencyCap) = true ∧
    ∀ fs, fs <+: (oldPathChecked 9).map (·.toEvent zeroHmac) →
      ((create .lan {} {} false 7).run zeroHmac .lan fs).inProgressCount ≤
        checkConcurrencyCap :=
  ⟨by decide +kernel, checks_capped _ .lan {} {} false 7 _
    (along_of_play not_triggersAtCap_of_spares (by decide +kernel))⟩

end Session

end LinkIce
