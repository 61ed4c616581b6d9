import LinkIce.Session.LifecyclePaths
import LinkIce.Session.Script
import Mathlib.Data.List.Perm.Subperm

/-! Symmetric-NAT detection while the STUN servers answer. The session is reduced to what the
detector reads; on that reduction an answer is one small step, and the stride after all
answers can be computed. -/
namespace LinkIce
open Stun List

/-- `a < b ? (b - a) : (a - b)` -/
def portDistance (a b : ℕ) : ℕ := if a < b then b - a else a - b

/-- The distance between the first port and the first one that differs from it. -/
def firstDistance : List ℕ → ℕ
  | [] => 0
  | a :: ports => ((ports.find? (· ≠ a)).map (portDistance a)).getD 0

theorem portDistance_eq_zero {a b : ℕ} : portDistance a b = 0 ↔ b = a := by
  unfold portDistance
  split_ifs <;> omega

theorem firstDistance_eq_zero {ports : List ℕ} :
    firstDistance ports = 0 ↔ ∀ p ∈ ports, ∀ q ∈ ports, p = q := by
  cases ports with
  | nil => simp [firstDistance]
  | cons a ports =>
    cases hf : ports.find? (· ≠ a) with
    | none =>
      have hall : ∀ p ∈ a :: ports, p = a := by
        intro p hp
        rcases mem_cons.mp hp with hp | hp
        · exact hp
        · simpa using List.find?_eq_none.mp hf p hp
      have hzero : firstDistance (a :: ports) = 0 := by
        rw [firstDistance, hf]
        rfl
      constructor
      · intro _ p hp q hq
        rw [hall p hp, hall q hq]
      · intro _
        exact hzero
    | some b =>
      have hb : b ≠ a := by simpa using List.find?_some hf
      have hdist : firstDistance (a :: ports) = portDistance a b := by
        rw [firstDistance, hf]
        rfl
      constructor
      · intro h
        exact absurd (portDistance_eq_zero.mp (hdist.symm.trans h)) hb
      · intro h
        exact absurd (h b (mem_cons_of_mem _ (mem_of_find?_eq_some hf)) a
          mem_cons_self) hb

/-- What the detector has seen: the first port, and the stride once there is one. -/
structure Observed where
  first : Option ℕ := none
  stride : ℕ := 0

namespace Observed

variable {ports : List ℕ} {a : ℕ}

def add (o : Observed) (port : ℕ) : Observed :=
  match o.first with
  | none => { o with first := some port }
  | some a => if port ≠ a ∧ o.stride = 0 then { o with stride := portDistance a port } else o

def addAll (o : Observed) (ports : List ℕ) : Observed := ports.foldl add o

theorem addAll_of_stride {o : Observed} (hf : o.first = some a) (hs : o.stride ≠ 0)
    : o.addAll ports = o := by
  induction ports with
  | nil => rfl
  | cons p ports ih =>
    have hadd : o.add p = o := by simp [add, hf, hs]
    rw [addAll, foldl_cons, hadd]
    exact ih

private theorem addAll_first : (addAll ⟨some a, 0⟩ ports).stride = firstDistance (a :: ports) := by
  induction ports with
  | nil => rfl
  | cons p ports ih =>
    by_cases hp : p = a
    · have hadd : (⟨some a, 0⟩ : Observed).add p = ⟨some a, 0⟩ := by simp [add, hp]
      rw [addAll, foldl_cons, hadd]
      exact ih.trans (by simp [firstDistance, hp])
    · have hadd : (⟨some a, 0⟩ : Observed).add p = ⟨some a, portDistance a p⟩ := by
        simp [add, hp]
      have hne : portDistance a p ≠ 0 := fun h => hp (portDistance_eq_zero.mp h)
      rw [addAll, foldl_cons, hadd]
      calc (addAll ⟨some a, portDistance a p⟩ ports).stride
          = portDistance a p := by rw [addAll_of_stride rfl hne]
        _ = firstDistance (a :: p :: ports) := by simp [firstDistance, hp]

theorem addAll_stride : (addAll {} ports).stride = firstDistance ports := by
  cases ports with
  | nil => rfl
  | cons a ports => exact addAll_first

end Observed

/-- A response to a binding request of the gathering phase. STUN servers do not know our
password, so it carries no MESSAGE-INTEGRITY. -/
structure Answer (env : Env) where
  cid : Cid
  fromTcp : Bool
  data : Bytes
  message : StunMessage
  mapped : MappedAddress
  parsed : parseStun env.net data = some message
  response : message.msgType = bindingResponse
  reported : message.xorMapped = some mapped
  plain : message.hasIntegrity = false

namespace Answer

variable {env : Env}

def txnId (a : Answer env) : TransactionId := a.message.txnId

def port (a : Answer env) : ℕ := a.mapped.port

def portsOver (tcp : Bool) (as : List (Answer env)) : List ℕ :=
  (as.filter (·.fromTcp = tcp)).map port

def Differ (as : List (Answer env)) : Prop :=
  ∃ a ∈ as, ∃ b ∈ as, a.fromTcp = b.fromTcp ∧ a.port ≠ b.port

theorem differ_iff {as : List (Answer env)} :
    Differ as ↔ ∃ tcp, firstDistance (portsOver tcp as) ≠ 0 := by
  have hmem (tcp : Bool) (p : ℕ) :
      p ∈ portsOver tcp as ↔ ∃ a ∈ as, a.fromTcp = tcp ∧ a.port = p := by
    simp [portsOver, and_assoc]
  constructor
  · rintro ⟨a, ha, b, hb, ht, hp⟩
    refine ⟨a.fromTcp, fun h => hp ?_⟩
    exact firstDistance_eq_zero.mp h _ ((hmem _ _).mpr ⟨a, ha, rfl, rfl⟩) _
      ((hmem _ _).mpr ⟨b, hb, ht.symm, rfl⟩)
  · rintro ⟨tcp, h⟩
    by_contra hd
    refine h (firstDistance_eq_zero.mpr fun p hp q hq => ?_)
    obtain ⟨a, ha, hta, rfl⟩ := (hmem tcp p).mp hp
    obtain ⟨b, hb, htb, rfl⟩ := (hmem tcp q).mp hq
    by_contra hne
    exact hd ⟨a, ha, b, hb, hta.trans htb.symm, hne⟩

end Answer

/-! ### The part of the session that listens -/

/-- What decides about the next answer. `servers` are the connections of the TURN clients. -/
structure Ear where
  enabled : Bool
  turnGathering : Bool
  stunGathered : Bool
  servers : List Cid
  probes : List TransactionId
  observed : Observed

namespace Ear

variable {env : Env} {e : Ear} {as : List (Answer env)} {a : Answer env}

/-- Bytes on a connection of a TURN client go to the client. -/
def deaf (e : Ear) (cid : Cid) : Bool := e.servers.any fun k => k != 0 && cid == k

/-- The answer to a probe that is out. The first one ends gathering unless TURN is in flight. -/
def hear (e : Ear) (a : Answer env) : Ear :=
  { e with
    stunGathered := true
    probes := if e.stunGathered || e.turnGathering then e.probes.erase a.txnId else []
    observed := if e.enabled then e.observed.add a.port else e.observed }

def take (e : Ear) (a : Answer env) : Ear :=
  if e.deaf a.cid then e else if a.txnId ∈ e.probes then e.hear a else e

/-- The first answer leaves the probes out that are still to be answered. -/
def Open (e : Ear) : Prop := e.stunGathered = true ∨ e.turnGathering = true

instance (e : Ear) : Decidable e.Open := inferInstanceAs (Decidable (_ ∨ _))

def heard (e : Ear) (as : List (Answer env)) : List ℕ :=
  (as.filter fun a => !e.deaf a.cid).map (·.port)

theorem foldl_take_of_probes (h : e.probes = []) : as.foldl take e = e := by
  induction as with
  | nil => rfl
  | cons a as ih =>
    have htake : e.take a = e := by
      unfold take
      rw [h]
      split_ifs with _ hm
      · rfl
      · cases hm
      · rfl
    rw [foldl_cons, htake]
    exact ih

theorem take_deaf (h : e.deaf a.cid = true) : e.take a = e := if_pos h

theorem take_hear (h : e.deaf a.cid = false) (hm : a.txnId ∈ e.probes) : e.take a = e.hear a := by
  rw [take, if_neg (by simp [h]), if_pos hm]

theorem hear_probes_open (h : e.Open) : (e.hear a).probes = e.probes.erase a.txnId := by
  have hc : (e.stunGathered || e.turnGathering) = true := by simpa [Open] using h
  simp [hear, hc]

theorem heard_cons_deaf (h : e.deaf a.cid = true) : e.heard (a :: as) = e.heard as := by
  simp [heard, h]

private theorem heard_cons (h : e.deaf a.cid = false) :
    e.heard (a :: as) = a.port :: e.heard as := by
  simp [heard, h]

theorem foldl_take_open (ho : e.Open) (hp : (as.map (·.txnId)).Subperm e.probes) :
    (as.foldl take e).observed =
      if e.enabled then e.observed.addAll (e.heard as) else e.observed := by
  induction as generalizing e with
  | nil => simp [heard, Observed.addAll]
  | cons a as ih =>
    rw [map_cons] at hp
    cases hd : e.deaf a.cid with
    | true =>
      have hrest : (as.map (·.txnId)).Subperm e.probes :=
        (sublist_cons_self _ _).subperm.trans hp
      rw [foldl_cons, take_deaf hd, heard_cons_deaf hd]
      exact ih ho hrest
    | false =>
      have hm : a.txnId ∈ e.probes := hp.subset mem_cons_self
      have hrest : (as.map (·.txnId)).Subperm (e.hear a).probes := by
        rw [hear_probes_open ho]
        simpa using hp.erase a.txnId
      have hheard : (e.hear a).heard as = e.heard as := rfl
      rw [foldl_cons, take_hear hd hm, ih (.inl rfl) hrest, hheard, heard_cons hd]
      cases he : e.enabled with
      | true => simp [hear, he, Observed.addAll]
      | false => simp [hear, he]

private theorem foldl_take_closed (ho : ¬ e.Open) (hf : e.observed = {})
    (hp : (as.map (·.txnId)).Subperm e.probes) :
    (as.foldl take e).observed.stride = 0 := by
  induction as with
  | nil => rw [foldl_nil, hf]
  | cons a as ih =>
    rw [map_cons] at hp
    cases hd : e.deaf a.cid with
    | true =>
      rw [foldl_cons, take_deaf hd]
      exact ih ((sublist_cons_self _ _).subperm.trans hp)
    | false =>
      have hm : a.txnId ∈ e.probes := hp.subset mem_cons_self
      have hc : (e.stunGathered || e.turnGathering) = false := by simpa [Open] using ho
      have hnone : (e.hear a).probes = [] := by simp [hear, hc]
      rw [foldl_cons, take_hear hd hm, foldl_take_of_probes hnone]
      cases he : e.enabled <;> simp [hear, he, hf, Observed.add]

theorem foldl_take_stride (hf : e.observed = {}) (hp : (as.map (·.txnId)).Subperm e.probes) :
    (as.foldl take e).observed.stride =
      if e.enabled = true ∧ e.Open then firstDistance (e.heard as) else 0 := by
  by_cases ho : e.Open
  · rw [foldl_take_open ho hp, hf]
    cases he : e.enabled with
    | true => simp [ho, Observed.addAll_stride]
    | false => simp
  · rw [foldl_take_closed ho hf hp, if_neg fun h => ho h.2]

end Ear

namespace Session

def ear (s : Session) : Ear where
  enabled := s.cfg.symmetricPortPredictionEnabled
  turnGathering := s.turnGathering
  stunGathered := s.stunGathered
  servers := (s.turn.map (·.serverCid)).toList ++ (s.turnBackupProbe.map (·.serverCid)).toList
  probes := s.pendingStunProbes
  observed := ⟨s.firstObservedSrflxPort, s.symmetricStride⟩

variable (env : Env) (s : Session) {cid : Cid} {i : ℕ}

theorem ear_deaf :
    s.ear.deaf cid = (isTurnServer s.turn cid || isTurnServer s.turnBackupProbe cid) := by
  unfold Ear.deaf ear isTurnServer
  cases s.turn <;> cases s.turnBackupProbe <;> simp

/-! ### Work that the detector does not notice -/

theorem carrierSend_ear {tcp : Bool} {p : Payload} : (s.carrierSend tcp cid p).ear = s.ear := by
  unfold carrierSend
  split_ifs <;> rfl

theorem ensureRemoteCid_ear (ep : Endpoint) : (s.ensureRemoteCid env ep).2.ear = s.ear := by
  unfold ensureRemoteCid
  split_ifs
  · rfl
  · split
    · rfl
    · dsimp only
      split_ifs <;> rfl

theorem ensureRemoteTcpCid_ear (ep : Endpoint) : (s.ensureRemoteTcpCid env ep).2.ear = s.ear := by
  unfold ensureRemoteTcpCid
  dsimp only
  split_ifs <;> rfl

theorem relayCidForEndpoint_ear (ep : Endpoint) : (s.relayCidForEndpoint ep).2.ear = s.ear := by
  unfold relayCidForEndpoint
  split <;> rfl

theorem transmit_ear (p : CheckPair) (b : StunBuilder) : (s.transmit env p b).ear = s.ear := by
  have htcp := ensureRemoteTcpCid_ear env s (p.endpoint env.net)
  have hudp := ensureRemoteCid_ear env s (p.endpoint env.net)
  have hrelay := relayCidForEndpoint_ear s (p.endpoint env.net)
  have hnote (t : Session) (e : Effect) :
      ((t.noteRelayCheck (p.endpoint env.net)).emit e).ear = t.ear := rfl
  unfold transmit
  dsimp only
  split_ifs
  · rfl
  · exact htcp
  · exact (carrierSend_ear _).trans htcp
  · exact (hnote _ _).trans hrelay
  · exact hudp
  · exact (carrierSend_ear _).trans hudp

theorem sendCheck_ear : (s.sendCheck env i).ear = s.ear := by
  unfold sendCheck
  split
  · rfl
  · split_ifs
    · obtain ⟨ps, hs, -⟩ := failPair_repaints s i
      rw [hs]
      rfl
    · exact transmit_ear env _ _ _

theorem startCheck_ear : (s.startCheck env i).ear = s.ear := sendCheck_ear env _

variable {s} in
theorem ticks_ear {t : Session} (h : Ticks env s t) : t.ear = s.ear := by
  induction h with
  | refl => rfl
  | tail _ hstep ih =>
    cases hstep with
    | repaint => exact ih
    | read => exact ih
    | check i => exact (sendCheck_ear env _).trans ih

theorem runNextCheck_ear : (s.runNextCheck env).ear = s.ear := by
  have hpasses := ticks_ear env (checkPasses_ticks env s)
  have htimer (t : Session) : t.armCheckTimer.ear = t.ear := by
    unfold armCheckTimer
    split_ifs <;> rfl
  have hexhausted (t : Session) : t.checksExhausted.ear = t.ear := by
    unfold checksExhausted armNominationWait
    dsimp only
    split_ifs <;> rfl
  unfold runNextCheck
  dsimp only
  split_ifs
  · rfl
  · exact (htimer _).trans hpasses
  · exact (hexhausted _).trans hpasses

theorem preFire_ear {is : List ℕ} {v4 v6 : Bool} : (preFire env is v4 v6 s).ear = s.ear := by
  induction is generalizing s v4 v6 with
  | nil => rfl
  | cons i is ih =>
    simp only [preFire]
    split_ifs
    · rfl
    · split
      · rfl
      · split_ifs
        · exact ih ..
        · exact (ih ..).trans (startCheck_ear env s)
        · exact (ih ..).trans (startCheck_ear env s)
        · exact ih ..

theorem startChecking_ear : (s.startChecking env).ear = s.ear := by
  have hbuild : ((s.setState .checking).buildCheckList env).ear = s.ear := by
    obtain ⟨mu, draws, ps, h⟩ := buildCheckList_eq
    rw [h]
    rfl
  unfold startChecking beginChecks
  split_ifs
  · exact hbuild
  · rw [runNextCheck_ear, preFire_ear]
    exact hbuild

theorem onGatheringComplete_ear :
    (s.onGatheringComplete env).ear = { s.ear with probes := [] } := by
  unfold onGatheringComplete
  dsimp only
  split_ifs
  · exact startChecking_ear env _
  · rfl
  · rfl

theorem drainReorder_ear {fuel : ℕ} : (drainReorder fuel s).ear = s.ear := by
  induction fuel generalizing s with
  | zero => rfl
  | succ fuel ih =>
    simp only [drainReorder]
    split
    · rfl
    · exact ih _

theorem deliver_ear {raw : Bytes} : (s.deliver raw).ear = s.ear := by
  unfold deliver deliverInOrder
  dsimp only
  split_ifs
  · rfl
  · rfl
  · exact drainReorder_ear _
  all_goals rfl

theorem turnOutputs_ear {c : TurnClient} {outs : List TurnOutput} :
    (s.turnOutputs env c outs).ear = s.ear := by
  have hone (t : Session) (o : TurnOutput) : (t.turnOutput env c o).ear = t.ear := by
    cases o with
    | toServer => rfl
    | allocated =>
      simp only [turnOutput]
      split_ifs <;> rfl
    | data peer payload =>
      simp only [turnOutput]
      split_ifs
      · rfl
      · rfl
      · exact deliver_ear _
  induction outs generalizing s with
  | nil => rfl
  | cons o outs ih => exact (ih _).trans (hone _ _)

theorem turnOnInbound_ear {bytes : Bytes} : (s.turnOnInbound env bytes).ear = s.ear := by
  unfold turnOnInbound
  split
  · rfl
  · rename_i c hc
    refine (turnOutputs_ear env _).trans ?_
    simp only [ear, hc, Option.map_some, TurnClient.onInbound_fixed]

theorem turnBackupOnInbound_ear {bytes : Bytes} :
    (s.turnBackupOnInbound env bytes).ear = s.ear := by
  unfold turnBackupOnInbound
  split
  · rfl
  · rename_i c hc
    refine (turnOutputs_ear env _).trans ?_
    simp only [ear, hc, Option.map_some, TurnClient.onInbound_fixed]

/-! ### One answer -/

theorem observeSrflxPort_ear {port : ℕ} : (s.observeSrflxPort port).ear =
    { s.ear with
      observed := if s.ear.enabled then s.ear.observed.add port else s.ear.observed } := by
  unfold observeSrflxPort
  cases he : s.cfg.symmetricPortPredictionEnabled with
  | false => simp [ear, he]
  | true =>
    cases hf : s.firstObservedSrflxPort with
    | none => simp [ear, he, hf, Observed.add]
    | some a =>
      by_cases h : port ≠ a ∧ s.symmetricStride = 0
      · simp [ear, he, hf, Observed.add, h, portDistance]
      · simp [ear, he, hf, Observed.add, h]

theorem learnSrflx_ear {a : Answer env} {tx : TransportType} :
    (s.learnSrflx env a.message tx).ear = { s.ear with
      probes := s.ear.probes.erase a.txnId
      observed := if s.ear.enabled then s.ear.observed.add a.port else s.ear.observed } := by
  have hport : (srflxCandidate env.net a.mapped tx).port = a.port := by
    unfold srflxCandidate
    cases env.net.pton4 a.mapped.ip <;> rfl
  have hpush (t : Session) (c : Candidate) : (t.pushAllowed c .srflx).ear = t.ear := by
    unfold pushAllowed
    split_ifs <;> rfl
  have hlearn : (s.learnSrflx env a.message tx).ear =
      (observeSrflxPort a.port
        { s with pendingStunProbes := s.pendingStunProbes.erase a.txnId }).ear := by
    unfold learnSrflx
    simp only [a.reported, Option.getD_some, hport]
    split
    · rfl
    · exact hpush _ _
  rw [hlearn]
  exact observeSrflxPort_ear _

theorem onFirstSrflx_ear : (s.onFirstSrflx env).ear = { s.ear with
    stunGathered := true
    probes := if s.ear.stunGathered || s.ear.turnGathering then s.ear.probes else [] } := by
  have hfallback (t : Session) : t.armGatherFallback.ear = t.ear := by
    unfold armGatherFallback
    split_ifs <;> rfl
  unfold onFirstSrflx
  cases hs : s.stunGathered with
  | true => simp [ear, hs]
  | false =>
    cases ht : s.turnGathering with
    | true =>
      simp only [Bool.false_eq_true, if_false, if_true, hfallback]
      simp [ear, ht]
    | false =>
      simp only [Bool.false_eq_true, if_false, onGatheringComplete_ear]
      simp [ear, hs, ht]

theorem onCarrierData_ear {H : Hmac} {a : Answer env} :
    (s.onCarrierData H env a.cid a.fromTcp a.data).ear = s.ear.take a := by
  have hauth : s.authenticated H a.message a.data = false := by
    simp [authenticated, a.plain]
  have hgather : s.isGatherResponse a.message = true ↔ a.txnId ∈ s.ear.probes := by
    simp [isGatherResponse, a.response, ear, Answer.txnId]
  unfold onCarrierData Ear.take
  rw [ear_deaf]
  cases ht : isTurnServer s.turn a.cid with
  | true => exact turnOnInbound_ear env s
  | false =>
    cases hb : isTurnServer s.turnBackupProbe a.cid with
    | true => exact turnBackupOnInbound_ear env s
    | false =>
      simp only [a.parsed, hauth, Bool.or_self, Bool.false_eq_true, if_false]
      by_cases hm : a.txnId ∈ s.ear.probes
      · have hpending : a.message.xorMapped.isSome = true ∧ a.message.txnId ∈ s.pendingStunProbes :=
          ⟨by rw [a.reported]; rfl, hm⟩
        rw [if_pos (hgather.mpr hm), if_pos hm, handleGatherResponse_eq, if_pos hpending,
          onFirstSrflx_ear, learnSrflx_ear]
        rfl
      · rw [if_neg fun h => hm (hgather.mp h), if_neg hm]

def takeAnswers (H : Hmac) (env : Env) (as : List (Answer env)) (s : Session) : Session :=
  as.foldl (fun s a => s.onCarrierData H env a.cid a.fromTcp a.data) s

theorem takeAnswers_ear {H : Hmac} {as : List (Answer env)} :
    (s.takeAnswers H env as).ear = as.foldl Ear.take s.ear := by
  induction as generalizing s with
  | nil => rfl
  | cons a as ih =>
    rw [foldl_cons, ← onCarrierData_ear env s]
    exact ih _

/-! ### The detected stride -/

variable {env s}

/-- The stride is there exactly when two responses of one transport differ, and is the
distance of the first two ports of a transport that differ. -/
def TellsSymmetry (as : List (Answer env)) (stride : ℕ) : Prop :=
  (stride ≠ 0 ↔ Answer.Differ as) ∧
    (stride ≠ 0 → ∃ tcp, stride = firstDistance (Answer.portsOver tcp as))

/-- The ports of the answers that no TURN client swallows, over both transports. -/
def heardPorts (s : Session) (as : List (Answer env)) : List ℕ :=
  (as.filter fun a => !(isTurnServer s.turn a.cid || isTurnServer s.turnBackupProbe a.cid)).map
    (·.port)

def comparesAll (s : Session) : Prop :=
  s.cfg.symmetricPortPredictionEnabled = true ∧ (s.stunGathered = true ∨ s.turnGathering = true)

instance (s : Session) : Decidable s.comparesAll := inferInstanceAs (Decidable (_ ∧ _))

/-- No transport reports two ports, and one port is all that is compared; or the answers are
compared and show the distance of a transport that reports two. -/
def DetectsSoundly (s : Session) (as : List (Answer env)) : Prop :=
  (¬ Answer.Differ as ∧
    (s.comparesAll → ∀ p ∈ s.heardPorts as, ∀ q ∈ s.heardPorts as, p = q)) ∨
  (s.comparesAll ∧ ∃ tcp, firstDistance (Answer.portsOver tcp as) ≠ 0 ∧
    firstDistance (s.heardPorts as) = firstDistance (Answer.portsOver tcp as))

theorem takeAnswers_stride {H : Hmac} {as : List (Answer env)}
    (hfirst : s.firstObservedSrflxPort = none) (hstride : s.symmetricStride = 0)
    (hprobes : (as.map (·.txnId)).Perm s.pendingStunProbes) :
    (s.takeAnswers H env as).symmetricStride =
      if s.comparesAll then firstDistance (s.heardPorts as) else 0 := by
  have hfresh : s.ear.observed = {} := by simp [ear, hfirst, hstride]
  have hheard : s.ear.heard as = s.heardPorts as := by simp only [Ear.heard, ear_deaf, heardPorts]
  have h := Ear.foldl_take_stride hfresh hprobes.subperm
  rw [← takeAnswers_ear env s, hheard] at h
  exact h

/-- All probes that are out are answered in some order, to a detector that has seen nothing. -/
theorem stride_tells_iff (H : Hmac) (as : List (Answer env))
    (hfirst : s.firstObservedSrflxPort = none) (hstride : s.symmetricStride = 0)
    (hprobes : (as.map (·.txnId)).Perm s.pendingStunProbes) :
    TellsSymmetry as (s.takeAnswers H env as).symmetricStride ↔ s.DetectsSoundly as := by
  rw [takeAnswers_stride hfirst hstride hprobes]
  by_cases hc : s.comparesAll
  · rw [if_pos hc]
    constructor
    · rintro ⟨hiff, hdist⟩
      by_cases hd : Answer.Differ as
      · have hne := hiff.mpr hd
        obtain ⟨tcp, heq⟩ := hdist hne
        exact .inr ⟨hc, tcp, heq ▸ hne, heq⟩
      · have hzero : firstDistance (s.heardPorts as) = 0 := by
          by_contra hne
          exact hd (hiff.mp hne)
        exact .inl ⟨hd, fun _ => firstDistance_eq_zero.mp hzero⟩
    · rintro (⟨hd, hsame⟩ | ⟨-, tcp, hne, heq⟩)
      · have hzero := firstDistance_eq_zero.mpr (hsame hc)
        exact ⟨iff_of_false (not_not.mpr hzero) hd, fun hne => absurd hzero hne⟩
      · have hd : Answer.Differ as := Answer.differ_iff.mpr ⟨tcp, hne⟩
        exact ⟨iff_of_true (heq ▸ hne) hd, fun _ => ⟨tcp, heq⟩⟩
  · rw [if_neg hc]
    constructor
    · rintro ⟨hiff, -⟩
      exact .inl ⟨fun hd => hiff.mpr hd rfl, fun h => absurd h hc⟩
    · rintro (⟨hd, -⟩ | ⟨h, -⟩)
      · exact ⟨iff_of_false (not_not.mpr rfl) hd, fun hne => absurd rfl hne⟩
      · exact absurd h hc

theorem detectsSoundly_of_single (tcp : Bool) (as : List (Answer env)) (hc : s.comparesAll)
    (ht : ∀ a ∈ as, a.fromTcp = tcp)
    (hh : ∀ a ∈ as,
      isTurnServer s.turn a.cid = false ∧ isTurnServer s.turnBackupProbe a.cid = false) :
    s.DetectsSoundly as := by
  have hports : Answer.portsOver tcp as = as.map (·.port) := by
    rw [Answer.portsOver, filter_eq_self.mpr fun a ha => by simp [ht a ha]]
  have hheard : s.heardPorts as = as.map (·.port) := by
    rw [heardPorts, filter_eq_self.mpr fun a ha => by simp [hh a ha]]
  by_cases hzero : firstDistance (as.map (·.port)) = 0
  · refine .inl ⟨?_, fun _ => hheard ▸ firstDistance_eq_zero.mp hzero⟩
    rintro ⟨a, ha, b, hb, -, hne⟩
    exact hne (firstDistance_eq_zero.mp hzero _ (mem_map_of_mem ha) _ (mem_map_of_mem hb))
  · exact .inr ⟨hc, tcp, hports ▸ hzero, by rw [hheard, hports]⟩

/-! ### Two servers behind a NAT that maps each destination anew -/

def mappedTo (txn : TransactionId) (port : ℕ) : StunBuilder :=
  ⟨bindingResponse, txn, [.tlv .xorMappedAddress
    (encodeXorAddr Env.lan.net (Inet.dotted 203 0 113 7) port txn)]⟩

def serverAnswer (cid : Cid) (txn : TransactionId) (port : ℕ)
    (h : (mappedTo txn port).fits = true ∧
      ((mappedTo txn port).message Env.lan.net).xorMapped = some ⟨Inet.dotted 203 0 113 7, port⟩) :
    Answer .lan where
  cid := cid
  fromTcp := false
  data := (mappedTo txn port).build zeroHmac
  message := (mappedTo txn port).message Env.lan.net
  mapped := ⟨Inet.dotted 203 0 113 7, port⟩
  parsed := StunBuilder.parseStun_build _ _ _ h.1
  response := rfl
  reported := h.2
  plain := rfl

def twoServers : IceConfig where
  stunServers := [some ⟨Inet.dotted 192 0 2 1, 3478⟩, some ⟨Inet.dotted 192 0 2 2, 3478⟩]

def twoServersAndRelay : IceConfig :=
  { twoServers with turnServers := [{ server := Inet.dotted 192 0 2 3 }] }

def probesOut : List Event := [.gather, .task .stunProbes]

def twoAnswers : List (Answer .lan) :=
  [serverAnswer 4 (Env.lan.txnId 4) 5000 ⟨by decide, by decide⟩,
    serverAnswer 6 (Env.lan.txnId 6) 5001 ⟨by decide, by decide⟩]

def twoAnswersBesideRelay : List (Answer .lan) :=
  [serverAnswer 6 (Env.lan.txnId 6) 5000 ⟨by decide, by decide⟩,
    serverAnswer 8 (Env.lan.txnId 8) 5001 ⟨by decide, by decide⟩]

/-- With an allocation in flight the NAT is found out. -/
theorem symmetric_beside_relay : ∃ H : Hmac, TellsSymmetry twoAnswersBesideRelay
    (((create .lan twoServersAndRelay {} true 7).run H .lan probesOut).takeAnswers H .lan
      twoAnswersBesideRelay).symmetricStride := by
  refine ⟨zeroHmac, (stride_tells_iff _ _ ?_ ?_ ?_).mpr
    (detectsSoundly_of_single false _ ?_ ?_ ?_)⟩
  all_goals decide +kernel

/-- Without one the second answer comes too late. -/
theorem symmetric_unnoticed : ¬ ∃ H : Hmac, TellsSymmetry twoAnswers
    (((create .lan twoServers {} true 7).run H .lan probesOut).takeAnswers H .lan
      twoAnswers).symmetricStride := by
  rintro ⟨H, hiff, -⟩
  rw [run_isLocal (by decide) H zeroHmac] at hiff
  rw [takeAnswers_stride (by decide +kernel) (by decide +kernel) (by decide +kernel),
    if_neg (by decide +kernel)] at hiff
  have hdiffer : Answer.Differ twoAnswers :=
    ⟨_, mem_cons_self, _, mem_cons_of_mem _ mem_cons_self, rfl, by decide⟩
  exact hiff.mpr hdiffer rfl

end Session

end LinkIce
