import LinkIce.Session.Publication
import Mathlib.Data.List.Perm.Basic
import Mathlib.Data.List.ProdSigma

/-! What `build_check_list` builds: which pairs are in the list, in which order, and which of them
may start. -/
namespace LinkIce
open Stun List

namespace CheckPair

variable {l r : Candidate} {p q : CheckPair} {stride attempts : ℕ} {controlling : Bool}
  {locals remotes : List Candidate} {α : Type} {ps : List CheckPair}

/-- The candidates can be paired: both have an address, of one family, and their transports
complement each other. -/
def Pairable (l r : Candidate) : Prop :=
  l.type ≠ .hostMdns ∧ ¬ (r.type = .hostMdns ∧ r.hostname ≠ []) ∧ l.family = r.family ∧
    (l.transport, r.transport) ∈ [(TransportType.udp, TransportType.udp),
      (.tcpActive, .tcpPassive), (.tcpPassive, .tcpActive),
      (.tcpSimultaneousOpen, .tcpSimultaneousOpen)]

instance (l r : Candidate) : Decidable (Pairable l r) :=
  inferInstanceAs (Decidable (_ ∧ _ ∧ _ ∧ _))

theorem admissible_eq : admissible l r = decide (Pairable l r) := by
  rw [Bool.eq_iff_iff, decide_eq_true_iff]
  unfold admissible Pairable
  have htransport : ((l.transport = .udp && r.transport = .udp) ||
      tcpTransportPairs l.transport r.transport) = true ↔
      (l.transport, r.transport) ∈ [(TransportType.udp, TransportType.udp),
        (.tcpActive, .tcpPassive), (.tcpPassive, .tcpActive),
        (.tcpSimultaneousOpen, .tcpSimultaneousOpen)] := by
    cases l.transport <;> cases r.transport <;> decide
  rw [Bool.and_eq_true, htransport]
  simp only [Bool.and_eq_true, decide_eq_true_eq, Bool.not_eq_true', Bool.and_eq_false_iff,
    decide_eq_false_iff_not, not_and_or, and_assoc]

/-- The pair aimed at another port, one below the priority of the pair it is derived from. -/
def aimedAt (p : CheckPair) (port : ℕ) : CheckPair :=
  { p with
    priority := p.priority - 1
    rem := { p.rem with
      port := port
      foundation := p.rem.foundation ++ [0x3A, 0x70] ++ decimal port } }

def canonicalPairs (controlling : Bool) (locals remotes : List Candidate) : List CheckPair :=
  ((locals ×ˢ remotes).filter fun lr => Pairable lr.1 lr.2).map fun lr =>
    ofCandidates controlling lr.1 lr.2

/-- For every pair with a server-reflexive peer, its copies at the next `attempts` ports of the
stride, as far as there are such ports. -/
def predictedPairs (controlling : Bool) (stride attempts : ℕ) (locals remotes : List Candidate) :
    List CheckPair :=
  ((locals ×ˢ remotes).filter fun lr => Pairable lr.1 lr.2 ∧ lr.2.type = .srflx).flatMap fun lr =>
    ((List.range' 1 attempts).filter fun k => lr.2.port + stride * k ≤ 65535).map fun k =>
      (ofCandidates controlling lr.1 lr.2).aimedAt (lr.2.port + stride * k)

private theorem takeWhile_eq_filter {f : α → Bool} {xs : List α}
    (h : xs.Pairwise fun a b => f b = true → f a = true) : xs.takeWhile f = xs.filter f := by
  induction xs with
  | nil => rfl
  | cons x xs ih =>
    obtain ⟨hx, hrest⟩ := pairwise_cons.mp h
    cases hfx : f x with
    | true => rw [takeWhile_cons_of_pos hfx, filter_cons_of_pos hfx, ih hrest]
    | false =>
      have hnone : xs.filter f = [] := by
        refine filter_eq_nil_iff.mpr fun y hy hfy => ?_
        rw [hx y hy hfy] at hfx
        cases hfx
      rw [takeWhile_cons_of_neg (by simp [hfx]), filter_cons_of_neg (by simp [hfx]), hnone]

theorem predicted_eq :
    p.predicted stride attempts =
      ((List.range' 1 attempts).filter fun k => p.rem.port + stride * k ≤ 65535).map fun k =>
        p.aimedAt (p.rem.port + stride * k) := by
  have hports : (List.range attempts).map (fun k => p.rem.port + stride * (k + 1)) =
      (List.range' 1 attempts).map fun k => p.rem.port + stride * k := by
    rw [List.range'_eq_map_range, map_map]
    refine map_congr_left fun k _ => ?_
    simp only [Function.comp_apply, Nat.add_comm 1 k]
  have hrise : ((List.range' 1 attempts).map fun k => p.rem.port + stride * k).Pairwise
      fun a b => decide (b ≤ 65535) = true → decide (a ≤ 65535) = true := by
    rw [pairwise_map]
    refine (pairwise_lt_range' 1 Nat.one_pos).imp fun {a b} hab => ?_
    have hle : stride * a ≤ stride * b := Nat.mul_le_mul_left stride (Nat.le_of_lt hab)
    simp only [decide_eq_true_eq]
    omega
  unfold predicted
  dsimp only
  rw [hports, takeWhile_eq_filter hrise, filter_map, map_map]
  rfl

private theorem flatMap_ite {α β : Type} {P : α → Prop} [DecidablePred P] {f : α → List β}
    {xs : List α} :
    (xs.flatMap fun x => if P x then f x else []) = (xs.filter fun x => P x).flatMap f := by
  induction xs with
  | nil => rfl
  | cons x xs ih =>
    by_cases hx : P x
    · rw [flatMap_cons, if_pos hx, ih, filter_cons_of_pos (by simpa using hx), flatMap_cons]
    · rw [flatMap_cons, if_neg hx, ih, filter_cons_of_neg (by simpa using hx), nil_append]

/-- The nested loops, sorted into canonical and predicted pairs. -/
theorem pairs_perm (controlling : Bool) (stride attempts : ℕ) (locals remotes : List Candidate) :
    (locals.flatMap fun l => remotes.flatMap fun r =>
      if admissible l r then
        let p := ofCandidates controlling l r
        if r.type = .srflx then p :: p.predicted stride attempts else [p]
      else []).Perm
    (canonicalPairs controlling locals remotes ++
      predictedPairs controlling stride attempts locals remotes) := by
  let one (lr : Candidate × Candidate) : List CheckPair :=
    if Pairable lr.1 lr.2 then [ofCandidates controlling lr.1 lr.2] else []
  let more (lr : Candidate × Candidate) : List CheckPair :=
    if Pairable lr.1 lr.2 ∧ lr.2.type = .srflx then
      (ofCandidates controlling lr.1 lr.2).predicted stride attempts else []
  have hloops : (locals.flatMap fun l => remotes.flatMap fun r =>
      if admissible l r then
        let p := ofCandidates controlling l r
        if r.type = .srflx then p :: p.predicted stride attempts else [p]
      else []) = (locals ×ˢ remotes).flatMap fun lr => one lr ++ more lr := by
    change _ = (locals.flatMap fun l => remotes.map (Prod.mk l)).flatMap fun lr => one lr ++ more lr
    rw [flatMap_assoc]
    refine congrArg (locals.flatMap ·) (funext fun l => ?_)
    rw [flatMap_map]
    refine congrArg (remotes.flatMap ·) (funext fun r => ?_)
    simp only [one, more, admissible_eq]
    by_cases hpair : Pairable l r
    · by_cases hsrflx : r.type = .srflx
      · simp [hpair, hsrflx]
      · simp [hpair, hsrflx]
    · simp [hpair]
  have hone : (locals ×ˢ remotes).flatMap one = canonicalPairs controlling locals remotes := by
    rw [canonicalPairs, map_eq_flatMap]
    exact flatMap_ite
  have hmore : (locals ×ˢ remotes).flatMap more =
      predictedPairs controlling stride attempts locals remotes := by
    simp only [more, predicted_eq]
    exact flatMap_ite
  rw [hloops, ← hone, ← hmore]
  exact (flatMap_append_perm _ one more).symm

/-! ### Order and states -/

def content (p : CheckPair) : CheckPair := { p with txnId := Block.zero 12, state := .frozen }

def tuple (p : CheckPair) : Bytes × Bytes := (p.loc.foundation, p.rem.foundation)

theorem drawTxnIds_content {env : Env} {draws : ℕ} :
    (drawTxnIds env draws ps).map content = ps.map content := by
  unfold drawTxnIds
  rw [map_map]
  conv_rhs => rw [← zipIdx_map_fst 0 ps, map_map]
  rfl

/-- Of the pairs under one key, one that was not seen before, the first starts and the others
wait for it. -/
theorem initialStates_key (key : Bytes) (seen : List Bytes) (ps : List CheckPair) :
    (key ∈ seen → ∀ q ∈ (initialStates seen ps).filter (·.tupleKey = key), q.state = .frozen) ∧
    (key ∉ seen → ∀ w rest, (initialStates seen ps).filter (·.tupleKey = key) = w :: rest →
      w.state = .waiting ∧ ∀ q ∈ rest, q.state = .frozen) := by
  induction ps generalizing seen with
  | nil => simp [initialStates]
  | cons p ps ih =>
    have hstate (st : PairState) : ({ p with state := st } : CheckPair).tupleKey = p.tupleKey := rfl
    rw [initialStates]
    by_cases hseen : p.tupleKey ∈ seen
    · rw [if_pos hseen]
      constructor
      · intro hkey q hq
        obtain ⟨hmem, hqkey⟩ := mem_filter.mp hq
        rcases mem_cons.mp hmem with rfl | hrest
        · rfl
        · exact (ih seen).1 hkey q (mem_filter.mpr ⟨hrest, hqkey⟩)
      · intro hkey w rest hfilter
        have hother : p.tupleKey ≠ key := fun h => hkey (h ▸ hseen)
        rw [filter_cons_of_neg (by simpa [hstate] using hother)] at hfilter
        exact (ih seen).2 hkey w rest hfilter
    · rw [if_neg hseen]
      constructor
      · intro hkey q hq
        have hother : p.tupleKey ≠ key := fun h => hseen (h ▸ hkey)
        rw [filter_cons_of_neg (by simpa [hstate] using hother)] at hq
        exact (ih (p.tupleKey :: seen)).1 (mem_cons_of_mem _ hkey) q hq
      · intro hkey w rest hfilter
        by_cases hsame : p.tupleKey = key
        · rw [filter_cons_of_pos (by simpa [hstate] using hsame)] at hfilter
          obtain ⟨rfl, rfl⟩ := List.cons.inj hfilter
          exact ⟨rfl, (ih (p.tupleKey :: seen)).1 (hsame ▸ mem_cons_self)⟩
        · rw [filter_cons_of_neg (by simpa [hstate] using hsame)] at hfilter
          have hnew : key ∉ p.tupleKey :: seen :=
            not_mem_cons_of_ne_of_not_mem (Ne.symm hsame) hkey
          exact (ih (p.tupleKey :: seen)).2 hnew w rest hfilter

private theorem append_bar_inj {a a' b b' : Bytes} (ha : 0x7C ∉ a) (ha' : 0x7C ∉ a')
    (h : a ++ [0x7C] ++ b = a' ++ [0x7C] ++ b') : a = a' ∧ b = b' := by
  induction a generalizing a' with
  | nil =>
    cases a' with
    | nil => exact ⟨rfl, (List.cons.inj h).2⟩
    | cons x a' =>
      obtain ⟨rfl, -⟩ := List.cons.inj h
      exact absurd mem_cons_self ha'
  | cons x a ih =>
    cases a' with
    | nil =>
      obtain ⟨rfl, -⟩ := List.cons.inj h
      exact absurd mem_cons_self ha
    | cons y a' =>
      obtain ⟨rfl, hrest⟩ := List.cons.inj h
      obtain ⟨rfl, rfl⟩ := ih (fun hm => ha (mem_cons_of_mem _ hm))
        (fun hm => ha' (mem_cons_of_mem _ hm)) hrest
      exact ⟨rfl, rfl⟩

theorem tupleKey_inj (hp : 0x7C ∉ p.loc.foundation) (hq : 0x7C ∉ q.loc.foundation) :
    p.tupleKey = q.tupleKey ↔ p.tuple = q.tuple := by
  constructor
  · intro hkey
    obtain ⟨hloc, hrem⟩ := append_bar_inj hp hq hkey
    exact Prod.ext hloc hrem
  · intro htuple
    obtain ⟨hloc, hrem⟩ := Prod.mk.inj htuple
    rw [tupleKey, tupleKey, hloc, hrem]

theorem initialStates_sorted {seen : List Bytes} :
    (initialStates seen (ps.insertionSort fun a b => b.priority ≤ a.priority)).Pairwise
      fun p q => q.priority ≤ p.priority := by
  have hsorted : (ps.insertionSort fun a b : CheckPair => b.priority ≤ a.priority).Pairwise
      fun p q => q.priority ≤ p.priority := pairwise_insertionSort _ _
  have hprio := initialStates_map (·.priority) (fun _ _ => rfl) seen
    (ps.insertionSort fun a b => b.priority ≤ a.priority)
  rw [← pairwise_map (R := fun x y => y ≤ x)] at hsorted ⊢
  rw [hprio]
  exact hsorted

theorem loc_mem_of_spec (hp : p ∈ canonicalPairs controlling locals remotes ++
      predictedPairs controlling stride attempts locals remotes) : p.loc ∈ locals := by
  rcases mem_append.mp hp with hp | hp
  · obtain ⟨lr, hlr, rfl⟩ := mem_map.mp hp
    exact (pair_mem_product.mp (mem_filter.mp hlr).1).1
  · obtain ⟨lr, hlr, hp⟩ := mem_flatMap.mp hp
    obtain ⟨k, -, rfl⟩ := mem_map.mp hp
    exact (pair_mem_product.mp (mem_filter.mp hlr).1).1

theorem content_of_mem_spec (hp : p ∈ canonicalPairs controlling locals remotes ++
      predictedPairs controlling stride attempts locals remotes) : p.content = p := by
  rcases mem_append.mp hp with hp | hp
  · obtain ⟨lr, -, rfl⟩ := mem_map.mp hp
    rfl
  · obtain ⟨lr, -, hp⟩ := mem_flatMap.mp hp
    obtain ⟨k, -, rfl⟩ := mem_map.mp hp
    rfl

end CheckPair

namespace Candidate

variable {c : Candidate}

theorem Listable.withFoundation (h : c.Listable) (net : Inet) :
    (c.withFoundation net).Listable := by
  unfold Candidate.withFoundation
  split_ifs
  · exact h
  · exact ⟨bar_notMem_decimal, h.priority⟩

end Candidate

theorem pairPriority_pos {l r : ℕ} (hl : 0 < l) {controlling : Bool} :
    0 < pairPriority l r controlling := by
  cases controlling <;> simp only [pairPriority] <;> simp <;> omega

namespace Session

variable {H : Hmac} {env : Env} {s t : Session} {l : Option Label}

/-! ### The local candidates of a run -/

/-- Local candidates can be listed, and so can the relay candidates that are on their way. -/
structure Listable (s : Session) : Prop where
  locals : ∀ c ∈ s.localCandidates, c.Listable
  queued : ∀ c, .turnAllocated c ∈ s.queue → c.Listable

theorem act_listable (h : Act env s l t) (hl : ∀ c, l = some (.relay c) → c.Listable)
    (hs : s.Listable) : t.Listable := by
  refine ⟨?_, fun c hc => (act_queue h hc).elim (hs.queued c) (·.toListable)⟩
  have hpush {c : Candidate} (hc : c.Listable) :
      ∀ d ∈ (s.pushLocal c).localCandidates, d.Listable := by
    intro d hd
    rcases mem_pushLocal.mp hd with hd | rfl
    exacts [hs.locals d hd, hc]
  by_cases hk : ∀ a ∈ l, a.touchesLocals = false
  · rcases act_locals h hk with ht | ht
    · rw [ht]
      exact hs.locals
    · intro c hc
      rw [ht] at hc
      obtain ⟨d, hd, rfl⟩ := mem_map.mp hc
      exact (hs.locals d hd).withFoundation env.net
  · cases h with
    | hosts l h hr hf hm => exact hm hs.locals
    | srflx c hc | prflx c hc => exact hpush hc.toListable
    | relay c => exact hpush (hl c rfl)
    | takeover k =>
      intro c hc
      rcases mem_takeoverLocals hc with ⟨hc, -⟩ | ⟨rfl, -⟩
      exacts [hs.locals c hc, relayCandidate_own.toListable]
    | restart => simp [reset_locals]
    | autoRestart now => simp [reset_locals]
    | _ => exact absurd (by simp [Label.touchesLocals]) hk

theorem step_listable {e : Event} (hs : s.Listable) : (s.step H env e).Listable :=
  (step_steps H env s e).invariant (fun hl hact hu =>
    act_listable hact (fun c hc => hs.queued c (queued_of_relay (hl _ hc))) hu) hs

theorem Reachable.listable (h : Reachable H env s) : s.Listable := by
  obtain ⟨cfg, w, controlling, tiebreaker, es, rfl⟩ := h
  exact run_invariant (fun _ _ => step_listable) ⟨by simp [create], by simp [create]⟩ es

/-! ### The list -/

theorem buildCheckList_checkList (env : Env) (s : Session) : ∃ draws,
    (s.buildCheckList env).checkList = CheckPair.initialStates []
      ((CheckPair.drawTxnIds env draws (s.localCandidates.map (·.withFoundation env.net) |>.flatMap
        fun l => s.remoteCandidates.map (·.withFoundation env.net) |>.flatMap fun r =>
          if CheckPair.admissible l r then
            let p := CheckPair.ofCandidates s.controlling l r
            if r.type = .srflx then p :: p.predicted s.predictionStride s.predictionAttempts
            else [p]
          else [])).insertionSort fun a b => b.priority ≤ a.priority) :=
  ⟨_, rfl⟩

/-- Prediction is off exactly where the source has no stride for it. -/
theorem predictedPairs_eq {locals remotes : List Candidate} :
    CheckPair.predictedPairs s.controlling s.predictionStride s.predictionAttempts locals remotes =
      CheckPair.predictedPairs s.controlling
        (if s.symmetricStride = 0 then 1 else s.symmetricStride)
        (if s.peerSymmetric = true ∧ s.cfg.symmetricPortPredictionEnabled = true then
          s.cfg.symmetricPortPredictionAttempts else 0) locals remotes := by
  unfold predictionAttempts predictionStride
  by_cases h : s.peerSymmetric = true ∧ s.cfg.symmetricPortPredictionEnabled = true
  · by_cases hstride : s.symmetricStride = 0 <;> simp [h.1, h.2, hstride]
  · have hoff : (!s.peerSymmetric || !s.cfg.symmetricPortPredictionEnabled) = true := by
      simpa [← Bool.not_eq_true, ← not_and_or] using h
    simp [h, hoff, CheckPair.predictedPairs]

/-- **The check list** is sorted by falling priority; it holds exactly one pair for all local and
remote candidates that can be paired, and for server-reflexive peers behind a symmetric NAT exactly
the predicted ports. Whatever local candidates a session has come to have, those are one priority
lower, and of the pairs that share a foundation tuple one of maximal priority is Waiting and the
others are Frozen. -/
theorem check_list_correct (env : Env) (s : Session) :
    let locals := s.localCandidates.map (·.withFoundation env.net)
    let remotes := s.remoteCandidates.map (·.withFoundation env.net)
    let stride := if s.symmetricStride = 0 then 1 else s.symmetricStride
    let attempts := if s.peerSymmetric = true ∧ s.cfg.symmetricPortPredictionEnabled = true then
      s.cfg.symmetricPortPredictionAttempts else 0
    let checks := (s.buildCheckList env).checkList
    checks.Pairwise (fun p q => q.priority ≤ p.priority) ∧
    (checks.map CheckPair.content).Perm
      (CheckPair.canonicalPairs s.controlling locals remotes ++
        CheckPair.predictedPairs s.controlling stride attempts locals remotes) ∧
    ∀ H v, Reachable H env v → s.localCandidates = v.localCandidates →
      (∀ p ∈ CheckPair.canonicalPairs s.controlling locals remotes, ∀ port,
        (p.aimedAt port).priority + 1 = p.priority) ∧
      ∀ tuple w rest, checks.filter (·.tuple = tuple) = w :: rest →
        w.state = .waiting ∧ ∀ q ∈ rest, q.state = .frozen ∧ q.priority ≤ w.priority := by
  intro locals remotes stride attempts checks
  obtain ⟨draws, hchecks⟩ := buildCheckList_checkList env s
  have hspec := (CheckPair.pairs_perm s.controlling s.predictionStride s.predictionAttempts locals
    remotes).trans (.of_eq (congrArg (_ ++ ·) predictedPairs_eq))
  generalize hpairs : (locals.flatMap fun l => remotes.flatMap fun r =>
    if CheckPair.admissible l r then
      let p := CheckPair.ofCandidates s.controlling l r
      if r.type = .srflx then p :: p.predicted s.predictionStride s.predictionAttempts
            else [p]
    else []) = pairs at hspec
  have hlist : checks = CheckPair.initialStates []
      ((CheckPair.drawTxnIds env draws pairs).insertionSort fun a b =>
        b.priority ≤ a.priority) := by
    rw [← hpairs]
    exact hchecks
  have hsorted : checks.Pairwise fun p q => q.priority ≤ p.priority :=
    hlist ▸ CheckPair.initialStates_sorted
  have hperm : (checks.map CheckPair.content).Perm
      (CheckPair.canonicalPairs s.controlling locals remotes ++
        CheckPair.predictedPairs s.controlling stride attempts locals remotes) := by
    rw [hlist, CheckPair.initialStates_map _ fun _ _ => rfl]
    refine ((perm_insertionSort _ _).map _).trans ?_
    rw [CheckPair.drawTxnIds_content]
    refine (hspec.map _).trans ?_
    rw [map_congr_left fun p hp => CheckPair.content_of_mem_spec hp, map_id']
  refine ⟨hsorted, hperm, fun H v hv hlocal => ?_⟩
  have hlistable : ∀ c ∈ locals, c.Listable := by
    intro c hc
    obtain ⟨d, hd, rfl⟩ := mem_map.mp hc
    rw [hlocal] at hd
    exact (hv.listable.locals d hd).withFoundation env.net
  have hbar : ∀ p ∈ checks, 0x7C ∉ p.loc.foundation := by
    intro p hp
    have hloc := CheckPair.loc_mem_of_spec (hperm.subset (mem_map_of_mem hp))
    exact (hlistable _ hloc).foundation
  constructor
  · intro p hp port
    obtain ⟨lr, hlr, rfl⟩ := mem_map.mp hp
    have hloc := (pair_mem_product.mp (mem_filter.mp hlr).1).1
    exact Nat.sub_add_cancel (pairPriority_pos (hlistable _ hloc).priority)
  · intro tuple w rest hfilter
    have hmem : w ∈ checks.filter (·.tuple = tuple) := hfilter ▸ mem_cons_self
    have hw := mem_filter.mp hmem
    have hkeys : checks.filter (·.tuple = tuple) = checks.filter (·.tupleKey = w.tupleKey) := by
      refine filter_congr fun p hp => ?_
      have hwtuple : w.tuple = tuple := of_decide_eq_true hw.2
      rw [← hwtuple]
      exact decide_eq_decide.mpr (CheckPair.tupleKey_inj (hbar p hp) (hbar w hw.1)).symm
    have hfirst := hsorted.filter (·.tuple = tuple)
    rw [hfilter] at hfirst
    have hbelow := (pairwise_cons.mp hfirst).1
    rw [hkeys, hlist] at hfilter
    obtain ⟨hwaiting, hfrozen⟩ := (CheckPair.initialStates_key w.tupleKey [] _).2
      not_mem_nil w rest hfilter
    exact ⟨hwaiting, fun q hq => ⟨hfrozen q hq, hbelow q hq⟩⟩

/-- A session with one host candidate, and a peer behind a symmetric NAT with two reflexive ones. -/
def pairing : Session :=
  { (create .lan {} {} true 7).run zeroHmac .lan [.gather] with
    peerSymmetric := true
    remoteCandidates :=
      [{ type := .srflx, port := 65534, priority := computePriority .srflx 65535 1 },
        { type := .srflx, port := 9, priority := computePriority .srflx 65534 1 }] }

theorem pairing_states : ∀ tuple w rest,
    (pairing.buildCheckList .lan).checkList.filter (·.tuple = tuple) = w :: rest →
      w.state = .waiting ∧ ∀ q ∈ rest, q.state = .frozen ∧ q.priority ≤ w.priority :=
  ((check_list_correct .lan pairing).2.2 zeroHmac _ ⟨{}, {}, true, 7, [.gather], rfl⟩ rfl).2

end Session

end LinkIce
