import LinkIce.Session.ConsentExchange
import LinkIce.Session.NominationRace
import LinkIce.Session.RoleConflict
import LinkIce.Session.TransactionIds

/-! Whether a controlled session has heard of a nomination before the controlling one commits
to it. -/
namespace LinkIce
open Stun List

def Label.isPick : Label → Bool
  | .pick _ => true
  | _ => false

namespace Effect

def commits : Effect → Option TransactionId
  | nominated (.checkResponse txn) _ _ _ _ _ => some txn
  | _ => none

def asks : Effect → Option TransactionId
  | requestReceived txn true _ _ _ _ => some txn
  | _ => none

end Effect

namespace Session

variable {H : Hmac} {env : Env} {A : Set Label} {s t u : Session} {b : StunBuilder}
  {txn : TransactionId} {l : Option Label} {p : CheckPair} {m : StunMessage}

/-! ### Follow-up checks -/

def flagged (s : Session) : List TransactionId :=
  (s.checkList.filter (·.nomineeCheckSent)).map (·.txnId)

theorem mem_flagged : txn ∈ s.flagged ↔
    ∃ p ∈ s.checkList, p.nomineeCheckSent = true ∧ p.txnId = txn := by
  simp [flagged, and_assoc]

private theorem flagged_subset {ps : List CheckPair} (hs : List.Forall₂ SameNominee ps t.checkList)
    (h : ps = s.checkList) : t.flagged ⊆ s.flagged := by
  intro txn ht
  obtain ⟨q, hq, hf, htxn⟩ := mem_flagged.mp ht
  obtain ⟨p, hp, hid, hflag⟩ := exists_left_of_mem hs hq
  exact mem_flagged.mpr ⟨p, h ▸ hp, hflag ▸ hf, hid ▸ htxn⟩

/-- Only a pick flags a pair. -/
theorem act_flagged (h : Act env s l t) (hl : ∀ a ∈ l, a.isPick = false) :
    t.flagged ⊆ s.flagged := by
  have hsame (h : t.checkList = s.checkList) : t.flagged ⊆ s.flagged := by
    rw [flagged, flagged, h]
    exact fun _ => id
  have hnone (h : ∀ p ∈ t.checkList, p.nomineeCheckSent = false) : t.flagged ⊆ s.flagged := by
    intro txn ht
    obtain ⟨p, hp, hf, -⟩ := mem_flagged.mp ht
    rw [h p hp] at hf
    cases hf
  have hreset (u : Session) (ht : t = u.reset env) : t.flagged ⊆ s.flagged := by
    obtain ⟨n, -, hc⟩ := reset_core env u
    have hempty : t.checkList = [] := ht ▸ congrArg Core.checkList hc
    exact hnone (by simp [hempty])
  cases h with
  | quiet h | work h | release h | deliver h | turnInput h => exact hsame h.checkList
  | rebuild => exact hnone fun p hp => (buildCheckList_fresh env s hp).1.nomineeCheckSent
  | check i | liteCheck i =>
    exact flagged_subset ((sendCheck_scheduled env s i).checkList.imp
      fun _ _ h => ⟨h.txnId, h.nomineeCheckSent⟩) rfl
  | repaint ps h =>
    refine flagged_subset (h.imp fun _ _ h => ?_) rfl
    have := CheckPair.Evolves.of_repaints h
    exact ⟨this.txnId, this.nomineeCheckSent⟩
  | pick => cases hl _ rfl
  | succeed i p => exact flagged_subset (succeedPair_sameNominee) rfl
  | respond | reject => exact hsame (congrArg Core.checkList (reply_core _ _ _ _ s))
  | defer i | nominateDeferred i =>
    exact flagged_subset (forall₂_modify .refl (fun _ => ⟨rfl, rfl⟩) s.checkList i) rfl
  | trigger loc rem =>
    intro txn ht
    obtain ⟨p, hp, hf, htxn⟩ := mem_flagged.mp ht
    rcases mem_append.mp hp with hp | hp
    · exact mem_flagged.mpr ⟨p, hp, hf, htxn⟩
    · rw [mem_singleton.mp hp] at hf
      cases hf
  | forget => exact hnone (by simp [forgetRemote])
  | restart => exact hreset s rfl
  | autoRestart now => exact hreset _ rfl
  | _ => exact hsame rfl

theorem checkMessage_txnId : (s.checkMessage p).txnId = p.txnId := by
  unfold checkMessage
  dsimp only
  split_ifs <;> rfl

theorem pmtuMessage_txnId {size : ℕ} : (s.pmtuMessage txn size).txnId = txn := by
  unfold pmtuMessage StunBuilder.addPaddingTo
  dsimp only
  split_ifs <;> rfl

theorem checkMessage_useCandidate {net : Inet} :
    ((s.checkMessage p).message net).useCandidate =
      (s.controlling && (s.cfg.aggressiveNomination || p.nomineeCheckSent)) := by
  unfold checkMessage
  cases s.controlling <;> cases s.cfg.aggressiveNomination || p.nomineeCheckSent
  all_goals rfl

/-- A signed request of one of these transactions carries USE-CANDIDATE. -/
def AsksIn (txns : List TransactionId) (b : StunBuilder) : Prop :=
  b.attrs ≠ [] → b.msgType = bindingRequest → b.txnId ∈ txns →
    ∀ net, (b.message net).useCandidate = true

theorem AsksIn.mono {txns more : List TransactionId} (h : AsksIn more b) (hs : txns ⊆ more) :
    AsksIn txns b := fun ha hr ht => h ha hr (hs ht)

theorem Says.asksIn (h : s.Says env l b) (hl : ∀ a ∈ l, a.isPick = false)
    (hd : DrawnIds env s) (hi : IdsDistinct env s) (hc : s.controlling = true) :
    AsksIn s.flagged b := by
  intro ha hr ht net
  obtain ⟨q, hq, hf, htxn⟩ := mem_flagged.mp ht
  cases h with
  | plain h => exact absurd h ha
  | check hp =>
    rw [checkMessage_txnId] at htxn
    rw [checkMessage_useCandidate, hc, ← hd.pair_unique hi hq hp htxn, hf]
    simp
  | followUp => cases hl _ rfl
  | answer txn =>
    have hresp : (s.responseMessage txn).msgType = bindingResponse := rfl
    rw [hresp] at hr
    exact absurd hr (by decide)
  | conflict txn =>
    have hrej : (s.roleConflictMessage txn).msgType = bindingError := rfl
    rw [hrej] at hr
    exact absurd hr (by decide)
  | probe size =>
    rw [pmtuMessage_txnId] at htxn
    exact absurd htxn (hd.fresh hi hq)

/-- From `s` to `t` no pair was flagged, and nothing was asked in the flagged transactions of `t`
without USE-CANDIDATE. -/
structure Faithful (env : Env) (s t : Session) : Prop where
  asks : Logs (fun e => ∀ b ∈ e.stun?, AsksIn t.flagged b) s t
  drawn : DrawnIds env t
  controlling : t.controlling = true

theorem Faithful.act (h : Faithful env s t) (hact : Act env t l u)
    (hl : ∀ a ∈ l, a.isPick = false ∧ a ≠ .flip) (hi : IdsDistinct env t) :
    Faithful env s u := by
  have hpick (a : Label) (ha : a ∈ l) : a.isPick = false := (hl a ha).1
  have hsub := act_flagged hact hpick
  refine ⟨?_, act_drawnIds hact h.drawn,
    (act_controlling hact fun hf => (hl .flip hf).2 rfl).trans h.controlling⟩
  refine (h.asks.mono fun e he b hb => (he b hb).mono hsub).trans ?_
  refine (act_speaks hact).mono fun e he b hb => ?_
  exact ((he b hb).asksIn hpick h.drawn hi h.controlling).mono hsub

theorem Faithful.steps (h : Faithful env s t) (hsteps : Steps env A t u)
    (hA : ∀ a ∈ A, a.isPick = false ∧ a ≠ .flip) (hi : IdsDistinct env u) :
    Faithful env s u := by
  refine hsteps.invariant (I := fun v => IdsDistinct env v → Faithful env s v)
    (fun hl hact hv hi => ?_) (fun _ => h) hi
  have hi' := hi.of_le (act_draws hact)
  exact (hv hi').act hact (fun a ha => hA a (hl a ha)) hi'

theorem Faithful.pick (hplain : Logs (fun e => ∀ b ∈ e.stun?, b.attrs = []) s t)
    (hd : DrawnIds env t) (hc : t.controlling = true) : Faithful env s (t.pickNominee env) := by
  refine ⟨?_, hd.same (pickNominee_txnId) (pickNominee_draws env t),
    (congrArg Core.controlling (pickNominee_core env t)).trans hc⟩
  refine (hplain.mono fun e he b hb ha => absurd (he b hb) ha).trans ?_
  refine (pickNominee_logs).mono fun e he b hb _ _ _ net => ?_
  obtain ⟨i, p, -, -, hsends⟩ := he
  rw [stun?_of_sends hsends hb, checkMessage_useCandidate, hc]
  simp

/-- The first thing that an announced end of candidates leads to is the pick. -/
theorem addRemoteCandidates_picks {ufrag pwd : Bytes} {cands : List Candidate}
    (hp : s.endOfCandidatesPicks) (hd : DrawnIds env s)
    (hi : IdsDistinct env (s.addRemoteCandidates env ufrag pwd cands true)) :
    Faithful env s (s.addRemoteCandidates env ufrag pwd cands true) := by
  have hadopt : Steps env Set.univ s (s.adoptRemoteCredentials ufrag pwd) :=
    adoptRemoteCredentials_steps ufrag pwd fun _ => Set.mem_univ _
  have hlog : (s.adoptRemoteCredentials ufrag pwd).log = s.log := by
    unfold adoptRemoteCredentials
    dsimp only
    split_ifs <;> rfl
  have hpicks : (s.adoptRemoteCredentials ufrag pwd).endOfCandidatesPicks := by
    unfold adoptRemoteCredentials
    dsimp only
    split_ifs <;> exact hp
  have hdrawn := steps_drawnIds hadopt hd
  unfold addRemoteCandidates at hi ⊢
  generalize s.adoptRemoteCredentials ufrag pwd = r at hlog hpicks hdrawn hi
  obtain ⟨hc, ha, hn⟩ := hpicks
  have hend : r.onEndOfCandidates env = r.noteEndOfCandidates.pickNominee env := by
    unfold onEndOfCandidates
    dsimp only
    rw [if_pos (by simp [noteEndOfCandidates, hc, ha, hn])]
  have hpick : Faithful env s (r.noteEndOfCandidates.pickNominee env) :=
    .pick (.of_log_eq hlog) (hdrawn.same rfl le_rfl) hc
  dsimp only at hi ⊢
  rw [if_pos rfl, hend] at hi ⊢
  have hmerge (v : Session) : Steps env { a | a.isPick = false ∧ a ≠ .flip } v
      (cands.foldl (mergeRemote env) v) :=
    foldl_mergeRemote_steps env cands fun c _ => ⟨rfl, nofun⟩
  have hrest (v : Session) : Steps env { a | a.isPick = false ∧ a ≠ .flip } v
      (v.onRemoteCandidates env) := by
    refine onRemoteCandidates_steps ⟨rfl, nofun⟩ ⟨rfl, nofun⟩ fun _ _ a ha => ?_
    have hcheck := candidateStarts_checkLabels ha
    cases a with
    | pick | flip => exact hcheck.elim
    | _ => exact ⟨rfl, nofun⟩
  exact hpick.steps ((hmerge _).trans (hrest _)) (fun _ ha => ha) hi

theorem onStun_picks {leaves : Bool} {cid : Cid} {fromTcp : Bool} (h : s.picksOn env m leaves) :
    ∃ i p, s.onStun env m cid fromTcp = (s.recordSuccess env m i p).pickNominee env := by
  obtain ⟨⟨hm, hpmtu, hst⟩, i, p, hi, hc, ha, hf, hn, hv, -⟩ := h
  have hcore := recordSuccess_core env m i p s
  have hctl : (s.recordSuccess env m i p).controlling = true :=
    (congrArg Core.controlling hcore).trans hc
  have hcfg : (s.recordSuccess env m i p).cfg = s.cfg := congrArg Core.cfg hcore
  have hsel : (s.recordSuccess env m i p).nomineeSelected = false :=
    (congrArg Core.nomineeSelected hcore).trans hn
  refine ⟨i, p, ?_⟩
  rw [onStun, if_neg (by rw [hm]; decide), if_pos hm, handleSuccessResponse, if_neg hpmtu,
    if_neg (by rw [hst]; decide), handleCheckResponse, if_neg (not_not.mpr hst), hi]
  dsimp only
  rw [onPairSucceeded, if_neg (by simp [hctl]), if_neg (by simp [hcfg, ha, hf]),
    if_pos (by simp [hsel, hv])]

private theorem recordSuccess_drawnIds {i : ℕ} (hd : DrawnIds env s) :
    DrawnIds env (s.recordSuccess env m i p) := by
  have hnote : Steps env { l | ∃ c, l = .prflx c } s (s.noteResponse env m p) :=
    noteResponse_steps m p fun c _ => ⟨c, rfl⟩
  have hdraws : s.draws ≤ (s.noteResponse env m p).draws := steps_draws hnote
  refine hd.same ?_ hdraws
  exact txnId_eq_of_forall₂ (fun _ _ h => h.1.1) (recordSuccess_sameNominee env m i p s)

/-- A controlling session that stays so asks faithfully in every step. -/
theorem step_faithful {e : Event} (hd : DrawnIds env s) (hi : IdsDistinct env (s.step H env e))
    (hc : s.controlling = true) (hflip : .flip ∉ s.allowed H env e) :
    Faithful env s (s.step H env e) := by
  by_cases hpick : ∃ leaves, .pick leaves ∈ s.allowed H env e
  · obtain ⟨leaves, h | ⟨d, hdel, h⟩⟩ := hpick
    · cases e with
      | addRemoteCandidates ufrag pwd cands eoc =>
        obtain ⟨rfl, hpicks, -⟩ := h
        exact addRemoteCandidates_picks hpicks hd hi
      | task t => cases t <;> exact h.2.elim
      | _ => exact h.elim
    · rcases h with ⟨h, -⟩ | ⟨m, -, h⟩ | ⟨m, hm, h⟩
      · cases h
      · exact h.elim
      · obtain ⟨i, p, hpicks⟩ := onStun_picks h
        rw [step_accepted hdel hm, hpicks]
        obtain ⟨⟨l, -, hw⟩, -⟩ := step_inbound H env hdel
        obtain ⟨new, hnew, hquiet⟩ := hw.log
        have hbefore : Logs (fun e => ∀ b ∈ e.stun?, b.attrs = []) s d.session :=
          ⟨new, hnew, fun x hx b => attrs_of_quiet (hquiet x hx)⟩
        have hrec : Logs (fun e => ∀ b ∈ e.stun?, b.attrs = []) d.session
            (d.session.recordSuccess env m i p) :=
          (Logs.of_log_eq (noteResponse_log)).trans (.emit _ nofun)
        have hdrawn := steps_drawnIds (inbound_steps (H := H) hdel) hd
        have hctl : (d.session.recordSuccess env m i p).controlling = true :=
          (congrArg Core.controlling (recordSuccess_core env m i p _)).trans
            ((congrArg Core.controlling (inbound_core hdel)).trans hc)
        exact .pick (hbefore.trans hrec) (recordSuccess_drawnIds hdrawn) hctl
  · refine Faithful.steps ⟨.refl s, hd, hc⟩ (step_steps H env s e) (fun a ha => ⟨?_, ?_⟩) hi
    · cases a with
      | pick leaves => exact absurd ⟨leaves, ha⟩ hpick
      | _ => rfl
    · rintro rfl
      exact hflip ha

/-! ### Commitments -/

theorem act_commits (h : Act env s l t) :
    Logs (fun e => ∀ txn ∈ e.commits, ∃ p, l = some (.nominateOwn p) ∧ p.txnId = txn) s t := by
  have hlogs := act_logs h
  have hnone (hl : ∀ a ∈ l, a.nominates = false) :
      Logs (fun e => ∀ txn ∈ e.commits, ∃ p, l = some (.nominateOwn p) ∧ p.txnId = txn) s t := by
    refine hlogs.mono fun e he txn ht => ?_
    cases e with
    | nominated =>
      obtain ⟨a, ha, hn⟩ := he
      rw [hl a ha] at hn
      cases hn
    | _ => cases ht
  cases h with
  | nominateOwn p => exact ⟨[.setState .connected, .nominated ..], rfl, by simp [Effect.commits]⟩
  | nominateDeferred | nominateNow =>
    exact ⟨[.setState .connected, .nominated ..], rfl, by simp [Effect.commits]⟩
  | _ => exact hnone (by simp [Label.nominates])

variable (H env) in
/-- Regular nomination commits on nothing but the answer to a flagged check. -/
theorem step_commits (e : Event) (ha : s.cfg.aggressiveNomination = false) :
    Logs (fun x => ∀ txn ∈ x.commits, ∃ d ∈ s.inbound e, ∃ m ∈ d.accepted H env,
      m.msgType = bindingResponse ∧ m.txnId = txn ∧ txn ∈ s.flagged) s (s.step H env e) := by
  refine (step_steps H env s e).invariant (I := Logs _ s) (fun {u v l} hl hact hu => hu.trans ?_)
    (.refl s)
  refine (act_commits hact).mono fun x hx txn ht => ?_
  obtain ⟨p, rfl, rfl⟩ := hx txn ht
  obtain ⟨d, hd, m, hm, hans, ⟨i, hi⟩, -, hn⟩ := allowed_inbound (hl _ rfl) rfl
  have hcore := inbound_core hd
  have hflag : p.nomineeCheckSent = true := by
    rw [show d.session.cfg = s.cfg from congrArg Core.cfg hcore, ha] at hn
    exact hn.resolve_left Bool.false_ne_true
  have hmem : p ∈ s.checkList := by
    rw [← show d.session.checkList = s.checkList from congrArg Core.checkList hcore]
    exact mem_of_getElem? (pairOf_eq_some.mp hi).2
  exact ⟨d, hd, m, hm, hans.1, (pairOf_txnId hi).symm, mem_flagged.mpr ⟨p, hmem, hflag, rfl⟩⟩

def heard (txn : TransactionId) (s : Session) : Bool := s.log.any fun e => e.asks = some txn

theorem heard_of_suffix (h : s.log <:+ t.log) (hs : s.heard txn = true) : t.heard txn = true := by
  obtain ⟨e, he, ha⟩ := any_eq_true.mp hs
  exact any_eq_true.mpr ⟨e, h.subset he, ha⟩

theorem Says.of_bindingResponse (h : s.Says env l b)
    (hb : b.msgType = bindingResponse) (ha : b.attrs ≠ []) :
    ∃ uc, l = some (.respond b.txnId uc) ∧ (uc = true → s.heard b.txnId = true) := by
  cases h with
  | plain h => exact absurd h ha
  | check | followUp =>
    rw [checkMessage_msgType] at hb
    exact absurd hb (by decide)
  | answer txn uc hr =>
    obtain ⟨ep, cid, tx, relay, hr⟩ := hr
    refine ⟨uc, rfl, fun huc => any_eq_true.mpr ⟨_, hr, ?_⟩⟩
    rw [huc]
    exact decide_eq_true rfl
  | conflict txn =>
    have hrej : (s.roleConflictMessage txn).msgType = bindingError := rfl
    rw [hrej] at hb
    exact absurd hb (by decide)
  | probe size =>
    rw [pmtuMessage_msgType] at hb
    exact absurd hb (by decide)

end Session

/-! ### Two sessions -/

namespace Peers

open Session StunMessage

variable {H : Hmac} {envs : Side → Env} {d : Peers} {mv : PeerMove} {x y : Side} {e : Event}
  {b : StunBuilder}

/-- Each of the two holds the role that the other one does not hold, and says so. -/
structure Opposed (d : Peers) : Prop where
  wide : ∀ x, (d.agent x).tiebreaker < 2 ^ 64
  roles : ∀ x : Side, (d.agent x.other).controlling = !(d.agent x).controlling
  claims : ∀ x, ∀ b ∈ d.inbox x, ∀ net, (b.message net).ClaimsNothing ∨
    ∃ tb, (b.message net).Claims (!(d.agent x).controlling) tb
  unrefused : ∀ x, ∀ b ∈ d.inbox x, b.msgType = bindingError → b.attrs = []

namespace Opposed

theorem sameRole (h : d.Opposed) (hb : b ∈ d.inbox x) {s : Session}
    (hs : s.core = (d.agent x).core) (net : Inet) : s.sameRole (b.message net) = false := by
  rcases h.claims x b hb net with hn | ⟨tb, hc⟩
  · exact sameRole_of_claimsNothing hn
  · rw [sameRole_of_claims hc, show s.controlling = _ from congrArg Core.controlling hs]
    exact Bool.beq_not_self _

/-- Nobody has a reason to change sides. -/
theorem not_flips (h : d.Opposed) (hh : d.Honest H envs mv) (hx : mv.event = some (x, e)) :
    .flip ∉ (d.agent x).allowed H (envs x) e := by
  intro hf
  obtain ⟨del, hd, m, hm, hflip⟩ := allowed_inbound hf rfl
  obtain ⟨b, again, -, hb, rfl, hne⟩ := hh.accepted hx hd hm
  rcases hflip with ⟨he, -⟩ | ⟨-, hg⟩
  · rw [StunBuilder.message_msgType] at he
    exact hne (h.unrefused x b hb he)
  · rw [givesWay, h.sameRole hb (inbound_core hd)] at hg
    cases hg.1

theorem not_rejects (h : d.Opposed) (hh : d.Honest H envs mv) (hx : mv.event = some (x, e)) :
    .reject ∉ (d.agent x).allowed H (envs x) e := by
  intro hf
  obtain ⟨del, hd, m, hm, -, hsame, -⟩ := allowed_inbound hf rfl
  obtain ⟨b, again, -, hb, rfl, -⟩ := hh.accepted hx hd hm
  rw [h.sameRole hb (inbound_core hd)] at hsame
  cases hsame

theorem move_controlling (h : d.Opposed) (hh : d.Honest H envs mv) (x : Side) :
    ((d.move H envs mv).agent x).controlling = (d.agent x).controlling := by
  rcases move_agent with hx | ⟨e, he, hx⟩
  · rw [hx]
  · rw [hx]
    exact steps_controlling (step_steps H (envs x) (d.agent x) e) (h.not_flips hh he)

theorem move (h : d.Opposed) (hh : d.Honest H envs mv) : (d.move H envs mv).Opposed := by
  have hctl := h.move_controlling hh
  refine ⟨fun x => ?_, fun x => ?_, fun x b hb net => ?_, fun x b hb hr => ?_⟩
  · rw [move_tiebreaker]
    exact h.wide x
  · rw [hctl, hctl]
    exact h.roles x
  · rw [hctl]
    rcases mem_move hb with hb | ⟨e, he, hb⟩
    · exact h.claims x b hb net
    · obtain ⟨u, l, hu, -, -, hspeaks⟩ := mem_sent_step hb
      have hrole : u.controlling = !(d.agent x).controlling :=
        (steps_controlling hu (h.not_flips hh he)).trans (h.roles x)
      have htb : u.tiebreaker = (d.agent x.other).tiebreaker := congrArg (·.2.1) (steps_wiring hu)
      rw [← hrole]
      exact (hspeaks.claims net (htb.trans_lt (h.wide _))).imp_right fun hc => ⟨_, hc⟩
  · rcases mem_move hb with hb | ⟨e, he, hb⟩
    · exact h.unrefused x b hb hr
    · obtain ⟨u, l, -, -, hl, hspeaks⟩ := mem_sent_step hb
      by_contra hne
      obtain ⟨rfl, -⟩ := hspeaks.of_bindingError hr hne
      exact h.not_rejects hh he (hl _ rfl)

end Opposed

/-- Whatever `x` has nominated on a response, the peer has heard of. -/
def Agreed (x : Side) (d : Peers) : Prop :=
  ∀ f ∈ (d.agent x).log, ∀ txn ∈ f.commits, (d.agent x.other).heard txn = true

instance (x : Side) : DecidablePred (Agreed x) :=
  fun d => inferInstanceAs (Decidable (∀ f ∈ (d.agent x).log, ∀ txn ∈ f.commits, _))

/-- When `x` sends a follow-up check, nothing else of that transaction stays in flight. -/
def FollowUpAlone (H : Hmac) (envs : Side → Env) (x : Side) (d : Peers) (mv : PeerMove) : Prop :=
  ∀ txn ∈ ((d.move H envs mv).agent x).flagged, txn ∉ (d.agent x).flagged →
    (∀ b ∈ d.inbox x.other, b.txnId ≠ txn) ∧ ∀ b ∈ (d.move H envs mv).inbox x, b.txnId ≠ txn

/-- In the transactions of its follow-up checks `x` asks for nothing without USE-CANDIDATE, and
what it is answered there the peer was asked with USE-CANDIDATE. -/
structure Heeds (envs : Side → Env) (x : Side) (d : Peers) : Prop where
  opposed : d.Opposed
  controlling : (d.agent x).controlling = true
  regular : (d.agent x).cfg.aggressiveNomination = false
  drawn : DrawnIds (envs x) (d.agent x)
  asks : ∀ b ∈ d.inbox x.other, AsksIn (d.agent x).flagged b
  answers : ∀ b ∈ d.inbox x, b.attrs ≠ [] → b.msgType = bindingResponse →
    b.txnId ∈ (d.agent x).flagged → (d.agent x.other).heard b.txnId = true
  agreed : d.Agreed x

namespace Heeds

/-- An event at the controlling session. -/
theorem move_own (h : d.Heeds envs x) (hh : d.Honest H envs mv) (hx : mv.event = some (x, e))
    (hi : IdsDistinct (envs x) ((d.agent x).step H (envs x) e))
    (ha : d.FollowUpAlone H envs x mv) : (d.move H envs mv).Heeds envs x := by
  have hself : (d.move H envs mv).agent x = _ := move_agent_self hx
  have hother : (d.move H envs mv).agent x.other = _ := move_agent_other hx
  have hfaith := step_faithful h.drawn hi h.controlling (h.opposed.not_flips hh hx)
  refine ⟨h.opposed.move hh, (h.opposed.move_controlling hh x).trans h.controlling, ?_, ?_,
    fun b hb => ?_, fun b hb hne hr ht => ?_, fun f hf txn htxn => ?_⟩
  · rw [hself, step_cfg]
    exact h.regular
  · rw [hself]
    exact hfaith.drawn
  · rw [move_inbox_other hx] at hb
    rcases mem_append.mp hb with hb | hb
    · rw [hself]
      obtain ⟨f, hf, hbf⟩ := hfaith.asks.mem_sent hb
      exact hf b hbf
    · intro hne hr ht net
      by_cases hold : b.txnId ∈ (d.agent x).flagged
      · exact h.asks b hb hne hr hold net
      · exact absurd rfl ((ha _ ht hold).1 b hb)
  · rw [hother]
    by_cases hold : b.txnId ∈ (d.agent x).flagged
    · exact h.answers b (mem_move_self hx hb) hne hr hold
    · exact absurd rfl ((ha _ ht hold).2 b hb)
  · rw [hother]
    rw [hself] at hf
    obtain ⟨new, hnew, hcommits⟩ := step_commits H (envs x) e h.regular
    rw [hnew] at hf
    rcases mem_append.mp hf with hf | hf
    · obtain ⟨del, hd, m, hm, hr, hid, hflag⟩ := hcommits f hf txn htxn
      obtain ⟨b, again, -, hb, rfl, hne⟩ := hh.accepted hx hd hm
      rw [StunBuilder.message_msgType] at hr
      rw [StunBuilder.message_txnId] at hid
      rw [← hid] at hflag ⊢
      exact h.answers b hb hne hr hflag
    · exact h.agreed f hf txn htxn

/-- An event at the controlled session. -/
theorem move_peer (h : d.Heeds envs x) (hh : d.Honest H envs mv)
    (hx : mv.event = some (x.other, e)) : (d.move H envs mv).Heeds envs x := by
  have hself : (d.move H envs mv).agent x = _ := move_agent_of_other hx
  have hother : (d.move H envs mv).agent x.other = _ := move_agent_self hx
  have hgrows := steps_log_suffix (step_steps H (envs x.other) (d.agent x.other) e)
  refine ⟨h.opposed.move hh, (h.opposed.move_controlling hh x).trans h.controlling, ?_, ?_,
    fun b hb => ?_, fun b hb hne hr ht => ?_, fun f hf txn htxn => ?_⟩
  · rw [hself]
    exact h.regular
  · rw [hself]
    exact h.drawn
  · rw [hself]
    exact h.asks b (mem_move_self hx hb)
  · rw [hself] at ht
    rw [hother]
    rw [move_inbox_of_other hx] at hb
    rcases mem_append.mp hb with hb | hb
    · -- the peer answers a request of the same transaction
      obtain ⟨u, l, -, hlog, hl, hspeaks⟩ := mem_sent_step hb
      obtain ⟨uc, rfl, hheard⟩ := hspeaks.of_bindingResponse hr hne
      obtain ⟨del, hd, m, hm, hreq, hid, huc⟩ := allowed_inbound (hl _ rfl) rfl
      obtain ⟨c, again, -, hc, rfl, hcne⟩ := hh.accepted hx hd hm
      rw [StunBuilder.message_msgType] at hreq
      rw [StunBuilder.message_txnId] at hid
      rw [hid] at ht
      exact heard_of_suffix hlog (hheard (huc.trans (h.asks c hc hcne hreq ht _)))
    · exact heard_of_suffix hgrows (h.answers b hb hne hr ht)
  · rw [hself] at hf
    rw [hother]
    exact heard_of_suffix hgrows (h.agreed f hf txn htxn)

private theorem move_lost (h : d.Heeds envs x) (hh : d.Honest H envs (.lose y b)) :
    (d.move H envs (.lose y b)).Heeds envs x :=
  ⟨h.opposed.move hh, h.controlling, h.regular, h.drawn,
    fun c hc => h.asks c (Duo.mem_of_mem_drop hc),
    fun c hc => h.answers c (Duo.mem_of_mem_drop hc), h.agreed⟩

theorem move (h : d.Heeds envs x) (hh : d.Honest H envs mv) (ha : d.FollowUpAlone H envs x mv)
    (hi : IdsDistinct (envs x) ((d.move H envs mv).agent x)) : (d.move H envs mv).Heeds envs x := by
  cases hy : mv.event with
  | none =>
    cases mv with
    | lose => exact h.move_lost hh
    | _ => cases hy
  | some ye =>
    obtain ⟨y, e⟩ := ye
    rcases x.eq_or_eq_other y with rfl | rfl
    · rw [move_agent_self hy] at hi
      exact h.move_own hh hy hi ha
    · exact h.move_peer hh hy

end Heeds

def created (envs : Side → Env) (cfg : Side → IceConfig) (w : Side → Wiring)
    (controlling : Side → Bool) (tiebreaker : Side → ℕ) : Peers where
  agent x := Session.create (envs x) (cfg x) (w x) (controlling x) (tiebreaker x)
  inbox _ := []

section

variable {cfg : Side → IceConfig} {w : Side → Wiring} {controlling : Side → Bool}
  {tiebreaker : Side → ℕ}

private theorem created_heeds
    (hx : ((created envs cfg w controlling tiebreaker).agent x).controlling = true)
    (hy : ((created envs cfg w controlling tiebreaker).agent x.other).controlling = false)
    (hr : (cfg x).aggressiveNomination = false) :
    (created envs cfg w controlling tiebreaker).Heeds envs x := by
  refine ⟨⟨fun y => Nat.mod_lt _ (by decide), fun y => ?_, fun y b hb => ?_, fun y b hb => ?_⟩, hx,
    hr, .nil rfl, fun b hb => ?_, fun b hb => ?_, fun f hf => ?_⟩
  · rcases x.eq_or_eq_other y with rfl | rfl
    · rw [hx, hy]
      rfl
    · rw [Side.other_other, hx, hy]
      rfl
  all_goals exact absurd ‹_ ∈ _› not_mem_nil

end

/-- If every follow-up check is alone in its transaction, then the controlled session has
received a request with USE-CANDIDATE before the controlling one nominates the pair. -/
theorem nomination_heard (H : Hmac) (envs : Side → Env) (cfg : Side → IceConfig)
    (w : Side → Wiring) (controlling : Side → Bool) (tiebreaker : Side → ℕ) (x : Side)
    (hx : ((created envs cfg w controlling tiebreaker).agent x).controlling = true)
    (hy : ((created envs cfg w controlling tiebreaker).agent x.other).controlling = false)
    (hr : (cfg x).aggressiveNomination = false) (ms : List PeerMove)
    (hrun : Along (move H envs) (Honest H envs) (created envs cfg w controlling tiebreaker) ms)
    (hi : IdsDistinct (envs x)
      ((ms.foldl (move H envs) (created envs cfg w controlling tiebreaker)).agent x))
    (ha : Along (move H envs) (FollowUpAlone H envs x) (created envs cfg w controlling tiebreaker)
      ms) :
    (ms.foldl (move H envs) (created envs cfg w controlling tiebreaker)).Agreed x := by
  have hheeds := (hrun.and ha).invariant
    (I := fun d => IdsDistinct (envs x) (d.agent x) → d.Heeds envs x) (fun d mv hmv hd hi => ?_)
    (fun _ => created_heeds hx hy hr) hi
  · exact hheeds.agreed
  · have hdraws : (d.agent x).draws ≤ ((d.move H envs mv).agent x).draws := by
      rcases move_agent with hx | ⟨e, -, hx⟩
      · rw [hx]
      · rw [hx]
        exact steps_draws (step_steps H (envs x) (d.agent x) e)
    exact (hd (hi.of_le hdraws)).move hmv.1 hmv.2 hi

/-! ### A pair that has to be introduced -/

def strangers : Peers := created Env.lanPair (fun _ => { pmtuActiveProbing := false }) (fun _ => {})
  (fun | .left => true | .right => false) (fun | .left => 5 | .right => 9)

def introduced : List PeerInput :=
  [.act .left (.setRemote ((Env.lanPair .right).ufrag 0) ((Env.lanPair .right).pwd 0)
      [lanHost .right]),
    .act .right (.setRemote ((Env.lanPair .left).ufrag 0) ((Env.lanPair .left).pwd 0)
      [lanHost .left])]

theorem lan_idsDistinct {s : Session} (h : s.draws ≤ 20) : IdsDistinct (Env.lanPair .left) s := by
  have hsmall : ∀ a ≤ 20, ∀ b ≤ 20,
      (Env.lanPair .left).txnId a = (Env.lanPair .left).txnId b → a = b := by decide +kernel
  intro a ha b hb
  exact hsmall a (le_trans ha h) b (le_trans hb h)

theorem honest_of_input (d d' : Peers) (i : PeerInput) (hf : d.feed envs i = some d')
    (_ : true = true) : d.Honest H envs (d.moveOf H i) := (move_of_feed hf).2

/-- No other message of the transaction stays in flight when the input flags a pair. -/
def aloneInput (d : Peers) (i : PeerInput) : Bool :=
  (d.feed Env.lanPair i).any fun d' =>
    decide (∀ txn ∈ (d'.agent .left).flagged, txn ∉ (d.agent .left).flagged →
      (∀ b ∈ d.inbox .right, b.txnId ≠ txn) ∧ ∀ b ∈ d'.inbox .left, b.txnId ≠ txn)

private theorem followUpAlone_of_input (d d' : Peers) (i : PeerInput)
    (hf : d.feed Env.lanPair i = some d') (h : d.aloneInput i = true) :
    d.FollowUpAlone H Env.lanPair .left (d.moveOf H i) := by
  rw [aloneInput, hf] at h
  rw [FollowUpAlone, (move_of_feed hf).1]
  exact of_decide_eq_true h

theorem nomination_heard_when_alone :
    let H := zeroHmac
    let d := (strangers.movesOf H Env.lanPair (introduced ++ connecting)).foldl
      (move H Env.lanPair) strangers
    (∃ f ∈ (d.agent .left).log, f.commits.isSome = true) ∧ d.Agreed .left := by
  intro H d
  have hplay : (strangers.play Env.lanPair (introduced ++ connecting)).any (fun d =>
      decide ((d.agent .left).draws ≤ 20 ∧
        ∃ f ∈ (d.agent .left).log, f.commits.isSome = true)) = true := by decide +kernel
  obtain ⟨hdraws, hcommits⟩ := of_decide_eq_true (run_of_play_any hplay H)
  exact ⟨hcommits, nomination_heard H Env.lanPair _ _ _ _ .left (by decide) (by decide) rfl _
    (along_of_play honest_of_input (by decide +kernel)) (lan_idsDistinct hdraws)
    (along_of_play followUpAlone_of_input (by decide +kernel))⟩

def answeredTwice : List PeerInput :=
  introduced ++ [.act .left .gather, .act .right .gather, .deliver .right 6 0 true,
    .deliver .right 6 0 false, .deliver .left 6 0 false, .deliver .left 6 0 false]

/-- The second answer to the plain check passes for the answer to the follow-up. -/
theorem late_answer_nominates :
    ¬ ∃ H : Hmac, ∀ ms, Along (move H Env.lanPair) (Honest H Env.lanPair) strangers ms →
      IdsDistinct (Env.lanPair .left) ((ms.foldl (move H Env.lanPair) strangers).agent .left) →
      (ms.foldl (move H Env.lanPair) strangers).Agreed .left := by
  rintro ⟨H, h⟩
  have hplay : (strangers.play Env.lanPair answeredTwice).any (fun d =>
      decide ((d.agent .left).draws ≤ 20 ∧ ¬ d.Agreed .left)) = true := by decide +kernel
  obtain ⟨hdraws, hnot⟩ := of_decide_eq_true (run_of_play_any hplay H)
  exact hnot (h _ (along_of_play honest_of_input (by decide +kernel)) (lan_idsDistinct hdraws))

end Peers

end LinkIce
