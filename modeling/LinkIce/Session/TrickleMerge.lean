import LinkIce.Session.NominationAgreement

/-! What a further batch of candidates does to the checks that are under way. -/
namespace LinkIce
open Stun List

namespace Candidate

variable {net : Inet} {c : Candidate}

@[simp] theorem withFoundation_withFoundation :
    (c.withFoundation net).withFoundation net = c.withFoundation net := by
  by_cases hc : c.foundation = []
  · by_cases hd : computeFoundation c.type (c.addressStr net) [] c.transport = []
    · have hsame : c.withFoundation net = c := by
        rw [withFoundation, if_neg (not_not.mpr hc), hd, ← hc]
      rw [hsame, hsame]
    · have hnew : (c.withFoundation net).foundation ≠ [] := by
        rw [withFoundation, if_neg (not_not.mpr hc)]
        exact hd
      rw [withFoundation, if_pos hnew]
  · have hkeep : c.withFoundation net = c := by rw [withFoundation, if_pos hc]
    rw [hkeep, hkeep]

end Candidate

namespace CheckPair

theorem valid_of_bestValid {ps : List CheckPair} {i : ℕ} (h : bestValid ps = some i) :
    ∃ p, ps[i]? = some p ∧ p.valid = true := by
  have hscan (l : List (CheckPair × ℕ)) (best : Option (CheckPair × ℕ)) (pi : CheckPair × ℕ)
      (hpi : l.foldl (fun (best : Option (CheckPair × ℕ)) pi =>
        if pi.1.valid && best.all fun b => b.1.priority < pi.1.priority then some pi else best)
        best = some pi) : best = some pi ∨ (pi ∈ l ∧ pi.1.valid = true) := by
    induction l generalizing best with
    | nil => exact .inl hpi
    | cons x l ih =>
      rcases ih _ hpi with hb | ⟨hmem, hv⟩
      · dsimp only at hb
        split_ifs at hb with hx
        · obtain rfl := Option.some.inj hb
          simp only [Bool.and_eq_true] at hx
          exact .inr ⟨mem_cons_self, hx.1⟩
        · exact .inl hb
      · exact .inr ⟨mem_cons_of_mem _ hmem, hv⟩
  obtain ⟨⟨p, j⟩, hpj, rfl⟩ := Option.map_eq_some_iff.mp h
  rcases hscan _ _ _ hpj with hnone | ⟨hmem, hv⟩
  · cases hnone
  · exact ⟨p, mem_zipIdx_iff_getElem?.mp hmem, hv⟩

/-- The pair is still there, and its check has got as far as before. -/
structure Kept (p q : CheckPair) : Prop where
  loc : q.loc.bare = p.loc.bare
  rem : q.rem.bare = p.rem.bare
  txnId : q.txnId = p.txnId
  state : q.state = p.state
  valid : q.valid = p.valid
  retries : q.retries = p.retries
  nomineeCheckSent : q.nomineeCheckSent = p.nomineeCheckSent
  pendingNomination : q.pendingNomination = p.pendingNomination

theorem Kept.refl (p : CheckPair) : Kept p p := ⟨rfl, rfl, rfl, rfl, rfl, rfl, rfl, rfl⟩

instance (p q : CheckPair) : Decidable (Kept p q) :=
  decidable_of_iff (q.loc.bare = p.loc.bare ∧ q.rem.bare = p.rem.bare ∧ q.txnId = p.txnId ∧
      q.state = p.state ∧ q.valid = p.valid ∧ q.retries = p.retries ∧
      q.nomineeCheckSent = p.nomineeCheckSent ∧ q.pendingNomination = p.pendingNomination)
    ⟨fun ⟨h₁, h₂, h₃, h₄, h₅, h₆, h₇, h₈⟩ => ⟨h₁, h₂, h₃, h₄, h₅, h₆, h₇, h₈⟩,
      fun ⟨h₁, h₂, h₃, h₄, h₅, h₆, h₇, h₈⟩ => ⟨h₁, h₂, h₃, h₄, h₅, h₆, h₇, h₈⟩⟩

end CheckPair

namespace Session

variable {H : Hmac} {env : Env} {A : Set Label} {s t : Session} {cands : List Candidate}
  {pwd : Bytes} {eoc : Bool} {net : Inet} {c : Candidate} {cs rs : List Candidate} {p q : CheckPair}

/-! ### Merging -/

def mergeAll (net : Inet) (known : List Candidate) (cands : List Candidate) : List Candidate :=
  cands.foldl (fun rs c => if rs.any (sameRemote net c) then rs else rs ++ [c]) known

theorem sameRemote_self (c : Candidate) : sameRemote net c c = true := by simp [sameRemote]

theorem mergeAll_cons (rs : List Candidate) (c : Candidate) (cs : List Candidate) :
    mergeAll net rs (c :: cs) =
      mergeAll net (if rs.any (sameRemote net c) then rs else rs ++ [c]) cs := rfl

theorem any_mergeAll (cs : List Candidate) (h : rs.any (sameRemote net c) = true) :
    (mergeAll net rs cs).any (sameRemote net c) = true := by
  induction cs generalizing rs with
  | nil => exact h
  | cons d cs ih =>
    rw [mergeAll_cons]
    split_ifs
    · exact ih h
    · exact ih (by rw [any_append, h, Bool.true_or])

theorem known_mergeAll (rs : List Candidate) (h : c ∈ cs) :
    (mergeAll net rs cs).any (sameRemote net c) = true := by
  induction cs generalizing rs with
  | nil => cases h
  | cons d cs ih =>
    rw [mergeAll_cons]
    rcases mem_cons.mp h with rfl | h
    · refine any_mergeAll cs ?_
      split_ifs with hc
      · exact hc
      · simp [sameRemote_self]
    · exact ih _ h

theorem mergeAll_of_known (h : ∀ c ∈ cs, rs.any (sameRemote net c) = true) :
    mergeAll net rs cs = rs := by
  induction cs with
  | nil => rfl
  | cons c cs ih =>
    rw [mergeAll_cons, if_pos (h c (by simp))]
    exact ih fun d hd => h d (by simp [hd])

private theorem any_withFoundation :
    (rs.map (·.withFoundation net)).any (sameRemote net c) = rs.any (sameRemote net c) := by
  rw [any_map]
  congr 1
  funext e
  simp [sameRemote]

theorem mergeAll_again :
    mergeAll net (mergeAll net rs cs) cs = mergeAll net rs cs ∧
      mergeAll net ((mergeAll net rs cs).map (·.withFoundation net)) cs =
        (mergeAll net rs cs).map (·.withFoundation net) := by
  refine ⟨mergeAll_of_known fun c hc => known_mergeAll rs hc, mergeAll_of_known fun c hc => ?_⟩
  rw [any_withFoundation]
  exact known_mergeAll rs hc

variable (net) in
theorem mergeAll_ne_nil (h : cs ≠ [] ∨ rs ≠ []) : mergeAll net rs cs ≠ [] := by
  have hany : ∃ c, (mergeAll net rs cs).any (sameRemote net c) = true := by
    rcases h with h | h
    · obtain ⟨c, hc⟩ := exists_mem_of_ne_nil cs h
      exact ⟨c, known_mergeAll rs hc⟩
    · obtain ⟨c, hc⟩ := exists_mem_of_ne_nil rs h
      exact ⟨c, any_mergeAll cs (any_eq_true.mpr ⟨c, hc, sameRemote_self c⟩)⟩
  intro hnil
  simp [hnil] at hany

theorem mergeRemote_core :
    (s.mergeRemote env c).core = { s.core with
      remoteCandidates := mergeAll env.net s.remoteCandidates [c] } := by
  have hpush (u : Session) (hu : u.core = s.core) :
      ({ u with remoteCandidates := u.remoteCandidates ++ [c] } : Session).core =
        { s.core with remoteCandidates := s.remoteCandidates ++ [c] } := by
    have hr : u.remoteCandidates = s.remoteCandidates := congrArg Core.remoteCandidates hu
    rw [hr, ← hu]
    rfl
  rw [mergeAll_cons]
  unfold mergeRemote
  by_cases h : s.remoteCandidates.any (sameRemote env.net c) = true
  · rw [if_pos h, if_pos h]
    rfl
  · rw [if_neg h, if_neg h]
    refine hpush _ ?_
    split_ifs
    exacts [(turnCreatePermission_quiet env s _).core, rfl]

theorem foldl_mergeRemote_core :
    (cs.foldl (mergeRemote env) s).core = { s.core with
      remoteCandidates := mergeAll env.net s.remoteCandidates cs } := by
  induction cs generalizing s with
  | nil => rfl
  | cons c cs ih =>
    have hr : (s.mergeRemote env c).remoteCandidates = _ :=
      congrArg Core.remoteCandidates mergeRemote_core
    rw [foldl_cons, ih, mergeRemote_core, hr]
    rfl

/-! ### A batch under the current credentials -/

def trickle (env : Env) (pwd : Bytes) (cands : List Candidate) (eoc : Bool) (s : Session) :
    Session :=
  s.addRemoteCandidates env s.remoteUfrag pwd cands eoc

def picksAtEnd (eoc : Bool) (s : Session) : Prop :=
  eoc = true ∧ s.endOfCandidatesPicks ∧ (CheckPair.bestValid s.checkList).isSome = true

/-- Everything up to the merge, in a session that keeps the peer's ufrag. -/
def endCandidates (env : Env) (pwd : Bytes) (eoc : Bool) (s : Session) : Session :=
  if eoc then ({ s with remotePwd := pwd } : Session).onEndOfCandidates env
  else { s with remotePwd := pwd }

theorem afterMerge_sameUfrag : s.afterMerge env s.remoteUfrag pwd cands eoc =
      cands.foldl (mergeRemote env) (s.endCandidates env pwd eoc) := by
  have hadopt : s.adoptRemoteCredentials s.remoteUfrag pwd = { s with remotePwd := pwd } := by
    unfold adoptRemoteCredentials
    dsimp only
    rw [if_neg fun h => h.2 rfl]
  rw [afterMerge, hadopt]
  rfl

variable (env pwd) in
private theorem endCandidates_idle (h : ¬ s.picksAtEnd eoc) :
    (s.endCandidates env pwd eoc).core = { s.core with
      remotePwd := pwd
      remoteEndOfCandidates := eoc || s.remoteEndOfCandidates } := by
  unfold endCandidates
  cases eoc with
  | false => rfl
  | true =>
    have hidle : ({ s with remotePwd := pwd } : Session).onEndOfCandidates env =
        ({ s with remotePwd := pwd } : Session).noteEndOfCandidates := by
      unfold onEndOfCandidates
      dsimp only
      split_ifs with hp
      · simp only [noteEndOfCandidates, Bool.and_eq_true, Bool.not_eq_true'] at hp
        have hnone : CheckPair.bestValid s.checkList = none := by
          by_contra hb
          exact h ⟨rfl, ⟨hp.1.1, hp.1.2, hp.2⟩, Option.isSome_iff_ne_none.mpr hb⟩
        unfold pickNominee
        rw [show ({ s with remotePwd := pwd } : Session).noteEndOfCandidates.checkList =
          s.checkList from rfl, hnone]
      · rfl
    rw [if_pos rfl, hidle]
    rfl

variable (env pwd cands) in
/-- What a batch leaves of the core when it does not make the session commit. -/
theorem afterMerge_core (h : ¬ s.picksAtEnd eoc) :
    (s.afterMerge env s.remoteUfrag pwd cands eoc).core = { s.core with
      remotePwd := pwd
      remoteEndOfCandidates := eoc || s.remoteEndOfCandidates
      remoteCandidates := mergeAll env.net s.remoteCandidates cands } := by
  have hend := endCandidates_idle env pwd h
  have hr : (s.endCandidates env pwd eoc).remoteCandidates = s.remoteCandidates :=
    congrArg Core.remoteCandidates hend
  rw [afterMerge_sameUfrag, foldl_mergeRemote_core, hr, hend]

def hasRemotes (cands : List Candidate) (s : Session) : Prop :=
  cands ≠ [] ∨ s.remoteCandidates ≠ []

theorem afterMerge_remotes (h : s.hasRemotes cands) :
    (s.afterMerge env s.remoteUfrag pwd cands eoc).remoteCandidates ≠ [] :=
  (afterMerge_frame env s.remoteUfrag pwd cands eoc s).2.2.mpr
    (h.imp_right fun hr => ⟨fun hc => hc.2 rfl, hr⟩)

theorem trickle_rebuilds (hs : s.state = .checking) (h : s.hasRemotes cands) :
    s.trickle env pwd cands eoc =
      ((s.afterMerge env s.remoteUfrag pwd cands eoc).recheck env).resolveRemoteMdnsCandidates := by
  have hstate := (afterMerge_frame env s.remoteUfrag pwd cands eoc s).1.trans hs
  change (s.afterMerge env s.remoteUfrag pwd cands eoc).onRemoteCandidates env = _
  rw [onRemoteCandidates, if_neg (afterMerge_remotes h), if_neg (by simp [hstate]), if_pos hstate]

theorem trickle_stops (h : ¬ s.hasRemotes cands) :
    s.trickle env pwd cands eoc = s.afterMerge env s.remoteUfrag pwd cands eoc := by
  have hempty : (s.afterMerge env s.remoteUfrag pwd cands eoc).remoteCandidates = [] := by
    by_contra hr
    refine h (((afterMerge_frame env s.remoteUfrag pwd cands eoc s).2.2.mp hr).imp_right ?_)
    exact fun hr => hr.2
  change (s.afterMerge env s.remoteUfrag pwd cands eoc).onRemoteCandidates env = _
  rw [onRemoteCandidates, if_pos hempty]

theorem trickle_failed (hs : s.state = .failed) (h : s.hasRemotes cands) :
    s.trickle env pwd cands eoc =
      (s.afterMerge env s.remoteUfrag pwd cands eoc).resolveRemoteMdnsCandidates := by
  have hstate := (afterMerge_frame env s.remoteUfrag pwd cands eoc s).1.trans hs
  change (s.afterMerge env s.remoteUfrag pwd cands eoc).onRemoteCandidates env = _
  rw [onRemoteCandidates, if_neg (afterMerge_remotes h), if_neg (by simp [hstate]),
    if_neg (by simp [hstate])]

theorem resolveRemoteMdnsCandidates_core (s : Session) :
    s.resolveRemoteMdnsCandidates.core = s.core := by
  rw [resolveRemoteMdnsCandidates_eq]
  rfl

theorem trickle_steps (env : Env) (pwd : Bytes) (cands : List Candidate) (eoc : Bool)
    (s : Session) : Steps env Set.univ s (s.trickle env pwd cands eoc) :=
  addRemoteCandidates_steps _ pwd cands eoc trivial trivial (fun _ _ => trivial) (fun _ => trivial)
    (fun _ _ _ => trivial) fun _ => Set.subset_univ _

/-! ### The list after a rebuild -/

private theorem recheck_ids (hq : q ∈ (s.recheck env).checkList) :
    ∃ k, s.draws ≤ k ∧ k < (s.recheck env).draws ∧ q.txnId = env.txnId k := by
  obtain ⟨n, hn, hperm⟩ := buildCheckList_ids env s
  obtain ⟨p, hp, hpq⟩ := exists_left_of_mem (runNextCheck_evolves env _) hq
  have hp : p ∈ (s.buildCheckList env).checkList := hp
  obtain ⟨k, hk, hid⟩ := mem_map.mp (hperm.mem_iff.mp (mem_map_of_mem hp))
  have hrange := mem_range'_1.mp hk
  have hrun : Steps env Set.univ ({ s.buildCheckList env with currentCheck := 0 } : Session)
      (s.recheck env) := runNextCheck_steps (fun _ _ => trivial) fun _ _ => trivial
  have hdraws : (s.buildCheckList env).draws ≤ (s.recheck env).draws := steps_draws hrun
  exact ⟨k, hrange.1, by omega, hpq.txnId.trans hid.symm⟩

theorem trickle_fresh (hs : s.state = .checking) (hr : s.hasRemotes cands) (hd : DrawnIds env s)
    (hi : IdsDistinct env (s.trickle env pwd cands eoc)) (hp : p ∈ s.checkList)
    (hq : q ∈ (s.trickle env pwd cands eoc).checkList) : q.txnId ≠ p.txnId := by
  have hmerge : s.draws ≤ (s.afterMerge env s.remoteUfrag pwd cands eoc).draws :=
    steps_draws (A := Set.univ) (afterMerge_steps (fun _ _ => trivial)
      (fun _ => trivial) fun _ _ _ => trivial)
  have hdraws : (s.trickle env pwd cands eoc).draws =
      ((s.afterMerge env s.remoteUfrag pwd cands eoc).recheck env).draws := by
    rw [trickle_rebuilds hs hr, resolveRemoteMdnsCandidates_eq]
  have hlist : (s.trickle env pwd cands eoc).checkList =
      ((s.afterMerge env s.remoteUfrag pwd cands eoc).recheck env).checkList := by
    rw [trickle_rebuilds hs hr]
    exact congrArg Core.checkList (resolveRemoteMdnsCandidates_core _)
  rw [hlist] at hq
  obtain ⟨k, hk, hlt, hid⟩ := recheck_ids hq
  obtain ⟨ks, hks, -, hold⟩ := hd
  have hmem : p.txnId ∈ ks.map env.txnId := hks ▸ mem_map_of_mem hp
  obtain ⟨j, hj, hjp⟩ := mem_map.mp hmem
  have hjlt := hold j hj
  intro heq
  have hkj : k = j := by
    apply hi
    · exact Set.mem_Iic.mpr (by omega)
    · exact Set.mem_Iic.mpr (by omega)
    · rw [← hid, heq, hjp]
  omega

theorem recheck_core (env : Env) (s : Session) : (s.recheck env).core = { s.core with
    localCandidates := s.localCandidates.map (·.withFoundation env.net)
    remoteCandidates := s.remoteCandidates.map (·.withFoundation env.net)
    state := (s.recheck env).state
    checkList := (s.recheck env).checkList
    nominationWaitArmed := (s.recheck env).nominationWaitArmed } := by
  obtain ⟨mu, draws, ps, hb⟩ := buildCheckList_eq
  have hrun := runNextCheck_core env { s.buildCheckList env with currentCheck := 0 }
  rw [recheck, hrun, hb]
  rfl

theorem recheck_invalid (env : Env) (s : Session)
    (hp : p ∈ (s.recheck env).checkList) : p.valid = false := by
  obtain ⟨q, hq, he⟩ := exists_left_of_mem (runNextCheck_evolves env _) hp
  exact he.valid.trans (buildCheckList_fresh env s hq).1.valid

/-- New pairs keep the checks going. -/
theorem recheck_checking (hs : s.state = .checking) (hp : p ∈ (s.recheck env).checkList) :
    (s.recheck env).state = .checking := by
  obtain ⟨q, hq, -⟩ := exists_left_of_mem (runNextCheck_evolves env _) hp
  have hgoes : carriesOn env { s.buildCheckList env with currentCheck := 0 } = true :=
    Bool.or_eq_true_iff.mpr (.inl (underway_rebuilt env s hq))
  have hb : ({ s.buildCheckList env with currentCheck := 0 } : Session).state = .checking :=
    (congrArg Core.state (buildCheckList_core env s)).trans hs
  rw [recheck, runNextCheck_state hb, if_pos hgoes]

theorem recheck_eq_nil_iff : (s.recheck env).checkList = [] ↔ s.Pairless := by
  have hlen := (runNextCheck_evolves env
    ({ s.buildCheckList env with currentCheck := 0 } : Session)).length_eq
  rw [← buildCheckList_eq_nil_iff env s, ← length_eq_zero_iff, recheck, ← hlen, length_eq_zero_iff]

/-! ### What stays -/

/-- The pairs and the progress of their checks outlast the batch, and a second delivery of it
changes nothing. -/
structure Undisturbed (env : Env) (pwd : Bytes) (cands : List Candidate) (eoc : Bool)
    (s : Session) : Prop where
  pairs : ∀ p ∈ s.checkList, ∃ q ∈ (s.trickle env pwd cands eoc).checkList, p.Kept q
  remotesAgain : ((s.trickle env pwd cands eoc).trickle env pwd cands eoc).remoteCandidates =
    (s.trickle env pwd cands eoc).remoteCandidates
  pairsAgain : ((s.trickle env pwd cands eoc).trickle env pwd cands eoc).checkList =
    (s.trickle env pwd cands eoc).checkList

/-- No remote candidate is known and no pair is picked, or there is no pair before and none to form
afterwards. -/
def MergesQuietly (env : Env) (cands : List Candidate) (eoc : Bool) (s : Session) : Prop :=
  (¬ s.hasRemotes cands ∧ ¬ s.picksAtEnd eoc) ∨
    (s.hasRemotes cands ∧ s.checkList = [] ∧
      ∀ l ∈ s.localCandidates, ∀ r ∈ mergeAll env.net s.remoteCandidates cands,
        CheckPair.admissible l r = false)

variable (eoc) in
theorem not_picksAtEnd (h : ∀ p ∈ s.checkList, p.valid = false) : ¬ s.picksAtEnd eoc := by
  rintro ⟨-, -, hsome⟩
  obtain ⟨i, hi⟩ := Option.isSome_iff_exists.mp hsome
  obtain ⟨p, hp, hv⟩ := CheckPair.valid_of_bestValid hi
  rw [h p (mem_of_getElem? hp)] at hv
  cases hv

theorem undisturbed_without_remotes (hr : ¬ s.hasRemotes cands) (hp : ¬ s.picksAtEnd eoc) :
    s.Undisturbed env pwd cands eoc := by
  obtain ⟨hc, hs⟩ : cands = [] ∧ s.remoteCandidates = [] := by
    simpa [hasRemotes, not_or] using hr
  have hcore := afterMerge_core env cands pwd hp
  rw [← trickle_stops hr, hc, hs] at hcore
  rw [hc] at hr
  subst hc
  have hremote : (s.trickle env pwd [] eoc).remoteCandidates = [] :=
    congrArg Core.remoteCandidates hcore
  have hlist : (s.trickle env pwd [] eoc).checkList = s.checkList := congrArg Core.checkList hcore
  have hstop : ¬ (s.trickle env pwd [] eoc).hasRemotes [] := by simp [hasRemotes, hremote]
  have hidle : ¬ (s.trickle env pwd [] eoc).picksAtEnd eoc := by
    rintro ⟨he, ⟨h₁, h₂, h₃⟩, hb⟩
    refine hp ⟨he, ⟨?_, ?_, ?_⟩, hlist ▸ hb⟩
    · exact (congrArg Core.controlling hcore).symm.trans h₁
    · exact (congrArg (·.cfg.aggressiveNomination) hcore).symm.trans h₂
    · exact (congrArg Core.nomineeSelected hcore).symm.trans h₃
  have hagain := afterMerge_core env [] pwd hidle
  rw [← trickle_stops hstop] at hagain
  refine ⟨fun p hp => ⟨p, hlist ▸ hp, .refl p⟩, ?_, congrArg Core.checkList hagain⟩
  exact congrArg Core.remoteCandidates hagain

variable (env pwd) in
/-- The state and the candidates after a rebuild. -/
theorem trickle_rebuilt (hs : s.state = .checking) (hr : s.hasRemotes cands)
    (hidle : ¬ s.picksAtEnd eoc) :
    (s.trickle env pwd cands eoc).localCandidates =
        s.localCandidates.map (·.withFoundation env.net) ∧
      (s.trickle env pwd cands eoc).remoteCandidates =
        (mergeAll env.net s.remoteCandidates cands).map (·.withFoundation env.net) ∧
      ((s.trickle env pwd cands eoc).checkList = [] ↔
        ∀ l ∈ s.localCandidates, ∀ r ∈ mergeAll env.net s.remoteCandidates cands,
          CheckPair.admissible l r = false) ∧
      ¬ (s.trickle env pwd cands eoc).picksAtEnd eoc ∧
      ((s.trickle env pwd cands eoc).state = .checking ∨
        (s.trickle env pwd cands eoc).state = .failed ∧
          (s.trickle env pwd cands eoc).checkList = []) := by
  have hmerge := afterMerge_core env cands pwd hidle
  rw [trickle_rebuilds hs hr]
  generalize s.afterMerge env s.remoteUfrag pwd cands eoc = u at hmerge
  have hres := resolveRemoteMdnsCandidates_core (u.recheck env)
  have hlist : (u.recheck env).resolveRemoteMdnsCandidates.checkList =
      (u.recheck env).checkList := congrArg Core.checkList hres
  have hloc : u.localCandidates = s.localCandidates := congrArg Core.localCandidates hmerge
  have hrem : u.remoteCandidates = mergeAll env.net s.remoteCandidates cands :=
    congrArg Core.remoteCandidates hmerge
  have hst : u.state = .checking := (congrArg Core.state hmerge).trans hs
  rw [← hloc, ← hrem]
  refine ⟨?_, ?_, ?_, not_picksAtEnd _ fun p hp => ?_, ?_⟩
  · exact (congrArg Core.localCandidates hres).trans
      (congrArg Core.localCandidates (recheck_core env u))
  · exact (congrArg Core.remoteCandidates hres).trans
      (congrArg Core.remoteCandidates (recheck_core env u))
  · rw [hlist]
    exact recheck_eq_nil_iff
  · rw [hlist] at hp
    exact recheck_invalid env u hp
  · rw [hlist, show (u.recheck env).resolveRemoteMdnsCandidates.state = (u.recheck env).state from
      congrArg Core.state hres]
    by_cases hne : (u.recheck env).checkList = []
    · exact (recheck_state env hst).imp_right fun h => ⟨h, hne⟩
    · obtain ⟨p, hp⟩ := exists_mem_of_ne_nil _ hne
      exact .inl (recheck_checking hst hp)

theorem hasRemotes_again (hrem : t.remoteCandidates =
    (mergeAll env.net s.remoteCandidates cands).map (·.withFoundation env.net))
    (hr : s.hasRemotes cands) : t.hasRemotes cands := by
  right
  rw [hrem]
  simpa using mergeAll_ne_nil env.net hr

theorem undisturbed_from_nil (hs : s.state = .checking) (hr : s.hasRemotes cands)
    (hnil : s.checkList = [])
    (hnone : ∀ l ∈ s.localCandidates, ∀ r ∈ mergeAll env.net s.remoteCandidates cands,
      CheckPair.admissible l r = false) :
    s.Undisturbed env pwd cands eoc := by
  obtain ⟨hloc, hrem, hempty, hidle, hstate⟩ := trickle_rebuilt env pwd hs hr
    (not_picksAtEnd eoc (s := s) (by simp [hnil]))
  have hfull := hasRemotes_again hrem hr
  -- the second delivery adds nothing
  have hsame : mergeAll env.net (s.trickle env pwd cands eoc).remoteCandidates cands =
      (s.trickle env pwd cands eoc).remoteCandidates := by
    rw [hrem]
    exact (mergeAll_again).2
  rcases hstate with hc | ⟨hf, -⟩
  · obtain ⟨-, hrem₂, hempty₂, -, -⟩ := trickle_rebuilt env pwd hc hfull hidle
    rw [hsame] at hrem₂ hempty₂
    refine ⟨by simp [hnil], ?_, ?_⟩
    · rw [hrem₂, hrem, map_map]
      simp
    · rw [hempty.mpr hnone]
      refine hempty₂.mpr ?_
      rw [hloc, hrem]
      simpa [forall_mem_map] using hnone
  · have hmerge := afterMerge_core env cands pwd hidle
    rw [hsame] at hmerge
    have hcore := resolveRemoteMdnsCandidates_core
      (afterMerge env (s.trickle env pwd cands eoc).remoteUfrag pwd cands eoc
        (s.trickle env pwd cands eoc))
    rw [← trickle_failed hf hfull, hmerge] at hcore
    exact ⟨by simp [hnil], congrArg Core.remoteCandidates hcore, congrArg Core.checkList hcore⟩

/-! ### What goes -/

variable (env) in
theorem pickNominee_flags {i : ℕ} (hi : CheckPair.bestValid s.checkList = some i)
    (hp : s.checkList[i]? = some p) :
    ∃ q ∈ (s.pickNominee env).checkList, q.txnId = p.txnId ∧ q.nomineeCheckSent = true := by
  unfold pickNominee
  rw [hi]
  dsimp only
  have hflag : { p with nomineeCheckSent := true } ∈ (({ s with nomineeSelected := true } :
      Session).modifyPair i fun p => { p with nomineeCheckSent := true }).checkList := by
    refine mem_of_getElem? (i := i) ?_
    change (s.checkList.modify i fun p => { p with nomineeCheckSent := true })[i]? = _
    rw [List.getElem?_modify_eq, hp]
    rfl
  obtain ⟨q, hq, he⟩ := exists_right_of_mem (sendCheck_scheduled env _ i).checkList hflag
  exact ⟨q, hq, he.txnId, he.nomineeCheckSent⟩

def FlagsSelected (s : Session) : Prop :=
  s.nomineeSelected = false → ∀ p ∈ s.checkList, p.nomineeCheckSent = false

private theorem not_undisturbed_of_pick (hr : ¬ s.hasRemotes cands) (hp : s.picksAtEnd eoc)
    (hf : s.FlagsSelected) (hd : DrawnIds env s)
    (hi : IdsDistinct env (s.trickle env pwd cands eoc)) : ¬ s.Undisturbed env pwd cands eoc := by
  intro h
  have hdrawn := steps_drawnIds (trickle_steps env pwd cands eoc s) hd
  obtain ⟨rfl, ⟨hc, ha, hn⟩, hsome⟩ := hp
  obtain ⟨i, hbest⟩ := Option.isSome_iff_exists.mp hsome
  obtain ⟨p, hpi, -⟩ := CheckPair.valid_of_bestValid hbest
  obtain ⟨q, hq, hkept⟩ := h.pairs p (mem_of_getElem? hpi)
  have hlist : (s.trickle env pwd cands true).checkList =
      (({ s with remotePwd := pwd } : Session).noteEndOfCandidates.pickNominee env).checkList := by
    rw [trickle_stops hr, afterMerge_sameUfrag]
    refine (congrArg Core.checkList foldl_mergeRemote_core).trans ?_
    change (endCandidates env pwd true s).checkList = _
    unfold endCandidates onEndOfCandidates
    dsimp only
    rw [if_pos rfl, if_pos (by simp [noteEndOfCandidates, hc, ha, hn])]
  obtain ⟨r, hr', hid, hflag⟩ := pickNominee_flags env
    (s := ({ s with remotePwd := pwd } : Session).noteEndOfCandidates) hbest hpi
  rw [← hlist] at hr'
  have hqr : q = r := hdrawn.pair_unique hi hq hr' (hkept.txnId.trans hid.symm)
  rw [← hqr, hkept.nomineeCheckSent, hf hn p (mem_of_getElem? hpi)] at hflag
  cases hflag

theorem mergesQuietly_of_undisturbed (hs : s.state = .checking) (hd : DrawnIds env s)
    (hf : s.FlagsSelected)
    (hi : IdsDistinct env ((s.trickle env pwd cands eoc).trickle env pwd cands eoc))
    (h : s.Undisturbed env pwd cands eoc) : s.MergesQuietly env cands eoc := by
  have hi₁ : IdsDistinct env (s.trickle env pwd cands eoc) :=
    hi.of_le (steps_draws (trickle_steps env pwd cands eoc _))
  by_cases hr : s.hasRemotes cands
  · have hnil : s.checkList = [] := by
      refine eq_nil_iff_forall_not_mem.mpr fun p hp => ?_
      obtain ⟨q, hq, hkept⟩ := h.pairs p hp
      exact trickle_fresh hs hr hd hi₁ hp hq hkept.txnId
    refine .inr ⟨hr, hnil, ?_⟩
    obtain ⟨-, hrem, hempty, -, hc | ⟨-, hnone⟩⟩ := trickle_rebuilt env pwd hs hr
      (not_picksAtEnd eoc (s := s) (by simp [hnil]))
    · refine hempty.mp (eq_nil_iff_forall_not_mem.mpr fun q hq => ?_)
      have hfull := hasRemotes_again hrem hr
      have hdrawn := steps_drawnIds (trickle_steps env pwd cands eoc s) hd
      have hq' := hq
      rw [← h.pairsAgain] at hq'
      exact trickle_fresh hc hfull hdrawn hi hq hq' rfl
    · exact hempty.mp hnone
  · exact .inl ⟨hr, fun hp => not_undisturbed_of_pick hr hp hf hd hi₁ h⟩

theorem FlagsSelected.act {l : Option Label} (h : s.FlagsSelected) (hact : Act env s l t) :
    t.FlagsSelected := by
  intro hn p hp
  have hkeep (hl : ∀ a ∈ l, a.isPick = false) (hsel : t.nomineeSelected = s.nomineeSelected) :
      p.nomineeCheckSent = false := by
    by_contra hf
    have ht : p.txnId ∈ t.flagged := mem_flagged.mpr ⟨p, hp, Bool.eq_true_of_not_eq_false hf, rfl⟩
    obtain ⟨q, hq, hqf, -⟩ := mem_flagged.mp (act_flagged hact hl ht)
    rw [h (hsel.symm.trans hn) q hq] at hqf
    cases hqf
  have hreset (u : Session) (ht : t = u.reset env) : p.nomineeCheckSent = false := by
    obtain ⟨n, -, hc⟩ := reset_core env u
    have hempty : t.checkList = [] := ht ▸ congrArg Core.checkList hc
    rw [hempty] at hp
    cases hp
  cases hact with
  | quiet hk | work hk | release hk | deliver hk | turnInput hk =>
    exact hkeep (by simp [Label.isPick]) (congrArg Core.nomineeSelected hk.core)
  | rebuild =>
    exact hkeep (by simp [Label.isPick]) (congrArg Core.nomineeSelected (buildCheckList_core env s))
  | check i | liteCheck i =>
    exact hkeep (by simp [Label.isPick])
      (congrArg Core.nomineeSelected (sendCheck_scheduled env s i).core)
  | pick _ _ _ hv =>
    obtain ⟨i, hi⟩ := Option.isSome_iff_exists.mp hv
    have hsel : (s.pickNominee env).nomineeSelected = true := by
      unfold pickNominee
      rw [hi]
      exact congrArg Core.nomineeSelected (sendCheck_scheduled env _ i).core
    rw [hsel] at hn
    cases hn
  | respond | reject =>
    exact hkeep (by simp [Label.isPick]) (congrArg Core.nomineeSelected (reply_core _ _ _ _ s))
  | restart => exact hreset s rfl
  | autoRestart now => exact hreset _ rfl
  | _ => exact hkeep (by simp [Label.isPick]) rfl

/-- In a checking session a further batch leaves the checks alone, and can be delivered twice,
only if there is nothing to check. -/
theorem trickle_undisturbed_iff (H : Hmac) (env : Env) (cfg : IceConfig) (w : Wiring)
    (controlling : Bool) (tiebreaker : ℕ) (es : List Event) (pwd : Bytes) (cands : List Candidate)
    (eoc : Bool) (hs : ((create env cfg w controlling tiebreaker).run H env es).state = .checking)
    (hi : IdsDistinct env ((((create env cfg w controlling tiebreaker).run H env es).trickle env pwd
      cands eoc).trickle env pwd cands eoc)) :
    ((create env cfg w controlling tiebreaker).run H env es).Undisturbed env pwd cands eoc ↔
      ((create env cfg w controlling tiebreaker).run H env es).MergesQuietly env cands eoc := by
  have hdrawn := run_invariant (H := H) (I := DrawnIds env)
    (fun u e hu => step_drawnIds hu) (.nil (t := create env cfg w controlling tiebreaker) rfl)
    es
  have hflags := run_invariant (I := FlagsSelected)
    (fun u e hu => (step_steps H env u e).invariant (I := FlagsSelected)
      (fun _ hact hv => hv.act hact) hu)
    (s := create env cfg w controlling tiebreaker) (fun _ p hp => absurd hp not_mem_nil) es
  generalize (create env cfg w controlling tiebreaker).run H env es = s at hs hi hdrawn hflags
  constructor
  · exact mergesQuietly_of_undisturbed hs hdrawn hflags hi
  · rintro (⟨hr, hp⟩ | ⟨hr, hnil, h⟩)
    · exact undisturbed_without_remotes hr hp
    · exact undisturbed_from_nil hs hr hnil h

/-! ### Two sessions on the network of `Env.lan` -/

/-- The peer has restarted and checks us before it names a candidate. -/
def peerRestarting : List Input :=
  [.event .gather, .event (.addRemoteCandidates [1] [2] [peerHost] false),
    .event (.addRemoteCandidates [3] [4] [] false),
    .stun 6 (peerRequest (be32 0) (Env.lan.txnId 99) false false 9)]

/-- The end of candidates leaves the triggered check alone. -/
theorem peerRestarting_undisturbed :
    let s := (create .lan {} {} true 7).run zeroHmac .lan (peerRestarting.map (·.toEvent zeroHmac))
    (∃ p ∈ s.checkList, p.rem.type = .prflx ∧ p.state = .inProgress) ∧ s.state = .checking ∧
      s.Undisturbed .lan [4] [] true := by
  have hplay : ((create .lan {} {} true 7).play .lan peerRestarting).any (fun s =>
      s.state = .checking && (s.remoteCandidates = [] &&
        ((s.checkList.any fun p => p.rem.type = .prflx && p.state = .inProgress) &&
          (s.checkList.all (!·.valid) &&
            ((s.trickle .lan [4] [] true).trickle .lan [4] [] true).draws ≤ 20)))) = true := by
    decide +kernel
  have hrun := run_of_play_any hplay zeroHmac
  have hiff := trickle_undisturbed_iff zeroHmac .lan {} {} true 7
    (peerRestarting.map (·.toEvent zeroHmac)) [4] [] true
  dsimp only
  generalize (create .lan {} {} true 7).run zeroHmac .lan
    (peerRestarting.map (·.toEvent zeroHmac)) = s at hrun hiff ⊢
  simp only [Bool.and_eq_true, decide_eq_true_eq, any_eq_true, all_eq_true,
    Bool.not_eq_true'] at hrun
  obtain ⟨hs, hr, hp, hv, hd⟩ := hrun
  refine ⟨hp, hs, (hiff hs (Peers.lan_idsDistinct hd)).mpr (.inl ⟨?_, not_picksAtEnd _ hv⟩)⟩
  simp [hasRemotes, hr]

def checkingOne : Session :=
  (create .lan {} {} true 7).run zeroHmac .lan
    [.gather, .addRemoteCandidates [1] [2] [peerHost] false]

/-- The batch that started the check arrives again and starts it over. -/
theorem repeated_batch_disturbs :
    checkingOne.state = .checking ∧ checkingOne.remoteUfrag = [1] ∧
      ¬ checkingOne.Undisturbed .lan [2] [peerHost] false := by
  refine ⟨by decide +kernel, by decide +kernel, fun h => ?_⟩
  have hlost : ¬ ∀ p ∈ checkingOne.checkList,
      ∃ q ∈ (checkingOne.trickle .lan [2] [peerHost] false).checkList, p.Kept q := by decide +kernel
  exact hlost h.pairs

end Session

end LinkIce
