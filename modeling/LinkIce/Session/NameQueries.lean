import LinkIce.Session.UnresolvedNames

/-! The chance of an mDNS candidate: its name has to be queried, and the checks must not be
given up before the answer. -/
namespace LinkIce
open Stun List

def Candidate.awaitsName (c : Candidate) : Bool :=
  decide (c.type = .hostMdns ∧ c.hostname ≠ [] ∧ Mdns.isMdnsLocalName c.hostname = true)

theorem Candidate.awaitsName_withFoundation (c : Candidate) (net : Inet) :
    (c.withFoundation net).awaitsName = c.awaitsName := by
  unfold withFoundation
  split_ifs
  · rfl
  · simp only [awaitsName]

def Label.signals : Label → Bool
  | .merge _ | .restate _ _ => true
  | _ => false

def Event.signals : Event → Bool
  | .addRemoteCandidates .. | .setRemote .. | .mdnsResolved .. => true
  | _ => false

def Effect.endsChecks : Effect → Bool
  | failedBy .checksExhausted .. | failedBy .nominationWait .. => true
  | _ => false

namespace Session

variable {H : Hmac} {env : Env} {A : Set Label} {s t : Session} {i : ℕ} {e : Event}

def noName (cs : List Candidate) : Prop := ∀ c ∈ cs, c.awaitsName = false

instance (cs : List Candidate) : Decidable (noName cs) :=
  inferInstanceAs (Decidable (∀ c ∈ cs, c.awaitsName = false))

/-- The remote candidates that the event leaves, before anything is done about them. -/
def remotesAt (env : Env) (s : Session) : Event → List Candidate
  | .addRemoteCandidates ufrag pwd cands eoc =>
    (s.afterMerge env ufrag pwd cands eoc).remoteCandidates
  | .setRemote _ _ cands => cands
  | .mdnsResolved idx hostname r =>
    if .mdnsResolve idx hostname ∈ s.queue then
      ((s.awaitingSlot idx hostname).map fun slot =>
        s.resolvedRemotes env idx slot r).getD s.remoteCandidates
    else s.remoteCandidates
  | _ => s.remoteCandidates

/-- What one step owes to the names: those of a batch are all queried, and no step that ends
the checks leaves one behind. -/
structure NamesHaveChance (H : Hmac) (env : Env) (s : Session) (e : Event) : Prop where
  queried : s.state ≠ .failed → ∀ ufrag pwd cands eoc,
    e = .addRemoteCandidates ufrag pwd cands eoc →
    ∀ i c, (s.step H env e).remoteCandidates[i]? = some c → c.awaitsName = true →
      .mdnsResolve i c.hostname ∈ (s.step H env e).queue
  patient : noName (s.step H env e).remoteCandidates ∨
    Logs (·.endsChecks = false) s (s.step H env e)

/-- A batch with names arrives when the session has its resolver and is past its first batch,
and no step that may give up the checks has names in front of it. -/
structure NamesCanWait (H : Hmac) (env : Env) (s : Session) (e : Event) : Prop where
  asked : ∀ ufrag pwd cands eoc, e = .addRemoteCandidates ufrag pwd cands eoc →
    noName (s.remotesAt env e) ∨
      (s.hasMdns = true ∧ s.state ≠ .waitingRemote ∧ s.state ≠ .gathering)
  pending : noName (s.remotesAt env e) ∨
    ((∀ u, .exhaust u ∉ s.allowed H env e) ∧ ∀ premature, .expire premature ∉ s.allowed H env e)

/-! ### Queries -/

private theorem mem_nameQueries {cs : List Candidate} {c : Candidate} (h : cs[i]? = some c)
    (hc : c.awaitsName = true) : .mdnsResolve i c.hostname ∈ nameQueries cs := by
  refine mem_reverse.mpr (mem_map.mpr ⟨(c, i), mem_filter.mpr ⟨?_, hc⟩, rfl⟩)
  exact mem_zipIdx_iff_getElem?.mpr h

private theorem resolve_queried (h : s.hasMdns = true) {c : Candidate}
    (hi : s.resolveRemoteMdnsCandidates.remoteCandidates[i]? = some c)
    (hc : c.awaitsName = true) :
    .mdnsResolve i c.hostname ∈ s.resolveRemoteMdnsCandidates.queue := by
  rw [resolveRemoteMdnsCandidates_eq] at hi ⊢
  rw [if_pos h]
  exact mem_append_left _ (mem_nameQueries hi hc)

theorem onRemoteCandidates_queried (h : s.hasMdns = true) (hw : s.state ≠ .waitingRemote)
    (hg : s.state ≠ .gathering) {c : Candidate}
    (hi : (s.onRemoteCandidates env).remoteCandidates[i]? = some c)
    (hc : c.awaitsName = true) :
    .mdnsResolve i c.hostname ∈ (s.onRemoteCandidates env).queue := by
  unfold onRemoteCandidates at hi ⊢
  split_ifs at hi ⊢ with hn hfirst hrecheck
  · simp [hn] at hi
  · exact absurd hfirst (by simp [hw, hg])
  · exact absurd hfirst (by simp [hw, hg])
  · have hsteps : Steps env Set.univ s (s.recheck env) := recheck_steps (Set.subset_univ _)
    exact resolve_queried ((steps_hasMdns hsteps).trans h) hi hc
  · exact resolve_queried h hi hc

/-! ### The names after a step -/

theorem steps_noName (h : Steps env A s t) (hA : ∀ l ∈ A, l.signals = false)
    (hs : noName s.remoteCandidates) : noName t.remoteCandidates := by
  refine h.invariant (I := fun u => noName u.remoteCandidates) (fun {u v l} hl hact hu => ?_) hs
  refine act_remotes (fun c hc => (c.awaitsName_withFoundation env.net).trans hc) hact
    (fun c hc => ?_) (fun strays cs hc => ?_) hu
  · cases hA _ (hl _ hc)
  · cases hA _ (hl _ hc)

theorem signals_of_allowed {l : Label} (h : l ∈ s.allowed H env e)
    (hl : l.signals = true) : e.signals = true := by
  cases l with
  | merge | restate =>
    have h := eventAllowed_of_isLocal h rfl
    cases e with
    | addRemoteCandidates | setRemote | mdnsResolved => rfl
    | task k => cases k <;> exact h.2.elim
    | _ => exact h.elim
  | _ => cases hl

theorem checkLabels_signals : checkLabels ⊆ { l | l.signals = false } := by
  intro l hl
  cases l with
  | rebuild | exhaust | liteCheck => rfl
  | _ => exact hl.elim

theorem onMdnsResolved_noName {idx : ℕ} {hostname : Bytes} {r : MdnsResolveResult}
    (h : noName (((s.awaitingSlot idx hostname).map fun slot =>
      s.resolvedRemotes env idx slot r).getD s.remoteCandidates)) :
    noName (s.onMdnsResolved env idx hostname r).remoteCandidates := by
  have hfold (u : Session) (hu : noName u.remoteCandidates) :
      noName (u.checkResolved env).remoteCandidates := by
    refine steps_noName (checkResolved_steps fun _ => ?_) (fun _ => id) hu
    exact resolvedStarts_checkLabels.trans checkLabels_signals
  unfold onMdnsResolved
  split
  · rename_i hf
    rwa [awaitingSlot, if_pos hf] at h
  · rename_i hf
    rw [awaitingSlot, if_neg hf] at h
    cases hslot : s.remoteCandidates[idx]? with
    | none => simpa [hslot] using h
    | some slot =>
      rw [hslot, Option.filter_some] at h
      dsimp only
      split
      · rename_i hno
        rwa [if_neg (by simpa [imp_iff_not_or] using hno)] at h
      · rename_i hyes
        rw [if_pos (by simpa using hyes)] at h
        simp only [Option.map_some, Option.getD_some, resolvedRemotes] at h
        split_ifs at h ⊢
        · exact h
        · exact hfold _ h

theorem step_noName (h : noName (s.remotesAt env e)) :
    noName (s.step H env e).remoteCandidates := by
  cases e with
  | addRemoteCandidates ufrag pwd cands eoc =>
    refine steps_noName (s := s.afterMerge env ufrag pwd cands eoc)
      (onRemoteCandidates_steps ?_ ?_ fun _ _ => ?_) (fun _ => id) h
    · rfl
    · rfl
    · exact candidateStarts_checkLabels.trans checkLabels_signals
  | setRemote ufrag pwd cands =>
    have hpath : Steps env { l | l.signals = false } (s.describeRemote ufrag pwd cands)
        (s.setRemote env ufrag pwd cands) := by
      refine Path.after (resolveRemoteMdnsCandidates_steps rfl) ?_
      split_ifs with hw
      · exact startChecking_steps (hw.1.symm.imp_right .inl)
          (starts_checkLabels.trans checkLabels_signals)
      · exact .refl _
    exact steps_noName hpath (fun _ => id) h
  | mdnsResolved idx hostname r =>
    simp only [remotesAt] at h
    simp only [step]
    split_ifs at h ⊢
    · exact onMdnsResolved_noName h
    · exact h
  | _ =>
    refine steps_noName (step_steps H env s _) (fun l hl => ?_) h
    by_contra hn
    cases signals_of_allowed hl (by simpa using hn)

/-! ### Giving up -/

theorem act_endsChecks {l : Option Label} (h : Act env s l t) (hx : l ≠ some (.exhaust s))
    (he : ∀ premature, l ≠ some (.expire premature)) : Logs (·.endsChecks = false) s t := by
  refine act_logs_of_failure h (fun e hf => ?_) fun origin hf => ?_
  · cases e with
    | failedBy => cases hf
    | _ => rfl
  · cases hf with
    | exhaust => exact absurd rfl hx
    | expire => exact absurd rfl (he _)
    | loseConsent => rfl

theorem step_endsChecks (hx : ∀ u, .exhaust u ∉ s.allowed H env e)
    (he : ∀ premature, .expire premature ∉ s.allowed H env e) :
    Logs (·.endsChecks = false) s (s.step H env e) := by
  refine (step_steps H env s e).invariant (I := Logs (·.endsChecks = false) s)
    (fun {u v l} hl hact hu => hu.trans (act_endsChecks hact (fun hc => ?_) fun p hc => ?_))
    (.refl s)
  · exact hx u (hl _ hc)
  · exact he p (hl _ hc)

theorem step_namesHaveChance (h : s.NamesCanWait H env e) :
    s.NamesHaveChance H env e where
  queried := by
    rintro - ufrag pwd cands eoc rfl i c hi hc
    rcases h.asked ufrag pwd cands eoc rfl with hno | ⟨hm, hw, hg⟩
    · have hnone := step_noName (H := H) hno c (mem_of_getElem? hi)
      rw [hc] at hnone
      cases hnone
    · obtain ⟨hst, -, -⟩ := afterMerge_frame env ufrag pwd cands eoc s
      have hsteps : Steps env Set.univ s (s.afterMerge env ufrag pwd cands eoc) :=
        afterMerge_steps (fun _ _ => trivial) (fun _ => trivial)
          fun _ _ _ => trivial
      exact onRemoteCandidates_queried ((steps_hasMdns hsteps).trans hm) (by rwa [hst])
        (by rwa [hst]) hi hc
  patient := by
    rcases h.pending with hno | ⟨hx, he⟩
    · exact .inl (step_noName hno)
    · exact .inr (step_endsChecks hx he)

/-- In such a run every step gives the names their chance. -/
theorem names_have_their_chance (H : Hmac) (env : Env) (cfg : IceConfig) (w : Wiring)
    (controlling : Bool) (tiebreaker : ℕ) (es : List Event)
    (h : Along (step H env) (fun s e => s.NamesCanWait H env e)
      (create env cfg w controlling tiebreaker) es) :
    ∀ fs e, fs ++ [e] <+: es →
      ((create env cfg w controlling tiebreaker).run H env fs).NamesHaveChance H env e := by
  intro fs e hp
  exact step_namesHaveChance (along_iff_each_step.mp h fs e hp)

/-- The initiator has gathered, and all that the peer signals is a hidden host: its name is
not queried, and the session fails for want of pairs. -/
theorem first_name_has_no_chance :
    ¬ ∃ H : Hmac, ((create .lan {} { mdns := true } true 7).run H .lan
      [.gather]).NamesHaveChance H .lan (.addRemoteCandidates [1] [2] [peerName] false) := by
  rintro ⟨H, h⟩
  have hstate : ((create .lan {} { mdns := true } true 7).gather .lan).state ≠ .failed := by
    decide +kernel
  have hname : (((create .lan {} { mdns := true } true 7).gather .lan).addRemoteCandidates
      .lan [1] [2] [peerName] false).remoteCandidates[0]? =
        some (peerName.withFoundation Env.lan.net) := by decide +kernel
  have hquery : .mdnsResolve 0 pLocal ∈ (((create .lan {} { mdns := true } true 7).gather
      .lan).addRemoteCandidates .lan [1] [2] [peerName] false).queue :=
    h.queried hstate [1] [2] [peerName] false rfl 0 _ hname (by decide +kernel)
  exact absurd hquery (by decide +kernel)

/-- The peer signals an address first and the hidden host later, and the query is answered. -/
def nameAnswered : List Event :=
  [.gather, .addRemoteCandidates [1] [2] [peerHost] false,
    .addRemoteCandidates [1] [2] [peerName] false,
    .mdnsResolved 1 pLocal ⟨true, [Inet.dotted 10 0 0 9], []⟩]

theorem namesCanWait_of_noName (h : noName (s.remotesAt env e)) :
    s.NamesCanWait H env e := ⟨fun _ _ _ _ _ => .inl h, .inl h⟩

theorem later_name_has_its_chance :
    ((create .lan {} { mdns := true } true 7).run zeroHmac .lan
      (nameAnswered.take 3)).queue.contains (.mdnsResolve 1 pLocal) = true ∧
    ∀ fs e, fs ++ [e] <+: nameAnswered →
      ((create .lan {} { mdns := true } true 7).run zeroHmac .lan
        fs).NamesHaveChance zeroHmac .lan e := by
  refine ⟨by decide +kernel, names_have_their_chance _ .lan {} { mdns := true } true 7 _
    ⟨namesCanWait_of_noName ?_, namesCanWait_of_noName ?_,
      ⟨fun _ _ _ _ _ => .inr ?_, .inr ⟨?_, ?_⟩⟩,
      namesCanWait_of_noName ?_, trivial⟩⟩
  · decide +kernel
  · decide +kernel
  · decide +kernel
  · rintro u (⟨-, h⟩ | ⟨d, hd, -⟩)
    · rw [candidateStarts, if_pos (by decide +kernel)] at h
      exact absurd h.2.1 (by decide +kernel)
    · cases hd
  · rintro premature (h | ⟨d, hd, -⟩)
    · exact h
    · cases hd
  · decide +kernel

end Session

end LinkIce
