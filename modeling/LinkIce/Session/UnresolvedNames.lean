import LinkIce.Session.Script

/-! mDNS names that do not resolve. The answer that gives a name up leaves its entry among
the remote candidates, as a host at whatever address the peer had filled in, and the next
rebuild pairs it. -/
namespace LinkIce
open Stun List

namespace Candidate

/-- An mDNS candidate that does not say which name it stands for. -/
def nameless (c : Candidate) : Bool := c.type = .hostMdns && c.hostname = []

@[simp] theorem nameless_withFoundation (c : Candidate) (net : Inet) :
    (c.withFoundation net).nameless = c.nameless := by
  unfold withFoundation
  split_ifs
  · rfl
  · simp only [nameless]

theorem nameless_of_host {c : Candidate} (h : c.type = .host) : c.nameless = false := by
  simp [nameless, h]

end Candidate

def Event.candidates : Event → List Candidate
  | .addRemoteCandidates _ _ cands _ | .setRemote _ _ cands => cands
  | _ => []

namespace Session

variable {H : Hmac} {env : Env} {s t : Session} {ds : List Candidate} {e : Event} {l : Option Label}

/-- What is left of a remote candidate whose name is given up. -/
def remnants (s : Session) : Event → List Candidate
  | .mdnsResolved idx hostname r =>
    if .mdnsResolve idx hostname ∈ s.queue ∧ (!r.resolved ∨ (r.ipv4 = [] ∧ r.ipv6 = [])) then
      (s.awaitingSlot idx hostname).toList.map fun slot =>
        ({ slot with type := .host, hostname := [] } : Candidate).bare
    else []
  | _ => []

/-- The event does away with the remote candidates there are. -/
def replacesRemotes (H : Hmac) (env : Env) (s : Session) : Event → Bool
  | .addRemoteCandidates ufrag _ _ _ => decide (s.remoteUfrag ≠ [] ∧ s.remoteUfrag ≠ ufrag)
  | .setRemote _ _ _ => true
  | e => (s.step H env e).remoteCandidates = []

/-- The given-up entries that are still there when the event is handled. -/
def lingering (H : Hmac) (env : Env) (ds : List Candidate) (s : Session) (e : Event) :
    List Candidate :=
  if s.replacesRemotes H env e then [] else ds

def trackNames (H : Hmac) (env : Env) : Session × List Candidate → Event →
    Session × List Candidate :=
  withHistory (step H env) fun ds s e => s.remnants e ++ s.lingering H env ds e

/-- The entries among the remote candidates whose names were given up during the run. -/
def unresolved (H : Hmac) (env : Env) (s : Session) (es : List Event) : List Candidate :=
  (es.foldl (trackNames H env) (s, [])).2

/-- No pair goes to an mDNS entry, resolved or not, nor to what is left of one. -/
structure Apart (ds : List Candidate) (s : Session) : Prop where
  hosts : ∀ c ∈ ds, c.type = .host
  named : ∀ c ∈ s.remoteCandidates, c.nameless = false
  pairs : ∀ p ∈ s.checkList, p.rem.type ≠ .hostMdns ∧ p.rem.bare ∉ ds

/-! ### One action -/

theorem buildCheckList_remotes :
    (s.buildCheckList env).remoteCandidates =
      s.remoteCandidates.map (·.withFoundation env.net) := by
  obtain ⟨_, _, _, h⟩ := buildCheckList_eq
  rw [h]

private theorem reset_remotes : (s.reset env).remoteCandidates = [] := by
  obtain ⟨n, -, hcore⟩ := reset_core env s
  exact congrArg Core.remoteCandidates hcore

theorem act_remotes {P : Candidate → Prop} (hP : ∀ c, P c → P (c.withFoundation env.net))
    (h : Act env s l t) (hm : ∀ c, l = some (.merge c) → P c)
    (hr : ∀ strays cs, l = some (.restate strays cs) → ∀ c ∈ cs, P c)
    (hs : ∀ c ∈ s.remoteCandidates, P c) : ∀ c ∈ t.remoteCandidates, P c := by
  cases h with
  | quiet h | work h | release h | deliver h | turnInput h => rwa [h.remoteCandidates]
  | merge c =>
    intro d hd
    rcases mem_append.mp hd with hd | hd
    · exact hs d hd
    · rw [mem_singleton.mp hd]
      exact hm c rfl
  | restate cs => exact hr _ cs rfl
  | forget => simp [forgetRemote]
  | rebuild =>
    rw [buildCheckList_remotes]
    intro d hd
    obtain ⟨c, hc, rfl⟩ := mem_map.mp hd
    exact hP c (hs c hc)
  | check i | liteCheck i =>
    obtain ⟨ps, rs, hk⟩ := sendCheck_keeps env s
    rw [hk.remoteCandidates]
    exact hs
  | pick =>
    obtain ⟨sel, ps, rs, hk⟩ := pickNominee_keeps env s
    rw [hk.remoteCandidates]
    exact hs
  | respond | reject => rwa [(reply_keeps).remoteCandidates]
  | restart | autoRestart => simp [reset_remotes]
  | _ => exact hs

theorem buildCheckList_pairs (hs : ∀ c ∈ s.remoteCandidates, c.nameless = false) :
    ∀ p ∈ (s.buildCheckList env).checkList, p.rem.type ≠ .hostMdns := by
  intro p hp ht
  obtain ⟨l, -, r, hr, ha, -, port, fnd, hrem⟩ := mem_buildCheckList env s hp
  obtain ⟨c, hc, rfl⟩ := mem_map.mp hr
  have hname := hs c hc
  rw [hrem] at ht
  rw [← c.nameless_withFoundation env.net, Candidate.nameless, Bool.and_eq_false_iff] at hname
  refine CheckPair.not_unresolved_of_admissible ha ⟨ht, ?_⟩
  rcases hname with hname | hname
  · exact absurd ht (by simpa using hname)
  · simpa using hname

private theorem apart_pairStable :
    PairStable fun p => p.rem.type ≠ .hostMdns ∧ p.rem.bare ∉ ds where
  evolves h hp := by rwa [h.rem]
  flag := id
  succeed := id
  mark := id
  clear := id

theorem act_apart (h : Act env s l t) (hb : l = some .rebuild → ds = [])
    (hm : ∀ c, l = some (.merge c) → c.nameless = false)
    (hr : ∀ strays cs, l = some (.restate strays cs) → ∀ c ∈ cs, c.nameless = false)
    (hs : s.Apart ds) : t.Apart ds where
  hosts := hs.hosts
  named := act_remotes (fun c hc => (c.nameless_withFoundation env.net).trans hc) h hm hr hs.named
  pairs := by
    refine apart_pairStable.act h (fun hl p hp => ⟨buildCheckList_pairs hs.named p hp, ?_⟩)
      (fun loc rem ht => ?_) hs.pairs
    · rw [hb hl]
      exact not_mem_nil
    · have hrem : (s.triggeredPair env loc rem).rem.type = .prflx :=
        (Candidate.withFoundation_type).trans ht
      rw [hrem]
      refine ⟨nofun, fun hd => ?_⟩
      have hhost := hs.hosts _ hd
      rw [Candidate.bare, hrem] at hhost
      cases hhost

/-! ### One step -/

/-- No candidate comes without its name, no list is rebuilt while a given-up entry is there,
and no pair goes where the entry that is given up now would. -/
structure KeepsApart (H : Hmac) (env : Env) (ds : List Candidate) (s : Session) (e : Event) :
    Prop where
  named : ∀ c ∈ e.candidates, c.nameless = false
  rebuild : .rebuild ∈ s.allowed H env e → s.lingering H env ds e = []
  pairs : ∀ p ∈ s.checkList, p.rem.bare ∉ s.remnants e

theorem merge_allowed {c : Candidate} (h : .merge c ∈ s.allowed H env e) : c ∈ e.candidates := by
  have h := eventAllowed_of_isLocal h rfl
  cases e with
  | addRemoteCandidates => exact h
  | task k => cases k <;> exact h.2.elim
  | _ => exact h.elim

private theorem named_resolvedRemotes {idx : ℕ} {slot : Candidate} {r : MdnsResolveResult}
    (hs : ∀ c ∈ s.remoteCandidates, c.nameless = false) :
    ∀ c ∈ s.resolvedRemotes env idx slot r, c.nameless = false := by
  have hset (c : Candidate) (hc : c.type = .host) :
      ∀ d ∈ s.remoteCandidates.set idx c, d.nameless = false := by
    intro d hd
    rcases mem_or_eq_of_mem_set hd with hd | rfl
    · exact hs d hd
    · exact Candidate.nameless_of_host hc
  unfold resolvedRemotes
  split_ifs
  · exact hset _ rfl
  · intro c hc
    rcases mem_append.mp hc with hc | hc
    · exact hset _ (setAddress_type) c hc
    · obtain ⟨⟨ip, k⟩, -, rfl⟩ := mem_map.mp hc
      exact Candidate.nameless_of_host (setAddress_type)

theorem restate_allowed {strays : Bool} {cs : List Candidate}
    (h : .restate strays cs ∈ s.allowed H env e) (he : ∀ c ∈ e.candidates, c.nameless = false)
    (hs : ∀ c ∈ s.remoteCandidates, c.nameless = false) : ∀ c ∈ cs, c.nameless = false := by
  have h := eventAllowed_of_isLocal h rfl
  cases e with
  | setRemote => rwa [h.1]
  | mdnsResolved idx hostname r =>
    obtain ⟨-, slot, -, rfl, -⟩ := h
    exact named_resolvedRemotes hs
  | task k => cases k <;> exact h.2.elim
  | _ => exact h.elim

theorem remnants_hosts : ∀ c ∈ s.remnants e, c.type = .host := by
  intro c hc
  unfold remnants at hc
  split at hc
  · split_ifs at hc
    · obtain ⟨slot, -, rfl⟩ := mem_map.mp hc
      rfl
    · cases hc
  · cases hc

theorem remnants_of_rebuild (h : .rebuild ∈ s.allowed H env e) : s.remnants e = [] := by
  unfold remnants
  split
  · rcases h with ⟨-, ⟨-, -, hres, hany⟩, -⟩ | ⟨d, hd, -⟩
    · exact if_neg fun hn => hn.2.elim (by simp [hres]) hany
    · cases hd
  · rfl

theorem lingering_subset : s.lingering H env ds e ⊆ ds := by
  unfold lingering
  split_ifs
  · exact nil_subset _
  · exact List.Subset.refl _

theorem step_apart (h : s.KeepsApart H env ds e) (hs : s.Apart ds) :
    (s.step H env e).Apart (s.remnants e ++ s.lingering H env ds e) := by
  have hstart : s.Apart (s.remnants e ++ s.lingering H env ds e) := by
    refine ⟨fun c hc => ?_, hs.named, fun p hp => ⟨(hs.pairs p hp).1, fun hd => ?_⟩⟩
    · rcases mem_append.mp hc with hc | hc
      · exact remnants_hosts c hc
      · exact hs.hosts c (lingering_subset hc)
    · rcases mem_append.mp hd with hd | hd
      · exact h.pairs p hp hd
      · exact (hs.pairs p hp).2 (lingering_subset hd)
  refine (step_steps H env s e).invariant
    (I := Apart (s.remnants e ++ s.lingering H env ds e)) (fun hl hact hu =>
    act_apart hact (fun hb => ?_) (fun c hc => h.named c (merge_allowed (hl _ hc)))
      (fun strays cs hc => restate_allowed (hl _ hc) h.named hs.named) hu) hstart
  have hrebuild := hl _ hb
  rw [remnants_of_rebuild hrebuild, h.rebuild hrebuild]
  rfl

/-- In such a run no pair goes to a name that is unresolved or was given up. -/
theorem unresolved_names_unpaired (H : Hmac) (env : Env) (cfg : IceConfig) (w : Wiring)
    (controlling : Bool) (tiebreaker : ℕ) (es : List Event)
    (h : Along (trackNames H env) (fun w e => w.1.KeepsApart H env w.2 e)
      (create env cfg w controlling tiebreaker, []) es) :
    ∀ fs, fs <+: es →
      ∀ p ∈ ((create env cfg w controlling tiebreaker).run H env fs).checkList,
        p.rem.type ≠ .hostMdns ∧
          p.rem.bare ∉ unresolved H env (create env cfg w controlling tiebreaker) fs := by
  intro fs hp
  have hapart := (h.restrict hp).invariant (I := fun w => w.1.Apart w.2)
    (fun _ _ => step_apart) ⟨by simp, by simp [create], by simp [create]⟩
  have hpairs := hapart.pairs
  rw [trackNames, withHistory_fst] at hpairs
  exact hpairs

/-! ### A name that nobody answers for -/

/-- A hidden host of the peer; the address is left blank. -/
def peerName : Candidate :=
  { type := .hostMdns, family := .ipv4, port := 6002, hostname := pLocal, priority := 1 }

def nameGivenUp : List Event :=
  [.gather, .addRemoteCandidates [1] [2] [peerHost] false,
    .addRemoteCandidates [1] [2] [peerName] false, .mdnsResolved 1 pLocal ⟨false, [], []⟩]

theorem trackNames_isLocal {es : List Event} (h : es.all Event.isLocal = true) (H H' : Hmac)
    (w : Session × List Candidate) :
    es.foldl (trackNames H env) w = es.foldl (trackNames H' env) w := by
  induction es generalizing w with
  | nil => rfl
  | cons e es ih =>
    simp only [all_cons, Bool.and_eq_true] at h
    have hrep : w.1.replacesRemotes H env e = w.1.replacesRemotes H' env e := by
      unfold replacesRemotes
      split
      · rfl
      · rfl
      · rw [step_isLocal h.1 H H']
    have hstep : trackNames H env w e = trackNames H' env w e := by
      simp only [trackNames, withHistory, lingering, hrep, step_isLocal h.1 H H']
    rw [foldl_cons, foldl_cons, hstep, ih h.2]

def nameRevived : List Event :=
  nameGivenUp ++ [.addRemoteCandidates [1] [2] [peerHost2] false]

/-- That batch brings the blank address into the check list. -/
theorem given_up_name_is_checked :
    ¬ ∃ H : Hmac, ∀ p ∈ ((create .lan {} { mdns := true } true 7).run H .lan
        nameRevived).checkList,
      p.rem.bare ∉ unresolved H .lan (create .lan {} { mdns := true } true 7)
        nameRevived := by
  rintro ⟨H, h⟩
  rw [run_isLocal (by decide) H zeroHmac, unresolved,
    trackNames_isLocal (by decide) H zeroHmac] at h
  revert h
  decide +kernel

private theorem keepsApart_of_calm (hn : ∀ c ∈ e.candidates, c.nameless = false)
    (hr : ds = [] ∨ ∃ gen, e = .task (.checkTick gen))
    (hp : ∀ p ∈ s.checkList, p.rem.bare ∉ s.remnants e) : s.KeepsApart H env ds e where
  named := hn
  rebuild h := by
    rcases hr with rfl | ⟨gen, rfl⟩
    · exact subset_nil.mp lingering_subset
    · rcases h with ⟨-, h⟩ | ⟨d, hd, -⟩
      · exact h.elim
      · cases hd
  pairs := hp

/-- Without that batch the checks go on and the blank address stays out. -/
theorem given_up_name_stays_out :
    unresolved zeroHmac .lan (create .lan {} { mdns := true } true 7)
      (nameGivenUp ++ [.task (.checkTick 2)]) ≠ [] ∧
    ∀ fs, fs <+: nameGivenUp ++ [.task (.checkTick 2)] →
      ∀ p ∈ ((create .lan {} { mdns := true } true 7).run zeroHmac .lan
          fs).checkList,
        p.rem.type ≠ .hostMdns ∧ p.rem.bare ∉ unresolved zeroHmac .lan
          (create .lan {} { mdns := true } true 7) fs := by
  refine ⟨by decide +kernel, unresolved_names_unpaired _ .lan {} { mdns := true } true 7 _ ?_⟩
  refine ⟨keepsApart_of_calm ?_ (.inl rfl) ?_, keepsApart_of_calm ?_ (.inl ?_) ?_,
    keepsApart_of_calm ?_ (.inl ?_) ?_, keepsApart_of_calm ?_ (.inl ?_) ?_,
    keepsApart_of_calm ?_ (.inr ⟨2, rfl⟩) ?_, trivial⟩
  all_goals decide +kernel

end Session

end LinkIce
