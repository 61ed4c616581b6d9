import LinkIce.Session.LocalCandidates
import LinkIce.Session.Script

/-! What a session publishes about itself, and when its peer can read it. -/
namespace LinkIce
open Stun List

namespace Candidate

variable {c : Candidate}

def narrowed (c : Candidate) : Candidate :=
  { c with port := c.port % 2 ^ 16, priority := c.priority % 2 ^ 32 }

theorem Shaped.signalable (h : c.Shaped) : c.narrowed.Signalable :=
  ⟨⟨h.type, h.family, h.hostname⟩, Nat.mod_lt _ (by decide), Nat.mod_lt _ (by decide)⟩

theorem Shaped.withFoundation (h : c.Shaped) (net : Inet) : (c.withFoundation net).Shaped := by
  unfold Candidate.withFoundation
  split_ifs
  · exact h
  · exact ⟨h.type, h.family, h.hostname⟩

end Candidate

private theorem toWire_narrowed {c : Candidate} : toWire c.narrowed = toWire c := by
  apply Subtype.ext
  simp only [toWire, Candidate.narrowed, be16_mod, be32_mod]

theorem serializeSignal_narrowed {ufrag pwd : Bytes} {cands : List Candidate} {flags : ℕ} :
    serializeSignal ufrag pwd (cands.map Candidate.narrowed) flags =
      serializeSignal ufrag pwd cands flags := by
  have hentries : (cands.map Candidate.narrowed).flatMap (fun c => (toWire c).1) =
      cands.flatMap fun c => (toWire c).1 := by
    rw [flatMap_map]
    exact flatMap_congr fun c _ => congrArg Subtype.val toWire_narrowed
  have htrailer : mdnsTrailer (cands.map Candidate.narrowed) = mdnsTrailer cands := by
    have hfilter : (cands.map Candidate.narrowed).filter (·.named) =
        (cands.filter (·.named)).map Candidate.narrowed := filter_map
    rw [mdnsTrailer, hfilter, length_map, flatMap_map]
    rfl
  rw [serializeSignal, hentries, htrailer, length_map]
  rfl

theorem length_candidates_le {data : Bytes} {d : DecodedSignal}
    (h : deserializeSignal data = some d) : d.candidates.length ≤ maxIceCandidates := by
  unfold deserializeSignal at h
  dsimp only at h
  split_ifs at h with hshort hmany hcut
  obtain ⟨cands, htrailer, rfl⟩ := Option.map_eq_some_iff.mp h
  have hlen := congrArg List.length (takeTrailer_sound htrailer).2
  rw [length_map, length_map, length_map, length_blocks] at hlen
  dsimp only
  omega

/-- What a peer decodes and the link queues under a kind. -/
structure OutboundSignal where
  kind : ℕ
  blob : Bytes

def iceSignalOfferEoc : ℕ := 2

def iceSignalAnswerEoc : ℕ := 3

/-- The credentials and names that the environment draws have the size of their fields. -/
structure Env.Sized (env : Env) : Prop where
  ufrag : ∀ n, (env.ufrag n).length ≤ 8 ∧ 0 ∉ env.ufrag n
  pwd : ∀ n, (env.pwd n).length ≤ 32 ∧ 0 ∉ env.pwd n
  names : env.NamesFit

namespace Session

variable {H : Hmac} {env : Env} {A : Set Label} {s t : Session} {c : Candidate} {l : Option Label}
  {e : Event}

def localSignalFlags (s : Session) : ℕ :=
  (if s.cfg.liteMode then iceSignalFlagLite else 0) |||
    if s.symmetricStride ≠ 0 then iceSignalFlagSymmetric else 0

/-- `IceLink::enqueue_local_signal`: a controlling session made the offer. -/
def enqueueLocalSignal (s : Session) : OutboundSignal where
  kind := if s.controlling then iceSignalOfferEoc else iceSignalAnswerEoc
  blob := serializeSignal s.localUfrag s.localPwd s.localCandidates s.localSignalFlags

/-- The peer accepts the blob and finds in it all that it stands for. -/
def Readable (s : Session) : Prop :=
  ∃ d, deserializeSignal s.enqueueLocalSignal.blob = some d ∧ cstr d.hdr.ufrag.1 = s.localUfrag ∧
    cstr d.hdr.pwd.1 = s.localPwd ∧ d.flags = s.localSignalFlags ∧
    d.candidates = s.localCandidates.map fun c => c.narrowed.signalled

/-- Candidates and credentials come from where they should. -/
structure Presentable (env : Env) (s : Session) : Prop where
  shaped : ∀ c ∈ s.localCandidates, c.Shaped
  queued : ∀ c, .turnAllocated c ∈ s.queue → c.Shaped
  ufrag : ∃ n, s.localUfrag = env.ufrag n
  pwd : ∃ n, s.localPwd = env.pwd n

theorem Presentable.readable_iff (h : s.Presentable env) (henv : env.Sized) :
    s.Readable ↔ s.localCandidates.length ≤ maxIceCandidates := by
  constructor
  · rintro ⟨d, hd, -, -, -, hcands⟩
    have hle := length_candidates_le hd
    rwa [hcands, length_map] at hle
  · intro hle
    obtain ⟨nu, hufrag⟩ := h.ufrag
    obtain ⟨np, hpwd⟩ := h.pwd
    obtain ⟨hu, hu₀⟩ := henv.ufrag nu
    obtain ⟨hp, hp₀⟩ := henv.pwd np
    rw [← hufrag] at hu hu₀
    rw [← hpwd] at hp hp₀
    have hflags : s.localSignalFlags &&& iceSignalFlagMask = s.localSignalFlags := by
      unfold localSignalFlags
      split_ifs <;> decide
    have hshaped : ∀ c ∈ s.localCandidates.map Candidate.narrowed, c.Signalable := by
      intro c hc
      obtain ⟨d, hd, rfl⟩ := mem_map.mp hc
      exact (h.shaped d hd).signalable
    have hread := deserializeSignal_serializeSignal hu₀ hp₀ hshaped
      (by rwa [length_map]) hflags
    rw [serializeSignal_narrowed, map_map] at hread
    exact ⟨_, hread, cstr_ofBytes hu hu₀, cstr_ofBytes hp hp₀, rfl, rfl⟩

/-! ### Every action keeps it so -/

private theorem restartTimers_allocated (h : .turnAllocated c ∈ (s.restartTimers env).queue) :
    .turnAllocated c ∈ s.queue ∨ c.Own := by
  have hq := (dropTurn_works env s.cancelTimers).trans (dropTurnBackupProbe_quiet env _).toWorks
  unfold restartTimers at h
  generalize (s.cancelTimers.dropTurn env).dropTurnBackupProbe env = u at hq h
  exact hq.allocated c h

theorem reset_allocated (h : .turnAllocated c ∈ (s.reset env).queue) :
    .turnAllocated c ∈ s.queue ∨ c.Own := by
  have hset (u : Session) : (u.setState .new).queue = u.queue := rfl
  have hwipe (u : Session) : u.wipeForRestart.queue = u.queue := by
    unfold wipeForRestart unregisterMdns
    dsimp only [tearDownCids]
    split_ifs <;> rfl
  have hfresh (u : Session) : (u.freshCredentials env).queue = u.queue := rfl
  rw [reset, hset, hwipe, hfresh] at h
  have hallocated := restartTimers_allocated h
  exact hallocated

private theorem buildCheckList_queue : (s.buildCheckList env).queue = s.queue := by
  obtain ⟨_, _, _, h⟩ := buildCheckList_eq
  rw [h]

theorem act_queue (h : Act env s l t)
    (hc : .turnAllocated c ∈ t.queue) : .turnAllocated c ∈ s.queue ∨ c.Own := by
  cases h with
  | quiet h | work h | release h | deliver h | turnInput h => exact h.allocated c hc
  | check i | liteCheck i =>
    obtain ⟨ps, rs, hk⟩ := sendCheck_keeps env s
    exact hk.allocated c hc
  | pick =>
    obtain ⟨sel, ps, rs, hk⟩ := pickNominee_keeps env s
    exact hk.allocated c hc
  | respond | reject => exact (reply_keeps).allocated c hc
  | rebuild =>
    rw [buildCheckList_queue] at hc
    exact .inl hc
  | dequeue => exact .inl (mem_of_mem_erase hc)
  | resolve =>
    rcases mem_append.mp hc with hc | hc
    · simp [nameQueries] at hc
    · exact .inl hc
  | restart => exact reset_allocated hc
  | autoRestart =>
    have hallocated := reset_allocated hc
    exact hallocated
  | _ => exact .inl hc

private theorem pushLocal_shaped (hc : c.Shaped) (h : ∀ c ∈ s.localCandidates, c.Shaped) :
    ∀ d ∈ (s.pushLocal c).localCandidates, d.Shaped := by
  intro d hd
  rcases mem_pushLocal.mp hd with hd | rfl
  exacts [h d hd, hc]

theorem act_shaped (hfit : env.NamesFit) (h : Act env s l t)
    (hl : ∀ c, l = some (.relay c) → c.Shaped) (hs : ∀ c ∈ s.localCandidates, c.Shaped) :
    ∀ c ∈ t.localCandidates, c.Shaped := by
  by_cases hk : ∀ a ∈ l, a.touchesLocals = false
  · rcases act_locals h hk with ht | ht
    · rwa [ht]
    · intro c hc
      rw [ht] at hc
      obtain ⟨d, hd, rfl⟩ := mem_map.mp hc
      exact (hs d hd).withFoundation env.net
  · cases h with
    | hosts l h => exact h hfit hs
    | srflx c hc | prflx c hc => exact pushLocal_shaped hc.toShaped hs
    | relay c => exact pushLocal_shaped (hl c rfl) hs
    | takeover k =>
      intro c hc
      rcases mem_takeoverLocals hc with ⟨hc, -⟩ | ⟨rfl, -⟩
      exacts [hs c hc, relayCandidate_own.toShaped]
    | restart => simp [reset_locals]
    | autoRestart now => simp [reset_locals]
    | _ => exact absurd (by simp [Label.touchesLocals]) hk

theorem act_drawn_credentials (h : Act env s l t) :
    (t.localUfrag = s.localUfrag ∧ t.localPwd = s.localPwd) ∨
      ∃ n, t.localUfrag = env.ufrag n ∧ t.localPwd = env.pwd n := by
  by_cases hl : l = some .restart
  · subst hl
    cases h with
    | restart =>
      obtain ⟨n, -, hcore⟩ := reset_core env s
      exact .inr ⟨n, congrArg Core.localUfrag hcore, congrArg Core.localPwd hcore⟩
    | autoRestart now =>
      obtain ⟨n, -, hcore⟩ := reset_core env (s.countAutoRestart now)
      exact .inr ⟨n, congrArg Core.localUfrag hcore, congrArg Core.localPwd hcore⟩
  · exact .inl (act_credentials h hl)

theorem act_presentable (hfit : env.NamesFit) (h : Act env s l t)
    (hl : ∀ c, l = some (.relay c) → c.Shaped) (hs : s.Presentable env) : t.Presentable env where
  shaped := act_shaped hfit h hl hs.shaped
  queued c hc := (act_queue h hc).elim (hs.queued c) (·.toShaped)
  ufrag := by
    rcases act_drawn_credentials h with ⟨hu, -⟩ | ⟨n, hu, -⟩
    · rw [hu]
      exact hs.ufrag
    · exact ⟨n, hu⟩
  pwd := by
    rcases act_drawn_credentials h with ⟨-, hp⟩ | ⟨n, -, hp⟩
    · rw [hp]
      exact hs.pwd
    · exact ⟨n, hp⟩

theorem queued_of_relay (h : .relay c ∈ s.allowed H env e) : .turnAllocated c ∈ s.queue := by
  have h := eventAllowed_of_isLocal h rfl
  cases e with
  | task k =>
    obtain ⟨hq, hk⟩ := h
    cases k with
    | turnAllocated c' =>
      obtain rfl : c = c' := hk
      exact hq
    | _ => exact hk.elim
  | _ => exact h.elim

theorem step_presentable (hfit : env.NamesFit) (hs : s.Presentable env) :
    (s.step H env e).Presentable env := by
  refine (step_steps H env s e).invariant (fun hl hact hu => ?_) hs
  exact act_presentable hfit hact (fun c hc => hs.queued c (queued_of_relay (hl _ hc))) hu

theorem create_presentable {cfg : IceConfig} {w : Wiring} {controlling : Bool} {tiebreaker : ℕ} :
    (create env cfg w controlling tiebreaker).Presentable env where
  shaped c hc := by cases hc
  queued c hc := by cases hc
  ufrag := ⟨0, rfl⟩
  pwd := ⟨0, rfl⟩

/-- In every reachable state the publication is readable exactly if it has no more candidates
than the decoder admits. -/
theorem publication_readable_iff (H : Hmac) {env : Env} (henv : env.Sized) (cfg : IceConfig)
    (w : Wiring) (controlling : Bool) (tiebreaker : ℕ) (es : List Event) :
    let s := (create env cfg w controlling tiebreaker).run H env es
    s.Readable ↔ s.localCandidates.length ≤ maxIceCandidates := by
  have h : ((create env cfg w controlling tiebreaker).run H env es).Presentable env :=
    run_invariant (fun s e hs => step_presentable henv.names hs)
      (create_presentable) es
  exact h.readable_iff henv

def crowdedLan (addresses : ℕ) : Env :=
  { Env.lan with
    ufrag := fun _ => [117]
    pwd := fun _ => [112]
    uuid := fun _ => [110]
    interfaces := fun _ => some ((List.range addresses).map fun i =>
      ⟨true, false, .ipv4, Block.ofBytes 16 [10, 0, 0, UInt8.ofNat i], false⟩) }

theorem crowdedLan_sized (addresses : ℕ) : (crowdedLan addresses).Sized where
  ufrag _ := by simp [crowdedLan]
  pwd _ := by simp [crowdedLan]
  names _ := by simp [crowdedLan, localSuffix, maxMdnsHostnameLen]

def gathered (addresses : ℕ) (H : Hmac) : Session :=
  (create (crowdedLan addresses) {} { carrierTcp := true } true 7).run H (crowdedLan addresses)
    [.gather]

theorem few_addresses_readable : (gathered 3 zeroHmac).Readable := by
  have hle : (gathered 3 zeroHmac).localCandidates.length ≤ maxIceCandidates := by
    decide +kernel
  unfold gathered at hle ⊢
  exact (publication_readable_iff _ (crowdedLan_sized 3) {} { carrierTcp := true } true 7
    [.gather]).mpr hle

/-- With TCP every host address counts four times. -/
theorem many_addresses_unreadable : ¬ ∃ H : Hmac, (gathered 65 H).Readable := by
  rintro ⟨H, d, hd, -, -, -, hcands⟩
  have hle := length_candidates_le hd
  have hmany : 256 < (gathered 65 zeroHmac).localCandidates.length := by
    decide +kernel
  rw [hcands, length_map, gathered, run_isLocal (by decide) H zeroHmac] at hle
  exact absurd hle (not_le.mpr hmany)

end Session

end LinkIce
