import LinkIce.Session.HoldingPaths
import Mathlib.Data.Finset.Basic

/-! Port mappings that a session has obtained and not given back. A mapping is known by its
internal port. -/
namespace LinkIce
open Stun List Option

/-- The ports whose mappings are held after the calls, which are listed newest first. -/
def held : List PortmapCall → Finset ℕ
  | [] => ∅
  | .obtained port _ _ :: older => insert port (held older)
  | .released port :: older => (held older).erase port

def ReleasesHeld : List PortmapCall → Prop
  | [] => True
  | .obtained _ _ _ :: older => ReleasesHeld older
  | .released port :: older => port ∈ held older ∧ ReleasesHeld older

/-- The session will remember the new mapping, or it remembers one of the same port already;
it does not forget another one for it. -/
def PortmapCall.remembered : PortmapCall → Prop
  | obtained _ none kept => kept = true
  | obtained port (some m) _ => m.intPort = port
  | released _ => True

namespace Mapper

variable {m : Mapper}

def obtain (port : ℕ) (ext : Endpoint) (kept : Bool) (m : Mapper) : Mapper :=
  { m with
    mapping := if kept then some ⟨port, ext⟩ else m.mapping
    calls := .obtained port m.mapping kept :: m.calls }

def release (m : Mapper) : Mapper :=
  if m.present then
    match m.mapping with
    | none => m
    | some p => { m with mapping := none, calls := .released p.intPort :: m.calls }
  else m

structure Sound (m : Mapper) : Prop where
  slot : ∀ p ∈ m.mapping, p.intPort ∈ held m.calls
  releases : ReleasesHeld m.calls
  absent : m.present = false → m.calls = []

def Covers (m : Mapper) : Prop := ∀ port ∈ held m.calls, ∃ p ∈ m.mapping, p.intPort = port

theorem Sound.obtain (h : Sound m) (hm : m.present = true) (port : ℕ) (ext : Endpoint)
    (kept : Bool) : Sound (m.obtain port ext kept) where
  slot p hp := by
    simp only [Mapper.obtain] at hp
    split_ifs at hp
    · obtain rfl := some.inj hp
      exact Finset.mem_insert_self _ _
    · exact Finset.mem_insert_of_mem (h.slot p hp)
  releases := h.releases
  absent hn := absurd hn (by simp [Mapper.obtain, hm])

theorem Sound.release (h : Sound m) : Sound m.release := by
  unfold Mapper.release
  split_ifs with hm
  · split
    · exact h
    · rename_i p hp
      exact ⟨nofun, ⟨h.slot p hp, h.releases⟩, fun hn => absurd hn (by simp [hm])⟩
  · exact h

/-- After a request all is remembered exactly if that request is. -/
theorem covers_obtain (hs : Sound m) (h : Covers m) {port : ℕ} {ext : Endpoint} {kept : Bool} :
    Covers (m.obtain port ext kept) ↔ (PortmapCall.obtained port m.mapping kept).remembered := by
  have hcovers : Covers (m.obtain port ext kept) ↔ ∀ q ∈ insert port (held m.calls),
      ∃ p ∈ (if kept then some ⟨port, ext⟩ else m.mapping), p.intPort = q := Iff.rfl
  rw [hcovers]
  cases hp : m.mapping with
  | none =>
    have hempty : held m.calls = ∅ := Finset.eq_empty_of_forall_notMem fun q hq => by
      obtain ⟨p, hmem, -⟩ := h q hq
      rw [hp] at hmem
      cases hmem
    rw [hempty]
    cases kept <;> simp [PortmapCall.remembered]
  | some p =>
    have hmem : p.intPort ∈ held m.calls := hs.slot p hp
    have hold (q : ℕ) (hq : q ∈ held m.calls) : p.intPort = q := by
      obtain ⟨p', hp', rfl⟩ := h q hq
      rw [hp] at hp'
      rw [some.inj hp']
    simp only [PortmapCall.remembered, Finset.mem_insert, forall_eq_or_imp]
    cases kept with
    | false =>
      constructor
      · rintro ⟨⟨p', hp', rfl⟩, -⟩
        rw [some.inj hp']
      · intro he
        exact ⟨⟨p, rfl, he⟩, fun q hq => ⟨p, rfl, hold q hq⟩⟩
    | true =>
      constructor
      · rintro ⟨-, hall⟩
        obtain ⟨p', hp', he⟩ := hall p.intPort hmem
        rw [← some.inj hp'] at he
        exact he.symm
      · intro he
        exact ⟨⟨_, rfl, rfl⟩, fun q hq => ⟨_, rfl, he.symm.trans (hold q hq)⟩⟩

theorem Covers.release (h : Covers m) : Covers m.release := by
  unfold Mapper.release
  split_ifs
  · split
    · exact h
    · rename_i p hp
      intro q hq
      obtain ⟨hne, hmem⟩ := Finset.mem_erase.mp hq
      obtain ⟨p', hp', rfl⟩ := h q hmem
      rw [hp] at hp'
      exact absurd (congrArg PortMapping.intPort (some.inj hp')).symm hne
  · exact h

theorem held_release (hs : Sound m) : held m.release.calls = ∅ ↔ Covers m := by
  rw [Finset.eq_empty_iff_forall_notMem]
  unfold Mapper.release
  split_ifs with hm
  · split
    · rename_i hp
      simp [Covers, hp]
    · rename_i p hp
      simp only [Covers, held, hp, Finset.mem_erase, not_and', mem_def, some.injEq]
      constructor
      · intro h q hq
        exact ⟨p, rfl, (not_not.mp (h q hq)).symm⟩
      · intro h q hq hne
        obtain ⟨p', rfl, he⟩ := h q hq
        exact hne he.symm
  · simp [Covers, hs.absent (by simpa using hm), held]

end Mapper

namespace Session

variable {H : Hmac} {env : Env} {s t : Session} {e : Event} {m n : Mapper}

def destroy (env : Env) (s : Session) : Session :=
  let s := { s.cancelTimers with state := .failed, pmtuProbeGen := s.pmtuProbeGen + 1 }
  ((s.turnClose env).turnBackupProbeClose env).unregisterMdns.releasePortmapMapping

theorem releasePortmapMapping_mapper : s.releasePortmapMapping.mapper = s.mapper.release := by
  cases hm : s.hasPortmap <;> cases hp : s.portmapMapping <;>
    simp [releasePortmapMapping, Mapper.release, mapper, hm, hp]

theorem gatherPortmap_mapper :
    (s.gatherPortmap env).mapper = s.mapper ∨ s.mapper.present = true ∧
      ∃ port ext kept, (s.gatherPortmap env).mapper = s.mapper.obtain port ext kept := by
  unfold gatherPortmap
  split
  · exact .inl rfl
  · rename_i hskip
    split
    · exact .inl rfl
    · rename_i ext _
      have hpresent : s.mapper.present = true := by
        simp only [Bool.or_eq_true, Bool.not_eq_true', not_or, Bool.not_eq_false] at hskip
        exact hskip.1.1.1
      refine .inr ⟨hpresent, s.localPort, ext, s.portmapUsable env ext, ?_⟩
      dsimp only
      generalize s.portmapUsable env ext = kept
      generalize hu : s.drawn.noteObtained kept = u
      have hport : u.localPort = s.localPort := hu ▸ rfl
      have hmapper : u.mapper = ⟨s.hasPortmap, s.portmapMapping,
        .obtained s.localPort s.portmapMapping kept :: s.portmapCalls⟩ := hu ▸ rfl
      cases kept with
      | false => exact hmapper
      | true =>
        have hpush := (pushLocal_retains u (portmapCandidate env.net ext)).mapper
        rw [hmapper] at hpush
        rw [if_pos rfl, hport]
        generalize u.pushLocal (portmapCandidate env.net ext) = v at hpush ⊢
        have hpresent' : v.hasPortmap = s.hasPortmap := congrArg Mapper.present hpush
        have hcalls : v.portmapCalls = .obtained s.localPort s.portmapMapping true ::
          s.portmapCalls := congrArg Mapper.calls hpush
        simp only [mapper, Mapper.obtain, hpresent', hcalls, if_true]

inductive Asks (m : Mapper) : Mapper → Prop
  | nothing : Asks m m
  | obtain (port : ℕ) (ext : Endpoint) (kept : Bool) (h : m.present = true) :
      Asks m (m.obtain port ext kept)
  | release : Asks m m.release

theorem gatherPortmap_asks : Asks s.mapper (s.gatherPortmap env).mapper := by
  rcases gatherPortmap_mapper with h | ⟨hp, port, ext, kept, h⟩
  · exact h ▸ .nothing
  · exact h ▸ .obtain port ext kept hp

theorem Roams.asks (h : Roams env s t) : Asks s.mapper t.mapper := by
  rcases h with h | ⟨u, hu, h⟩
  · exact h.mapper ▸ .nothing
  · rw [h.mapper, ← hu.mapper]
    exact gatherPortmap_asks

theorem onNominated_asks {origin : NominationOrigin} {ep : Endpoint} {relay : Bool} {cid : Cid}
    {tx : TransportType} : Asks s.mapper (s.onNominated env origin ep relay cid tx).mapper := by
  rw [onNominated_eq, (beginPathMtu_measures env _).mapper]
  have hmapper : (s.announced env origin ep relay cid tx).mapper = s.mapper :=
    congrArg Holdings.mapper announced_holdings
  rw [← hmapper]
  exact (onKeepalive_roams env _).asks

theorem Passage.asks (h : Passage env s t) : Asks s.mapper t.mapper := by
  cases h with
  | kept h => exact h.mapper ▸ .nothing
  | acked _ ht =>
    rw [ht, (onPathMtuAck_measures).mapper]
    exact .nothing
  | expired gen _ _ ht =>
    rw [ht, (onPathMtuProbeTimeout_measures).mapper]
    exact .nothing
  | stale gen _ ht => exact ht ▸ .nothing
  | gathered u hu ht =>
    rw [ht.mapper, ← hu.mapper]
    exact gatherPortmap_asks
  | closed u hu ht =>
    rw [ht.mapper, releasePortmapMapping_mapper, ← hu.mapper]
    exact .release
  | nominated v origin ep relay cid tx hv ht =>
    rw [ht.mapper, ← hv.mapper]
    exact onNominated_asks

theorem sendPosted_mapper {buf : Bytes} : (s.sendPosted env buf).mapper = s.mapper := by
  obtain ⟨pending, handed, h⟩ := sendPosted_holdings
  exact congrArg Holdings.mapper h

theorem step_asks (H : Hmac) (env : Env) (s : Session) (e : Event) :
    Asks s.mapper (s.step H env e).mapper := by
  by_cases he : ∃ buf, e = .send buf
  · obtain ⟨buf, rfl⟩ := he
    have hsend : (s.step H env (.send buf)).mapper = s.mapper := sendPosted_mapper
    exact hsend ▸ .nothing
  · obtain ⟨u, hu, -, hp⟩ := step_passage fun buf hb => he ⟨buf, hb⟩
    rw [← hu.mapper]
    exact hp.asks

theorem Asks.sound (h : Asks m n) (hs : m.Sound) : n.Sound := by
  cases h with
  | nothing => exact hs
  | obtain port ext kept hp => exact hs.obtain hp port ext kept
  | release => exact hs.release

theorem run_sound (H : Hmac) (env : Env) (hs : s.mapper.Sound) (es : List Event) :
    (s.run H env es).mapper.Sound :=
  run_invariant (I := fun s => s.mapper.Sound) (fun s e h => (step_asks H env s e).sound h) hs es

theorem Asks.covers_iff (h : Asks m n) (hs : m.Sound) (hc : m.Covers)
    (hr : ∀ c ∈ m.calls, c.remembered) : n.Covers ↔ ∀ c ∈ n.calls, c.remembered := by
  cases h with
  | nothing => exact ⟨fun _ => hr, fun _ => hc⟩
  | obtain port ext kept =>
    rw [Mapper.covers_obtain hs hc]
    exact ⟨fun h => forall_mem_cons.mpr ⟨h, hr⟩, fun h => (forall_mem_cons.mp h).1⟩
  | release =>
    refine ⟨fun _ c hmem => ?_, fun _ => hc.release⟩
    unfold Mapper.release at hmem
    split_ifs at hmem
    · split at hmem
      · exact hr c hmem
      · rcases mem_cons.mp hmem with rfl | hmem
        exacts [trivial, hr c hmem]
    · exact hr c hmem

theorem Asks.calls_suffix (h : Asks m n) : m.calls <:+ n.calls := by
  cases h with
  | nothing => exact suffix_refl _
  | obtain port ext kept => exact suffix_cons _ _
  | release =>
    unfold Mapper.release
    split_ifs
    · split
      exacts [suffix_refl _, suffix_cons _ _]
    · exact suffix_refl _

theorem run_covers_iff (hs : s.mapper.Sound) (hc : s.mapper.Covers)
    (hr : ∀ c ∈ s.portmapCalls, c.remembered) {es : List Event} :
    (∀ fs, fs <+: es → (s.run H env fs).mapper.Covers) ↔
      ∀ c ∈ (s.run H env es).portmapCalls, c.remembered := by
  induction es using List.reverseRecOn with
  | nil =>
    simp only [prefix_nil, forall_eq]
    exact ⟨fun _ => hr, fun _ => hc⟩
  | append_singleton es e ih =>
    have hstep := step_asks H env (s.run H env es) e
    have hrun : s.run H env (es ++ [e]) = (s.run H env es).step H env e := by
      rw [run_append]
      rfl
    simp only [prefix_concat_iff, forall_eq_or_imp, ih, hrun]
    constructor
    · rintro ⟨hlast, hall⟩
      have hcov := ih.mpr hall es (prefix_refl es)
      exact (hstep.covers_iff (run_sound H env hs es) hcov hall).mp hlast
    · intro hall
      have hold : ∀ c ∈ (s.run H env es).portmapCalls, c.remembered := fun c hmem =>
        hall c (hstep.calls_suffix.subset hmem)
      have hcov := ih.mpr hold es (prefix_refl es)
      exact ⟨(hstep.covers_iff (run_sound H env hs es) hcov hold).mpr hall, hold⟩

theorem closeTeardown_mapper : (s.closeTeardown env).mapper = s.mapper.release := by
  obtain ⟨u, hu, hclosed⟩ := closeTeardown_retains
  rw [hclosed.mapper, releasePortmapMapping_mapper, hu.mapper]

theorem destroy_mapper : (s.destroy env).mapper = s.mapper.release := by
  unfold destroy
  extract_lets cancelled u
  have hu : u.mapper = s.mapper := rfl
  rw [releasePortmapMapping_mapper, (unregisterMdns_retains _).mapper,
    (turnBackupProbeClose_retains env _).mapper, (turnClose_retains env u).mapper, hu]

/-- No mapping is released that is not held. Wherever the session is closed or destroyed nothing
stays behind, exactly if each request that succeeded found the session without a mapping and
had its own remembered, or found it with a mapping of the same port. -/
theorem port_mappings_given_back_iff (H : Hmac) (env : Env) (cfg : IceConfig) (w : Wiring)
    (controlling : Bool) (tiebreaker : ℕ) (es : List Event) :
    let s := create env cfg w controlling tiebreaker
    ReleasesHeld ((s.run H env es).destroy env).portmapCalls ∧
      ((∀ fs, fs <+: es → held ((s.run H env fs).closeTeardown env).portmapCalls = ∅ ∧
          held ((s.run H env fs).destroy env).portmapCalls = ∅) ↔
        ∀ c ∈ (s.run H env es).portmapCalls, c.remembered) := by
  intro s
  have hsound : s.mapper.Sound := ⟨nofun, trivial, fun _ => rfl⟩
  have hcovers : s.mapper.Covers := nofun
  constructor
  · have hdestroy : ((s.run H env es).destroy env).mapper.Sound := by
      rw [destroy_mapper]
      exact (run_sound H env hsound es).release
    exact hdestroy.releases
  · rw [← run_covers_iff hsound hcovers nofun]
    refine forall₂_congr fun fs _ => ?_
    have hheld := Mapper.held_release (run_sound H env hsound fs)
    rw [show ((s.run H env fs).closeTeardown env).portmapCalls = _ from
        congrArg Mapper.calls closeTeardown_mapper,
      show ((s.run H env fs).destroy env).portmapCalls = _ from
        congrArg Mapper.calls destroy_mapper, and_self]
    exact hheld

/-- A router that maps every port to its own address, for a host that never gets the same port
twice. -/
def mappedLan : Env :=
  { Env.lan with
    listenPort := fun n => 5000 + n
    portmap := fun _ => some ⟨Inet.dotted 203 0 113 7, 7000⟩ }

/-- A restart takes a new local port and a new mapping, and the old one is never released. -/
theorem restart_forgets_mapping :
    let s := create mappedLan {} { portmap := true } true 1
    ∀ H : Hmac,
      held (s.run H mappedLan [.gather, .restart, .close, .task .closeTeardown]).portmapCalls =
        {5001} := by
  intro s H
  rw [run_isLocal (by decide) H zeroHmac]
  decide +kernel

end Session

end LinkIce
