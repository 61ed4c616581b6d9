import LinkIce.Link.Reload
import LinkIce.Session.Nominee
import Mathlib.Data.List.ReduceOption

/-! From the STUN entries of the configuration to the probes of a session: which of the forms
that an operator may write make a session probe the server they name. -/
namespace LinkIce

open List

open Stun

variable {a b : Bytes} {sdk : Sdk} {h : HostName}

/-! ### Host names and the URI parser -/

def isControl (c : UInt8) : Bool := c < 0x20 || c = 0x7F

/-- Nothing in an authority that a service URI gives a meaning of its own. -/
structure PlainAuthority (a : Bytes) : Prop where
  nonempty : a ≠ []
  slash : 0x2F ∉ a
  userinfo : 0x40 ∉ a
  bracket : 0x5B ∉ a
  control : ∀ c ∈ a, isControl c = false

theorem control_of_all (h : b.all (fun c => !isControl c) = true) :
    ∀ c ∈ b, isControl c = false := by
  intro c hc
  simpa using all_eq_true.mp h c hc

structure HostName where
  bytes : Bytes
  plain : PlainAuthority bytes
  colon : colon ∉ bytes

def isPortText (b : Bytes) : Bool := !b.isEmpty && b.all fun c => 0x30 ≤ c && c ≤ 0x39

/-- What is assumed of the SDK: it finds control bytes only where there are some, reads
`scheme://host:port` and refuses a port that is missing or not a number. -/
structure Sdk.SplitsHostPort (sdk : Sdk) : Prop where
  control : ∀ b, (∀ c ∈ b, isControl c = false) → sdk.uriHasControlBytes b = false
  accepts : ∀ (scheme : ServiceScheme) (h : HostName) (p : ℕ), 1 ≤ p → p ≤ 65535 →
    sdk.parseUri (scheme.name ++ text "://" ++ hostColonPort h.bytes p) = some (h.bytes, p)
  rejects : ∀ (scheme : ServiceScheme) (h : HostName) (port : Bytes), isPortText port = false →
    sdk.parseUri (scheme.name ++ text "://" ++ (h.bytes ++ [colon] ++ port)) = none
  host : ∀ (scheme : ServiceScheme) (h : HostName) (port : Bytes) (r : Bytes × ℕ),
    sdk.parseUri (scheme.name ++ text "://" ++ (h.bytes ++ [colon] ++ port)) = some r →
      r.1 = h.bytes

namespace HostName

variable (h) {p : ℕ}

theorem hostColonPort_plain : PlainAuthority (hostColonPort h.bytes p) := by
  have hmem {c : UInt8} (hc : c ∈ hostColonPort h.bytes p) :
      c ∈ h.bytes ∨ c = LinkIce.colon ∨ c ∈ decimal p := by
    simpa [hostColonPort, or_assoc] using hc
  have hout {c : UInt8} (hh : c ∉ h.bytes) (hcolon : c ≠ LinkIce.colon) (hd : c ∉ decimal p) :
      c ∉ hostColonPort h.bytes p := by
    intro hc
    rcases hmem hc with hc | hc | hc
    exacts [hh hc, hcolon hc, hd hc]
  have hdigit {c : UInt8} (hc : c.toNat < 48 ∨ 57 < c.toNat) : c ∉ decimal p := by
    intro hmem
    have := toNat_of_mem_decimal hmem
    omega
  constructor
  · simp [hostColonPort]
  · exact hout h.plain.slash (by decide) (hdigit (by decide))
  · exact hout h.plain.userinfo (by decide) (hdigit (by decide))
  · exact hout h.plain.bracket (by decide) (hdigit (by decide))
  · intro c hc
    rcases hmem hc with hc | rfl | hc
    · exact h.plain.control c hc
    · decide
    · obtain ⟨hlow, hhigh⟩ := toNat_of_mem_decimal hc
      simp only [isControl, Bool.or_eq_false_iff, decide_eq_false_iff_not, UInt8.lt_iff_toNat_lt]
      constructor
      · change ¬ c.toNat < 32
        omega
      · rintro rfl
        exact absurd hhigh (by decide)

def stun : HostName where
  bytes := text "stun"
  plain := ⟨by decide, by decide, by decide, by decide, control_of_all (by decide)⟩
  colon := by decide

end HostName

/-! ### Service URIs -/

theorem afterLast_eq_self {c : UInt8} (h : c ∉ b) : afterLast c b = b := by
  have hall : ∀ x ∈ b.reverse, decide (x ≠ c) = true := by
    intro x hx
    have hxc : x ≠ c := fun he => h (he ▸ mem_reverse.mp hx)
    simpa using hxc
  rw [afterLast, takeWhile_eq_self_iff.mpr hall, reverse_reverse]

theorem PlainAuthority.head? (ha : PlainAuthority a) : a.head? ≠ some 0x5B :=
  fun h => ha.bracket (mem_of_mem_head? h)

theorem serviceAuthority_plain (ha : PlainAuthority a) {slashes : Bool} :
    serviceAuthority ((if slashes then text "//" else []) ++ a) = some a := by
  have hfinish : (if afterLast 0x40 a = [] ∨ (afterLast 0x40 a).head? = some 0x5B then none
      else some (afterLast 0x40 a)) = some a := by
    rw [afterLast_eq_self ha.userinfo, if_neg (not_or.mpr ⟨ha.nonempty, ha.head?⟩)]
  cases slashes with
  | true => exact hfinish
  | false =>
    have hslash : a.take 2 ≠ text "//" := by
      intro h
      have hmem : (0x2F : UInt8) ∈ a.take 2 := by
        rw [h]
        decide
      exact ha.slash (mem_of_mem_take hmem)
    simp only [Bool.false_eq_true, if_false, nil_append, serviceAuthority, if_neg ha.nonempty,
      if_neg hslash]
    exact hfinish

theorem parseServiceUri_stun (hsdk : sdk.SplitsHostPort) {rest : Bytes}
    (hrest : ∀ c ∈ rest, isControl c = false) :
    parseServiceUri sdk (text "stun:" ++ rest) = (serviceAuthority rest).bind fun a =>
      if colon ∉ a then some ⟨.stun, a, 0⟩
      else (sdk.hostPort (ServiceScheme.stun.name ++ text "://" ++ a)).map fun r =>
        ⟨.stun, r.1, r.2⟩ := by
  have hcontrol : sdk.uriHasControlBytes (text "stun:" ++ rest) = false := by
    refine hsdk.control _ fun c hc => ?_
    rcases mem_append.mp hc with hc | hc
    · exact control_of_all (by decide) c hc
    · exact hrest c hc
  have hcolon : colon ∈ text "stun:" ++ rest := mem_append_left _ (by decide)
  have htake : (text "stun:" ++ rest).takeWhile (· ≠ colon) = text "stun" := rfl
  have hdrop : ((text "stun:" ++ rest).dropWhile (· ≠ colon)).drop 1 = rest := rfl
  have hscheme : ServiceScheme.ofName (text "stun") = some .stun := rfl
  unfold parseServiceUri
  rw [hcontrol, htake, hdrop, hscheme]
  simp only [hcolon, not_true_eq_false, decide_false, Bool.or_self, Bool.false_eq_true, if_false]
  cases serviceAuthority rest with
  | none => rfl
  | some a =>
    by_cases ha : colon ∈ a
    · simp only [Option.bind_eq_bind, Option.bind_some, ha, not_true_eq_false, if_false]
      cases sdk.hostPort (ServiceScheme.stun.name ++ text "://" ++ a) <;> rfl
    · simp [ha]

/-! ### The forms of an entry -/

/-- The host alone, or a URI with or without slashes and with or without a port. -/
inductive StunForm
  | bare
  | service (slashes port : Bool)

namespace StunForm

variable (h) (p : ℕ)

def entry : StunForm → Bytes
  | bare => h.bytes
  | service slashes port =>
    text "stun:" ++ ((if slashes then text "//" else []) ++
      if port then hostColonPort h.bytes p else h.bytes)

def server : StunForm → Endpoint
  | service _ true => ⟨h.bytes, p⟩
  | _ => ⟨h.bytes, 3478⟩

def complete : StunForm → Bool
  | bare => true
  | service _ port => port

end StunForm

section forms

variable (h) {p : ℕ} {slashes : Bool}

theorem hostPort_hostColonPort (hsdk : sdk.SplitsHostPort) (hp : 1 ≤ p ∧ p ≤ 65535) :
    sdk.hostPort (ServiceScheme.stun.name ++ text "://" ++ hostColonPort h.bytes p) =
      some (h.bytes, p) := by
  rw [Sdk.hostPort, hsdk.accepts .stun h p hp.1 hp.2]
  have hkeep : h.bytes ≠ [] ∧ p ≠ 0 := ⟨h.plain.nonempty, Nat.ne_zero_of_lt hp.1⟩
  simp [hkeep]

private theorem control_slashes_append (ha : PlainAuthority a) :
    ∀ c ∈ (if slashes then text "//" else []) ++ a, isControl c = false := by
  intro c hc
  rcases mem_append.mp hc with hc | hc
  · cases slashes with
    | true => exact control_of_all (by decide) c hc
    | false => cases hc
  · exact ha.control c hc

theorem parseServiceUri_plain (hsdk : sdk.SplitsHostPort) (ha : PlainAuthority a) :
    parseServiceUri sdk (text "stun:" ++ ((if slashes then text "//" else []) ++ a)) =
      if colon ∉ a then some ⟨.stun, a, 0⟩
      else (sdk.hostPort (ServiceScheme.stun.name ++ text "://" ++ a)).map fun r =>
        ⟨.stun, r.1, r.2⟩ := by
  rw [parseServiceUri_stun hsdk (control_slashes_append ha), serviceAuthority_plain ha,
    Option.bind_some]

variable {c : HostConfig}

theorem pushStun_hostPort (hsdk : sdk.SplitsHostPort) (hp : 1 ≤ p ∧ p ≤ 65535) :
    c.pushStun sdk ((StunForm.service slashes true).entry h p) = [hostColonPort h.bytes p] := by
  have hcolon : colon ∈ hostColonPort h.bytes p := by simp [hostColonPort]
  have hparse : parseServiceUri sdk ((StunForm.service slashes true).entry h p) =
      some ⟨.stun, h.bytes, p⟩ := by
    refine (parseServiceUri_plain hsdk h.hostColonPort_plain).trans ?_
    rw [if_neg (not_not.mpr hcolon), hostPort_hostColonPort h hsdk hp]
    rfl
  unfold HostConfig.pushStun
  rw [hparse, Option.filter_some_pos rfl]
  exact if_pos (Nat.ne_zero_of_lt hp.1)

theorem pushStun_host (hsdk : sdk.SplitsHostPort)
    (hsrv : (c.dns.elim [] fun dns => resolveService dns .stun h.bytes 16) = []) :
    c.pushStun sdk ((StunForm.service slashes false).entry h p) =
      [(StunForm.service slashes false).entry h p] := by
  have hparse : parseServiceUri sdk ((StunForm.service slashes false).entry h p) =
      some ⟨.stun, h.bytes, 0⟩ := by
    refine (parseServiceUri_plain hsdk h.plain).trans ?_
    rw [if_pos h.colon]
  unfold HostConfig.pushStun
  rw [hparse, Option.filter_some_pos rfl]
  dsimp only
  rw [if_neg (not_not.mpr rfl), hsrv]

theorem pushStun_bare : c.pushStun sdk (StunForm.bare.entry h p) = [h.bytes] := by
  have hparse : parseServiceUri sdk h.bytes = none := by
    unfold parseServiceUri
    rw [if_pos (by simp [h.colon])]
  simp [HostConfig.pushStun, StunForm.entry, hparse]

theorem splitStunHostPort_hostColonPort (hsdk : sdk.SplitsHostPort) (hp : 1 ≤ p ∧ p ≤ 65535) :
    splitStunHostPort sdk (hostColonPort h.bytes p) = some ⟨h.bytes, p⟩ := by
  have hcolon : colon ∈ hostColonPort h.bytes p := by simp [hostColonPort]
  have hsplit := hostPort_hostColonPort h hsdk hp
  unfold splitStunHostPort
  rw [if_neg (ne_nil_of_mem hcolon), if_neg (not_not.mpr hcolon)]
  exact congrArg (Option.map fun r => (⟨r.1, r.2⟩ : Endpoint)) hsplit

private theorem splitStunHostPort_host (hsdk : sdk.SplitsHostPort) :
    splitStunHostPort sdk ((StunForm.service slashes false).entry h p) ≠ some ⟨h.bytes, 3478⟩ := by
  intro hsplit
  have hne : (StunForm.service slashes false).entry h p ≠ [] := by simp [StunForm.entry, text]
  have hcolon : colon ∈ (StunForm.service slashes false).entry h p :=
    mem_append_left _ (by decide)
  unfold splitStunHostPort at hsplit
  rw [if_neg hne, if_neg (not_not.mpr hcolon)] at hsplit
  obtain ⟨r, hr, hserver⟩ := Option.map_eq_some_iff.mp hsplit
  have hparse := (Option.filter_eq_some_iff.mp hr).1
  -- the scheme has taken the host's place
  have hhost : h.bytes = text "stun" :=
    (congrArg Endpoint.ip hserver).symm.trans (hsdk.host .stun .stun _ r hparse)
  have hrejects := hsdk.rejects .stun .stun ((if slashes then text "//" else []) ++ h.bytes) (by
    rw [hhost]
    cases slashes <;> decide)
  exact absurd (hrejects.symm.trans hparse) nofun

theorem server_mem_iff (hsdk : sdk.SplitsHostPort) (hp : 1 ≤ p ∧ p ≤ 65535)
    (hsrv : (c.dns.elim [] fun dns => resolveService dns .stun h.bytes 16) = [])
    (form : StunForm) :
    some (form.server h p) ∈ (c.pushStun sdk (form.entry h p)).map (splitStunHostPort sdk) ↔
      form.complete = true := by
  cases form with
  | bare =>
    have hsplit : splitStunHostPort sdk h.bytes = some ⟨h.bytes, 3478⟩ := by
      unfold splitStunHostPort
      rw [if_neg h.plain.nonempty, if_pos h.colon]
    rw [pushStun_bare, map_singleton, hsplit]
    exact iff_of_true (mem_singleton.mpr rfl) rfl
  | service slashes port =>
    cases port with
    | true =>
      rw [pushStun_hostPort h hsdk hp, map_singleton, splitStunHostPort_hostColonPort h hsdk hp]
      exact iff_of_true (mem_singleton.mpr rfl) rfl
    | false =>
      rw [pushStun_host h hsdk hsrv, map_singleton, mem_singleton]
      exact iff_of_false (splitStunHostPort_host h hsdk).symm Bool.false_ne_true

end forms

/-! ### The probes of a session -/

namespace Session

variable {env : Env} {s u : Session} {ep : Endpoint} {eps : List Endpoint}

/-- The servers, each with the state in which the loop over them comes to it. -/
def probeStarts (env : Env) : Session → List Endpoint → List (Session × Endpoint)
  | _, [] => []
  | s, ep :: eps => (s, ep) :: probeStarts env (s.probeServer env false ep) eps

def gatherRequest (env : Env) (u : Session) (ep : Endpoint) : Effect :=
  let r := u.ensureRemoteCid env ep
  .udpSend r.1 (.stun ⟨bindingRequest, env.txnId r.2.draws, []⟩)

/-- The session turns to the server when it probes, and unless no connection can be opened to it,
a binding request is sent. -/
def AttemptsProbe (env : Env) (s : Session) (ep : Endpoint) : Prop :=
  ∃ u, (u, ep) ∈ probeStarts env { s with pendingStunProbes := [] }
      s.cfg.stunServers.reduceOption ∧
    ((u.ensureRemoteCid env ep).1 ≠ 0 → gatherRequest env u ep ∈ (s.stunProbes env).log)

theorem mem_probeStarts : (∃ u, (u, ep) ∈ probeStarts env s eps) ↔ ep ∈ eps := by
  induction eps generalizing s with
  | nil => simp [probeStarts]
  | cons e eps ih =>
    simp only [probeStarts, mem_cons, Prod.mk.injEq, exists_or, ih]
    simp

private theorem probeServer_sends (hcid : (s.ensureRemoteCid env ep).1 ≠ 0) :
    gatherRequest env s ep ∈ (s.probeServer env false ep).log := by
  have hcarrier : (s.ensureRemoteCid env ep).2.hasCarrier = true :=
    (congrArg Core.hasCarrier (ensureRemoteCid_quiet env s ep).core).trans (hasCarrier_of_cid hcid)
  unfold probeServer routeTo
  simp only [Bool.false_eq_true, if_false, if_neg hcid]
  rw [carrierSend_udp_logs]
  · exact mem_cons_self
  · exact hcarrier

theorem probeStarts_sends (hu : (u, ep) ∈ probeStarts env s eps)
    (hcid : (u.ensureRemoteCid env ep).1 ≠ 0) :
    gatherRequest env u ep ∈ (eps.foldl (fun s ep => s.probeServer env false ep) s).log := by
  induction eps generalizing s with
  | nil => cases hu
  | cons e eps ih =>
    rw [foldl_cons]
    rcases mem_cons.mp hu with hu | hu
    · obtain ⟨rfl, rfl⟩ := Prod.mk.inj hu
      have hrest : Quiet (u.probeServer env false ep)
          (eps.foldl (fun s ep => s.probeServer env false ep) (u.probeServer env false ep)) :=
        .foldl (fun s ep => probeServer_quiet env s false ep) _ _
      obtain ⟨new, hlog, -⟩ := hrest.log
      rw [hlog]
      exact mem_append_right _ (probeServer_sends hcid)
    · exact ih hu

private theorem probeServers_log_suffix :
    (probeServers env false { s with pendingStunProbes := [] }).log <:+ (s.stunProbes env).log := by
  have hstart : Steps env Set.univ (probeServers env false { s with pendingStunProbes := [] })
      (s.startMultiStunProbes env) := by
    unfold startMultiStunProbes
    generalize probeServers env false { s with pendingStunProbes := [] } = t
    dsimp only
    split_ifs
    · exact onGatheringComplete_steps trivial trivial fun _ _ _ => trivial
    · exact steps_work (armGatherTimer_works _) (armGatherTimer_stays _) trivial
  exact steps_log_suffix (hstart.trans (steps_quiet (gatherTcpServerReflexive_quiet env _)))

theorem attemptsProbe_iff : s.AttemptsProbe env ep ↔ some ep ∈ s.cfg.stunServers := by
  rw [← reduceOption_mem_iff]
  constructor
  · rintro ⟨u, hu, -⟩
    exact mem_probeStarts.mp ⟨u, hu⟩
  · intro hep
    obtain ⟨u, hu⟩ := mem_probeStarts.mpr hep
    refine ⟨u, hu, fun hcid => ?_⟩
    exact probeServers_log_suffix.subset (probeStarts_sends hu hcid)

theorem stunProbes_mem_gather (h : s.cfg.stunServers ≠ []) :
    .stunProbes ∈ (s.gather env).queue := by
  have hcfg : ((s.setState .gathering).gatherCandidates env).cfg = s.cfg :=
    congrArg Core.cfg gatherCandidates_gathers.core
  unfold gather
  dsimp only
  rw [hcfg, if_neg h]
  exact mem_cons_self

end Session

/-! ### The whole way -/

/-- However it was configured before and whatever else it is configured with, a link that has read
the entry without finding service records makes its next session probe the server. -/
def ProbesEntry (sdk : Sdk) (h : HostName) (entry : Bytes) (server : Endpoint) : Prop :=
  ∀ (cs : List ConfigCall) (c : HostConfig), (cs.filterMap ConfigCall.content?).getLast? = some c →
    entry ∈ (c.strings "ice.stun_servers").getD [] →
    (c.dns.elim [] fun dns => resolveService dns .stun h.bytes 16) = [] →
    ∀ (env : Env) (s : Session), s.cfg = (Settings.run sdk cs).cfg.handed sdk →
      .stunProbes ∈ (s.gather env).queue ∧
        ∀ t : Session, t.cfg = s.cfg → t.AttemptsProbe env server

theorem stunServers_of_content {cs : List ConfigCall} {c : HostConfig}
    {raws : List Bytes} (hc : (cs.filterMap ConfigCall.content?).getLast? = some c)
    (hraws : c.strings "ice.stun_servers" = some raws) :
    ((Settings.run sdk cs).cfg.handed sdk).stunServers =
      raws.flatMap fun raw => (c.pushStun sdk raw).map (splitStunHostPort sdk) := by
  have hop := congrArg LinkConfig.stunServers (Settings.run_operator sdk cs)
  rw [hc] at hop
  have hread : (Settings.run sdk cs).cfg.stunServers = raws.flatMap (c.pushStun sdk) := by
    refine hop.trans ?_
    change (c.readServers sdk { stunServers := defaultStunServers }).stunServers = _
    simp only [HostConfig.readServers, hraws]
  unfold LinkConfig.handed
  rw [hread, map_flatMap]

def HostConfig.ofEntry (entry : Bytes) : HostConfig where
  getArraySize key := if key = "ice.stun_servers" then some 1 else none
  getArrayString key _ := if key = "ice.stun_servers" then some entry else none

/-- An entry is enough if and only if it brings its server about by itself. -/
theorem probesEntry_iff {entry : Bytes} {server : Endpoint}
    {found : Prop} (hmem : ∀ c : HostConfig,
      (c.dns.elim [] fun dns => resolveService dns .stun h.bytes 16) = [] →
        (some server ∈ (c.pushStun sdk entry).map (splitStunHostPort sdk) ↔ found)) :
    ProbesEntry sdk h entry server ↔ found := by
  constructor
  · intro hprobes
    let cs : List ConfigCall := [.applyConfig (some (.ofEntry entry))]
    obtain ⟨-, hall⟩ := hprobes cs (.ofEntry entry) rfl (mem_singleton.mpr rfl) rfl .lan
      (.create .lan ((Settings.run sdk cs).cfg.handed sdk) {} true 7) rfl
    have hserver := Session.attemptsProbe_iff.mp (hall _ rfl)
    have hraws : (HostConfig.ofEntry entry).strings "ice.stun_servers" = some [entry] := rfl
    rw [Session.create, stunServers_of_content rfl hraws, flatMap_singleton] at hserver
    exact (hmem (.ofEntry entry) rfl).mp hserver
  · intro hfound cs c hc hentry hsrv env s hs
    cases hraws : c.strings "ice.stun_servers" with
    | none =>
      rw [hraws] at hentry
      cases hentry
    | some raws =>
      rw [hraws] at hentry
      have hserver : some server ∈ s.cfg.stunServers := by
        rw [hs, stunServers_of_content hc hraws]
        exact mem_flatMap.mpr ⟨entry, hentry, (hmem c hsrv).mpr hfound⟩
      refine ⟨Session.stunProbes_mem_gather (ne_nil_of_mem hserver), fun t ht => ?_⟩
      exact Session.attemptsProbe_iff.mpr (ht ▸ hserver)

/-- Without service records, an entry makes the session probe the server it names if and only if
it has a port or is no URI. -/
theorem stun_entry_probed_iff {sdk : Sdk} (hsdk : sdk.SplitsHostPort) (h : HostName) {p : ℕ}
    (hp : 1 ≤ p ∧ p ≤ 65535) (form : StunForm) :
    ProbesEntry sdk h (form.entry h p) (form.server h p) ↔ form.complete = true :=
  probesEntry_iff fun _ hsrv => server_mem_iff h hsdk hp hsrv form

/-! ### A parser -/

def portNumber (b : Bytes) : ℕ := Nat.ofDigitChars 10 (b.map fun c => Char.ofNat c.toNat) 0

theorem portNumber_decimal {n : ℕ} : portNumber (decimal n) = n := by
  have hchars : (decimal n).map (fun c => Char.ofNat c.toNat) = Nat.toDigits 10 n := by
    rw [decimal, map_map]
    refine (map_congr_left fun c hc => ?_).trans (map_id _)
    have hdigit := Nat.isDigit_of_mem_toDigits (by decide) (by decide) hc
    simp only [Char.isDigit, Bool.and_eq_true, decide_eq_true_eq] at hdigit
    have hhigh : c.toNat ≤ 57 := UInt32.le_iff_toNat_le.mp hdigit.2
    rw [Function.comp_apply, UInt8.toNat_ofNat_of_lt' (Nat.lt_of_le_of_lt hhigh (by decide))]
    exact Char.ofNat_toNat c
  rw [portNumber, hchars]
  exact Nat.ofDigitChars_toDigits (by decide) (by decide)

/-- A URI parser that knows schemes of four letters, hosts and ports. -/
def Sdk.plain : Sdk where
  uriHasControlBytes b := b.any isControl
  parseUri uri :=
    let authority := uri.drop 7
    let port := (authority.dropWhile (· ≠ colon)).drop 1
    if isPortText port then some (authority.takeWhile (· ≠ colon), portNumber port) else none

theorem Sdk.plain_parseUri {scheme : ServiceScheme} {port : Bytes} :
    Sdk.plain.parseUri (scheme.name ++ text "://" ++ (h.bytes ++ [colon] ++ port)) =
      if isPortText port then some (h.bytes, portNumber port) else none := by
  have hdrop : (scheme.name ++ text "://" ++ (h.bytes ++ [colon] ++ port)).drop 7 =
      h.bytes ++ colon :: port := by
    rw [append_assoc h.bytes]
    cases scheme <;> rfl
  have hpass : ∀ c ∈ h.bytes, decide (c ≠ colon) = true := by
    intro c hc
    have hne : c ≠ colon := fun he => h.colon (he ▸ hc)
    simpa using hne
  have htake : (h.bytes ++ colon :: port).takeWhile (· ≠ colon) = h.bytes := by
    rw [takeWhile_append_of_pos hpass]
    simp
  have hrest : ((h.bytes ++ colon :: port).dropWhile (· ≠ colon)).drop 1 = port := by
    rw [dropWhile_append_of_pos hpass]
    simp
  unfold Sdk.plain
  dsimp only
  rw [hdrop, htake, hrest]

theorem Sdk.plain_splitsHostPort : Sdk.plain.SplitsHostPort where
  control b hb := any_eq_false.mpr fun c hc => by simp [hb c hc]
  accepts scheme h p _ _ := by
    have hdigits : isPortText (decimal p) = true := by
      have hne : decimal p ≠ [] := by simp [decimal]
      have hall : (decimal p).all (fun c => 0x30 ≤ c && c ≤ 0x39) = true := by
        refine all_eq_true.mpr fun c hc => ?_
        obtain ⟨hlow, hhigh⟩ := toNat_of_mem_decimal hc
        rw [Bool.and_eq_true, decide_eq_true_eq, decide_eq_true_eq]
        exact ⟨UInt8.le_iff_toNat_le.mpr hlow, UInt8.le_iff_toNat_le.mpr hhigh⟩
      rw [isPortText, hall, isEmpty_eq_false_iff.mpr hne]
      rfl
    rw [hostColonPort, Sdk.plain_parseUri, if_pos hdigits, portNumber_decimal]
  rejects scheme h port hport := by
    rw [Sdk.plain_parseUri, if_neg (by simp [hport])]
  host scheme h port r hr := by
    rw [Sdk.plain_parseUri] at hr
    split_ifs at hr
    rw [← Option.some.inj hr]

def HostName.exampleOrg : HostName where
  bytes := text "stun.example.org"
  plain := ⟨by decide, by decide, by decide, by decide, control_of_all (by decide)⟩
  colon := by decide

theorem stun_entry_with_port_probed :
    ProbesEntry .plain .exampleOrg (text "stun://stun.example.org:5349")
      ⟨text "stun.example.org", 5349⟩ :=
  (stun_entry_probed_iff Sdk.plain_splitsHostPort .exampleOrg (p := 5349) (by decide)
    (.service true true)).mpr rfl

/-- Nobody probes the host of a URI that has no port. -/
theorem stun_entry_without_port_lost :
    Sdk.plain.SplitsHostPort ∧
      ¬ ProbesEntry .plain .exampleOrg (text "stun:stun.example.org")
        ⟨text "stun.example.org", 3478⟩ := by
  refine ⟨Sdk.plain_splitsHostPort, fun hprobes => ?_⟩
  have hnone (c : HostConfig)
      (hsrv : (c.dns.elim [] fun dns => resolveService dns .stun HostName.exampleOrg.bytes 16) =
        []) :=
    server_mem_iff .exampleOrg Sdk.plain_splitsHostPort (p := 1) (by decide) hsrv
      (.service false false)
  exact Bool.false_ne_true ((probesEntry_iff hnone).mp hprobes)

end LinkIce
