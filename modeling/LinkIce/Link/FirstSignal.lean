import LinkIce.Link.Addressing
import LinkIce.Session.EndOfCandidates
import LinkIce.Session.Publication
import LinkIce.Session.RoleConflict

/-! The signal with which an initiator introduces itself, and what the link of its peer makes
of it. -/
namespace LinkIce
open Stun

theorem deserializeSignal_packed {ufrag pwd : Bytes} {cands : List Candidate} {flags : ℕ}
    {d : DecodedSignal} (h : deserializeSignal (serializeSignal ufrag pwd cands flags) = some d) :
    d.flags = flags &&& iceSignalFlagMask ∧
      (cands.length < 2 ^ 16 → cands.length ≤ maxIceCandidates) := by
  have hdrop : (serializeSignal ufrag pwd cands flags).drop 40 =
      be32 (packCount flags cands.length) ++
        (cands.flatMap (fun c => (toWire c).1) ++ mdnsTrailer cands) := by
    have hhead : ((Block.ofBytes 8 (cstr ufrag)).1 ++ (Block.ofBytes 32 (cstr pwd)).1).length =
        40 := by
      rw [List.length_append, (Block.ofBytes 8 _).2, (Block.ofBytes 32 _).2]
    rw [serializeSignal, List.append_assoc, List.append_assoc, List.drop_left' hhead]
    rfl
  unfold deserializeSignal at h
  dsimp only at h
  split_ifs at h with hshort hmany hcut
  obtain ⟨cands', -, rfl⟩ := Option.map_eq_some_iff.mp h
  rw [hdrop, read32_be32, Nat.mod_eq_of_lt (packCount_lt)] at hmany ⊢
  refine ⟨packCount_flags, fun hlen => ?_⟩
  rw [packCount_count hlen] at hmany
  exact not_lt.mp hmany

namespace LocalDescription

def signalFlags (d : LocalDescription) : ℕ :=
  (if d.lite then iceSignalFlagLite else 0) ||| if d.symmetric then iceSignalFlagSymmetric else 0

def signal (d : LocalDescription) : OutboundSignal where
  kind := if d.controlling then iceSignalOfferEoc else iceSignalAnswerEoc
  blob := serializeSignal d.ufrag d.pwd d.candidates d.signalFlags

theorem signalFlags_lite {d : LocalDescription} (h : d.lite = false) :
    d.signalFlags &&& iceSignalFlagMask &&& iceSignalFlagLite = 0 := by
  unfold signalFlags
  rw [h, if_neg Bool.false_ne_true]
  split_ifs <;> decide

end LocalDescription

namespace Session

variable {H : Hmac} {env : Env} {s t : Session} {cfg : IceConfig} {A : Set Label} {e : Event}
  {d : LocalDescription}

theorem signal_localDescription : s.localDescription.signal = s.enqueueLocalSignal := by
  unfold LocalDescription.signal LocalDescription.signalFlags enqueueLocalSignal localSignalFlags
  simp [localDescription]

/-- Every description that a path publishes is one of a state on it. -/
theorem steps_published {I : Session → Prop} (h : Steps env A s t)
    (hI : ∀ {u v l}, (∀ a ∈ l, a ∈ A) → Act env u l v → I u → I v) (hs : I s) :
    Logs (fun e => ∀ d, e = .onGathered d → ∃ v, I v ∧ d = v.localDescription) s t := by
  refine (h.invariant (I := fun u => I u ∧ Logs _ s u) (fun {u v l} hl hact hu => ?_)
    ⟨hs, .refl s⟩).2
  refine ⟨hI hl hact hu.1, hu.2.trans ?_⟩
  rcases act_publication hact with hnone | rfl
  · refine hnone.mono fun e he d hd => ?_
    rw [hd] at he
    cases he
  · exact .emit _ fun d hd => ⟨u, hu.1, (Effect.onGathered.inj hd).symm⟩

theorem steps_publishedAs (h : Steps env A s t) (hA : .flip ∉ A) :
    Logs (fun e => ∀ d, e = .onGathered d → d.controlling = s.controlling) s t := by
  refine (steps_published (I := fun u => u.controlling = s.controlling) h (fun hl hact hu => ?_)
    rfl).mono fun e he d hd => ?_
  · exact (act_controlling hact fun hf => hA (hl _ hf)).trans hu
  · obtain ⟨v, hv, rfl⟩ := he d hd
    exact hv

/-- What an event makes the session publish shows the role that it has after the event. -/
theorem published_role (hd : .onGathered d ∈ logged s (s.step H env e)) :
    d.controlling = (s.step H env e).controlling := by
  suffices h : Logs (fun a => ∀ d, a = .onGathered d →
      d.controlling = (s.step H env e).controlling) s (s.step H env e) by
    obtain ⟨new, hn, hnew⟩ := h
    rw [logged_eq hn] at hd
    exact hnew _ hd d rfl
  by_cases hc : s.changesRole H env e
  · obtain ⟨b, hb, m, hm, hf⟩ := hc
    have hsilent {u v : Session} (h : Logs (·.isPublication = false) u v) : Logs (fun a => ∀ d,
        a = .onGathered d → d.controlling = (s.step H env e).controlling) u v := by
      refine h.mono fun a ha d hd => ?_
      rw [hd] at ha
      cases ha
    have hflip : Steps env { l | l ≠ .publish } b.session (b.session.flipRole env) := by
      refine flipRole_steps (by simp) fun _ _ _ l hl => ?_
      rintro rfl
      exact rechecks_checkLabels hl
    refine (hsilent (inbound_unpublished env hb).1).trans
      ((hsilent (steps_unpublished hflip (by simp))).trans ?_)
    rw [step_accepted hb hm, steps_controlling (onStun_flipRole hf) (by simp)]
    exact steps_publishedAs (onStun_flipRole hf) (by simp)
  · rw [step_keepsRole hc]
    exact steps_publishedAs (step_steps H env s e) fun h => hc (allowed_inbound h rfl)

theorem published_presentable (hfit : env.NamesFit)
    (hs : s.Presentable env) (hd : .onGathered d ∈ logged s (s.step H env e)) :
    ∃ v : Session, (v.Presentable env ∧ v.cfg = s.cfg) ∧ d = v.localDescription := by
  obtain ⟨new, hn, hnew⟩ := steps_published (I := fun u => u.Presentable env ∧ u.cfg = s.cfg)
    (step_steps H env s e) (fun hl hact hu => ⟨act_presentable hfit hact
      (fun c hc => hs.queued c (queued_of_relay (hl _ hc))) hu.1, (act_cfg hact).1.trans hu.2⟩)
    ⟨hs, rfl⟩
  rw [logged_eq hn] at hd
  exact hnew _ hd d rfl

end Session

namespace Link

variable {l : Link} {pk : PublicKey}

def initiator (env : Env) (cfg : IceConfig) (w : Wiring) (tiebreaker : ℕ) : Session :=
  Session.create env cfg w true tiebreaker

def responder (env : Env) (cfg : IceConfig) (w : Wiring) (tiebreaker : ℕ) : Session :=
  Session.create env cfg w false tiebreaker

structure Unmet (pk : PublicKey) (l : Link) : Prop where
  up : l.shutdown = false
  offer : l.offerTarget pk = none
  answer : l.answerTarget pk = none

def OpensFor (lite : Bool) (pk : PublicKey) (sig : OutboundSignal) (answer : Option ConnId)
    (l : Link) : Prop :=
  ∃ conn l', l.deliverSignal lite pk sig.kind sig.blob answer = (.allocated conn, l') ∧
    l'.peerOf false conn = some (pkToHex pk)

theorem Unmet.offered (h : l.Unmet pk) (conn : ConnId) :
    (l.exec (.offerSessions (pkToHex pk) false) (some conn)).1 =
      l.addSession (pkToHex pk) (some conn) := by
  have hfold : l.foldTarget (pkToHex pk) = none := (Option.or_eq_none_iff.mp h.offer).2
  simp [exec, hfold]

/-- Only an offer that can be decoded opens a session, and only if the kernel takes it. -/
theorem Unmet.opensFor_iff (h : l.Unmet pk) {lite : Bool} {d : LocalDescription}
    (hlite : (d.lite && lite) = false) {answer : Option ConnId} :
    l.OpensFor lite pk d.signal answer ↔
      d.controlling = true ∧ (deserializeSignal d.signal.blob).isSome = true ∧
        answer.isSome = true := by
  have hup : ¬ l.shutdown = true := by simp [h.up]
  unfold OpensFor deliverSignal
  rw [if_neg hup]
  cases hd : deserializeSignal d.signal.blob with
  | none => simp
  | some dec =>
    have hflags : dec.flags = d.signalFlags &&& iceSignalFlagMask := (deserializeSignal_packed hd).1
    have hpass : (lite && dec.flags &&& iceSignalFlagLite != 0) = false := by
      cases lite with
      | false => rfl
      | true =>
        rw [Bool.and_true] at hlite
        rw [hflags, LocalDescription.signalFlags_lite hlite]
        rfl
    cases hc : d.controlling with
    | false =>
      have hkind : d.signal.kind = iceSignalAnswerEoc := by simp [LocalDescription.signal, hc]
      have hnot : iceSignalAnswerEoc ≠ iceSignalOffer ∧ iceSignalAnswerEoc ≠ iceSignalOfferEoc := by
        decide
      simp [hkind, hpass, hnot, h.answer]
    | true =>
      have hkind : d.signal.kind = iceSignalOfferEoc := by simp [LocalDescription.signal, hc]
      cases answer with
      | none => simp [hkind, hpass, h.offer]
      | some conn =>
        have hpeer : (l.addSession (pkToHex pk) (some conn)).peerOf false conn =
            some (pkToHex pk) := AList.lookup_insert _
        simp [hkind, hpass, h.offer, h.offered, hpeer]

private theorem initiator_controls_iff (H : Hmac) (env : Env) (cfg : IceConfig) (w : Wiring)
    (tiebreaker : ℕ) (es : List Event) :
    ((initiator env cfg w tiebreaker).run H env es).controlling = true ↔
      ((initiator env cfg w tiebreaker).roleChanges H env es % 2 = 0 ↔ cfg.liteMode = false) := by
  have hstart : (initiator env cfg w tiebreaker).controlling = !cfg.liteMode := Bool.and_true _
  rw [← Session.run_keeps_role_iff, hstart]
  cases ((initiator env cfg w tiebreaker).run H env es).controlling <;>
    cases cfg.liteMode <;> decide

/-- What an event makes an initiator publish opens the connection with one controlling session
exactly if the initiator's role has changed an even number of times up to the publication and up to
the delivery, or an odd number of times for a lite one, the signal can be decoded, and the kernel
takes the new connection. A signal can be decoded if it has no more candidates than the limit, and
short of 65536 only then. -/
theorem first_signal_opens_iff (H : Hmac) {env : Env} (henv : env.Sized) (cfg : IceConfig)
    (w : Wiring) (tiebreaker : ℕ) (fs gs : List Event) (e : Event) {d : LocalDescription}
    (hd : .onGathered d ∈ Session.logged ((initiator env cfg w tiebreaker).run H env fs)
      ((initiator env cfg w tiebreaker).run H env (fs ++ [e])))
    (env' : Env) (cfg' : IceConfig) (w' : Wiring) (tiebreaker' : ℕ)
    (hlite : (cfg.liteMode && cfg'.liteMode) = false) {l : Link} {pk : PublicKey}
    (hl : l.Unmet pk) (answer : Option ConnId) :
    let a := initiator env cfg w tiebreaker
    (l.OpensFor cfg'.liteMode pk d.signal answer ∧ (a.run H env (fs ++ [e] ++ gs)).controlling ≠
        (responder env' cfg' w' tiebreaker').controlling ↔
      (a.roleChanges H env (fs ++ [e]) % 2 = 0 ↔ cfg.liteMode = false) ∧
        (a.roleChanges H env (fs ++ [e] ++ gs) % 2 = 0 ↔ cfg.liteMode = false) ∧
        (deserializeSignal d.signal.blob).isSome = true ∧ answer.isSome = true) ∧
      (d.candidates.length < 2 ^ 16 → ((deserializeSignal d.signal.blob).isSome = true ↔
        d.candidates.length ≤ maxIceCandidates)) := by
  intro a
  have hs : (a.run H env fs).Presentable env := Session.run_invariant
    (fun s e hs => Session.step_presentable henv.names hs) Session.create_presentable fs
  have hcfg : (a.run H env fs).cfg = cfg := Session.run_invariant (I := fun s => s.cfg = cfg)
    (fun s e hs => (Session.step_cfg H env s e).trans hs) rfl fs
  have hlast : a.run H env (fs ++ [e]) = (a.run H env fs).step H env e :=
    Session.run_append H env a fs [e]
  have hrole : d.controlling = (a.run H env (fs ++ [e])).controlling := by
    rw [hlast] at hd ⊢
    exact Session.published_role hd
  rw [hlast] at hd
  obtain ⟨v, ⟨hv, hvcfg⟩, rfl⟩ := Session.published_presentable henv.names hs hd
  have hresponder : (responder env' cfg' w' tiebreaker').controlling = false :=
    Bool.and_false _
  constructor
  · have hboth : (v.localDescription.lite && cfg'.liteMode) = false := by
      rwa [← hcfg, ← hvcfg] at hlite
    rw [hl.opensFor_iff hboth, hresponder, Bool.ne_false_iff, hrole, initiator_controls_iff,
      initiator_controls_iff]
    tauto
  · intro hlen
    constructor
    · intro hsome
      obtain ⟨dec, hdec⟩ := Option.isSome_iff_exists.mp hsome
      exact (deserializeSignal_packed hdec).2 hlen
    · intro hle
      obtain ⟨dec, hdec, -⟩ := (hv.readable_iff henv).mpr hle
      rw [Session.signal_localDescription, hdec]
      rfl

def freshKey : PublicKey := Block.zero 32

/-- What the session of a link publishes once it has gathered. -/
def introduction (cfg : IceConfig) : LocalDescription :=
  ((initiator (Session.crowdedLan 1) cfg {} 7).run zeroHmac
    (Session.crowdedLan 1) [.gather]).localDescription

private theorem unmet_empty (pk : PublicKey) : ({} : Link).Unmet pk := ⟨rfl, rfl, rfl⟩

theorem full_initiator_opens :
    ({} : Link).OpensFor true freshKey (introduction {}).signal (some 5) ∧
      (introduction {}).controlling = true := by
  have introduced : .onGathered (introduction {}) ∈ Session.logged
      ((initiator (Session.crowdedLan 1) {} {} 7).run zeroHmac (Session.crowdedLan 1) [])
      ((initiator (Session.crowdedLan 1) {} {} 7).run zeroHmac (Session.crowdedLan 1)
        [.gather]) := by
    decide +kernel
  have h := first_signal_opens_iff zeroHmac (Session.crowdedLan_sized 1) {} {} 7 [] [] .gather
    introduced (Session.crowdedLan 1) { liteMode := true } {} 8 rfl (unmet_empty freshKey) (some 5)
  have heven : (initiator (Session.crowdedLan 1) {} {} 7).roleChanges zeroHmac
      (Session.crowdedLan 1) [.gather] % 2 = 0 := by decide +kernel
  refine ⟨?_, by decide +kernel⟩
  exact (h.1.mpr ⟨iff_of_true heven rfl, iff_of_true heven rfl,
    (h.2 (by decide +kernel)).mpr (by decide +kernel), rfl⟩).1

/-- The session of a lite link never controls, so its introduction is an answer to nothing. -/
theorem lite_initiator_unheard :
    .onGathered (introduction { liteMode := true }) ∈
        ((initiator (Session.crowdedLan 1) { liteMode := true } {} 7).run
          zeroHmac (Session.crowdedLan 1) [.gather]).log ∧
      (({} : Link).deliverSignal false freshKey (introduction { liteMode := true }).signal.kind
        (introduction { liteMode := true }).signal.blob (some 5)).1 = .notFound := by
  decide +kernel

end Link

end LinkIce
