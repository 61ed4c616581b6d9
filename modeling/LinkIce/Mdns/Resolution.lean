import LinkIce.Mdns.Invocations
import Mathlib.Data.List.Induction

/-! Every call of `resolve` is answered once, with addresses of its own name, and `pending_` has
just the queries that wait. -/
namespace LinkIce
open Stun Mdns List

def MdnsEvent.asks : MdnsEvent → Option Bytes
  | resolve hostname _ => some (lowercase hostname)
  | _ => none

namespace MdnsManager
open Resolver (Keeps Shaped Sound Works)

variable {net : Inet} {m n : MdnsManager} {id j call txnId : ℕ} {name : Bytes} {q : PendingQuery}
  {e : MdnsEvent} {es fs : List MdnsEvent} {R : ℕ → DnsAnswer → Prop}
  {L : ℕ → MdnsResolveResult → Prop} {w : Resolver} {r : MdnsResolveResult} {v6 : Bool}

def resolver (m : MdnsManager) : Resolver :=
  ⟨m.asked, m.queries, m.pendingOf, m.callbacks, m.drains⟩

/-! ### What the handlers do to the resolver -/

theorem pendingOf_setPending {name other : Bytes} {ids : List ℕ} :
    (m.setPending name ids).pendingOf other = if other = name then ids else m.pendingOf other := by
  unfold pendingOf setPending
  dsimp only
  by_cases hids : ids = []
  · rw [if_pos hids]
    by_cases ho : other = name
    · rw [if_pos ho, ho, AList.lookup_erase, hids]
      rfl
    · rw [if_neg ho, AList.lookup_erase_ne ho]
  · rw [if_neg hids]
    by_cases ho : other = name
    · rw [if_pos ho, ho, AList.lookup_insert]
      rfl
    · rw [if_neg ho, AList.lookup_insert_ne ho]

theorem resolver_sendPacket {dst : Option Endpoint} {packet : Bytes} :
    (m.sendPacket v6 dst packet).resolver = m.resolver := by
  unfold sendPacket
  split <;> rfl

theorem resolver_sendQuery {hostnameLc : Bytes} :
    (m.sendQuery hostnameLc txnId).resolver = m.resolver := by
  unfold sendQuery
  dsimp only
  split_ifs <;> simp only [resolver_sendPacket]

theorem resolver_sendAnswer {hostname : Bytes} {rec : NameRecord} {qtype : ℕ} {dst : Endpoint} :
    (m.sendAnswer net hostname rec txnId qtype v6 dst).resolver = m.resolver := by
  unfold sendAnswer
  dsimp only
  split_ifs <;> simp only [resolver_sendPacket]

def giveUp (m : MdnsManager) (id : ℕ) : MdnsManager := (m.fire id).cancelTimer id

theorem cancelTimer_fire : (m.cancelTimer id).fire id = m.giveUp id := by
  have hlook : (m.cancelTimer id).queries[id]? = (m.queries[id]?).map fun q =>
      { q with timer := if q.timer = .armed then .cancelled else q.timer } := by
    simp [cancelTimer, modifyQuery]
  unfold giveUp fire
  rw [hlook]
  cases m.queries[id]? with
  | none => rfl
  | some q =>
    simp only [Option.map_some, cancelTimer, modifyQuery, emit]
    split <;> simp [modify_modify_eq, Function.comp_def]

theorem fire_waiting (hq : m.queries[id]? = some q) (hwait : q.fired = false) :
    m.fire id = (m.modifyQuery id ({ · with fired := true })).emit
      (.callback q.call q.accumulated) := by
  simp [fire, hq, hwait]

theorem pendingOf_fire : (m.fire id).pendingOf = m.pendingOf := by
  unfold fire
  split
  · rfl
  · dsimp only
    split <;> rfl

theorem fire_path (hq : m.queries[id]? = some q) (hwait : q.fired = false)
    (t : TimerState → TimerState) (pend : Bytes → List ℕ) :
    Works R (m.resolver.relist pend)
      (((m.fire id).modifyQuery id fun q => { q with timer := t q.timer }).resolver.relist
        fun name => (pend name).filter (· ≠ id)) := by
  rw [fire_waiting hq hwait]
  refine .tail (.single (.settle hq hwait)) (.timer (q := { q with fired := true }) t ?_ rfl)
  simp [Resolver.settle, Resolver.modify, Resolver.relist, resolver, hq]

theorem pendingOf_giveUps (ids : List ℕ) (m : MdnsManager) :
    (ids.foldl giveUp m).pendingOf = m.pendingOf := by
  induction ids generalizing m with
  | nil => rfl
  | cons id ids ih =>
    rw [foldl_cons, ih]
    exact pendingOf_fire

private theorem flag_giveUp (hj : j ≠ id) : (m.giveUp id).resolver.flag j = m.resolver.flag j := by
  have hqueries : (m.giveUp id).queries[j]? = m.queries[j]? := by
    unfold giveUp fire cancelTimer modifyQuery
    split
    · simp [Ne.symm hj]
    · dsimp only
      split <;> simp [emit, Ne.symm hj]
  exact congrArg (Option.map _) hqueries

theorem giveUps_path (ids : List ℕ) (h : ids.Nodup)
    (hids : ∀ id ∈ ids, ∃ name, m.resolver.flag id = some (name, false)) (pend : Bytes → List ℕ) :
    Works R (m.resolver.relist pend)
      ((ids.foldl giveUp m).resolver.relist fun name => (pend name).filter (· ∉ ids)) := by
  induction ids generalizing m pend with
  | nil => simpa using .refl
  | cons id ids ih =>
    obtain ⟨hnew, hnodup⟩ := nodup_cons.mp h
    obtain ⟨name, hflag⟩ := hids id mem_cons_self
    obtain ⟨q, hq, hwait⟩ := Option.map_eq_some_iff.mp hflag
    have hrest := ih (m := m.giveUp id) hnodup (fun j hj => by
      rw [flag_giveUp (ne_of_mem_of_not_mem hj hnew)]
      exact hids j (mem_cons_of_mem id hj)) fun name => (pend name).filter (· ≠ id)
    have hfirst := fire_path (R := R) hq (congrArg Prod.snd hwait)
      (fun t => if t = .armed then .cancelled else t) pend
    simpa [filter_filter, Bool.and_comm] using hfirst.trans hrest

/-- The inner loop of a response: the queries that stay are those that did not fire. -/
theorem fireAnswered_eq (ids : List ℕ) (m : MdnsManager) (h : ids.Nodup) :
    ∃ gone : List ℕ, gone.Sublist ids ∧
      fireAnswered ids m = (ids.filter (· ∉ gone), gone.foldl giveUp m) := by
  induction ids generalizing m with
  | nil => exact ⟨[], List.Sublist.refl _, rfl⟩
  | cons id ids ih =>
    obtain ⟨hnew, hnodup⟩ := nodup_cons.mp h
    unfold fireAnswered
    split
    · obtain ⟨gone, hsub, heq⟩ := ih (m.giveUp id) hnodup
      refine ⟨id :: gone, hsub.cons_cons id, heq.trans (Prod.ext ?_ rfl)⟩
      rw [filter_cons_of_neg (by simp)]
      refine filter_congr fun j hj => ?_
      simp [ne_of_mem_of_not_mem hj hnew]
    · obtain ⟨gone, hsub, heq⟩ := ih m hnodup
      have hstays : id ∉ gone := fun hg => hnew (hsub.subset hg)
      refine ⟨gone, hsub.cons id, ?_⟩
      rw [heq, filter_cons_of_pos (by simpa using hstays)]

/-- Queries leave the list of their name only. -/
theorem setPending_filter (h : m.resolver.Shaped) (hn : n.pendingOf = m.pendingOf)
    (gone : List ℕ) (hgone : ∀ id ∈ gone, id ∈ m.pendingOf name) :
    (n.setPending name ((m.pendingOf name).filter (· ∉ gone))).resolver =
      n.resolver.relist fun name => (m.pendingOf name).filter (· ∉ gone) := by
  have hlists : (n.setPending name ((m.pendingOf name).filter (· ∉ gone))).pendingOf =
      fun name => (m.pendingOf name).filter (· ∉ gone) := by
    funext other
    rw [pendingOf_setPending, hn]
    split
    · rw [‹other = name›]
    · refine (filter_eq_self.mpr fun id hid => ?_).symm
      have hother : id ∉ m.pendingOf name := fun hid' => ‹other ≠ name› (h.one_name hid hid')
      exact decide_eq_true (mt (hgone id) hother)
  exact congrArg (Resolver.mk _ _ · _ _) hlists

theorem fireName_path (h : m.resolver.Shaped) : Works R m.resolver (m.fireName name).resolver := by
  obtain ⟨gone, hsub, heq⟩ := fireAnswered_eq (m.pendingOf name) m (h.nodup name)
  have hlisted (id : ℕ) (hid : id ∈ gone) : id ∈ m.pendingOf name := hsub.subset hid
  rw [fireName, heq, setPending_filter h (pendingOf_giveUps gone m) gone hlisted]
  exact giveUps_path gone ((h.nodup name).sublist hsub)
    (fun id hid => ⟨name, (h.listed name id).mp (hlisted id hid)⟩) m.pendingOf

theorem onTimer_path (h : m.resolver.Shaped) {aborted : Bool} :
    Works R m.resolver (m.onTimer id aborted).resolver := by
  unfold onTimer
  split
  · exact .refl
  · rename_i q hq
    split
    · exact .refl
    · rename_i hruns
      dsimp only
      split
      · rename_i hquiet
        refine .single (.timer (fun _ => .handled) hq ?_)
        refine hquiet.elim (fun haborted => ?_) fun hfired => hfired
        have hcancelled : q.timer = .cancelled := by
          by_contra hne
          exact hruns (.inr ⟨haborted, hne⟩)
        exact (h.queries q (mem_of_getElem? hq)).handled (by simp [hcancelled])
      · rename_i hfires
        have hwait : q.fired = false := by
          simpa using fun hfired : q.fired = true => hfires (.inr hfired)
        have hlisted : id ∈ m.pendingOf q.hostnameLc :=
          (h.listed _ id).mpr (by simp [Resolver.flag, resolver, hq, hwait])
        have hset := setPending_filter (n := m) h rfl [id] (by simpa using hlisted)
        simp only [mem_singleton] at hset
        have hpath := fire_path (R := R) (m := m.setPending q.hostnameLc
          ((m.pendingOf q.hostnameLc).filter (· ≠ id))) hq hwait (fun _ => .handled) m.pendingOf
        rw [fire_waiting (m := m.setPending _ _) hq hwait] at hpath ⊢
        exact hpath.trans (Resolver.Works.of_eq (congrArg (Resolver.mk _ _ · _ _)
          (congrArg Resolver.pending hset).symm))

def Waits (m : MdnsManager) (call : ℕ) : Prop := call < m.asked.length ∧ m.invocations call = 0

theorem takeAnswer_path (h : m.resolver.Shaped) {ans : DnsAnswer}
    (hans : ∀ call, m.Waits call → R call ans) :
    Works R m.resolver (m.takeAnswer ans).resolver ∧ (m.takeAnswer ans).asked = m.asked ∧
      (m.takeAnswer ans).log = m.log := by
  suffices hloop : (Works R m.resolver (m.takeAnswer ans).resolver ∧
      (m.takeAnswer ans).asked = m.asked ∧ (m.takeAnswer ans).log = m.log) ∧
      (m.takeAnswer ans).pendingOf = m.pendingOf from hloop.1
  refine List.foldlRecOn (motive := fun n : MdnsManager => (Works R m.resolver n.resolver ∧
    n.asked = m.asked ∧ n.log = m.log) ∧ n.pendingOf = m.pendingOf) _ _ ⟨⟨.refl, rfl, rfl⟩, rfl⟩ ?_
  rintro n ⟨⟨hpath, hasked, hlog⟩, hlists⟩ id hid
  refine ⟨⟨hpath.trans ?_, hasked, hlog⟩, hlists⟩
  have hn := Resolver.Works.shaped hpath h
  have hid' : id ∈ n.pendingOf ans.name := hlists ▸ hid
  obtain ⟨q, hq, hflag⟩ := Option.map_eq_some_iff.mp ((hn.listed ans.name id).mp hid')
  obtain ⟨hname, hwait⟩ := Prod.mk.inj hflag
  have hmem := mem_of_getElem? hq
  refine .single (.absorb hq hwait hname (hans q.call ⟨?_, ?_⟩))
  · rw [← hasked]
    exact (List.getElem?_eq_some_iff.mp (hn.queries q hmem).asked).1
  · rw [invocations, callbacks, ← hlog]
    exact (hn.invocations_eq_zero hmem).mpr hwait

private theorem drainLoop_eq {names : List Bytes} :
    names.foldl (fun m name => (m.pendingOf name).foldl
      (fun m id => (m.cancelTimer id).fire id) m) m =
        (names.flatMap m.pendingOf).foldl giveUp m := by
  simp only [cancelTimer_fire]
  induction names generalizing m with
  | nil => rfl
  | cons name names ih =>
    rw [foldl_cons, ih, pendingOf_giveUps, flatMap_cons, foldl_append]

theorem drain_path (h : m.resolver.Shaped) :
    Works R { m.resolver with drains := m.drains - 1 } m.drain.resolver := by
  unfold drain
  split
  · rename_i hnone
    exact Resolver.Works.of_eq (congrArg (Resolver.mk _ _ _ _) (by rw [hnone]))
  · dsimp only
    rw [drainLoop_eq]
    have hids : (m.pending.keys.flatMap m.pendingOf).Nodup := by
      refine nodup_flatMap.mpr ⟨fun name _ => h.nodup name, ?_⟩
      refine (AList.keys_nodup m.pending).imp fun hab id ha hb => hab (h.one_name ha hb)
    have hpath := giveUps_path (R := R) (m := { m with drains := m.drains - 1 })
      _ hids (fun id hid => ?_) m.pendingOf
    · refine hpath.trans (Resolver.Works.of_eq (congrArg (Resolver.mk _ _ · _ _)
        (funext fun name => ?_)))
      refine filter_eq_nil_iff.mpr fun id hid => ?_
      have hkey : name ∈ m.pending.keys := by
        by_contra hno
        rw [pendingOf, AList.lookup_eq_none.mpr fun hk => hno (AList.mem_keys.mp hk)] at hid
        cases hid
      have hmem : id ∈ m.pending.keys.flatMap m.pendingOf := mem_flatMap.mpr ⟨name, hkey, hid⟩
      simpa using hmem
    · obtain ⟨name, -, hid⟩ := mem_flatMap.mp hid
      exact ⟨name, (h.listed name id).mp hid⟩

/-- The packet is taken and is a response with the record. -/
def Brings (net : Inet) (v6 : Bool) (bytes : Bytes) (m : MdnsManager) (ans : DnsAnswer) : Prop :=
  m.stopping = false ∧ m.isOpen v6 = true ∧
    ∃ msg, parseDnsMessage net (bytes.take rxBufSize) = some msg ∧ msg.isResponse = true ∧
      ans ∈ msg.answers

theorem onReceive_path (h : m.resolver.Shaped) {bytes : Bytes} {src : Endpoint}
    (hR : ∀ call ans, m.Waits call → m.Brings net v6 bytes ans → R call ans) :
    Works R m.resolver (m.onReceive net v6 bytes src).resolver := by
  unfold onReceive
  split
  · exact .refl
  rename_i htaken
  simp only [not_or, Bool.not_eq_true, Bool.not_eq_false] at htaken
  unfold onPacket
  split
  · exact .refl
  rename_i msg hmsg
  split
  · rename_i hresponse
    have hanswers : Works R m.resolver (msg.answers.foldl takeAnswer m).resolver ∧
        (msg.answers.foldl takeAnswer m).asked = m.asked ∧
        (msg.answers.foldl takeAnswer m).log = m.log := by
      refine List.foldlRecOn (motive := fun n : MdnsManager => Works R m.resolver n.resolver ∧
        n.asked = m.asked ∧ n.log = m.log) _ _ ⟨.refl, rfl, rfl⟩ ?_
      rintro n ⟨hpath, hasked, hlog⟩ ans hans
      have hwaits (call : ℕ) (hw : n.Waits call) : m.Waits call := by
        rwa [Waits, invocations, callbacks, hasked, hlog] at hw
      obtain ⟨hpath', hasked', hlog'⟩ := takeAnswer_path (Resolver.Works.shaped hpath h)
        fun call hw => hR call ans (hwaits call hw)
          ⟨htaken.1, htaken.2.1, msg, hmsg, hresponse, hans⟩
      exact ⟨hpath.trans hpath', hasked'.trans hasked, hlog'.trans hlog⟩
    refine hanswers.1.trans (List.foldlRecOn (motive := fun n : MdnsManager =>
      Works R (msg.answers.foldl takeAnswer m).resolver n.resolver) _ _ .refl ?_)
    intro n hn name _
    exact hn.trans (fireName_path (Resolver.Works.shaped (hanswers.1.trans hn) h))
  · split
    · exact .refl
    · split
      · exact .refl
      · rw [resolver_sendAnswer]

/-! ### Events as moves of the resolver -/

/-- What an event makes of the resolver. A call is answered with what is registered for its name at
the time, or makes a query; a timer that expires leaves its query settled, and so does a drain with
all of them; a packet brings its records to the calls that wait then. -/
def Moves (net : Inet) (m : MdnsManager) : MdnsEvent → Resolver → Prop
  | .start .., w | .registerName _, w | .unregisterName _, w => w = m.resolver
  | .stop, w => w = { m.resolver with drains := m.drains + if m.running then 1 else 0 }
  | .drain, w => Works (fun _ _ => False) { m.resolver with drains := m.drains - 1 } w ∧
      (m.drains ≠ 0 → w.waiting = [])
  | .resolve hostname txnId, w =>
    let name := lowercase hostname
    w = match m.names.lookup name with
      | some rec => m.resolver.answer name ⟨true, rec.ipv4, rec.ipv6⟩
      | none => m.resolver.ask name txnId
  | .timer id aborted, w => Works (fun _ _ => False) m.resolver w ∧
      (aborted = false → ∀ q, w.queries[id]? = some q → q.fired = true)
  | .packet v6 bytes _, w =>
    Works (fun call ans => m.Waits call ∧ m.Brings net v6 bytes ans) m.resolver w

theorem waiting_eq_nil (h : w.Shaped) (hnone : ∀ name, w.pending name = []) : w.waiting = [] := by
  refine eq_nil_iff_forall_not_mem.mpr fun call hcall => ?_
  obtain ⟨q, hq, -⟩ := mem_map.mp hcall
  obtain ⟨hq, hfired⟩ := mem_filter.mp hq
  obtain ⟨id, hid⟩ := mem_iff_getElem?.mp hq
  have hlisted := (h.listed q.hostnameLc id).mpr (by simp_all [Resolver.flag])
  rw [hnone] at hlisted
  cases hlisted

private theorem onTimer_fired (h : m.resolver.Shaped)
    (hq : (m.onTimer id false).queries[id]? = some q) :
    q.fired = true := by
  unfold onTimer at hq
  cases hp : m.queries[id]? with
  | none =>
    rw [hp] at hq
    cases hp.symm.trans hq
  | some p =>
    rw [hp] at hq
    dsimp only at hq
    split at hq
    · rename_i hran
      obtain rfl := Option.some.inj (hp.symm.trans hq)
      exact (h.queries p (mem_of_getElem? hp)).handled (by simp [hran.resolve_right (by simp)])
    · by_cases hfired : p.fired = true
      · rw [if_pos (.inr hfired)] at hq
        simp only [modifyQuery, List.getElem?_modify_eq, hp] at hq
        rw [← Option.some.inj hq]
        exact hfired
      · rw [if_neg (by simp [hfired]), fire_waiting (m := m.setPending _ _) hp
          (by simpa using hfired)] at hq
        simp [modifyQuery, emit, setPending, hp] at hq
        rw [← hq]

theorem step_moves (h : m.resolver.Shaped) (e : MdnsEvent) :
    Moves net m e (m.step net e).resolver := by
  cases e with
  | start =>
    simp only [step, start]
    split <;> rfl
  | registerName | unregisterName => rfl
  | stop =>
    simp only [step, stop, Moves]
    split <;> rfl
  | drain =>
    have hpath := drain_path (R := fun _ _ => False) h
    refine ⟨hpath, fun hd => waiting_eq_nil (Resolver.Works.shaped hpath (h.withDrains _))
      fun name => ?_⟩
    rw [step, drain, if_neg hd]
    rfl
  | resolve hostname txnId =>
    cases hlook : m.names.lookup (lowercase hostname) with
    | some rec =>
      simp only [step, resolve, Moves, hlook]
      rfl
    | none =>
      simp only [step, resolve, Moves, hlook, resolver_sendQuery]
      refine congrArg (Resolver.mk _ _ · _ _) (funext fun other => ?_)
      rw [pendingOf_setPending, Function.update_apply]
      rfl
  | timer id aborted =>
    refine ⟨onTimer_path h, ?_⟩
    rintro rfl q hq
    exact onTimer_fired h hq
  | packet v6 bytes src => exact onReceive_path h fun _ _ hw hb => ⟨hw, hb⟩

theorem Moves.sound (h : Moves net m e w) (hm : Sound R L m.resolver)
    (hR : ∀ v6 bytes src, e = .packet v6 bytes src →
      ∀ call ans, m.Waits call → m.Brings net v6 bytes ans → R call ans)
    (hL : ∀ hostname txnId rec, e = .resolve hostname txnId →
      m.names.lookup (lowercase hostname) = some rec →
        L m.asked.length ⟨true, rec.ipv4, rec.ipv6⟩) : Sound R L w := by
  cases e with
  | start | registerName | unregisterName => exact h ▸ hm
  | stop => exact h ▸ hm.withDrains _
  | drain => exact h.1.sound (fun _ _ => False.elim) (hm.withDrains _)
  | timer => exact h.1.sound (fun _ _ => False.elim) hm
  | packet v6 bytes src => exact h.sound (fun call ans hr => hR _ _ _ rfl call ans hr.1 hr.2) hm
  | resolve hostname txnId =>
    cases hlook : m.names.lookup (lowercase hostname) with
    | some rec =>
      simp only [Moves, hlook] at h
      exact h ▸ hm.answer (hL hostname txnId rec rfl hlook)
    | none =>
      simp only [Moves, hlook] at h
      exact h ▸ hm.ask _ _

theorem run_concat : run net (es ++ [e]) = (run net es).step net e := foldl_concat ..

theorem run_shaped (net : Inet) (es : List MdnsEvent) : (run net es).resolver.Shaped := by
  induction es using List.reverseRecOn with
  | nil => exact ⟨nofun, .refl _, nofun, fun _ => nodup_nil, fun _ _ => ⟨nofun, nofun⟩⟩
  | append_singleton es e ih =>
    rw [run_concat]
    exact (step_moves ih e).sound ih (fun _ _ _ _ _ _ _ _ => trivial)
      fun _ _ _ _ _ => trivial

theorem run_moves (net : Inet) (es : List MdnsEvent) (e : MdnsEvent) :
    Moves net (run net es) e (run net (es ++ [e])).resolver := by
  rw [run_concat]
  exact step_moves (run_shaped net es) e

/-- No event but a call makes or renames one, and only a drain takes a drain off. -/
theorem step_keeps (net : Inet) (es : List MdnsEvent) (e : MdnsEvent) :
    (∃ hostname txnId, e = .resolve hostname txnId) ∨ e.asks = none ∧
      ∃ k, (e ≠ .drain → (run net es).drains ≤ k) ∧
        Keeps { (run net es).resolver with drains := k } (run net (es ++ [e])).resolver := by
  have h := run_moves net es e
  cases e with
  | start | registerName | unregisterName => exact .inr ⟨rfl, _, fun _ => le_rfl, .of_eq h⟩
  | stop => exact .inr ⟨rfl, _, fun _ => Nat.le_add_right _ _, .of_eq h⟩
  | drain => exact .inr ⟨rfl, _, fun h => absurd rfl h, h.1.keeps⟩
  | timer => exact .inr ⟨rfl, _, fun _ => le_rfl, h.1.keeps⟩
  | packet => exact .inr ⟨rfl, _, fun _ => le_rfl, h.keeps⟩
  | resolve hostname txnId => exact .inl ⟨hostname, txnId, rfl⟩

def callsIn (es : List MdnsEvent) : List Bytes := es.filterMap (·.asks)

theorem callsIn_concat : callsIn (es ++ [e]) = callsIn es ++ e.asks.toList := by
  rw [callsIn, filterMap_append, ← callsIn]
  cases e <;> rfl

theorem resolve_resolver (net : Inet) (es : List MdnsEvent) (hostname : Bytes) (txnId : ℕ) :
    (run net (es ++ [.resolve hostname txnId])).resolver =
      match (run net es).names.lookup (lowercase hostname) with
      | some rec => (run net es).resolver.answer (lowercase hostname) ⟨true, rec.ipv4, rec.ipv6⟩
      | none => (run net es).resolver.ask (lowercase hostname) txnId :=
  run_moves net es (.resolve hostname txnId)

theorem run_asked (net : Inet) (es : List MdnsEvent) : (run net es).asked = callsIn es := by
  induction es using List.reverseRecOn with
  | nil => rfl
  | append_singleton es e ih =>
    rw [callsIn_concat, ← ih]
    rcases step_keeps net es e with ⟨hostname, txnId, rfl⟩ | ⟨he, k, -, hkeeps⟩
    · refine (congrArg Resolver.asked (resolve_resolver net es hostname txnId)).trans ?_
      split <;> rfl
    · rw [he]
      exact hkeeps.asked.trans (append_nil _).symm

theorem callbacks_append (net : Inet) (es fs : List MdnsEvent) :
    (run net es).callbacks ⊆ (run net (es ++ fs)).callbacks := by
  induction fs using List.reverseRecOn with
  | nil => rw [append_nil]; exact List.Subset.refl _
  | append_singleton fs e ih =>
    rw [← append_assoc]
    refine List.Subset.trans ih ?_
    rcases step_keeps net (es ++ fs) e with ⟨hostname, txnId, rfl⟩ | ⟨-, k, -, hkeeps⟩
    · change _ ⊆ (run net (es ++ fs ++ [.resolve hostname txnId])).resolver.callbacks
      rw [resolve_resolver]
      split
      · exact subset_cons_self _ _
      · exact List.Subset.refl _
    · exact hkeeps.callbacks

theorem drains_append (net : Inet) (es : List MdnsEvent) (hfs : .drain ∉ fs) :
    (run net es).drains ≤ (run net (es ++ fs)).drains := by
  induction fs using List.reverseRecOn with
  | nil => rw [append_nil]
  | append_singleton fs e ih =>
    rw [mem_append, not_or, mem_singleton] at hfs
    refine (ih hfs.1).trans ?_
    rw [← append_assoc]
    rcases step_keeps net (es ++ fs) e with ⟨hostname, txnId, rfl⟩ | ⟨-, k, hk, hkeeps⟩
    · refine Eq.trans_le ?_
        (congrArg Resolver.drains (resolve_resolver net (es ++ fs) hostname txnId)).ge
      split <;> rfl
    · exact (hk (Ne.symm hfs.2)).trans hkeeps.drains.ge

/-- The call was made while `r` was registered for its name. -/
def Registered (net : Inet) (es : List MdnsEvent) (call : ℕ) (r : MdnsResolveResult) : Prop :=
  ∃ fs hostname txnId rec, fs ++ [.resolve hostname txnId] <+: es ∧ (callsIn fs).length = call ∧
    (run net fs).names.lookup (lowercase hostname) = some rec ∧ r = ⟨true, rec.ipv4, rec.ipv6⟩

/-- The call was made while nothing was registered for its name, and query `id` is its own. -/
def Opened (net : Inet) (es : List MdnsEvent) (id call : ℕ) (name : Bytes) : Prop :=
  ∃ fs hostname txnId, fs ++ [.resolve hostname txnId] <+: es ∧ (callsIn fs).length = call ∧
    lowercase hostname = name ∧ (run net fs).names.lookup name = none ∧
    (run net fs).queries.length = id

/-- The record came with a response while the call waited. -/
def Heard (net : Inet) (es : List MdnsEvent) (call : ℕ) (ans : DnsAnswer) : Prop :=
  ∃ fs v6 bytes src, fs ++ [.packet v6 bytes src] <+: es ∧ (run net fs).Waits call ∧
    (run net fs).Brings net v6 bytes ans

/-- What a caller was told was registered at the call or heard while it waited. -/
theorem run_sound (net : Inet) (es : List MdnsEvent) :
    Sound (Heard net es) (Registered net es) (run net es).resolver := by
  induction es using List.reverseRecOn with
  | nil => exact ⟨nofun, .refl _, nofun, fun _ => nodup_nil, fun _ _ => ⟨nofun, nofun⟩⟩
  | append_singleton es e ih =>
    refine (run_moves net es e).sound (ih.mono ?_ ?_) ?_ ?_
    · rintro call ans ⟨fs, v6, bytes, src, hfs, hrest⟩
      exact ⟨fs, v6, bytes, src, hfs.trans (prefix_append _ _), hrest⟩
    · rintro call r ⟨fs, hostname, txnId, rec, hfs, hrest⟩
      exact ⟨fs, hostname, txnId, rec, hfs.trans (prefix_append _ _), hrest⟩
    · rintro v6 bytes src rfl call ans hw hb
      exact ⟨es, v6, bytes, src, prefix_refl _, hw, hb⟩
    · rintro hostname txnId rec rfl hlook
      exact ⟨es, hostname, txnId, rec, prefix_refl _, congrArg List.length (run_asked net es).symm,
        hlook, rfl⟩

private theorem opened_concat : Opened net (es ++ [e]) id call name ↔ Opened net es id call name ∨
    ∃ hostname txnId, e = .resolve hostname txnId ∧ (callsIn es).length = call ∧
      lowercase hostname = name ∧ (run net es).names.lookup name = none ∧
      (run net es).queries.length = id := by
  simp only [Opened, prefix_concat_iff]
  constructor
  · rintro ⟨fs, hostname, txnId, hfs | hfs, hrest⟩
    · obtain ⟨rfl, he⟩ := append_inj' hfs rfl
      exact .inr ⟨hostname, txnId, (singleton_inj.mp he).symm, hrest⟩
    · exact .inl ⟨fs, hostname, txnId, hfs, hrest⟩
  · rintro (⟨fs, hostname, txnId, hfs, hrest⟩ | ⟨hostname, txnId, rfl, hrest⟩)
    · exact ⟨fs, hostname, txnId, .inr hfs, hrest⟩
    · exact ⟨es, hostname, txnId, .inl rfl, hrest⟩

theorem run_tag (net : Inet) (es : List MdnsEvent) :
    (run net es).resolver.tag id = some (name, call) ↔ Opened net es id call name := by
  induction es using List.reverseRecOn with
  | nil => exact ⟨nofun, fun ⟨fs, _, _, hfs, _⟩ => by simp at hfs⟩
  | append_singleton es e ih =>
    rw [opened_concat, ← ih]
    rcases step_keeps net es e with ⟨hostname, txnId, rfl⟩ | ⟨he, k, -, hkeeps⟩
    · rw [resolve_resolver]
      cases hlook : (run net es).names.lookup (lowercase hostname) with
      | some rec =>
        refine (or_iff_left ?_).symm
        rintro ⟨_, _, he, -, rfl, hnone, -⟩
        cases he
        cases hlook.symm.trans hnone
      | none =>
        dsimp only
        rw [Resolver.tag_ask]
        by_cases hid : id = (run net es).resolver.queries.length
        · have hnew : (run net es).resolver.tag id = none := by
            rw [hid, Resolver.tag, List.getElem?_eq_none le_rfl, Option.map_none]
          rw [if_pos hid, hnew]
          constructor
          · intro h
            obtain ⟨rfl, rfl⟩ := Prod.mk.inj (Option.some.inj h)
            exact .inr ⟨hostname, txnId, rfl, congrArg List.length (run_asked net es).symm, rfl,
              hlook, hid.symm⟩
          · rintro (h | ⟨_, _, he, hcall, hname, -⟩)
            · cases h
            · cases he
              rw [← hcall, hname, ← run_asked net]
              rfl
        · rw [if_neg hid]
          refine (or_iff_left ?_).symm
          rintro ⟨_, _, -, -, -, -, hlen⟩
          exact hid hlen.symm
    · rw [hkeeps.tag]
      refine (or_iff_left ?_).symm
      rintro ⟨hostname, txnId, rfl, -⟩
      cases he

theorem invoked_append (fs : List MdnsEvent)
    (h : call ∈ (run net es).resolver.callbacks.map Prod.fst) :
    (run net (es ++ fs)).invocations call = 1 :=
  (run_sound net (es ++ fs)).once (map_subset _ (callbacks_append net es fs) h)

theorem timer_invokes (h : Opened net es id call name) :
    (run net (es ++ .timer id false :: fs)).invocations call = 1 := by
  obtain ⟨hworks, hfired⟩ := run_moves net es (.timer id false)
  rw [append_cons]
  refine invoked_append fs ?_
  have htag := (run_tag net es).mpr h
  rw [← hworks.keeps.tag] at htag
  obtain ⟨q, hq, hcall⟩ := Option.map_eq_some_iff.mp htag
  obtain ⟨-, rfl⟩ := Prod.mk.inj hcall
  exact ((run_sound net _).queries q (mem_of_getElem? hq)).fired (hfired rfl q hq)

private theorem drain_invokes {gs : List MdnsEvent} (hrun : (run net es).running = true)
    (hfs : .drain ∉ fs) (hcall : call < (callsIn (es ++ .stop :: fs)).length) :
    (run net (es ++ .stop :: fs ++ .drain :: gs)).invocations call = 1 := by
  have hd : (run net (es ++ .stop :: fs)).drains ≠ 0 := by
    have hstop : (run net (es ++ [.stop])).drains = _ :=
      congrArg Resolver.drains (run_moves net es .stop)
    have hle := drains_append net (es ++ [.stop]) hfs
    rw [hstop, hrun] at hle
    rw [append_cons]
    exact Nat.ne_of_gt ((Nat.succ_pos _).trans_le hle)
  obtain ⟨-, hnone⟩ := run_moves net (es ++ .stop :: fs) .drain
  rw [append_cons (es ++ .stop :: fs)]
  refine invoked_append gs ((run_sound net _).invoked ?_ ?_)
  · change call < (run net _).asked.length
    rw [run_asked, callsIn_concat, length_append]
    exact Nat.lt_add_right _ hcall
  · rw [hnone hd]
    exact not_mem_nil

/-- Over every run, the calls that `es` makes are answered at most once: at once from a
registration, by the time an expired timer is handled, by the drain of a `stop` while running. -/
theorem resolve_completes_once (net : Inet) (es : List MdnsEvent) :
    (∀ call, (run net es).invocations call ≤ 1 ∧
      ((callsIn es).length ≤ call → (run net es).invocations call = 0)) ∧
    (∀ call r, Registered net es call r → (call, r) ∈ (run net es).callbacks) ∧
    (∀ q ∈ (run net es).queries, q.timer ≠ .armed → (run net es).invocations q.call = 1) ∧
    (∀ fs id gs, es = fs ++ .timer id false :: gs → ∀ call name, Opened net fs id call name →
      (run net es).invocations call = 1) ∧
    (∀ fs gs hs, es = fs ++ .stop :: gs ++ .drain :: hs → (run net fs).running = true →
      .drain ∉ gs → ∀ call < (callsIn (fs ++ .stop :: gs)).length,
        (run net es).invocations call = 1) ∧
    (∀ call r, (call, r) ∈ (run net es).callbacks → r.resolved = true →
      ∃ name, (callsIn es)[call]? = some name ∧
        (Spoken (Heard net es call) name r ∨ Registered net es call r)) ∧
    (∀ name, ((run net es).pendingOf name).Nodup) ∧
    ∀ name id, id ∈ (run net es).pendingOf name ↔
      ∃ call, Opened net es id call name ∧ (run net es).invocations call = 0 := by
  have hsound := run_sound net es
  refine ⟨fun call => ⟨hsound.at_most_once call, fun hcall => ?_⟩, ?_, ?_, ?_, ?_, ?_,
    hsound.nodup, fun name id => (hsound.listed name id).trans ?_⟩
  · refine count_eq_zero.mpr fun hmem => ?_
    obtain ⟨c, hc, rfl⟩ := mem_map.mp hmem
    obtain ⟨name, hname, -⟩ := hsound.results c hc
    rw [← run_asked net] at hcall
    exact absurd (List.getElem?_eq_some_iff.mp hname).1 (not_lt.mpr hcall)
  · rintro call r ⟨fs, hostname, txnId, rec, ⟨gs, rfl⟩, rfl, hlook, rfl⟩
    refine callbacks_append net _ gs ?_
    change _ ∈ (run net (fs ++ [.resolve hostname txnId])).resolver.callbacks
    rw [resolve_resolver, hlook, ← run_asked net]
    exact mem_cons_self
  · intro q hq htimer
    have hfair := hsound.queries q hq
    exact hsound.once (hfair.fired (hfair.handled htimer))
  · rintro fs id gs rfl call name hopened
    exact timer_invokes hopened
  · rintro fs gs hs rfl hrun hgs call hcall
    exact drain_invokes hrun hgs hcall
  · intro call r hcall _
    rw [← run_asked net]
    exact hsound.results (call, r) hcall
  · constructor
    · intro h
      obtain ⟨q, hq, h⟩ := Option.map_eq_some_iff.mp h
      obtain ⟨rfl, hwait⟩ := Prod.mk.inj h
      refine ⟨q.call, (run_tag net es).mp (congrArg (Option.map _) hq), ?_⟩
      exact (hsound.invocations_eq_zero (mem_of_getElem? hq)).mpr hwait
    · rintro ⟨call, hopened, hzero⟩
      obtain ⟨q, hq, h⟩ := Option.map_eq_some_iff.mp ((run_tag net es).mpr hopened)
      obtain ⟨rfl, rfl⟩ := Prod.mk.inj h
      have hwait := (hsound.invocations_eq_zero (mem_of_getElem? hq)).mp hzero
      rw [Resolver.flag, hq, Option.map_some, hwait]

end MdnsManager

end LinkIce
