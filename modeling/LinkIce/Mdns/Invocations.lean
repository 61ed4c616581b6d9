import LinkIce.Lib.Pointwise
import LinkIce.Mdns.Manager
import Mathlib.Data.List.Nodup
import Mathlib.Logic.Relation

/-! What the callers of `resolve` see of the mDNS manager: how often their callback is invoked and
where its addresses come from. -/
namespace LinkIce
open Stun Mdns List Option

def MdnsOutput.callback? : MdnsOutput → Option (ℕ × MdnsResolveResult)
  | callback call r => some (call, r)
  | send .. => none

namespace MdnsManager

def callbacks (m : MdnsManager) : List (ℕ × MdnsResolveResult) := m.log.filterMap (·.callback?)

def invocations (m : MdnsManager) (call : ℕ) : ℕ := (m.callbacks.map Prod.fst).count call

/-- Each address is that of a record of the name. -/
structure Spoken (R : DnsAnswer → Prop) (name : Bytes) (r : MdnsResolveResult) : Prop where
  ipv4 : ∀ a ∈ r.ipv4, ∃ ans, R ans ∧ ans.name = name ∧ ans.ipv4 = a
  ipv6 : ∀ a ∈ r.ipv6, ∃ ans, R ans ∧ ans.name = name ∧ ans.ipv6 = a

variable {R R' : DnsAnswer → Prop} {name : Bytes} {r : MdnsResolveResult} {ans : DnsAnswer}

theorem Spoken.accumulate (h : Spoken R ans.name r) (hans : R ans) :
    Spoken R ans.name (r.accumulate ans) := by
  have hfour : Spoken R ans.name (if ans.ipv4 ≠ [] ∧ ans.ipv4 ∉ r.ipv4 then
      { r with ipv4 := r.ipv4 ++ [ans.ipv4], resolved := true } else r) := by
    split
    · refine ⟨fun a ha => ?_, h.ipv6⟩
      rcases mem_append.mp ha with ha | ha
      · exact h.ipv4 a ha
      · exact ⟨ans, hans, rfl, (mem_singleton.mp ha).symm⟩
    · exact h
  unfold MdnsResolveResult.accumulate
  extract_lets r'
  change Spoken R ans.name r' at hfour
  split
  · refine ⟨hfour.ipv4, fun a ha => ?_⟩
    rcases mem_append.mp ha with ha | ha
    · exact hfour.ipv6 a ha
    · exact ⟨ans, hans, rfl, (mem_singleton.mp ha).symm⟩
  · exact hfour

theorem Spoken.mono (h : Spoken R name r) (hR : ∀ ans, R ans → R' ans) : Spoken R' name r := by
  constructor
  · intro a ha
    obtain ⟨ans, hans, hrest⟩ := h.ipv4 a ha
    exact ⟨ans, hR ans hans, hrest⟩
  · intro a ha
    obtain ⟨ans, hans, hrest⟩ := h.ipv6 a ha
    exact ⟨ans, hR ans hans, hrest⟩

end MdnsManager

/-- The manager as a resolver: the calls, their queries, which of these wait under a name, the
invocations of callbacks and the drains that are on their way. -/
structure Resolver where
  asked : List Bytes
  queries : List PendingQuery
  pending : Bytes → List ℕ
  callbacks : List (ℕ × MdnsResolveResult)
  drains : ℕ

namespace Resolver
open MdnsManager (Spoken)

def modify (id : ℕ) (f : PendingQuery → PendingQuery) (v : Resolver) : Resolver :=
  { v with queries := v.queries.modify id f }

def relist (pend : Bytes → List ℕ) (v : Resolver) : Resolver := { v with pending := pend }

def settle (id : ℕ) (q : PendingQuery) (v : Resolver) : Resolver :=
  { v.modify id ({ · with fired := true }) with
    pending := fun name => (v.pending name).filter (· ≠ id)
    callbacks := (q.call, q.accumulated) :: v.callbacks }

def answer (name : Bytes) (r : MdnsResolveResult) (v : Resolver) : Resolver :=
  { v with asked := v.asked ++ [name], callbacks := (v.asked.length, r) :: v.callbacks }

def ask (name : Bytes) (txnId : ℕ) (v : Resolver) : Resolver :=
  { v with
    asked := v.asked ++ [name]
    queries := v.queries ++ [{ hostnameLc := name, call := v.asked.length, txnId }]
    pending := Function.update v.pending name (v.pending name ++ [v.queries.length]) }

/-- What a resolver does between calls. A query that waits may take a record of its name, if `R`
grants it to its call, or settle; only then is its timer touched. -/
inductive Work (R : ℕ → DnsAnswer → Prop) : Resolver → Resolver → Prop
  | absorb {v id q ans} (hq : v.queries[id]? = some q) (hwait : q.fired = false)
      (hname : q.hostnameLc = ans.name) (h : R q.call ans) : Work R v
        (v.modify id fun q => { q with accumulated := q.accumulated.accumulate ans })
  | settle {v id q} (hq : v.queries[id]? = some q) (hwait : q.fired = false) :
      Work R v (v.settle id q)
  | timer {v id q} (t : TimerState → TimerState) (hq : v.queries[id]? = some q)
      (hfired : q.fired = true) : Work R v (v.modify id fun q => { q with timer := t q.timer })

abbrev Works (R : ℕ → DnsAnswer → Prop) : Resolver → Resolver → Prop :=
  Relation.ReflTransGen (Work R)

/-- The query is that of its call; its callback was invoked if it has fired, its timer runs
otherwise, and its addresses come from `R`. -/
structure Fair (R : ℕ → DnsAnswer → Prop) (v : Resolver) (q : PendingQuery) : Prop where
  asked : v.asked[q.call]? = some q.hostnameLc
  fired : q.fired = true → q.call ∈ v.callbacks.map Prod.fst
  handled : q.timer ≠ .armed → q.fired = true
  accumulated : Spoken (R q.call) q.hostnameLc q.accumulated

def waiting (v : Resolver) : List ℕ := (v.queries.filter (!·.fired)).map (·.call)

def tag (v : Resolver) (id : ℕ) : Option (Bytes × ℕ) :=
  (v.queries[id]?).map fun q => (q.hostnameLc, q.call)

def flag (v : Resolver) (id : ℕ) : Option (Bytes × Bool) :=
  (v.queries[id]?).map fun q => (q.hostnameLc, q.fired)

/-- Every call either waits or had its callback invoked, once; the results come from `R` or `L`, and
just the queries that wait are listed, once and under their name. -/
structure Sound (R : ℕ → DnsAnswer → Prop) (L : ℕ → MdnsResolveResult → Prop) (v : Resolver) :
    Prop where
  queries : ∀ q ∈ v.queries, v.Fair R q
  counted : (v.callbacks.map Prod.fst ++ v.waiting).Perm (List.range v.asked.length)
  results : ∀ c ∈ v.callbacks, ∃ name, v.asked[c.1]? = some name ∧
    (Spoken (R c.1) name c.2 ∨ L c.1 c.2)
  nodup : ∀ name, (v.pending name).Nodup
  listed : ∀ name id, id ∈ v.pending name ↔ v.flag id = some (name, false)

variable {R R' : ℕ → DnsAnswer → Prop} {L L' : ℕ → MdnsResolveResult → Prop} {v w : Resolver}
  {id : ℕ} {q p : PendingQuery} {f : PendingQuery → PendingQuery}

theorem Fair.mono (h : v.Fair R q) (hR : ∀ call ans, R call ans → R' call ans)
    (ha : v.asked <+: w.asked) (hc : v.callbacks ⊆ w.callbacks) : w.Fair R' q where
  asked := by
    obtain ⟨new, hnew⟩ := ha
    rw [← hnew, List.getElem?_append_left (List.getElem?_eq_some_iff.mp h.asked).1]
    exact h.asked
  fired hfired := map_subset _ hc (h.fired hfired)
  handled := h.handled
  accumulated := h.accumulated.mono (hR q.call)

theorem Sound.mono (h : Sound R L v) (hR : ∀ call ans, R call ans → R' call ans)
    (hL : ∀ call r, L call r → L' call r) : Sound R' L' v where
  queries q hq := (h.queries q hq).mono hR (prefix_refl _) (List.Subset.refl _)
  counted := h.counted
  results c hc := by
    obtain ⟨name, hname, hsource⟩ := h.results c hc
    exact ⟨name, hname, hsource.imp (·.mono (hR c.1)) (hL c.1 c.2)⟩
  nodup := h.nodup
  listed := h.listed

theorem modify_split (hq : v.queries[id]? = some q) (f : PendingQuery → PendingQuery) :
    ∃ l₁ l₂, v.queries = l₁ ++ q :: l₂ ∧ (v.modify id f).queries = l₁ ++ f q :: l₂ := by
  obtain ⟨hlt, hget⟩ := List.getElem?_eq_some_iff.mp hq
  obtain ⟨l₁, a, l₂, hl, rfl, hmodify⟩ := exists_of_modify f hlt
  obtain rfl : a = q := by simpa [hl] using hq
  exact ⟨l₁, l₂, hl, hmodify⟩

theorem flag_modify (hq : v.queries[id]? = some q) (j : ℕ) : (v.modify id f).flag j =
    if j = id then some ((f q).hostnameLc, (f q).fired) else v.flag j := by
  rw [flag, modify, List.getElem?_modify]
  split
  · simp_all
  · simp [flag, Ne.symm ‹_›]

theorem Sound.modify (h : Sound R L v) (hq : v.queries[id]? = some q)
    (hf : (f q).hostnameLc = q.hostnameLc ∧ (f q).call = q.call ∧ (f q).fired = q.fired)
    (hfair : v.Fair R (f q)) : Sound R L (v.modify id f) where
  queries p hp := by
    rcases mem_modify hp with hp | ⟨q', hq', rfl⟩
    · obtain ⟨hasked, hfired, hhandled, haccumulated⟩ := h.queries p hp
      exact ⟨hasked, hfired, hhandled, haccumulated⟩
    · obtain rfl := some.inj (hq.symm.trans hq')
      exact ⟨hfair.asked, hfair.fired, hfair.handled, hfair.accumulated⟩
  counted := by
    obtain ⟨l₁, l₂, hl, hmodify⟩ := modify_split hq f
    have hsame : (v.modify id f).waiting = v.waiting := by
      simp [waiting, hl, hmodify, filter_cons, hf]
      split <;> simp [hf]
    rw [hsame]
    exact h.counted
  results := h.results
  nodup := h.nodup
  listed name j := by
    have hold : v.flag id = some (q.hostnameLc, q.fired) := by rw [flag, hq, map_some]
    refine (h.listed name j).trans ?_
    rw [flag_modify hq, hf.1, hf.2.2]
    split
    · rw [‹j = id›, hold]
    · rfl

theorem Sound.settle (h : Sound R L v) (hq : v.queries[id]? = some q) (hwait : q.fired = false) :
    Sound R L (v.settle id q) where
  queries p hp := by
    have hgrow (p : PendingQuery) (hp : v.Fair R p) : (v.settle id q).Fair R p :=
      hp.mono (fun _ _ h => h) (prefix_refl _) (subset_cons_self _ _)
    rcases mem_modify hp with hp | ⟨q', hq', rfl⟩
    · exact hgrow p (h.queries p hp)
    · obtain rfl := some.inj (hq.symm.trans hq')
      have hfair := hgrow q (h.queries q (mem_of_getElem? hq))
      exact ⟨hfair.asked, fun _ => mem_cons_self, fun _ => rfl, hfair.accumulated⟩
  counted := by
    obtain ⟨l₁, l₂, hl, hmodify⟩ := modify_split hq ({ · with fired := true })
    have hleft : v.waiting.Perm (q.call :: (v.settle id q).waiting) := by
      have hdone : (v.settle id q).queries = l₁ ++ { q with fired := true } :: l₂ := hmodify
      simp [waiting, hl, hdone, hwait]
    exact (perm_middle.symm.trans ((List.Perm.refl _).append hleft.symm)).trans h.counted
  results c hc := by
    rcases mem_cons.mp hc with rfl | hc
    · have hfair := h.queries q (mem_of_getElem? hq)
      exact ⟨q.hostnameLc, hfair.asked, .inl hfair.accumulated⟩
    · exact h.results c hc
  nodup name := (h.nodup name).filter _
  listed name j := by
    refine mem_filter.trans ?_
    rw [h.listed, decide_eq_true_eq]
    change _ ↔ (v.modify id _).flag j = _
    rw [flag_modify hq]
    split <;> simp_all

theorem results_append {c : ℕ × MdnsResolveResult} (h : Sound R L v) (hc : c ∈ v.callbacks)
    {new : List Bytes} :
    ∃ name, (v.asked ++ new)[c.1]? = some name ∧ (Spoken (R c.1) name c.2 ∨ L c.1 c.2) := by
  obtain ⟨name, hname, hsource⟩ := h.results c hc
  have hlt := (List.getElem?_eq_some_iff.mp hname).1
  exact ⟨name, (List.getElem?_append_left hlt).trans hname, hsource⟩

theorem Sound.answer {name : Bytes} {r : MdnsResolveResult} (h : Sound R L v)
    (hL : L v.asked.length r) : Sound R L (v.answer name r) where
  queries q hq := (h.queries q hq).mono (fun _ _ h => h) (prefix_append _ _)
    (subset_cons_self _ _)
  counted := by
    rw [Resolver.answer, length_append, length_singleton, range_succ]
    exact (h.counted.cons _).trans (perm_append_singleton _ _).symm
  results c hc := by
    rcases mem_cons.mp hc with rfl | hc
    · exact ⟨name, List.getElem?_concat_length, .inr hL⟩
    · exact results_append h hc
  nodup := h.nodup
  listed := h.listed

theorem flag_append (q : PendingQuery) (id : ℕ) :
    ({ v with queries := v.queries ++ [q] } : Resolver).flag id =
      if id = v.queries.length then some (q.hostnameLc, q.fired) else v.flag id := by
  unfold flag
  dsimp only
  split
  · rw [‹id = _›, List.getElem?_concat_length, map_some]
  · rw [List.getElem?_append]
    split
    · rfl
    · rw [List.getElem?_eq_none (by simp; omega), List.getElem?_eq_none (by omega)]

private theorem flag_length (v : Resolver) : v.flag v.queries.length = none := by simp [flag]

theorem Sound.ask (h : Sound R L v) (name : Bytes) (txnId : ℕ) :
    Sound R L (v.ask name txnId) where
  queries q hq := by
    rcases mem_append.mp hq with hq | hq
    · exact (h.queries q hq).mono (fun _ _ h => h) (prefix_append _ _) (List.Subset.refl _)
    · obtain rfl := mem_singleton.mp hq
      exact ⟨List.getElem?_concat_length, nofun, fun h => absurd rfl h, ⟨nofun, nofun⟩⟩
  counted := by
    rw [Resolver.ask, length_append, length_singleton, range_succ]
    simp only [waiting, filter_append, map_append, ← append_assoc]
    exact h.counted.append_right _
  results c hc := results_append h hc
  nodup other := by
    by_cases hother : other = name
    · subst hother
      simp only [Resolver.ask, Function.update_self]
      refine nodup_append.mpr ⟨h.nodup _, nodup_singleton _, fun a ha b hb hab => ?_⟩
      rw [h.listed, hab, mem_singleton.mp hb, flag_length] at ha
      cases ha
    · simp only [Resolver.ask, Function.update_of_ne hother]
      exact h.nodup other
  listed other id := by
    refine .trans ?_ (Eq.congr_left (flag_append _ id)).symm
    have hold := h.listed other id
    by_cases hid : id = v.queries.length
    · subst hid
      rw [flag_length] at hold
      by_cases hother : other = name <;> simp_all [Resolver.ask, eq_comm]
    · by_cases hother : other = name <;> simp_all [Resolver.ask]

theorem Work.sound (h : Work R v w) (hR : ∀ call ans, R call ans → R' call ans)
    (hv : Sound R' L v) : Sound R' L w := by
  cases h with
  | absorb hq hwait hname hans =>
    have hfair := hv.queries _ (mem_of_getElem? hq)
    refine hv.modify hq ⟨rfl, rfl, rfl⟩ ⟨hfair.asked, hfair.fired, hfair.handled, ?_⟩
    have haccumulated := hfair.accumulated
    rw [hname] at haccumulated ⊢
    exact haccumulated.accumulate (hR _ _ hans)
  | settle hq hwait => exact hv.settle hq hwait
  | timer t hq hfired =>
    have hfair := hv.queries _ (mem_of_getElem? hq)
    refine hv.modify hq ⟨rfl, rfl, rfl⟩ ⟨hfair.asked, hfair.fired, ?_, hfair.accumulated⟩
    exact fun _ => hfired

theorem Works.of_eq (h : v = w) : Works R v w := h ▸ .refl

theorem Works.sound (h : Works R v w) (hR : ∀ call ans, R call ans → R' call ans)
    (hv : Sound R' L v) : Sound R' L w := by
  induction h with
  | refl => exact hv
  | tail _ hwork ih => exact hwork.sound hR ih

abbrev Shaped : Resolver → Prop := Sound (fun _ _ => True) fun _ _ => True

theorem Works.shaped (h : Works R v w) : v.Shaped → w.Shaped := h.sound fun _ _ _ => trivial

theorem Sound.withDrains (h : Sound R L v) (k : ℕ) : Sound R L { v with drains := k } where
  queries q hq := (h.queries q hq).mono (fun _ _ h => h) (prefix_refl _) (List.Subset.refl _)
  counted := h.counted
  results := h.results
  nodup := h.nodup
  listed := h.listed

theorem tag_modify (hf : ∀ q, (f q).hostnameLc = q.hostnameLc ∧ (f q).call = q.call) :
    (v.modify id f).tag = v.tag := by
  funext j
  unfold tag modify
  rw [List.getElem?_modify]
  cases v.queries[j]? with
  | none => rfl
  | some q => split <;> simp [hf]

theorem tag_ask (v : Resolver) (name : Bytes) (txnId : ℕ) : (v.ask name txnId).tag id =
    if id = v.queries.length then some (name, v.asked.length) else v.tag id := by
  unfold tag ask
  dsimp only
  split
  · rw [‹id = _›, List.getElem?_concat_length, map_some]
  · rw [List.getElem?_append]
    split
    · rfl
    · rw [List.getElem?_eq_none (by simp; omega), List.getElem?_eq_none (by omega)]

/-- No work makes or renames a call, or takes an invocation back. -/
structure Keeps (v w : Resolver) : Prop where
  asked : w.asked = v.asked
  tag : w.tag = v.tag
  callbacks : v.callbacks ⊆ w.callbacks
  drains : w.drains = v.drains

theorem Keeps.of_eq (h : w = v) : Keeps v w := h ▸ ⟨rfl, rfl, List.Subset.refl _, rfl⟩

theorem Works.keeps (h : Works R v w) : Keeps v w := by
  induction h with
  | refl => exact .of_eq rfl
  | tail _ hwork ih =>
    obtain ⟨hasked, htag, hcallbacks, hdrains⟩ := ih
    cases hwork with
    | absorb | timer =>
      refine ⟨hasked, ?_, hcallbacks, hdrains⟩
      rw [← htag]
      exact tag_modify fun _ => ⟨rfl, rfl⟩
    | settle =>
      refine ⟨hasked, ?_, List.Subset.trans hcallbacks (subset_cons_self _ _), hdrains⟩
      rw [← htag]
      exact tag_modify fun _ => ⟨rfl, rfl⟩

/-! ### What a sound resolver has done -/

section

variable (h : Sound R L v) {call : ℕ}
include h

theorem Sound.distinct : (v.callbacks.map Prod.fst ++ v.waiting).Nodup :=
  h.counted.nodup_iff.mpr nodup_range

theorem Sound.one_name {name other : Bytes} (hid : id ∈ v.pending name)
    (hother : id ∈ v.pending other) : name = other := by
  rw [h.listed] at hid hother
  exact (Prod.mk.inj (some.inj (hid.symm.trans hother))).1

theorem Sound.at_most_once (call : ℕ) : (v.callbacks.map Prod.fst).count call ≤ 1 :=
  nodup_iff_count_le_one.mp h.distinct.of_append_left call

theorem Sound.once (hcall : call ∈ v.callbacks.map Prod.fst) :
    (v.callbacks.map Prod.fst).count call = 1 :=
  count_eq_one_of_mem h.distinct.of_append_left hcall

theorem Sound.invoked (hcall : call < v.asked.length) (hwait : call ∉ v.waiting) :
    call ∈ v.callbacks.map Prod.fst :=
  (mem_append.mp (h.counted.mem_iff.mpr (mem_range.mpr hcall))).resolve_right hwait

theorem Sound.invocations_eq_zero (hq : q ∈ v.queries) :
    (v.callbacks.map Prod.fst).count q.call = 0 ↔ q.fired = false := by
  constructor
  · intro hzero
    by_contra hfired
    rw [h.once ((h.queries q hq).fired (by simpa using hfired))] at hzero
    cases hzero
  · intro hwait
    have hmem : q.call ∈ v.waiting :=
      mem_map_of_mem (mem_filter.mpr ⟨hq, by rw [hwait]; rfl⟩)
    exact count_eq_zero.mpr fun hcall => disjoint_of_nodup_append h.distinct hcall hmem

end

end Resolver

end LinkIce
