import Mathlib.Data.List.Perm.Basic
import Mathlib.Order.Interval.Set.Basic
import LinkIce.Session.StepPaths

/-! Where the transaction ids of the check list come from: each pair has drawn one of its own
from the environment. -/
namespace LinkIce
open Stun List

namespace CheckPair

theorem drawTxnIds_txnId {env : Env} {draws : ℕ} {ps : List CheckPair} :
    (drawTxnIds env draws ps).map (·.txnId) = (List.range' draws ps.length).map env.txnId := by
  refine ext_getElem? fun i => ?_
  simp only [drawTxnIds, map_map, List.getElem?_map, List.getElem?_zipIdx, Option.map_map]
  by_cases hi : i < ps.length
  · simp [hi]
  · simp [hi]

end CheckPair

namespace Session

variable {H : Hmac} {env : Env} {A : Set Label} {s t : Session} {l : Option Label} {p : CheckPair}
  {ps : List CheckPair} {i : ℕ}

theorem txnId_eq_of_forall₂ {R : CheckPair → CheckPair → Prop}
    (hR : ∀ p q, R p q → q.txnId = p.txnId) {qs : List CheckPair} (h : List.Forall₂ R ps qs) :
    qs.map (·.txnId) = ps.map (·.txnId) := by
  induction h with
  | nil => rfl
  | cons h _ ih => rw [map_cons, map_cons, hR _ _ h, ih]

theorem modify_txnId {f : CheckPair → CheckPair}
    (hf : ∀ p, (f p).txnId = p.txnId) : (ps.modify i f).map (·.txnId) = ps.map (·.txnId) := by
  have h : List.Forall₂ (fun p q : CheckPair => q.txnId = p.txnId) ps (ps.modify i f) :=
    forall₂_modify (R := fun p q => q.txnId = p.txnId) (fun _ => rfl) hf ps i
  exact txnId_eq_of_forall₂ (fun _ _ h => h) h

/-! ### The environment is only asked more -/

theorem sendCheck_draws : s.draws ≤ (s.sendCheck env i).draws := by
  obtain ⟨ps, rs, h⟩ := sendCheck_keeps env s
  exact h.draws

theorem pickNominee_draws (env : Env) (s : Session) : s.draws ≤ (s.pickNominee env).draws := by
  obtain ⟨sel, ps, rs, h⟩ := pickNominee_keeps env s
  exact h.draws

theorem pickNominee_txnId :
    (s.pickNominee env).checkList.map (·.txnId) = s.checkList.map (·.txnId) := by
  unfold pickNominee
  split
  · rfl
  · rename_i i _
    refine (txnId_eq_of_forall₂ (fun _ _ h => h.txnId)
      (sendCheck_scheduled env _ i).checkList).trans ?_
    exact modify_txnId fun _ => by rfl

/-- A rebuild draws one id for each pair. -/
theorem buildCheckList_ids (env : Env) (s : Session) :
    ∃ n, (s.buildCheckList env).draws = s.draws + n ∧
      ((s.buildCheckList env).checkList.map (·.txnId)).Perm
        ((List.range' s.draws n).map env.txnId) := by
  have hfill (u : Session) : (u.fillCheckList env).draws = u.draws + u.candidatePairs.length ∧
      ((u.fillCheckList env).checkList.map (·.txnId)).Perm
        ((List.range' u.draws u.candidatePairs.length).map env.txnId) := by
    refine ⟨by simp [fillCheckList, CheckPair.drawTxnIds], ?_⟩
    rw [fillCheckList, CheckPair.initialStates_map _ fun _ _ => rfl, ← CheckPair.drawTxnIds_txnId]
    exact (perm_insertionSort _ _).map _
  exact ⟨_, hfill _⟩

theorem act_draws (h : Act env s l t) : s.draws ≤ t.draws := by
  have hreset (u : Session) : u.draws ≤ (u.reset env).draws := by
    have hdrop : u.draws ≤ ((u.emit .restarted).restartTimers env).draws :=
      ((dropTurn_works env (u.emit .restarted).cancelTimers).trans
        (dropTurnBackupProbe_quiet env _).toWorks).draws
    unfold reset
    generalize (u.emit .restarted).restartTimers env = v at hdrop ⊢
    have hfresh : (v.freshCredentials env).draws = v.draws + 1 := rfl
    have hwipe (w : Session) : w.draws ≤ (w.wipeForRestart.setState .new).draws :=
      (unregisterMdns_quiet w).draws
    have hw := hwipe (v.freshCredentials env)
    omega
  cases h with
  | quiet h | work h | release h | deliver h | turnInput h => exact h.draws
  | rebuild =>
    obtain ⟨n, hn, -⟩ := buildCheckList_ids env s
    omega
  | check i | liteCheck i => exact sendCheck_draws
  | pick => exact pickNominee_draws env s
  | respond | reject =>
    rcases reply_eq with h | ⟨e, -, h⟩
    all_goals rw [h]
    exact le_rfl
  | trigger | probe => exact Nat.le_succ _
  | restart => exact hreset s
  | autoRestart now => exact hreset (s.countAutoRestart now)
  | _ => exact le_rfl

theorem steps_draws (h : Steps env A s t) : s.draws ≤ t.draws :=
  h.invariant (I := fun u => s.draws ≤ u.draws) (fun _ hact hu => hu.trans (act_draws hact)) le_rfl

/-- The pairs have drawn different ids, and all of them in the past. -/
def DrawnIds (env : Env) (s : Session) : Prop :=
  ∃ ks : List ℕ, s.checkList.map (·.txnId) = ks.map env.txnId ∧ ks.Nodup ∧ ∀ k ∈ ks, k < s.draws

namespace DrawnIds

theorem same (h : DrawnIds env s) (hids : t.checkList.map (·.txnId) = s.checkList.map (·.txnId))
    (hd : s.draws ≤ t.draws) : DrawnIds env t := by
  obtain ⟨ks, hk, hn, hlt⟩ := h
  exact ⟨ks, hids.trans hk, hn, fun k hk => (hlt k hk).trans_le hd⟩

theorem nil (h : t.checkList = []) : DrawnIds env t := ⟨[], by simp [h], .nil, by simp⟩

end DrawnIds

theorem act_drawnIds (h : Act env s l t) (hs : DrawnIds env s) : DrawnIds env t := by
  have hd := act_draws h
  have hreset (u : Session) : (u.reset env).checkList = [] := by
    obtain ⟨n, -, hc⟩ := reset_core env u
    exact congrArg Core.checkList hc
  have hevolve {ps qs : List CheckPair} (h : List.Forall₂ CheckPair.Evolves ps qs) :
      qs.map (·.txnId) = ps.map (·.txnId) := txnId_eq_of_forall₂ (fun _ _ h => h.txnId) h
  cases h with
  | quiet h | work h | release h | deliver h | turnInput h => exact hs.same (by rw [h.checkList]) hd
  | rebuild =>
    obtain ⟨n, hn, hperm⟩ := buildCheckList_ids env s
    -- The pairs are sorted after their ids were drawn.
    obtain ⟨ks, hk, hks⟩ := (congrFun (congrFun (eq_map_comp_perm env.txnId) _) _).mpr hperm
    refine ⟨ks, hk, hks.nodup_iff.mpr nodup_range', fun k hk => ?_⟩
    have := hks.mem_iff.mp hk
    rw [mem_range'_1] at this
    omega
  | check i | liteCheck i => exact hs.same (hevolve (sendCheck_scheduled env s i).checkList) hd
  | repaint ps h => exact hs.same (hevolve (h.imp fun _ _ => .of_repaints)) hd
  | pick => exact hs.same (pickNominee_txnId) hd
  | succeed i p =>
    have hrepaint := CheckPair.unfreezeSiblings_repaints p.loc.foundation p.rem.foundation
      (s.checkList.modify i fun p => { p with valid := true, state := .succeeded })
    refine hs.same ((hevolve (hrepaint.imp fun _ _ => .of_repaints)).trans ?_) hd
    exact modify_txnId fun _ => by rfl
  | respond | reject =>
    exact hs.same (congrArg (fun c => c.checkList.map (·.txnId)) (reply_core _ _ _ _ s)) hd
  | defer i | nominateDeferred i => exact hs.same (modify_txnId fun _ => by rfl) hd
  | trigger loc rem =>
    obtain ⟨ks, hk, hn, hlt⟩ := hs
    refine ⟨ks ++ [s.draws], ?_, ?_, fun k hk => ?_⟩
    · rw [map_append, map_append, hk]
      rfl
    · refine nodup_append.mpr ⟨hn, by simp, ?_⟩
      intro a ha b hb
      rw [mem_singleton.mp hb]
      exact (hlt a ha).ne
    · rcases mem_append.mp hk with hk | hk
      · exact (hlt k hk).trans_le (Nat.le_succ _)
      · rw [mem_singleton.mp hk]
        exact Nat.lt_succ_self _
  | forget => exact .nil rfl
  | restart => exact .nil (hreset s)
  | autoRestart now => exact .nil (hreset _)
  | _ => exact hs.same rfl hd

theorem steps_drawnIds (h : Steps env A s t) (hs : DrawnIds env s) : DrawnIds env t :=
  h.invariant (I := DrawnIds env) (fun _ hact hu => act_drawnIds hact hu) hs

theorem step_drawnIds {e : Event} (hs : DrawnIds env s) :
    DrawnIds env (s.step H env e) := steps_drawnIds (step_steps H env s e) hs

/-- The transaction ids drawn so far, and the next one, are different. -/
def IdsDistinct (env : Env) (s : Session) : Prop := Set.InjOn env.txnId (Set.Iic s.draws)

theorem IdsDistinct.of_le (h : IdsDistinct env t) (hd : s.draws ≤ t.draws) : IdsDistinct env s :=
  Set.InjOn.mono (Set.Iic_subset_Iic.mpr hd) h

theorem DrawnIds.pair_unique (h : DrawnIds env s) (hi : IdsDistinct env s)
    {p q : CheckPair} (hp : p ∈ s.checkList) (hq : q ∈ s.checkList) (hid : p.txnId = q.txnId) :
    p = q := by
  obtain ⟨ks, hk, hn, hlt⟩ := h
  have hnodup : (s.checkList.map (·.txnId)).Nodup := by
    rw [hk]
    exact hn.map_on fun a ha b hb => hi (hlt a ha).le (hlt b hb).le
  exact inj_on_of_nodup_map hnodup hp hq hid

theorem DrawnIds.fresh (h : DrawnIds env s) (hi : IdsDistinct env s) (hp : p ∈ s.checkList) :
    p.txnId ≠ env.txnId s.draws := by
  obtain ⟨ks, hk, -, hlt⟩ := h
  have hmem : p.txnId ∈ ks.map env.txnId := hk ▸ mem_map_of_mem hp
  obtain ⟨k, hkm, hkt⟩ := mem_map.mp hmem
  intro hd
  have hkd := hi (hlt k hkm).le (Set.mem_Iic.mpr le_rfl) (hkt.trans hd)
  exact absurd (hlt k hkm) (by omega)

end Session

end LinkIce
