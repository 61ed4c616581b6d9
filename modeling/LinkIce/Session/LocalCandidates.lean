import LinkIce.Session.StepPaths

/-! Where local candidates come from, and what is published of them. -/
namespace LinkIce
open Stun

def Label.touchesLocals : Label → Bool
  | .hosts | .srflx _ | .prflx _ | .relay _ | .takeover _ | .restart => true
  | _ => false

namespace Session

variable {H : Hmac} {env : Env} {s t : Session} {c : Candidate} {l : Option Label}

theorem mem_pushLocal {c d : Candidate} :
    d ∈ (s.pushLocal c).localCandidates ↔ d ∈ s.localCandidates ∨ d = c := by
  simp [pushLocal, locked]

theorem reset_locals : (s.reset env).localCandidates = [] := by
  obtain ⟨n, -, hcore⟩ := reset_core env s
  exact congrArg Core.localCandidates hcore

private theorem buildCheckList_locals :
    (s.buildCheckList env).localCandidates =
      s.localCandidates.map (·.withFoundation env.net) := by
  obtain ⟨_, _, _, h⟩ := buildCheckList_eq
  rw [h]

/-- Every other action leaves the local candidates alone, or gives them foundations. -/
theorem act_locals (h : Act env s l t)
    (hl : ∀ a ∈ l, a.touchesLocals = false) : t.localCandidates = s.localCandidates ∨
      t.localCandidates = s.localCandidates.map (·.withFoundation env.net) := by
  cases h with
  | quiet h | work h | release h | deliver h | turnInput h => exact .inl h.localCandidates
  | rebuild => exact .inr buildCheckList_locals
  | check i | liteCheck i =>
    obtain ⟨ps, rs, hk⟩ := sendCheck_keeps env s
    exact .inl hk.localCandidates
  | pick =>
    obtain ⟨sel, ps, rs, hk⟩ := pickNominee_keeps env s
    exact .inl hk.localCandidates
  | respond | reject => exact .inl (reply_keeps).localCandidates
  | hosts | srflx | prflx | relay | takeover | restart | autoRestart => cases hl _ rfl
  | _ => exact .inl rfl

theorem mem_takeoverLocals {k : TurnClient} (h : c ∈ s.takeoverLocals env k) :
    (c ∈ s.localCandidates ∧ c.type ≠ .relay) ∨
      (c = relayCandidate env.net k.relayed ∧
        candidateAllowed c.type c.family s.cfg.candidateFilter = true) := by
  unfold takeoverLocals at h
  dsimp only at h
  split_ifs at h with ha
  · rcases List.mem_append.mp h with h | h
    · exact .inl (by simpa using h)
    · obtain rfl := List.mem_singleton.mp h
      exact .inr ⟨rfl, ha⟩
  · exact .inl (by simpa using h)

/-! ### What is published -/

theorem act_publication (h : Act env s l t) :
    Logs (·.isPublication = false) s t ∨ t = s.onGathered := by
  by_cases hl : l = some .publish
  · subst hl
    cases h
    exact .inr rfl
  · exact .inl (act_unpublished h hl)

theorem act_published (h : Act env s l t) {d : LocalDescription}
    (hd : .onGathered d ∈ t.log) : .onGathered d ∈ s.log ∨ d = s.localDescription := by
  rcases act_publication h with ⟨new, hn, hnew⟩ | rfl
  · rw [hn] at hd
    rcases List.mem_append.mp hd with hd | hd
    · exact absurd (hnew _ hd) (by simp [Effect.isPublication])
    · exact .inl hd
  · rcases List.mem_cons.mp hd with hd | hd
    · exact .inr (Effect.onGathered.inj hd)
    · exact .inl hd

end Session

end LinkIce
