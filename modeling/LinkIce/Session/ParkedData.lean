import LinkIce.Lib.BoundedQueue
import LinkIce.Session.HoldingPaths

/-! Application data that waits for a nomination. -/
namespace LinkIce
open Stun List

namespace Session

variable {H : Hmac} {env : Env} {s t : Session} {e : Event} {buf : Bytes}

/-- What the event is to the application's data: a frame that finds the session Connected or
not, or a nomination. -/
def posts (H : Hmac) (env : Env) (s : Session) : Event → List (Post Bytes)
  | .send buf => [if s.state = .connected then .direct buf else .park buf]
  | e =>
    if s.mail.nominations.length < (s.step H env e).mail.nominations.length then [.release] else []

def runPosts (H : Hmac) (env : Env) : Session → List Event → List (Post Bytes)
  | _, [] => []
  | s, e :: es => s.posts H env e ++ runPosts H env (s.step H env e) es

def lot (s : Session) : Lot Bytes := ⟨s.pendingAppData, s.handedData.reverse⟩

theorem lot_eq_of_mail (h : t.mail = s.mail) : t.lot = s.lot := by
  have hpending : t.pendingAppData = s.pendingAppData := congrArg Mail.pending h
  have hhanded : t.handedData = s.handedData := congrArg Mail.handed h
  rw [lot, lot, hpending, hhanded]

theorem Passage.mail (h : Passage env s t) : t.mail = s.mail ∨
    ∃ x, t.mail = ⟨[], s.pendingAppData.reverse ++ s.handedData, x :: s.mail.nominations⟩ := by
  rcases h.mail_or_nominated with h | ⟨v, origin, ep, relay, cid, tx, hv, ht, -⟩
  · exact .inl h
  · have hpending : v.pendingAppData = s.pendingAppData := congrArg Mail.pending hv.mail
    have hhanded : v.handedData = s.handedData := congrArg Mail.handed hv.mail
    refine .inr ⟨.nominated origin v.controlling ep relay cid tx, ?_⟩
    rw [ht.mail, onNominated_mail, hpending, hhanded, hv.mail]

/-- Parked data leaves with a nomination, all of it and in order. -/
theorem step_mail (he : ∀ buf, e ≠ .send buf) :
    (s.step H env e).mail = s.mail ∨ ∃ x, (s.step H env e).mail =
      ⟨[], s.pendingAppData.reverse ++ s.handedData, x :: s.mail.nominations⟩ := by
  obtain ⟨u, hu, -, hp⟩ := step_passage he
  have hpending : u.pendingAppData = s.pendingAppData := congrArg Mail.pending hu.mail
  have hhanded : u.handedData = s.handedData := congrArg Mail.handed hu.mail
  rw [← hu.mail, ← hpending, ← hhanded]
  exact hp.mail

/-- A frame that finds the session Connected finds nothing parked. -/
def Cleared (s : Session) : Prop := s.state = .connected → s.pendingAppData = []

theorem sendPosted_lot : (s.sendPosted env buf).lot =
    s.lot.step pendingAppDataMaxFrames
      (if s.state = .connected then .direct buf else .park buf) := by
  unfold sendPosted
  by_cases hs : s.state = .connected
  · rw [if_neg (not_not.mpr hs), if_pos hs,
      lot_eq_of_mail (sendOnStrand_retains env (s.noteHanded buf) buf).mail]
    simp only [lot, noteHanded, Lot.step, reverse_cons]
  · rw [if_pos hs, if_neg hs]
    rfl

private theorem sendPosted_cleared (h : Cleared s) : Cleared (s.sendPosted env buf) := by
  intro hc
  have hstate : (s.sendPosted env buf).state = s.state := (sendPosted_quiet env s buf).state
  have hs : s.state = .connected := hstate ▸ hc
  have hlot : (s.sendPosted env buf).lot = _ := sendPosted_lot
  rw [if_pos hs] at hlot
  exact (congrArg Lot.parked hlot).trans (h hs)

/-- One step of the session is what the queue makes of it. -/
theorem step_lot (h : Cleared s) :
    (s.step H env e).lot = (s.posts H env e).foldl (Lot.step pendingAppDataMaxFrames) s.lot ∧
      Along (Lot.step pendingAppDataMaxFrames) Lot.Orderly s.lot (s.posts H env e) ∧
      Cleared (s.step H env e) := by
  by_cases he : ∃ buf, e = .send buf
  · obtain ⟨buf, rfl⟩ := he
    refine ⟨sendPosted_lot, ⟨fun a ha => h ?_, trivial⟩, sendPosted_cleared h⟩
    by_contra hs
    rw [if_neg hs] at ha
    cases ha
  · have hposts : s.posts H env e =
        if s.mail.nominations.length < (s.step H env e).mail.nominations.length
        then [.release] else [] := by
      cases e with
      | send buf => exact absurd ⟨buf, rfl⟩ he
      | _ => rfl
    rcases step_mail fun buf hb => he ⟨buf, hb⟩ with hm | ⟨x, hm⟩
    · rw [hposts, if_neg (by rw [hm]; exact lt_irrefl _)]
      refine ⟨lot_eq_of_mail hm, trivial, fun hc => ?_⟩
      have hs := (step_calm (congrArg Mail.nominations hm) hc).1
      exact (congrArg Mail.pending hm).trans (h hs)
    · rw [hposts, if_pos (by rw [hm]; exact Nat.lt_succ_self _)]
      refine ⟨?_, ⟨nofun, trivial⟩, fun _ => congrArg Mail.pending hm⟩
      have hpending : (s.step H env e).pendingAppData = [] := congrArg Mail.pending hm
      have hhanded : (s.step H env e).handedData = s.pendingAppData.reverse ++ s.handedData :=
        congrArg Mail.handed hm
      simp only [lot, hpending, hhanded, reverse_append, reverse_reverse,
        foldl_cons, foldl_nil, Lot.step]

theorem run_lot {es : List Event} (h : Cleared s) :
    (s.run H env es).lot =
        (s.runPosts H env es).foldl (Lot.step pendingAppDataMaxFrames) s.lot ∧
      Along (Lot.step pendingAppDataMaxFrames) Lot.Orderly s.lot (s.runPosts H env es) := by
  induction es generalizing s with
  | nil => exact ⟨rfl, trivial⟩
  | cons e es ih =>
    obtain ⟨hlot, horderly, hcleared⟩ := step_lot h
    obtain ⟨hrun, hrest⟩ := ih hcleared
    rw [hlot] at hrun hrest
    rw [run_cons, runPosts, foldl_append]
    exact ⟨hrun, along_append.mpr ⟨horderly, hrest⟩⟩

/-- The frames given to `send_on_strand` are those at certain places of the order in which they
were sent, in that order: every frame that found the session Connected, and of those that did
not the ones that a nomination follows with fewer than 64 others parked in between. -/
theorem parked_data_leaves_in_order (H : Hmac) (env : Env) (cfg : IceConfig) (w : Wiring)
    (controlling : Bool) (tiebreaker : ℕ) (es : List Event) :
    let s := create env cfg w controlling tiebreaker
    let ms := s.runPosts H env es
    ∃ places : List ℕ, places.Pairwise (· < ·) ∧
      places.map (payloadAt ms) = (s.run H env es).handedData.reverse.map some ∧
      (∀ i buf, ms[i]? = some (.direct buf) → i ∈ places) ∧
      ∀ i buf, ms[i]? = some (.park buf) →
        (i ∈ places ↔ releases (ms.drop (i + 1)) = true ∧
          parksAhead (ms.drop (i + 1)) < pendingAppDataMaxFrames) := by
  intro s ms
  have hcleared : Cleared s := nofun
  obtain ⟨hlot, horderly⟩ := run_lot hcleared
  have hout := Lot.run_out (by decide) (Nat.zero_le _) horderly
  rw [← hlot] at hout
  have hhanded : (s.run H env es).handedData.reverse =
      (places pendingAppDataMaxFrames ms).filterMap (payloadAt ms) := by
    refine hout.trans ?_
    simp [lot, s, create, ms]
  refine ⟨places pendingAppDataMaxFrames ms, places_sorted, ?_, fun i buf hi => ?_,
    fun i buf hi => ?_⟩
  · rw [hhanded, map_payloadAt]
  · rw [mem_places, leaves, hi]
  · rw [mem_places, leaves, hi, Bool.and_eq_true, decide_eq_true_eq]

end Session

end LinkIce
