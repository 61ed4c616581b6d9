import LinkIce.Link.Configuration

/-! What is left of the topology's decisions when the operator's configuration is read again. -/
namespace LinkIce

namespace ConfigCall

def preferTurnTcp? : ConfigCall → Option Bool
  | setPreferTurnTcp val => some val
  | _ => none

def securityOverhead? : ConfigCall → Option ℤ
  | setSecurityOverhead overhead => some overhead
  | _ => none

def orderedDelivery? : ConfigCall → Option Bool
  | setOrderedDelivery val => some val
  | _ => none

def content? : ConfigCall → Option HostConfig
  | applyConfig host => host
  | _ => none

def reloads (c : ConfigCall) : Bool := c.content?.isSome

def pathMtu? (c : ConfigCall) : Option ℕ := c.content?.bind HostConfig.pathMtu

end ConfigCall

open ConfigCall

variable {α : Type*} {sdk : Sdk} {cs : List ConfigCall} {s : Settings}

/-- What the next session should get: the last content, read by a new link, under the last
decisions of the topology. -/
def intendedConfig (sdk : Sdk) (cs : List ConfigCall) : LinkConfig :=
  { ((Settings.initial).applyConfig sdk (cs.filterMap content?).getLast?).cfg with
    preferTurnTcp := lastWrite preferTurnTcp? false cs
    securityOverhead := lastWrite securityOverhead? 0 cs
    orderedDelivery := lastWrite orderedDelivery? false cs }

/-- The fields that come from the operator's keys alone. -/
def LinkConfig.operator (c : LinkConfig) : LinkConfig :=
  { c with pathMtu := 0, preferTurnTcp := false, securityOverhead := 0, orderedDelivery := false }

theorem LinkConfig.eq_iff {c d : LinkConfig} :
    c = d ↔ c.operator = d.operator ∧ c.pathMtu = d.pathMtu ∧ c.preferTurnTcp = d.preferTurnTcp ∧
      c.securityOverhead = d.securityOverhead ∧ c.orderedDelivery = d.orderedDelivery := by
  constructor
  · rintro rfl
    exact ⟨rfl, rfl, rfl, rfl, rfl⟩
  · rintro ⟨ho, hm, hp, hs, hd⟩
    cases c
    cases d
    simp only [operator, mk.injEq] at ho hm hp hs hd
    simp only [mk.injEq]
    grind

/-- Behind every reload the field is written again, or it had the value `d` before. -/
def Undisturbed (write : ConfigCall → Option α) (d : α) (cs : List ConfigCall) : Prop :=
  ∀ pre c post, cs = pre ++ c :: post → c.reloads = true →
    (∃ f ∈ c :: post, (write f).isSome = true) ∨ lastWrite write d pre = d

/-- Each of the three decisions survives, and so does the default of a path MTU left out. -/
def Intact (cs : List ConfigCall) : Prop :=
  Undisturbed preferTurnTcp? false cs ∧ Undisturbed securityOverhead? 0 cs ∧
    Undisturbed orderedDelivery? false cs ∧ Undisturbed pathMtu? 1200 cs

namespace Settings

theorem run_concat (c : ConfigCall) : run sdk (cs ++ [c]) = (run sdk cs).call sdk c :=
  List.foldl_concat ..

/-- A field that the calls treat as a register which a reload clears. -/
theorem run_field {get : LinkConfig → α} {write : ConfigCall → Option α} {d : α}
    (hinit : get initial.cfg = d)
    (hcall : ∀ s c, get (call sdk s c).cfg = (write c).getD (if c.reloads then d else get s.cfg)) :
    get (run sdk cs).cfg = lastWriteSince write reloads d d cs := by
  induction cs using List.reverseRecOn with
  | nil => exact hinit
  | append_singleton cs c ih => rw [run_concat, lastWriteSince_concat, ← ih, hcall]

theorem run_preferTurnTcp :
    (run sdk cs).cfg.preferTurnTcp = lastWriteSince preferTurnTcp? reloads false false cs :=
  run_field rfl fun s c => by
    rcases c with _ | _ | _ | _ | _ <;> rfl

theorem run_securityOverhead :
    (run sdk cs).cfg.securityOverhead = lastWriteSince securityOverhead? reloads 0 0 cs :=
  run_field rfl fun s c => by
    rcases c with _ | _ | _ | _ | _ <;> rfl

theorem run_orderedDelivery :
    (run sdk cs).cfg.orderedDelivery = lastWriteSince orderedDelivery? reloads false false cs :=
  run_field rfl fun s c => by
    rcases c with _ | _ | _ | _ | _ <;> rfl

theorem run_mtu :
    (run sdk cs).mtu = lastWrite pathMtu? 1200 cs ∧
      (run sdk cs).cfg.pathMtu = lastWrite pathMtu? 1200 cs := by
  induction cs using List.reverseRecOn with
  | nil => exact ⟨rfl, rfl⟩
  | append_singleton cs c ih =>
    rw [run_concat, lastWrite_concat, ← ih.1]
    rcases c with _ | _ | _ | _ | h
    · exact ⟨rfl, ih.2.trans ih.1.symm⟩
    · exact ⟨rfl, ih.2.trans ih.1.symm⟩
    · exact ⟨rfl, ih.2.trans ih.1.symm⟩
    · exact ⟨rfl, ih.2.trans ih.1.symm⟩
    · exact ⟨rfl, rfl⟩

theorem lastContent_concat {c : ConfigCall} :
    ((cs ++ [c]).filterMap content?).getLast? = c.content?.or (cs.filterMap content?).getLast? := by
  cases hc : c.content? <;> simp [List.filterMap_append, List.getLast?_append, hc]

theorem run_operator (sdk : Sdk) (cs : List ConfigCall) :
    (run sdk cs).cfg.operator =
      (initial.applyConfig sdk (cs.filterMap content?).getLast?).cfg.operator := by
  induction cs using List.reverseRecOn with
  | nil => rfl
  | append_singleton cs c ih =>
    rw [run_concat, lastContent_concat]
    rcases c with _ | _ | _ | _ | h
    · exact ih
    · exact ih
    · exact ih
    · exact ih
    · rfl

private theorem intended_pathMtu :
    (initial.applyConfig sdk (cs.filterMap content?).getLast?).cfg.pathMtu =
      lastWriteSince pathMtu? reloads 1200 1200 cs := by
  induction cs using List.reverseRecOn with
  | nil => rfl
  | append_singleton cs c ih =>
    rw [lastContent_concat, lastWriteSince_concat, ← ih]
    rcases c with _ | _ | _ | _ | _ <;> rfl

end Settings

open Settings

theorem run_eq_intended_iff : (run sdk cs).cfg = intendedConfig sdk cs ↔ Intact cs := by
  simp only [Intact, Undisturbed, ← lastWriteSince_eq_lastWrite_iff]
  rw [LinkConfig.eq_iff, ← run_preferTurnTcp, ← run_securityOverhead,
    ← run_orderedDelivery, ← intended_pathMtu, ← (run_mtu).2]
  constructor
  · rintro ⟨-, hm, hp, ho, hd⟩
    exact ⟨hp, ho, hd, hm.symm⟩
  · rintro ⟨hp, ho, hd, hm⟩
    exact ⟨run_operator sdk cs, hm.symm, hp, ho, hd⟩

/-- The next session gets what it should exactly when no reload follows a decision that differs
from the default, nor drops a path MTU that does. The sessions before and after one reload agree
on the wire format exactly when the first of them does not number its frames. -/
theorem reload_keeps_topology_iff (sdk : Sdk) (cs : List ConfigCall) :
    ((run sdk cs).cfg = intendedConfig sdk cs ↔ Intact cs) ∧
      ∀ h : HostConfig,
        (((run sdk (cs ++ [.applyConfig (some h)])).cfg.handed sdk).orderedDelivery =
            ((run sdk cs).cfg.handed sdk).orderedDelivery ↔
          (run sdk cs).cfg.orderedDelivery = false) := by
  refine ⟨run_eq_intended_iff, fun h => ?_⟩
  have hafter : ((run sdk (cs ++ [.applyConfig (some h)])).cfg.handed sdk).orderedDelivery =
      false := by
    rw [run_concat]
    rfl
  rw [hafter]
  exact eq_comm

def Sdk.refusing : Sdk := ⟨fun _ => false, fun _ => none⟩

/-- The topology asks for numbered frames, then the operator's file is read again. -/
theorem reload_forgets_ordered_delivery :
    (run .refusing [.setOrderedDelivery true, .applyConfig (some {})]).cfg.orderedDelivery =
        false ∧
      (intendedConfig .refusing [.setOrderedDelivery true,
        .applyConfig (some {})]).orderedDelivery =
        true ∧
      (run .refusing [.setOrderedDelivery true]).cfg.orderedDelivery = true :=
  ⟨rfl, rfl, rfl⟩

end LinkIce
