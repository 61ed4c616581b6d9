import LinkIce.SignalCodec
import Mathlib.Data.Prod.Lex

/-! Pair priorities: both agents compute the same number, and it orders pairs by their smaller,
then by their larger priority, unless a priority off the wire leaves the range of RFC 8445. -/
namespace LinkIce

open List Option

variable {P : Candidate → Prop} {data : Bytes}

/-! ### The two ranges -/

private theorem typePref_le (type : CandidateType) : typePref type ≤ 126 := by
  cases type <;> simp [typePref]

/-- A computed priority stays below the sign bit. -/
theorem computePriority_lt {pref : ℕ} (type : CandidateType) (component : ℕ) (hp : pref < 2 ^ 16) :
    computePriority type pref component < 127 * 2 ^ 24 := by
  have htype := typePref_le type
  have hpref : pref <<< 8 ||| (256 - component) < 2 ^ 24 := by
    apply Nat.or_lt_two_pow
    · rw [Nat.shiftLeft_eq]
      omega
    · omega
  have hsum : typePref type <<< 24 ||| (pref <<< 8 ||| (256 - component)) =
      typePref type <<< 24 + (pref <<< 8 ||| (256 - component)) :=
    (Nat.shiftLeft_add_eq_or_of_lt hpref _).symm
  rw [computePriority, Nat.or_assoc, hsum, Nat.shiftLeft_eq]
  omega

private theorem forall_takeHostnames {cs cs' : List Candidate} {data rest : Bytes}
    {n : ℕ} (hname : ∀ c name, P c → P { c with hostname := name }) (hcs : ∀ c ∈ cs, P c)
    (h : takeHostnames cs data = some (cs', n, rest)) : ∀ c ∈ cs', P c := by
  induction cs generalizing data cs' n rest with
  | nil =>
    obtain ⟨rfl, -⟩ := Prod.mk.inj (some.inj h)
    exact hcs
  | cons c cs ih =>
    have hc := hcs c mem_cons_self
    have htail : ∀ d ∈ cs, P d := fun d hd => hcs d (mem_cons_of_mem c hd)
    rw [takeHostnames] at h
    dsimp only at h
    split_ifs at h with ht hshort hbad hcut
    all_goals
      simp only [map_eq_some_iff, Prod.exists, Prod.mk.injEq] at h
      obtain ⟨ds, m, rest', hds, rfl, -, -⟩ := h
      have hrest := ih htail hds
    · exact forall_mem_cons.mpr ⟨hc, hrest⟩
    · exact forall_mem_cons.mpr ⟨hname c _ hc, hrest⟩

theorem forall_deserializeSignal {d : DecodedSignal}
    (hname : ∀ c name, P c → P { c with hostname := name }) (hwire : ∀ w, P (fromWire w))
    (h : deserializeSignal data = some d) : ∀ c ∈ d.candidates, P c := by
  unfold deserializeSignal at h
  dsimp only at h
  split_ifs at h
  obtain ⟨cs, htrailer, rfl⟩ := map_eq_some_iff.mp h
  have hentries : ∀ (ws : List (Block 24)), ∀ c ∈ ws.map fromWire, P c := by
    intro ws c hc
    obtain ⟨w, -, rfl⟩ := mem_map.mp hc
    exact hwire w
  unfold takeTrailer at htrailer
  dsimp only at htrailer
  split_ifs at htrailer
  · obtain rfl := some.inj htrailer
    exact hentries _
  · split at htrailer
    · exact absurd htrailer (by simp)
    · rename_i hnames
      split_ifs at htrailer
      obtain rfl := some.inj htrailer
      exact forall_takeHostnames hname (hentries _) hnames

/-- Some signal carries a candidate of this priority. -/
def Received (prio : ℕ) : Prop :=
  ∃ data d c, deserializeSignal data = some d ∧ c ∈ d.candidates ∧ c.priority = prio

/-- The decoder takes every 32-bit priority. -/
theorem received_iff {prio : ℕ} : Received prio ↔ prio < 2 ^ 32 := by
  constructor
  · intro ⟨data, d, c, hd, hc, hprio⟩
    have hrange : ∀ c ∈ d.candidates, c.priority < 2 ^ 32 :=
      forall_deserializeSignal (fun _ _ h => h) (fun w => read32_lt _) hd
    exact hprio ▸ hrange c hc
  · intro hprio
    let cand : Candidate := { priority := prio }
    have hcand : cand.Signalable :=
      ⟨⟨by simp [cand], by simp [cand], by simp [cand]⟩, by simp [cand], hprio⟩
    have hread : deserializeSignal (serializeSignal [] [] [cand] 0) = some _ :=
      deserializeSignal_serializeSignal not_mem_nil not_mem_nil
        (forall_mem_singleton.mpr hcand) (by simp [maxIceCandidates]) rfl
    exact ⟨_, _, cand.signalled, hread, mem_cons_self, rfl⟩

/-! ### Values and ranks -/

structure PairPriorities where
  loc : ℕ
  rem : ℕ
  computed : ∃ type pref component, pref < 2 ^ 16 ∧ component < 2 ^ 8 ∧
    loc = computePriority type pref component
  received : Received rem

namespace PairPriorities

variable (controlling : Bool) (p q : PairPriorities)

def value : ℕ := pairPriority p.loc p.rem controlling

def smaller : ℕ := min p.loc p.rem

def larger : ℕ := max p.loc p.rem

/-- One if the controlling side has the larger priority. -/
def lead : ℕ :=
  if controlling then if p.rem < p.loc then 1 else 0 else if p.loc < p.rem then 1 else 0

def rank : ℕ ×ₗ ℕ ×ₗ ℕ := toLex (p.smaller, toLex (p.larger, p.lead controlling))

/-- The values of the two pairs stand in the order of their ranks. -/
def Ordered : Prop :=
  (p.value controlling < q.value controlling ↔ p.rank controlling < q.rank controlling) ∧
    (q.value controlling < p.value controlling ↔ q.rank controlling < p.rank controlling)

/-- The smaller priority of `q` is the next number, but its larger one falls short by `2 ^ 31`. -/
def Inverted : Prop :=
  q.smaller = p.smaller + 1 ∧
    toLex (q.larger + 2 ^ 31, q.lead controlling) ≤ toLex (p.larger, p.lead controlling)

theorem value_eq :
    p.value controlling = p.smaller * 2 ^ 32 + 2 * p.larger + p.lead controlling := by
  unfold value pairPriority smaller larger lead
  dsimp only
  rw [Nat.shiftLeft_eq]
  cases controlling with
  | true => rfl
  | false =>
    rw [Nat.min_comm p.loc, Nat.max_comm p.loc]
    rfl

theorem lead_le : p.lead controlling ≤ 1 := by
  unfold lead
  split_ifs <;> decide

theorem smaller_lt : p.smaller < 127 * 2 ^ 24 := by
  obtain ⟨type, pref, component, hpref, -, hloc⟩ := p.computed
  have hlt := computePriority_lt type component hpref
  have hmin := Nat.min_le_left p.loc p.rem
  unfold smaller
  omega

theorem larger_lt : p.larger < 2 ^ 32 := by
  obtain ⟨type, pref, component, hpref, -, hloc⟩ := p.computed
  have hlt := computePriority_lt type component hpref
  have hrem := received_iff.mp p.received
  exact Nat.max_lt.mpr ⟨by omega, hrem⟩

theorem value_lt : p.value controlling < 2 ^ 64 := by
  have hvalue := p.value_eq controlling
  have hsmall := p.smaller_lt
  have hlarge := p.larger_lt
  have hlead := p.lead_le controlling
  omega

theorem rank_lt_iff :
    p.rank controlling < q.rank controlling ↔ p.smaller < q.smaller ∨ p.smaller = q.smaller ∧
      (p.larger < q.larger ∨ p.larger = q.larger ∧ p.lead controlling < q.lead controlling) := by
  unfold rank
  rw [Prod.Lex.toLex_lt_toLex, Prod.Lex.toLex_lt_toLex]

theorem inverted_iff :
    Inverted controlling p q ↔ q.smaller = p.smaller + 1 ∧ (q.larger + 2 ^ 31 < p.larger ∨
      q.larger + 2 ^ 31 = p.larger ∧ q.lead controlling ≤ p.lead controlling) := by
  unfold Inverted
  rw [Prod.Lex.toLex_le_toLex]

theorem ordered_iff :
    Ordered controlling p q ↔ ¬ Inverted controlling p q ∧ ¬ Inverted controlling q p := by
  have hp := p.value_eq controlling
  have hq := q.value_eq controlling
  have hplarge := p.larger_lt
  have hqlarge := q.larger_lt
  have hplead := p.lead_le controlling
  have hqlead := q.lead_le controlling
  rw [Ordered, rank_lt_iff, rank_lt_iff, inverted_iff, inverted_iff]
  omega

/-- **Pair priorities.** Both agents of a pair compute one value, and it fits 64 bits. It orders
two pairs by their ranks unless their smaller priorities are adjacent and their larger ones
`2 ^ 31` apart the other way round. -/
theorem pair_priority_agrees_and_orders :
    (pairPriority p.loc p.rem controlling = pairPriority p.rem p.loc (!controlling) ∧
      pairPriority p.loc p.rem controlling < 2 ^ 64) ∧
    (Ordered controlling p q ↔ ¬ Inverted controlling p q ∧ ¬ Inverted controlling q p) := by
  refine ⟨⟨?_, p.value_lt controlling⟩, ordered_iff controlling p q⟩
  cases controlling <;> rfl

/-- A server-reflexive candidate with a peer that announces the largest priority. -/
def loudPair : PairPriorities where
  loc := computePriority .srflx 65535 1
  rem := 2 ^ 32 - 1
  computed := ⟨_, _, _, by decide, by decide, rfl⟩
  received := received_iff.mpr (by decide)

def modestPair : PairPriorities where
  loc := computePriority .host 65535 1
  rem := computePriority .srflx 65535 1 + 1
  computed := ⟨_, _, _, by decide, by decide, rfl⟩
  received := received_iff.mpr (by decide)

/-- The pair with the smaller minimum gets the larger value. -/
theorem loud_pair_overtakes :
    loudPair.rank true < modestPair.rank true ∧ modestPair.value true < loudPair.value true := by
  rw [rank_lt_iff]
  decide

end PairPriorities

end LinkIce
