import LinkIce.Mdns.Message
import Mathlib.Data.List.Chain

/-! Reading DNS messages from the network: whatever the packet, the loops end within fixed bounds
and stay inside it. -/
namespace LinkIce.Mdns
open Stun List Option

variable {bytes : Bytes} {off : ℕ} {c d : NameCursor} {labels n next pointers : ℕ} {net : Inet}

/-! ### One name -/

/-- The limits on pointers and length, and the place behind the name once it is known. -/
structure NameCursor.Sound (bytes : Bytes) (off : ℕ) (c : NameCursor) : Prop where
  jumps : c.jumps ≤ 16
  total : c.total ≤ 255
  name : c.name.length ≤ c.total - 1
  here : c.next = none → off ≤ c.cur
  behind : ∀ n ∈ c.next, off < n ∧ n ≤ bytes.length

theorem NameCursor.sound_start : NameCursor.Sound bytes off { cur := off } :=
  ⟨Nat.zero_le 16, Nat.zero_le 255, Nat.le_refl 0, fun _ => Nat.le_refl off, nofun⟩

theorem NameCursor.Sound.getD_next {k : ℕ} (hc : c.Sound bytes off)
    (hk : 0 < k) (hin : c.cur + k ≤ bytes.length) :
    off < c.next.getD (c.cur + k) ∧ c.next.getD (c.cur + k) ≤ bytes.length := by
  cases hnext : c.next with
  | none =>
    have hhere := hc.here hnext
    simp only [getD_none]
    omega
  | some n => exact hc.behind n hnext

def NameRound.Fine (bytes : Bytes) (off : ℕ) (c : NameCursor) : NameRound → Prop
  | .fail => True
  | .done name next => off < next ∧ next ≤ bytes.length ∧ name.length ≤ 254
  | .pointer c' => c'.Sound bytes off ∧ c'.jumps = c.jumps + 1 ∧ c'.total = c.total
  | .label c' => c'.Sound bytes off ∧ c'.jumps = c.jumps ∧ c.total + 2 ≤ c'.total

theorem nameRound_fine (hc : c.Sound bytes off) : (nameRound bytes c).Fine bytes off c := by
  have hjumps := hc.jumps
  have htotal := hc.total
  have hname := hc.name
  unfold nameRound
  cases hlen : bytes[c.cur]? with
  | none => trivial
  | some len =>
    obtain ⟨hcur, -⟩ := List.getElem?_eq_some_iff.mp hlen
    dsimp only
    split
    · obtain ⟨hlow, hhigh⟩ := hc.getD_next Nat.one_pos hcur
      exact ⟨hlow, hhigh, by omega⟩
    · rename_i hzero
      split
      · cases hsecond : bytes[c.cur + 1]? with
        | none => trivial
        | some low =>
          obtain ⟨hcur₂, -⟩ := List.getElem?_eq_some_iff.mp hsecond
          have hbehind := hc.getD_next Nat.two_pos hcur₂
          dsimp only
          split
          · trivial
          · split
            · trivial
            · rename_i hfew
              refine ⟨⟨Nat.not_lt.mp hfew, htotal, hname, nofun, ?_⟩, rfl, rfl⟩
              rintro _ ⟨⟩
              exact hbehind
      · split
        · trivial
        · split
          · trivial
          · rename_i hroom
            split
            · trivial
            · rename_i hshort
              have hpos : len.toNat ≠ 0 := fun h => hzero (UInt8.toNat_inj.mp h)
              have hlabel : (lowercase ((bytes.drop (c.cur + 1)).take len.toNat)).length ≤
                  len.toNat := by
                simp only [lowercase, length_map, length_take]
                omega
              have hlonger : c.total + 2 ≤ c.total + 1 + len.toNat := by omega
              refine ⟨⟨hjumps, Nat.not_lt.mp hshort, ?_, ?_, hc.behind⟩, rfl, hlonger⟩
              · dsimp only
                split
                · omega
                · rename_i hsome
                  have hfirst := length_pos_iff.mpr hsome
                  simp only [length_append, length_cons]
                  omega
              · intro hnone
                have hhere := hc.here hnone
                dsimp only
                omega

/-- The loop went through this many pointers and labels between the two places. -/
inductive Rounds (bytes : Bytes) : ℕ → ℕ → NameCursor → NameCursor → Prop
  | refl {c : NameCursor} : Rounds bytes 0 0 c c
  | pointer {c c' d : NameCursor} {pointers labels : ℕ} : nameRound bytes c = .pointer c' →
      Rounds bytes pointers labels c' d → Rounds bytes (pointers + 1) labels c d
  | label {c c' d : NameCursor} {pointers labels : ℕ} : nameRound bytes c = .label c' →
      Rounds bytes pointers labels c' d → Rounds bytes pointers (labels + 1) c d

theorem Rounds.count (h : Rounds bytes pointers labels c d) (hc : c.Sound bytes off) :
    d.Sound bytes off ∧ d.jumps = c.jumps + pointers ∧ c.total + 2 * labels ≤ d.total := by
  induction h with
  | refl => exact ⟨hc, rfl, Nat.le_refl _⟩
  | pointer hround _ ih =>
    have hfine := nameRound_fine hc
    rw [hround] at hfine
    obtain ⟨hc', hjumps, htotal⟩ := hfine
    obtain ⟨hd, hmore, hlong⟩ := ih hc'
    exact ⟨hd, by omega, by omega⟩
  | label hround _ ih =>
    have hfine := nameRound_fine hc
    rw [hround] at hfine
    obtain ⟨hc', hjumps, htotal⟩ := hfine
    obtain ⟨hd, hmore, hlong⟩ := ih hc'
    exact ⟨hd, by omega, by omega⟩

theorem Rounds.bounded (h : Rounds bytes pointers labels { cur := off } d) :
    pointers ≤ 16 ∧ labels ≤ 127 := by
  obtain ⟨hd, hjumps, htotal⟩ := h.count (NameCursor.sound_start)
  have hfew := hd.jumps
  have hshort := hd.total
  dsimp only at hjumps htotal
  omega

/-- The loop arrives at a round that ends it, and this gives its result. -/
theorem NameCursor.decode_ends {fuel : ℕ} (hc : c.Sound bytes off)
    (hfuel : (16 - c.jumps) + (255 - c.total) < fuel) :
    ∃ pointers labels d, Rounds bytes pointers labels c d ∧
      ((nameRound bytes d = .fail ∧ decodeNameFrom bytes fuel c = none) ∨
        ∃ name next, nameRound bytes d = .done name next ∧
          decodeNameFrom bytes fuel c = some (name, next)) := by
  induction fuel generalizing c with
  | zero => omega
  | succ fuel ih =>
    have hfine := nameRound_fine hc
    rw [decodeNameFrom]
    cases hround : nameRound bytes c with
    | fail => exact ⟨0, 0, c, .refl, .inl ⟨hround, rfl⟩⟩
    | done name next => exact ⟨0, 0, c, .refl, .inr ⟨name, next, hround, rfl⟩⟩
    | pointer c' =>
      rw [hround] at hfine
      obtain ⟨hc', hjumps, htotal⟩ := hfine
      have hfew := hc'.jumps
      obtain ⟨pointers, labels, d, hrounds, hend⟩ := ih hc' (by omega)
      exact ⟨pointers + 1, labels, d, .pointer hround hrounds, hend⟩
    | label c' =>
      rw [hround] at hfine
      obtain ⟨hc', hjumps, htotal⟩ := hfine
      have hshort := hc'.total
      obtain ⟨pointers, labels, d, hrounds, hend⟩ := ih hc' (by omega)
      exact ⟨pointers, labels + 1, d, .label hround hrounds, hend⟩

theorem decodeName_ends :
    ∃ pointers labels d, Rounds bytes pointers labels { cur := off } d ∧
      ((nameRound bytes d = .fail ∧ decodeName bytes off = none) ∨
        ∃ name next, nameRound bytes d = .done name next ∧
          decodeName bytes off = some (name, next)) :=
  NameCursor.decode_ends (NameCursor.sound_start) (Nat.lt_succ_self 271)

/-- A name that was read ends inside the packet, behind its start, and is short. -/
theorem decodeName_some {name : Bytes} (h : decodeName bytes off = some (name, next)) :
    off < next ∧ next ≤ bytes.length ∧ name.length ≤ 254 := by
  obtain ⟨pointers, labels, d, hrounds, hend⟩ := decodeName_ends
  rw [h] at hend
  obtain ⟨-, hnone⟩ | ⟨name', next', hround, hsome⟩ := hend
  · exact absurd hnone (some_ne_none _)
  · obtain ⟨rfl, rfl⟩ := Prod.mk.inj (some.inj hsome)
    have hfine := nameRound_fine (hrounds.count (NameCursor.sound_start)).1
    rw [hround] at hfine
    exact hfine

/-! ### A message -/

def cursors {α : Type} (item : ℕ → Option (α × ℕ)) (n off : ℕ) : List ℕ :=
  (List.range n).filterMap fun k => (parseItems item (k + 1) off).map Prod.snd

/-- All offsets at which the parser stands: behind the header, behind each question and behind
each record. -/
def messageCursors (net : Inet) (bytes : Bytes) : List ℕ :=
  dnsHeaderSize :: (cursors (parseQuestion bytes) (read16 (bytes.drop 4)) dnsHeaderSize ++
    match parseItems (parseQuestion bytes) (read16 (bytes.drop 4)) dnsHeaderSize with
    | none => []
    | some (_, off) => cursors (parseAnswer net bytes) (read16 (bytes.drop 6)) off)

theorem parseQuestion_some {q : Bytes × ℕ} (h : parseQuestion bytes off = some (q, next)) :
    off + 5 ≤ next ∧ next ≤ bytes.length := by
  unfold parseQuestion at h
  cases hname : decodeName bytes off with
  | none => simp [hname] at h
  | some r =>
    rw [hname] at h
    dsimp only at h
    split_ifs at h
    obtain ⟨-, rfl⟩ := Prod.mk.inj (some.inj h)
    have hfine := decodeName_some hname
    omega

theorem parseAnswer_some {a : Option DnsAnswer} (h : parseAnswer net bytes off = some (a, next)) :
    off + 11 ≤ next ∧ next ≤ bytes.length := by
  unfold parseAnswer at h
  cases hname : decodeName bytes off with
  | none => simp [hname] at h
  | some r =>
    rw [hname] at h
    dsimp only at h
    split_ifs at h
    obtain ⟨-, rfl⟩ := Prod.mk.inj (some.inj h)
    have hfine := decodeName_some hname
    omega

section cursors

variable {α : Type} {item : ℕ → Option (α × ℕ)} {a : α} {size gap : ℕ}

theorem cursors_succ_of_none (h : item off = none) : cursors item (n + 1) off = [] := by
  simp [cursors, parseItems, h]

theorem cursors_succ_of_some (h : item off = some (a, next)) :
    cursors item (n + 1) off = next :: cursors item n next := by
  rw [cursors, range_succ_eq_map, filterMap_cons, filterMap_map]
  simp [parseItems, h, cursors, Function.comp_def]

variable (hitem : ∀ {a off next}, item off = some (a, next) → off + gap ≤ next ∧ next ≤ size)
include hitem

theorem cursors_rise (hgap : 0 < gap) (n off : ℕ) :
    (off :: cursors item n off).IsChain (· < ·) ∧ ∀ c ∈ cursors item n off, c ≤ size := by
  induction n generalizing off with
  | zero => exact ⟨.singleton off, nofun⟩
  | succ n ih =>
    cases hnext : item off with
    | none =>
      rw [cursors_succ_of_none hnext]
      exact ⟨.singleton off, nofun⟩
    | some r =>
      obtain ⟨a, next⟩ := r
      rw [cursors_succ_of_some hnext]
      obtain ⟨hup, hin⟩ := hitem hnext
      obtain ⟨hchain, hall⟩ := ih next
      have hless : off < next := by omega
      exact ⟨.cons_cons hless hchain, forall_mem_cons.mpr ⟨hin, hall⟩⟩

theorem parseItems_some {behind : ℕ} {as : List α} (h : parseItems item n off = some (as, behind))
    (hoff : off ≤ size) : (cursors item n off).length = n ∧ as.length = n ∧
      (off :: cursors item n off).getLast? = some behind ∧
      off + gap * n ≤ behind ∧ behind ≤ size := by
  induction n generalizing off as with
  | zero =>
    obtain ⟨rfl, rfl⟩ := Prod.mk.inj (some.inj h)
    exact ⟨rfl, rfl, rfl, Nat.le_refl _, hoff⟩
  | succ n ih =>
    rw [parseItems] at h
    cases hnext : item off with
    | none => simp [hnext] at h
    | some r =>
      obtain ⟨a, next⟩ := r
      rw [hnext] at h
      obtain ⟨⟨rest, behind'⟩, hrest, has⟩ := map_eq_some_iff.mp h
      obtain ⟨rfl, rfl⟩ := Prod.mk.inj has
      obtain ⟨hup, hin⟩ := hitem hnext
      obtain ⟨hlen, hcount, hlast, hpast, hin⟩ := ih hrest hin
      rw [cursors_succ_of_some hnext, Nat.mul_succ]
      refine ⟨congrArg Nat.succ hlen, congrArg Nat.succ hcount, ?_, by omega, hin⟩
      rw [List.getLast?_cons_cons]
      exact hlast

end cursors

theorem messageCursors_rise (hlen : dnsHeaderSize ≤ bytes.length) :
    (messageCursors net bytes).IsChain (· < ·) ∧
      ∀ c ∈ messageCursors net bytes, c ≤ bytes.length := by
  obtain ⟨hquestions, hin⟩ := cursors_rise (fun h => parseQuestion_some h) (Nat.succ_pos 4)
    (read16 (bytes.drop 4)) dnsHeaderSize
  unfold messageCursors
  cases hparse : parseItems (parseQuestion bytes) (read16 (bytes.drop 4)) dnsHeaderSize with
  | none =>
    simp only [append_nil]
    exact ⟨hquestions, forall_mem_cons.mpr ⟨hlen, hin⟩⟩
  | some r =>
    obtain ⟨questions, behind⟩ := r
    obtain ⟨-, -, hlast, -⟩ := parseItems_some (fun h => parseQuestion_some h) hparse hlen
    obtain ⟨hanswers, hin'⟩ := cursors_rise
      (fun {a off next} (h : parseAnswer net bytes off = some (a, next)) => parseAnswer_some h)
      (Nat.succ_pos 10) (read16 (bytes.drop 6)) behind
    dsimp only
    constructor
    · rw [← cons_append, isChain_append]
      refine ⟨hquestions, hanswers.tail, fun x hx y hy => ?_⟩
      obtain rfl : behind = x := some.inj (hlast.symm.trans hx)
      exact (isChain_cons.mp hanswers).1 y hy
    · refine forall_mem_cons.mpr ⟨hlen, fun c hc => ?_⟩
      rcases mem_append.mp hc with hc | hc
      · exact hin c hc
      · exact hin' c hc

theorem parseDnsMessage_some {m : DnsParsedMessage} (h : parseDnsMessage net bytes = some m) :
    (messageCursors net bytes).length = 1 + read16 (bytes.drop 4) + read16 (bytes.drop 6) ∧
      dnsHeaderSize + 11 * m.answers.length ≤ bytes.length := by
  unfold parseDnsMessage at h
  split_ifs at h with hshort
  have hlen : dnsHeaderSize ≤ bytes.length := Nat.not_lt.mp hshort
  unfold messageCursors
  cases hparse : parseItems (parseQuestion bytes) (read16 (bytes.drop 4)) dnsHeaderSize with
  | none => simp [hparse] at h
  | some r =>
    obtain ⟨questions, behind⟩ := r
    rw [hparse] at h
    obtain ⟨⟨answers, last⟩, hanswers, rfl⟩ := map_eq_some_iff.mp h
    obtain ⟨hcount, -, -, hpast, hin⟩ := parseItems_some (fun h => parseQuestion_some h) hparse hlen
    obtain ⟨hcount', hall, -, hroom, hend⟩ :=
      parseItems_some (fun h => parseAnswer_some h) hanswers hin
    have hfew := length_filterMap_le id answers
    dsimp only
    rw [length_cons, length_append, hcount, hcount']
    omega

/-- **Hostile packets.** From every offset of every packet the name decoder follows 16 pointers and
reads 127 labels at most, comes to an end, and returns a short name and an offset inside the packet
behind its start. The message parser only moves forward, never leaves the packet, and returns at
most one answer for each 11 bytes. -/
theorem decoding_bounded (net : Inet) (bytes : Bytes) :
    (∀ off,
      (∀ pointers labels d, Rounds bytes pointers labels { cur := off } d →
        pointers ≤ 16 ∧ labels ≤ 127) ∧
      (∃ pointers labels d, Rounds bytes pointers labels { cur := off } d ∧
        ((nameRound bytes d = .fail ∧ decodeName bytes off = none) ∨
          ∃ name next, nameRound bytes d = .done name next ∧
            decodeName bytes off = some (name, next))) ∧
      ∀ name next, decodeName bytes off = some (name, next) →
        off < next ∧ next ≤ bytes.length ∧ name.length ≤ 254) ∧
    (dnsHeaderSize ≤ bytes.length →
      (messageCursors net bytes).IsChain (· < ·) ∧
        ∀ c ∈ messageCursors net bytes, c ≤ bytes.length) ∧
    ∀ m, parseDnsMessage net bytes = some m →
      (messageCursors net bytes).length = 1 + read16 (bytes.drop 4) + read16 (bytes.drop 6) ∧
        11 * m.answers.length ≤ bytes.length := by
  refine ⟨fun off => ⟨?_, decodeName_ends, ?_⟩, messageCursors_rise, ?_⟩
  · intro pointers labels d hrounds
    exact hrounds.bounded
  · intro name next hname
    exact decodeName_some hname
  · intro m hm
    obtain ⟨hcount, hroom⟩ := parseDnsMessage_some hm
    exact ⟨hcount, by omega⟩

/-- A pointer to itself is given up. -/
example : decodeName [0xC0, 0x00] 0 = none := by decide

end LinkIce.Mdns
