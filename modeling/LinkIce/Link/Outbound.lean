import LinkIce.Lib.MultiQueue
import LinkIce.Link.State

/-! Public keys in hex, and the outbound signal queue as a FIFO for each peer. -/
namespace LinkIce
open Stun List Option

abbrev PublicKey := Block 32

variable {pk : PublicKey}

def hexDigit (n : ℕ) : UInt8 := UInt8.ofNat (if n < 10 then 0x30 + n else 0x61 + (n - 10))

def pkToHex (pk : PublicKey) : Bytes :=
  pk.1.flatMap fun b => [hexDigit (b.toNat / 16), hexDigit (b.toNat % 16)]

def digitValue (c : UInt8) : Option ℕ :=
  if 0x30 ≤ c ∧ c ≤ 0x39 then some (c.toNat - 0x30)
  else if 0x61 ≤ c ∧ c ≤ 0x66 then some (10 + (c.toNat - 0x61))
  else if 0x41 ≤ c ∧ c ≤ 0x46 then some (10 + (c.toNat - 0x41))
  else none

def parseHexBytes : Bytes → Option Bytes
  | [] => some []
  | [_] => none
  | a :: b :: rest =>
    (digitValue a).bind fun hi => (digitValue b).bind fun lo =>
      (parseHexBytes rest).map (UInt8.ofNat (hi * 16 + lo) :: ·)

def parsePeerPkHex (hex : Bytes) : Option PublicKey :=
  if hex.length ≠ 64 then none
  else (parseHexBytes hex).bind fun bs => if h : bs.length = 32 then some ⟨bs, h⟩ else none

private theorem digitValue_hexDigit : ∀ n < 16, digitValue (hexDigit n) = some n := by decide

theorem parseHexBytes_flatMap {bs : Bytes} :
    parseHexBytes (bs.flatMap fun b => [hexDigit (b.toNat / 16), hexDigit (b.toNat % 16)]) =
      some bs := by
  induction bs with
  | nil => rfl
  | cons b bs ih =>
    have hb := b.toNat_lt
    have hhi := digitValue_hexDigit (b.toNat / 16) (by omega)
    have hlo := digitValue_hexDigit (b.toNat % 16) (by omega)
    have hbyte : UInt8.ofNat (b.toNat / 16 * 16 + b.toNat % 16) = b := by
      rw [Nat.div_add_mod', UInt8.ofNat_toNat]
    rw [flatMap_cons, cons_append, cons_append, nil_append, parseHexBytes, hhi,
      hlo, ih, bind_some, bind_some, map_some, hbyte]

private theorem length_pkToHex : (pkToHex pk).length = 64 := by
  have hlen : ∀ bs : Bytes, (bs.flatMap fun b =>
      [hexDigit (b.toNat / 16), hexDigit (b.toNat % 16)]).length = 2 * bs.length := by
    intro bs
    induction bs with
    | nil => rfl
    | cons b bs ih =>
      rw [flatMap_cons, length_append, ih]
      simp only [length_cons, length_nil]
      omega
  rw [pkToHex, hlen, pk.2]

/-- A key is read back from its hex form. -/
theorem parsePeerPkHex_pkToHex : parsePeerPkHex (pkToHex pk) = some pk := by
  have hlen : ¬ (pkToHex pk).length ≠ 64 := not_not.mpr length_pkToHex
  rw [parsePeerPkHex, if_neg hlen, pkToHex, parseHexBytes_flatMap, bind_some, dif_pos pk.2]

theorem pkToHex_injective {pk' : PublicKey} (h : pkToHex pk = pkToHex pk') : pk = pk' := by
  have hp := congrArg parsePeerPkHex h
  rw [parsePeerPkHex_pkToHex, parsePeerPkHex_pkToHex] at hp
  exact some.inj hp

/-- The arguments of a poll; the pointers may be null. -/
structure PollArgs where
  peerPk : Option PublicKey
  kindOut : Bool := true
  blobOut : Bool := true
  blobCap : ℕ
  blobLenOut : Bool := true

inductive PollResult
  | invalidState
  | nullArg
  | notFound
  | outOfRange (blobLen : ℕ)
  | ok (kind : ℕ) (blob : Bytes)

namespace Link

variable {l : Link} {hex : Bytes} {args : PollArgs} {ops : List OutboundOp}
  {rest : List OutboundSignal} {sig : OutboundSignal}

def outboundQueue (hex : Bytes) (l : Link) : List OutboundSignal :=
  (l.outboundSignals.lookup hex).getD []

/-- The last statement of `enqueue_local_signal`, under the peer id of the session. -/
def enqueueLocalSignal (peerId : Bytes) (sig : OutboundSignal) (l : Link) : Link :=
  { l with outboundSignals := l.outboundSignals.insert peerId (l.outboundQueue peerId ++ [sig]) }

/-- A queue that is drained loses its key. -/
def dropFront (hex : Bytes) (rest : List OutboundSignal) (l : Link) : Link :=
  { l with outboundSignals :=
      if rest = [] then l.outboundSignals.erase hex else l.outboundSignals.insert hex rest }

def pollLocalSignal (args : PollArgs) (l : Link) : PollResult × Link :=
  if l.shutdown then (.invalidState, l)
  else
    match args.peerPk with
    | none => (.nullArg, l)
    | some pk =>
      if !args.kindOut || !args.blobLenOut || decide (0 < args.blobCap) && !args.blobOut then
        (.nullArg, l)
      else
        match l.outboundQueue (pkToHex pk) with
        | [] => (.notFound, l)
        | sig :: rest =>
          if args.blobCap < sig.blob.length then (.outOfRange sig.blob.length, l)
          else (.ok sig.kind sig.blob, l.dropFront (pkToHex pk) rest)

inductive OutboundOp
  | enqueue (peerId : Bytes) (sig : OutboundSignal)
  | poll (args : PollArgs)

def OutboundOp.peer : OutboundOp → Option Bytes
  | .enqueue peerId _ => some peerId
  | .poll args => args.peerPk.map pkToHex

def outboundStep (l : Link) : OutboundOp → Link
  | .enqueue peerId sig => l.enqueueLocalSignal peerId sig
  | .poll args => (l.pollLocalSignal args).2

def outboundRun (l : Link) (ops : List OutboundOp) : Link := ops.foldl outboundStep l

def enqueuedFor (hex : Bytes) : List OutboundOp → List OutboundSignal
  | [] => []
  | .enqueue peerId sig :: ops => (if peerId = hex then [sig] else []) ++ enqueuedFor hex ops
  | .poll _ :: ops => enqueuedFor hex ops

def returnedTo (pk : PublicKey) : Link → List OutboundOp → List OutboundSignal
  | _, [] => []
  | l, .enqueue peerId sig :: ops => returnedTo pk (l.enqueueLocalSignal peerId sig) ops
  | l, .poll args :: ops =>
    (match (l.pollLocalSignal args).1 with
      | .ok kind blob => if args.peerPk = some pk then [⟨kind, blob⟩] else []
      | _ => []) ++ returnedTo pk (l.pollLocalSignal args).2 ops

/-! ### The queues of the link are the abstract ones -/

theorem outboundQueue_enqueue (peerId : Bytes) (sig : OutboundSignal) (l : Link) :
    (outboundQueue · (l.enqueueLocalSignal peerId sig)) =
      MultiQueue.step (outboundQueue · l) (.put peerId sig) := by
  funext hex
  unfold enqueueLocalSignal
  by_cases h : hex = peerId
  · subst h
    simp [MultiQueue.step, outboundQueue]
  · simp [MultiQueue.step, outboundQueue, AList.lookup_insert_ne h, Function.update_of_ne h]

theorem outboundQueue_dropFront (h : l.outboundQueue hex = sig :: rest) :
    (outboundQueue · (l.dropFront hex rest)) =
      MultiQueue.step (outboundQueue · l) (.take hex) := by
  funext k
  by_cases hk : k = hex
  · subst hk
    rw [MultiQueue.step, Function.update_self, h, tail_cons]
    unfold dropFront outboundQueue
    by_cases hrest : rest = []
    · simp [hrest]
    · simp [hrest]
  · rw [MultiQueue.step, Function.update_of_ne hk]
    unfold dropFront outboundQueue
    by_cases hrest : rest = []
    · simp [hrest, AList.lookup_erase_ne hk]
    · simp [hrest, AList.lookup_insert_ne hk]

/-- A poll hands out the front of the queue of its peer, or changes nothing. -/
theorem pollLocalSignal_cases (args : PollArgs) (l : Link) :
    (∃ pk sig rest, args.peerPk = some pk ∧ l.outboundQueue (pkToHex pk) = sig :: rest ∧
      l.pollLocalSignal args = (.ok sig.kind sig.blob, l.dropFront (pkToHex pk) rest)) ∨
    ((∀ kind blob, (l.pollLocalSignal args).1 ≠ .ok kind blob) ∧
      (l.pollLocalSignal args).2 = l) := by
  unfold pollLocalSignal
  by_cases hdown : l.shutdown = true
  · rw [if_pos hdown]
    exact .inr ⟨nofun, rfl⟩
  · rw [if_neg hdown]
    cases hpk : args.peerPk with
    | none => exact .inr ⟨nofun, rfl⟩
    | some pk =>
      dsimp only
      split_ifs
      · exact .inr ⟨nofun, rfl⟩
      · cases hq : l.outboundQueue (pkToHex pk) with
        | nil => exact .inr ⟨nofun, rfl⟩
        | cons sig rest =>
          dsimp only
          split_ifs
          · exact .inr ⟨nofun, rfl⟩
          · exact .inl ⟨pk, sig, rest, rfl, hq, rfl⟩

def abstractOp (l : Link) : OutboundOp → List (QueueOp Bytes OutboundSignal)
  | .enqueue peerId sig => [.put peerId sig]
  | .poll args =>
    match (l.pollLocalSignal args).1, args.peerPk with
    | .ok _ _, some pk => [.take (pkToHex pk)]
    | _, _ => []

def abstractOps : Link → List OutboundOp → List (QueueOp Bytes OutboundSignal)
  | _, [] => []
  | l, op :: ops => l.abstractOp op ++ abstractOps (l.outboundStep op) ops

theorem abstractOp_poll_ok {kind : ℕ} {blob : Bytes} {l' : Link}
    (hpk : args.peerPk = some pk) (h : l.pollLocalSignal args = (.ok kind blob, l')) :
    l.abstractOp (.poll args) = [.take (pkToHex pk)] := by
  simp only [abstractOp, h, hpk]

theorem abstractOp_poll_fails (h : ∀ kind blob, (l.pollLocalSignal args).1 ≠ .ok kind blob) :
    l.abstractOp (.poll args) = [] := by
  cases hr : (l.pollLocalSignal args).1 with
  | ok kind blob => exact absurd hr (h kind blob)
  | invalidState | nullArg | notFound | outOfRange => simp only [abstractOp, hr]

theorem outboundStep_refines (op : OutboundOp) (l : Link) :
    (outboundQueue · (l.outboundStep op)) =
      MultiQueue.run (outboundQueue · l) (l.abstractOp op) := by
  cases op with
  | enqueue peerId sig => exact outboundQueue_enqueue peerId sig l
  | poll args =>
    rcases pollLocalSignal_cases args l with ⟨pk, sig, rest, hpk, hq, hok⟩ | ⟨hno, hsame⟩
    · rw [abstractOp_poll_ok hpk hok]
      simp only [outboundStep, hok]
      exact outboundQueue_dropFront hq
    · rw [abstractOp_poll_fails hno]
      simp only [outboundStep, hsame]
      rfl

theorem outboundRun_refines (ops : List OutboundOp) (l : Link) :
    (outboundQueue · (l.outboundRun ops)) =
      MultiQueue.run (outboundQueue · l) (l.abstractOps ops) := by
  induction ops generalizing l with
  | nil => rfl
  | cons op ops ih =>
    have hrest := ih (l.outboundStep op)
    rw [outboundStep_refines] at hrest
    simp only [abstractOps, MultiQueue.run, foldl_append]
    exact hrest

theorem puts_abstractOps (hex : Bytes) (ops : List OutboundOp) (l : Link) :
    MultiQueue.puts hex (l.abstractOps ops) = enqueuedFor hex ops := by
  induction ops generalizing l with
  | nil => rfl
  | cons op ops ih =>
    cases op with
    | enqueue peerId sig =>
      exact congrArg ((if peerId = hex then [sig] else []) ++ ·)
        (ih (l.outboundStep (.enqueue peerId sig)))
    | poll args =>
      rcases pollLocalSignal_cases args l with ⟨pk, sig, rest, hpk, -, hok⟩ | ⟨hno, -⟩
      · rw [abstractOps, abstractOp_poll_ok hpk hok]
        exact ih _
      · rw [abstractOps, abstractOp_poll_fails hno]
        exact ih _

theorem takes_abstractOps (pk : PublicKey) (ops : List OutboundOp) (l : Link) :
    MultiQueue.takes (pkToHex pk) (outboundQueue · l) (l.abstractOps ops) =
      returnedTo pk l ops := by
  induction ops generalizing l with
  | nil => rfl
  | cons op ops ih =>
    cases op with
    | enqueue peerId sig =>
      have hstep := outboundQueue_enqueue peerId sig l
      have hrest := ih (l.enqueueLocalSignal peerId sig)
      rw [hstep] at hrest
      exact hrest
    | poll args =>
      rcases pollLocalSignal_cases args l with ⟨pk', sig, rest, hpk, hq, hok⟩ | ⟨hno, hsame⟩
      · have hstep := outboundQueue_dropFront hq
        have hrest := ih (l.dropFront (pkToHex pk') rest)
        rw [hstep] at hrest
        have htaken : (if pkToHex pk' = pkToHex pk then (l.outboundQueue (pkToHex pk)).take 1
            else []) = if some pk' = some pk then [sig] else [] := by
          by_cases hk : pk' = pk
          · subst hk
            simp [hq]
          · rw [if_neg fun h => hk (pkToHex_injective h), if_neg fun h => hk (some.inj h)]
        simp only [abstractOps, abstractOp_poll_ok hpk hok, outboundStep, hok, returnedTo, hpk,
          singleton_append, MultiQueue.takes, htaken, hrest]
      · have hrest := ih l
        have hnone : (match (l.pollLocalSignal args).1 with
            | .ok kind blob => if args.peerPk = some pk then [⟨kind, blob⟩] else []
            | _ => ([] : List OutboundSignal)) = [] := by
          split
          · rename_i hr
            exact absurd hr (hno _ _)
          · rfl
        rw [abstractOps, abstractOp_poll_fails hno, returnedTo, hnone]
        simp only [outboundStep, hsame, nil_append]
        exact hrest

theorem pollLocalSignal_ready (hup : l.shutdown = false) (hpk : args.peerPk = some pk)
    (hkind : args.kindOut = true) (hblob : args.blobOut = true) (hlen : args.blobLenOut = true)
    (hq : l.outboundQueue (pkToHex pk) = sig :: rest) (hcap : sig.blob.length ≤ args.blobCap) :
    l.pollLocalSignal args = (.ok sig.kind sig.blob, l.dropFront (pkToHex pk) rest) := by
  simp [pollLocalSignal, hup, hpk, hkind, hblob, hlen, hq, not_lt.mpr hcap]

theorem outboundRun_shutdown (ops : List OutboundOp) (l : Link) :
    (l.outboundRun ops).shutdown = l.shutdown := by
  induction ops generalizing l with
  | nil => rfl
  | cons op ops ih =>
    have hstep : (l.outboundStep op).shutdown = l.shutdown := by
      cases op with
      | enqueue peerId sig => rfl
      | poll args =>
        rcases pollLocalSignal_cases args l with ⟨pk, sig, rest, -, -, hok⟩ | ⟨-, hsame⟩
        · simp only [outboundStep, hok]
          rfl
        · simp only [outboundStep, hsame]
    exact (ih (l.outboundStep op)).trans hstep

/-- What was enqueued for a peer, in order, with its key in whatever spelling. -/
def enqueuedForPeer (pk : PublicKey) : List OutboundOp → List OutboundSignal
  | [] => []
  | .enqueue peerId sig :: ops =>
    (if parsePeerPkHex peerId = some pk then [sig] else []) ++ enqueuedForPeer pk ops
  | .poll _ :: ops => enqueuedForPeer pk ops

/-- What a FIFO for each peer does. What the successful polls of a peer returned, followed by
what waits for it, is what was enqueued for it; a poll without success changes nothing, an
operation on one peer leaves the queue of every other as it is, and a poll whose buffer is
large enough returns the front and removes it. -/
structure OutboundFifo (ops : List OutboundOp) (l : Link) : Prop where
  conserved : ∀ pk, returnedTo pk {} ops ++ l.outboundQueue (pkToHex pk) = enqueuedForPeer pk ops
  failed : ∀ args, (∀ kind blob, (l.pollLocalSignal args).1 ≠ .ok kind blob) →
    (l.pollLocalSignal args).2 = l
  others : ∀ op hex, op.peer ≠ some hex →
    (l.outboundStep op).outboundQueue hex = l.outboundQueue hex
  front : ∀ args pk sig rest, args.peerPk = some pk → args.kindOut = true →
    args.blobOut = true → args.blobLenOut = true → l.outboundQueue (pkToHex pk) = sig :: rest →
    sig.blob.length ≤ args.blobCap →
      (l.pollLocalSignal args).1 = .ok sig.kind sig.blob ∧
        (l.pollLocalSignal args).2.outboundQueue (pkToHex pk) = rest

/-- The peer id of the session spells its key as `pk_to_hex` does. -/
def OutboundOp.Canonical : OutboundOp → Prop
  | .enqueue peerId _ => ∀ pk, parsePeerPkHex peerId = some pk → peerId = pkToHex pk
  | .poll _ => True

theorem returnedTo_append_queue :
    returnedTo pk l ops ++ (l.outboundRun ops).outboundQueue (pkToHex pk) =
      l.outboundQueue (pkToHex pk) ++ enqueuedFor (pkToHex pk) ops := by
  have hcons := MultiQueue.takes_append_run (pkToHex pk) (outboundQueue · l) (l.abstractOps ops)
  rw [takes_abstractOps, puts_abstractOps, ← outboundRun_refines] at hcons
  exact hcons

theorem outboundStep_other {op : OutboundOp} (hne : op.peer ≠ some hex) :
    (l.outboundStep op).outboundQueue hex = l.outboundQueue hex := by
  cases op with
  | enqueue peerId sig =>
    have hq := congrFun (outboundQueue_enqueue peerId sig l) hex
    rw [MultiQueue.step_other _ fun h => hne (congrArg some h)] at hq
    exact hq
  | poll args =>
    rcases pollLocalSignal_cases args l with ⟨pk, sig, rest, hpk, hq, hok⟩ | ⟨-, hsame⟩
    · have hk : pkToHex pk ≠ hex := by
        intro h
        apply hne
        rw [OutboundOp.peer, hpk, ← h]
        rfl
      have hstep := congrFun (outboundQueue_dropFront hq) hex
      rw [MultiQueue.step_other _ hk] at hstep
      simp only [outboundStep, hok]
      exact hstep
    · simp only [outboundStep, hsame]

theorem enqueuedFor_canonical (h : ∀ op ∈ ops, op.Canonical)
    (pk : PublicKey) : enqueuedFor (pkToHex pk) ops = enqueuedForPeer pk ops := by
  induction ops with
  | nil => rfl
  | cons op ops ih =>
    have hrest := ih fun o ho => h o (mem_cons_of_mem _ ho)
    cases op with
    | poll args => exact hrest
    | enqueue peerId sig =>
      have hspelt : peerId = pkToHex pk ↔ parsePeerPkHex peerId = some pk := by
        constructor
        · intro heq
          rw [heq, parsePeerPkHex_pkToHex]
        · exact h _ mem_cons_self pk
      simp only [enqueuedFor, enqueuedForPeer, hspelt, hrest]

private theorem length_enqueuedFor_le (pk : PublicKey) (ops : List OutboundOp) :
    (enqueuedFor (pkToHex pk) ops).length ≤ (enqueuedForPeer pk ops).length := by
  induction ops with
  | nil => exact le_rfl
  | cons op ops ih =>
    cases op with
    | poll args => exact ih
    | enqueue peerId sig =>
      rw [enqueuedFor, enqueuedForPeer, length_append, length_append]
      by_cases hk : peerId = pkToHex pk
      · rw [if_pos hk, if_pos (hk ▸ parsePeerPkHex_pkToHex)]
        omega
      · rw [if_neg hk, length_nil]
        omega

private theorem length_enqueuedFor_lt {peerId : Bytes}
    (hop : .enqueue peerId sig ∈ ops) (hpk : parsePeerPkHex peerId = some pk)
    (hne : peerId ≠ pkToHex pk) :
    (enqueuedFor (pkToHex pk) ops).length < (enqueuedForPeer pk ops).length := by
  induction ops with
  | nil => cases hop
  | cons op ops ih =>
    have hle := length_enqueuedFor_le pk ops
    rcases mem_cons.mp hop with rfl | hop
    · rw [enqueuedFor, enqueuedForPeer, if_neg hne, if_pos hpk, nil_append,
        length_append, length_singleton]
      omega
    · have hlt := ih hop
      cases op with
      | poll args => exact hlt
      | enqueue peerId' sig' =>
        rw [enqueuedFor, enqueuedForPeer, length_append, length_append]
        by_cases hk : peerId' = pkToHex pk
        · rw [if_pos hk, if_pos (hk ▸ parsePeerPkHex_pkToHex)]
          omega
        · rw [if_neg hk, length_nil]
          omega

/-- The outbound queue is a FIFO for each peer just if every session that publishes a signal
has its peer's key in lower case. -/
theorem outbound_signals_fifo_iff (ops : List OutboundOp) :
    OutboundFifo ops (outboundRun {} ops) ↔ ∀ op ∈ ops, op.Canonical := by
  constructor
  · intro h op hop
    cases op with
    | poll args => trivial
    | enqueue peerId sig =>
      intro pk hpk
      by_contra hne
      have hlt := length_enqueuedFor_lt hop hpk hne
      rw [← h.conserved pk, returnedTo_append_queue] at hlt
      exact lt_irrefl _ hlt
  · intro h
    constructor
    · intro pk
      rw [returnedTo_append_queue, enqueuedFor_canonical h]
      rfl
    · intro args hno
      rcases pollLocalSignal_cases args (outboundRun {} ops) with
        ⟨pk, sig, rest, -, -, hok⟩ | ⟨-, hsame⟩
      · exact absurd (congrArg Prod.fst hok) (hno _ _)
      · exact hsame
    · intro op hex hne
      exact outboundStep_other hne
    · intro args pk sig rest hpk hkind hblob hlen hq hcap
      have hok := pollLocalSignal_ready (outboundRun_shutdown ops {}) hpk hkind hblob hlen hq hcap
      have hstep := congrFun (outboundQueue_dropFront hq) (pkToHex pk)
      rw [MultiQueue.step, Function.update_self, hq] at hstep
      exact ⟨congrArg Prod.fst hok, (congrArg (·.2.outboundQueue (pkToHex pk)) hok).trans hstep⟩

def keyAA : PublicKey := ⟨List.replicate 32 0xAA, rfl⟩

def keyAAUpper : Bytes := List.replicate 64 0x41

/-- A session whose peer is spelt in upper case publishes its offer, and the polls for that
peer find nothing. -/
theorem upper_case_signal_is_not_found :
    let l := ({} : Link).enqueueLocalSignal keyAAUpper ⟨2, [1]⟩
    parsePeerPkHex keyAAUpper = some keyAA ∧
      (l.pollLocalSignal { peerPk := some keyAA, blobCap := 100 }).1 = .notFound ∧
      ¬ OutboundFifo [.enqueue keyAAUpper ⟨2, [1]⟩] l := by
  intro l
  have hpk : parsePeerPkHex keyAAUpper = some keyAA := by decide
  have hne : keyAAUpper ≠ pkToHex keyAA := by decide
  have hempty : l.outboundQueue (pkToHex keyAA) = [] := by decide
  refine ⟨hpk, ?_, ?_⟩
  · simp only [pollLocalSignal, hempty]
    rfl
  · intro h
    have hnone := h.conserved keyAA
    rw [hempty, enqueuedForPeer, if_pos hpk] at hnone
    cases hnone

end Link

end LinkIce
