import LinkIce.Link.Maps
import LinkIce.Link.Outbound

/-! A peer is written as hex text in a URI, kept as that text by the link, and named by its
key when a signal is delivered or polled. -/
namespace LinkIce
open Stun List Option

def iceScheme : Bytes := [0x69, 0x63, 0x65, 0x3A, 0x2F, 0x2F]

/-- What follows the scheme, without one trailing slash. -/
def uriSuffix (uri : Bytes) : Option Bytes :=
  if uri.take 6 = iceScheme then
    let suffix := uri.drop 6
    some (if suffix.getLast? = some 0x2F then suffix.dropLast else suffix)
  else none

/-- The text that the link keeps for the peer, and the key that it denotes. -/
def parseUri (uri : Bytes) : Option (Bytes × PublicKey) :=
  (uriSuffix uri).bind fun suffix => (parsePeerPkHex suffix).map fun pk => (suffix, pk)

inductive ConnectResult
  | nullArg
  | invalidEnvelope
  | refused
  | ok (conn : ConnId)
  deriving DecidableEq

inductive DeliverResult
  | nullArg
  | invalidEnvelope
  | invalidState
  | refused
  | notFound
  | allocated (conn : ConnId)
  | folded (conn : ConnId)
  deriving DecidableEq

def iceSignalOffer : ℕ := 0

def iceSignalAnswer : ℕ := 1

namespace Link

variable {l l' m : Link} {uri uri' hex hex' : Bytes} {pk : PublicKey} {composer : Bool}
  {conn : ConnId}

def connect (uri : Bytes) (answer : Option ConnId) (l : Link) : ConnectResult × Link :=
  if l.shutdown then (.nullArg, l)
  else
    match parseUri uri with
    | none => (.invalidEnvelope, l)
    | some (peerHex, _) =>
      match answer with
      | none => (.refused, l)
      | some conn => (.ok conn, (l.exec (.connect peerHex) answer).1)

/-- `composer_connect`. A number is taken before the peer is looked up. -/
def composerConnect (uri : Bytes) (l : Link) : ConnectResult × Link :=
  if l.shutdown then (.nullArg, l)
  else
    match parseUri uri with
    | none => (.invalidEnvelope, l)
    | some (peerHex, _) =>
      let cid := l.nextComposerId ||| composerIdBit
      let l' := (l.exec (.composerConnect peerHex) none).1
      match l.composerPeerToId.lookup peerHex with
      | some known => (.ok known, l')
      | none => (.ok cid, (l'.exec (.composerInsert peerHex cid) none).1)

/-- The session that an offer is folded into. The composer's sessions come first. -/
def offerTarget (pk : PublicKey) (l : Link) : Option ConnId :=
  (l.composerTarget (pkToHex pk)).or (l.foldTarget (pkToHex pk))

def frontTarget (peerHex : Bytes) (l : Link) : Option ConnId :=
  (l.idsOf peerHex).head?.filter (· ∈ l.sessions)

def answerTarget (pk : PublicKey) (l : Link) : Option ConnId :=
  (l.frontTarget (pkToHex pk)).or (l.composerTarget (pkToHex pk))

/-- `deliver_signal`; `lite` is the link's own mode, and the answer that of `notify_connect`. -/
def deliverSignal (lite : Bool) (pk : PublicKey) (kind : ℕ) (blob : Bytes)
    (answer : Option ConnId) (l : Link) : DeliverResult × Link :=
  if l.shutdown then (.nullArg, l)
  else if kind ∉ [iceSignalOffer, iceSignalOfferEoc, iceSignalAnswer, iceSignalAnswerEoc] then
    (.invalidEnvelope, l)
  else
    match deserializeSignal blob with
    | none => (.invalidEnvelope, l)
    | some d =>
      if lite && d.flags &&& iceSignalFlagLite != 0 then (.invalidState, l)
      else if kind ∈ [iceSignalOffer, iceSignalOfferEoc] then
        match l.offerTarget pk with
        | some conn => (.folded conn, l)
        | none =>
          match answer with
          | none => (.refused, l)
          | some conn =>
            (.allocated conn, (l.exec (.offerSessions (pkToHex pk) false) answer).1)
      else
        match l.answerTarget pk with
        | some conn => (.folded conn, l)
        | none => (.notFound, l)

def peerOf (composer : Bool) (conn : ConnId) (l : Link) : Option Bytes :=
  if composer then (l.composerSessions.lookup conn).map (·.peerPkHex)
  else l.sessions.lookup conn

def Opens (uri : Bytes) : Bool → ConnId → Link → Link → Prop
  | false, conn, l, l' => ∃ answer, l.connect uri answer = (.ok conn, l')
  | true, conn, l, l' => l.composerConnect uri = (.ok conn, l') ∧
      ∀ hex pk, parseUri uri = some (hex, pk) → hex ∉ l.composerPeerToId

/-- No other session is for this key, in whatever spelling. -/
structure OnlyFor (pk : PublicKey) (composer : Bool) (conn : ConnId) (l : Link) : Prop where
  up : l.shutdown = false
  maps : l.MapsAgree
  only : ∀ b c hex, l.peerOf b c = some hex → parsePeerPkHex hex = some pk →
    b = composer ∧ c = conn

def Acceptable (lite : Bool) (kind : ℕ) (blob : Bytes) : Prop :=
  kind ∈ [iceSignalOffer, iceSignalOfferEoc, iceSignalAnswer, iceSignalAnswerEoc] ∧
    ∃ d, deserializeSignal blob = some d ∧ (lite && d.flags &&& iceSignalFlagLite != 0) = false

/-- What a caller that names the peer by its key relies on. While the session is the only one
for the key, signals are folded into it and a second `composer_connect` finds it; and from its
opening on, the polls return its signals and no others. -/
structure PeerAddressing (pk : PublicKey) (hex : Bytes) (composer : Bool) (conn : ConnId)
    (uri' : Bytes) (l : Link) : Prop where
  folded : ∀ m : Link, m.OnlyFor pk composer conn → m.peerOf composer conn = some hex →
    ∀ lite kind blob answer, Acceptable lite kind blob →
      m.deliverSignal lite pk kind blob answer = (.folded conn, m)
  polled : ∀ ops, (∀ peerId sig, .enqueue peerId sig ∈ ops → parsePeerPkHex peerId = some pk →
    peerId = hex) →
      returnedTo pk l ops ++ (l.outboundRun ops).outboundQueue (pkToHex pk) = enqueuedFor hex ops
  again : composer = true → ∀ m : Link, m.OnlyFor pk composer conn →
    m.peerOf composer conn = some hex →
      ∃ m', m.composerConnect uri' = (.ok conn, m') ∧ m'.composerSessions = m.composerSessions

/-! ### What opening a session does -/

theorem connect_ok {answer : Option ConnId} (h : l.connect uri answer = (.ok conn, l'))
    (huri : parseUri uri = some (hex, pk)) : l' = l.addSession hex (some conn) := by
  unfold connect at h
  by_cases hdown : l.shutdown = true
  · rw [if_pos hdown] at h
    cases h
  · rw [if_neg hdown, huri] at h
    cases answer with
    | none => cases h
    | some id =>
      cases h
      rfl

theorem composerConnect_ok (h : l.composerConnect uri = (.ok conn, l'))
    (huri : parseUri uri = some (hex, pk)) (hnew : hex ∉ l.composerPeerToId) :
    l' = { l with
      nextComposerId := (l.nextComposerId + 1) % 2 ^ 64
      composerSessions := l.composerSessions.insert conn { peerPkHex := hex }
      composerPeerToId := l.composerPeerToId.insert hex conn } := by
  unfold composerConnect at h
  by_cases hdown : l.shutdown = true
  · rw [if_pos hdown] at h
    cases h
  · rw [if_neg hdown, huri] at h
    simp only [AList.lookup_eq_none.mpr hnew, exec] at h
    cases h
    exact if_neg hnew

theorem Opens.peerOf (h : Opens uri composer conn l l') (huri : parseUri uri = some (hex, pk)) :
    l'.peerOf composer conn = some hex := by
  cases composer with
  | false =>
    obtain ⟨answer, hc⟩ := h
    rw [connect_ok hc huri]
    exact AList.lookup_insert _
  | true =>
    obtain ⟨hc, hnew⟩ := h
    rw [composerConnect_ok hc huri (hnew hex pk huri), Link.peerOf, if_pos rfl, AList.lookup_insert]
    rfl

theorem Opens.outboundQueue (h : Opens uri composer conn l l')
    (huri : parseUri uri = some (hex, pk)) (k : Bytes) :
    l'.outboundQueue k = l.outboundQueue k := by
  cases composer with
  | false =>
    obtain ⟨answer, hc⟩ := h
    rw [connect_ok hc huri]
    rfl
  | true =>
    obtain ⟨hc, hnew⟩ := h
    rw [composerConnect_ok hc huri (hnew hex pk huri)]
    rfl

/-! ### Routing by the key -/

theorem OnlyFor.mem_idsOf (h : m.OnlyFor pk composer conn) {c : ConnId}
    (hc : c ∈ m.idsOf (pkToHex pk)) : composer = false ∧ c = conn := by
  have hpos := count_pos_iff.mpr hc
  have honce := h.maps.once (pkToHex pk) c
  have hlookup := (h.maps.indexed (pkToHex pk) c).mp (by omega)
  obtain ⟨hb, hconn⟩ := h.only false c _ hlookup (parsePeerPkHex_pkToHex)
  exact ⟨hb.symm, hconn⟩

theorem OnlyFor.composer_eq (h : m.OnlyFor pk composer conn) {cid : ConnId}
    (hc : m.composerPeerToId.lookup (pkToHex pk) = some cid) : composer = true ∧ cid = conn := by
  obtain ⟨entry, hentry, hpeer⟩ := (h.maps.composer (pkToHex pk) cid).mp hc
  have hp : m.peerOf true cid = some (pkToHex pk) := by
    rw [Link.peerOf, if_pos rfl, hentry, map_some, hpeer]
  obtain ⟨hb, hconn⟩ := h.only true cid _ hp (parsePeerPkHex_pkToHex)
  exact ⟨hb.symm, hconn⟩

theorem OnlyFor.peerToIds (h : m.OnlyFor pk false conn)
    (hp : m.peerOf false conn = some (pkToHex pk)) :
    m.peerToIds.lookup (pkToHex pk) = some [conn] := by
  have hcount : (m.idsOf (pkToHex pk)).count conn = 1 := (h.maps.indexed _ _).mpr hp
  have hrep : m.idsOf (pkToHex pk) = List.replicate (m.idsOf (pkToHex pk)).length conn :=
    eq_replicate_of_mem fun c hc => (h.mem_idsOf hc).2
  rw [hrep, count_replicate_self] at hcount
  rw [hcount] at hrep
  unfold idsOf at hrep
  cases hl : m.peerToIds.lookup (pkToHex pk) with
  | none =>
    rw [hl] at hrep
    cases hrep
  | some ids =>
    rw [hl] at hrep
    exact congrArg some hrep

theorem OnlyFor.composerTarget (h : m.OnlyFor pk composer conn)
    (hp : m.peerOf composer conn = some (pkToHex pk)) :
    m.composerTarget (pkToHex pk) = if composer then some conn else none := by
  unfold Link.composerTarget
  cases composer with
  | false =>
    cases hc : m.composerPeerToId.lookup (pkToHex pk) with
    | none => rfl
    | some cid => exact absurd (h.composer_eq hc).1 Bool.false_ne_true
  | true =>
    obtain ⟨entry, hentry, hpeer⟩ := map_eq_some_iff.mp hp
    have hmem : conn ∈ m.composerSessions :=
      AList.lookup_isSome.mp (isSome_of_eq_some hentry)
    rw [(h.maps.composer _ _).mpr ⟨entry, hentry, hpeer⟩]
    simp [hmem]

theorem OnlyFor.offerTarget (h : m.OnlyFor pk composer conn)
    (hp : m.peerOf composer conn = some (pkToHex pk)) : m.offerTarget pk = some conn := by
  rw [Link.offerTarget, h.composerTarget hp]
  cases composer with
  | false =>
    have hmem : conn ∈ m.sessions := AList.lookup_isSome.mp (isSome_of_eq_some hp)
    simp [foldTarget, h.peerToIds hp, hmem]
  | true => rfl

theorem OnlyFor.answerTarget (h : m.OnlyFor pk composer conn)
    (hp : m.peerOf composer conn = some (pkToHex pk)) : m.answerTarget pk = some conn := by
  rw [Link.answerTarget, h.composerTarget hp]
  cases composer with
  | false =>
    have hmem : conn ∈ m.sessions := AList.lookup_isSome.mp (isSome_of_eq_some hp)
    simp [frontTarget, idsOf, h.peerToIds hp, hmem]
  | true =>
    have hnone : m.idsOf (pkToHex pk) = [] := by
      apply eq_nil_iff_forall_not_mem.mpr
      intro c hc
      exact absurd (h.mem_idsOf hc).1.symm Bool.false_ne_true
    rw [frontTarget, hnone]
    rfl

theorem OnlyFor.deliverSignal (h : m.OnlyFor pk composer conn)
    (hp : m.peerOf composer conn = some (pkToHex pk)) {lite : Bool} {kind : ℕ} {blob : Bytes}
    (hok : Acceptable lite kind blob) (answer : Option ConnId) :
    m.deliverSignal lite pk kind blob answer = (.folded conn, m) := by
  obtain ⟨hkind, d, hd, hlite⟩ := hok
  unfold Link.deliverSignal
  rw [h.up, if_neg Bool.false_ne_true, if_neg (not_not.mpr hkind), hd]
  dsimp only
  rw [hlite, if_neg Bool.false_ne_true, h.offerTarget hp, h.answerTarget hp]
  exact ite_self _

theorem OnlyFor.composerConnect_iff (h : m.OnlyFor pk true conn)
    (hp : m.peerOf true conn = some hex)
    (huri : parseUri uri' = some (hex', pk)) :
    (∃ m', m.composerConnect uri' = (.ok conn, m') ∧ m'.composerSessions = m.composerSessions) ↔
      hex' = hex := by
  obtain ⟨entry, hentry, hpeer⟩ := map_eq_some_iff.mp hp
  have hfound {known : ConnId} (hl : m.composerPeerToId.lookup hex' = some known) :
      m.composerConnect uri' = (.ok known, (m.exec (.composerConnect hex') none).1) := by
    simp only [composerConnect, h.up, huri, hl, Bool.false_eq_true, if_false]
  constructor
  · rintro ⟨m', hcall, hsame⟩
    cases hl : m.composerPeerToId.lookup hex' with
    | some known =>
      rw [hfound hl] at hcall
      cases hcall
      obtain ⟨entry', hentry', hpeer'⟩ := (h.maps.composer _ _).mp hl
      rw [hentry, some.injEq] at hentry'
      rw [← hpeer, ← hpeer', hentry']
    | none =>
      rw [composerConnect_ok hcall huri (AList.lookup_eq_none.mp hl)] at hsame
      dsimp only at hsame
      rw [← hsame, AList.lookup_insert, some.injEq] at hentry
      rw [← hpeer, ← hentry]
  · intro heq
    have hknown : m.composerPeerToId.lookup hex' = some conn :=
      (h.maps.composer _ _).mpr ⟨entry, hentry, hpeer.trans heq.symm⟩
    exact ⟨_, hfound hknown, rfl⟩

/-- Callers that name the peer by its key reach the session just if the URI has the key in
lower case, no signal of an earlier session is waiting for that key, and the second
`composer_connect` uses the spelling of the first. -/
theorem peer_addressing_iff (huri : parseUri uri = some (hex, pk))
    (hopen : Opens uri composer conn l l') (honly : l'.OnlyFor pk composer conn)
    (huri' : parseUri uri' = some (hex', pk)) :
    PeerAddressing pk hex composer conn uri' l' ↔
      hex = pkToHex pk ∧ l.outboundQueue (pkToHex pk) = [] ∧ (composer = true → hex' = hex) := by
  have hqueue := hopen.outboundQueue huri (pkToHex pk)
  have hpeer := hopen.peerOf huri
  constructor
  · intro h
    have hempty : l'.outboundQueue (pkToHex pk) = [] := h.polled [] nofun
    refine ⟨?_, hqueue ▸ hempty, ?_⟩
    · by_contra hne
      have hone := h.polled [.enqueue hex ⟨iceSignalOfferEoc, []⟩] (by
        intro peerId sig hmem _
        cases mem_singleton.mp hmem
        rfl)
      rw [returnedTo_append_queue, hempty] at hone
      simp [enqueuedFor, hne] at hone
    · intro hc
      subst hc
      exact (honly.composerConnect_iff hpeer huri').mp (h.again rfl l' honly hpeer)
  · rintro ⟨rfl, hempty, hspelling⟩
    constructor
    · intro m hm hp lite kind blob answer hok
      exact hm.deliverSignal hp hok answer
    · intro ops hown
      rw [returnedTo_append_queue, hqueue, hempty]
      rfl
    · intro hc m hm hp
      subst hc
      exact (hm.composerConnect_iff hp huri').mpr (hspelling rfl)

/-! ### One key in two spellings -/

def lowerUri : Bytes := iceScheme ++ pkToHex keyAA ++ [0x2F]

def upperUri : Bytes := iceScheme ++ keyAAUpper

def afterComposer (uri : Bytes) : Link := (({} : Link).composerConnect uri).2

private theorem afterComposer_mapsAgree (h : parseUri uri = some (hex, pk)) :
    (afterComposer uri).MapsAgree := by
  have hrun : (LinkRun.start.run (LinkRun.composerCall hex 0)).state = afterComposer uri := by
    simp only [afterComposer, composerConnect, h]
    rfl
  rw [← hrun]
  refine (LinkRun.run_linkInv ?_).mapsAgree
  have hfirst : 1 ≤ 2 ^ 63 := by decide
  have hsecond : 2 ≤ 2 ^ 63 := by decide
  exact ⟨trivial, fun op _ => LinkRun.grants_none hfirst,
    fun op _ => LinkRun.grants_none hsecond, trivial⟩

theorem afterComposer_onlyFor (h : parseUri uri = some (hex, pk)) :
    (afterComposer uri).OnlyFor pk true (1 ||| composerIdBit) := by
  have hsessions : (afterComposer uri).sessions = ∅ := by
    simp only [afterComposer, composerConnect, h]
    rfl
  have hcomposer : (afterComposer uri).composerSessions =
      AList.insert (1 ||| composerIdBit) { peerPkHex := hex } ∅ := by
    simp only [afterComposer, composerConnect, h]
    rfl
  refine ⟨?_, afterComposer_mapsAgree h, ?_⟩
  · simp only [afterComposer, composerConnect, h]
    rfl
  · intro b c text hp _
    cases b with
    | false =>
      rw [Link.peerOf, if_neg Bool.false_ne_true, hsessions] at hp
      cases hp
    | true =>
      refine ⟨rfl, ?_⟩
      by_contra hne
      rw [Link.peerOf, if_pos rfl, hcomposer, AList.lookup_insert_ne hne] at hp
      cases hp

theorem parseUri_lowerUri : parseUri lowerUri = some (pkToHex keyAA, keyAA) := by decide

theorem parseUri_upperUri : parseUri upperUri = some (keyAAUpper, keyAA) := by decide

theorem afterComposer_opens (h : parseUri uri = some (hex, pk)) :
    Opens uri true (1 ||| composerIdBit) {} (afterComposer uri) := by
  constructor
  · simp only [afterComposer, composerConnect, h]
    rfl
  · intro hex' pk' _
    exact AList.notMem_empty _

theorem lower_case_uri_is_found :
    PeerAddressing keyAA (pkToHex keyAA) true (1 ||| composerIdBit) lowerUri
      (afterComposer lowerUri) := by
  have hiff := peer_addressing_iff parseUri_lowerUri (afterComposer_opens parseUri_lowerUri)
    (afterComposer_onlyFor parseUri_lowerUri) parseUri_lowerUri
  exact hiff.mpr ⟨rfl, rfl, fun _ => rfl⟩

/-- A session opened in upper case gets no answer, an offer allocates a second one, its signals
are not found, and `composer_connect` in lower case allocates a third. -/
theorem upper_case_uri_is_lost :
    let l := afterComposer upperUri
    let signal := serializeSignal [] [] [] 0
    l.OnlyFor keyAA true (1 ||| composerIdBit) ∧
      (l.deliverSignal false keyAA iceSignalAnswer signal none).1 = .notFound ∧
      (l.deliverSignal false keyAA iceSignalOffer signal (some 7)).1 = .allocated 7 ∧
      (l.composerConnect lowerUri).1 = .ok (2 ||| composerIdBit) ∧
      ¬ PeerAddressing keyAA keyAAUpper true (1 ||| composerIdBit) lowerUri l := by
  intro l signal
  have honly : l.OnlyFor keyAA true (1 ||| composerIdBit) := afterComposer_onlyFor parseUri_upperUri
  have hanswer : (l.deliverSignal false keyAA iceSignalAnswer signal none).1 = .notFound := by
    decide +kernel
  refine ⟨honly, hanswer, by decide +kernel, by decide +kernel, ?_⟩
  intro h
  have hopens := afterComposer_opens parseUri_upperUri
  have hfold := h.folded l honly (hopens.peerOf parseUri_upperUri) false iceSignalAnswer signal none
    ⟨by decide, by decide +kernel⟩
  rw [hfold] at hanswer
  cases hanswer

end Link

end LinkIce
