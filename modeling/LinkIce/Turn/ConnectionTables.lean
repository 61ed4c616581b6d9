import LinkIce.Turn.DataConnections

/-! Which peer a data connection belongs to. The history of the client, newest event first,
tells which events opened connections and for whom; the client's four tables are compared
with it. -/
namespace LinkIce
open Stun List Option

structure Opening where
  cid : Cid
  connectionId : ℕ
  peer : Endpoint
  deriving DecidableEq, Repr

namespace TurnTcpClient

variable (net : Inet) (md5 : Bytes → Bytes) (cfg : TurnConfig)

def answersConnect (txn : TransactionId) (bytes : Bytes) : Bool :=
  (controlMessage net bytes).any fun m =>
    m.msgType == turnConnectResponse && m.connectionId.isSome && decide (m.txnId = txn)

/-- The peer of the Connect request with this id, as long as it is unanswered. -/
def awaited (txn : TransactionId) : List DataEvent → Option Endpoint
  | [] => none
  | .connectToPeer txn' peer :: h =>
    if cfg.requestedTransport = requestedTransportTcp ∧ txn' = txn then some peer
    else awaited txn h
  | .message _ _ bytes :: h => if answersConnect net txn bytes then none else awaited txn h
  | .inbound _ _ :: h => awaited txn h

/-- The connection that an event opens after the history `h`. -/
def opening (h : List DataEvent) : DataEvent → Option Opening
  | .message _ (some cid) bytes =>
    if cid = 0 then none
    else
      match controlMessage net bytes with
      | none => none
      | some m =>
        match m.connectionId with
        | none => none
        | some k =>
          if m.msgType = turnConnectionAttemptIndication then
            m.xorPeer.map fun a => ⟨cid, k, ⟨a.ip, a.port⟩⟩
          else if m.msgType = turnConnectResponse then
            (awaited net cfg m.txnId h).map fun peer => ⟨cid, k, peer⟩
          else none
  | _ => none

def openings : List DataEvent → List Opening
  | [] => []
  | e :: h => (opening net cfg h e).toList ++ openings h

/-- The factory has never returned an id twice. -/
def Fresh (h : List DataEvent) : Prop := ((openings net cfg h).map (·.cid)).Nodup

def after (c : TurnTcpClient) (h : List DataEvent) : TurnTcpClient :=
  h.foldr (fun e c => c.step net md5 e) c

/-- Every connection in a table has been opened for the peer it stands for, and none is
pending and bound at once. -/
structure Attributed (h : List DataEvent) (c : TurnTcpClient) : Prop where
  disjoint : ∀ cid pb, c.pendingBinds.lookup cid = some pb → c.boundPeers.lookup cid = none
  pending : ∀ cid pb, c.pendingBinds.lookup cid = some pb →
    ⟨cid, pb.connectionId, pb.peer⟩ ∈ openings net cfg h
  bound : ∀ cid peer, c.boundPeers.lookup cid = some peer →
    ∃ k, ⟨cid, k, peer⟩ ∈ openings net cfg h

/-- `data_connections_` finds every bound connection under the id it was opened with. -/
def Registered (h : List DataEvent) (c : TurnTcpClient) : Prop :=
  ∀ o ∈ openings net cfg h, c.boundPeers.lookup o.cid ≠ none →
    c.dataConnections.lookup o.connectionId = some o.cid

/-- The connections and their peers are kept apart. -/
def KeepsApart (h : List DataEvent) (c : TurnTcpClient) : Prop :=
  Attributed net cfg h c ∧ Registered net cfg h c

structure Ledger (h : List DataEvent) (c : TurnTcpClient) : Prop extends
    Attributed net cfg h c where
  config : c.cfg = cfg
  awaits : ∀ txn, c.pendingConnects.lookup txn = awaited net cfg txn h
  connected : ∀ k cid, c.dataConnections.lookup k = some cid →
    ∃ peer, c.boundPeers.lookup cid = some peer ∧ ⟨cid, k, peer⟩ ∈ openings net cfg h

/-! ### Answers to a ConnectionBind -/

/-- The frame answers a ConnectionBind: success or error. -/
def bindReply (frame : Bytes) : Option Bool :=
  match parseStun net frame with
  | none => none
  | some m =>
    if m.msgType = turnConnectionBindResponse then some true
    else if m.msgType = turnConnectionBindError then some false
    else none

/-- The first answer that the bytes complete on an unbound connection. -/
def bindReplyOn (cid : Cid) (bytes : Bytes) (c : TurnTcpClient) : Option Bool :=
  match c.boundPeers.lookup cid with
  | some _ => none
  | none =>
    (takeStreamFrames (c.buffered cid ++ bytes).length (c.buffered cid ++ bytes)).1.findSome?
      (bindReply net)

def settle (cid : Cid) (c : TurnTcpClient) : Bool → TurnTcpClient
  | false => { c with pendingBinds := c.pendingBinds.erase cid }
  | true =>
    match c.pendingBinds.lookup cid with
    | none => c
    | some pb =>
      { c with
        pendingBinds := c.pendingBinds.erase cid
        dataConnections := c.dataConnections.insert pb.connectionId cid
        boundPeers := c.boundPeers.insert cid pb.peer }

/-- The event binds a connection whose connection id is already bound. -/
def rebinds (c : TurnTcpClient) : DataEvent → Prop
  | .inbound cid bytes => bindReplyOn net cid bytes c = some true ∧
      (c.pendingBinds.lookup cid).any
        (fun pb => (c.dataConnections.lookup pb.connectionId).isSome) = true
  | _ => False

variable {net md5 cfg} {c c' c'' : TurnTcpClient} {h : List DataEvent} {cid : Cid}
  {bytes frame : Bytes} {factory : Option Cid} {frames : List Bytes} {h' : List DataEvent}
  {m : StunMessage} {r : Bool} {txn : TransactionId} {peer : Endpoint} {k : ℕ}

structure SameTables (c c' : TurnTcpClient) : Prop where
  config : c'.cfg = c.cfg
  connects : ∀ txn, c'.pendingConnects.lookup txn = c.pendingConnects.lookup txn
  binds : ∀ cid, c'.pendingBinds.lookup cid = c.pendingBinds.lookup cid
  connections : ∀ k, c'.dataConnections.lookup k = c.dataConnections.lookup k
  peers : ∀ cid, c'.boundPeers.lookup cid = c.boundPeers.lookup cid

namespace SameTables

theorem refl (c : TurnTcpClient) : SameTables c c :=
  ⟨rfl, fun _ => rfl, fun _ => rfl, fun _ => rfl, fun _ => rfl⟩

theorem trans (h₁ : SameTables c c') (h₂ : SameTables c' c'') : SameTables c c'' :=
  ⟨h₂.config.trans h₁.config, fun _ => (h₂.connects _).trans (h₁.connects _),
    fun _ => (h₂.binds _).trans (h₁.binds _), fun _ => (h₂.connections _).trans (h₁.connections _),
    fun _ => (h₂.peers _).trans (h₁.peers _)⟩

theorem ledger (hs : SameTables c c') (hl : Ledger net cfg h c) : Ledger net cfg h c' where
  disjoint cid pb := by rw [hs.binds, hs.peers]; exact hl.disjoint cid pb
  pending cid pb := by rw [hs.binds]; exact hl.pending cid pb
  bound cid peer := by rw [hs.peers]; exact hl.bound cid peer
  config := hs.config.trans hl.config
  awaits txn := by rw [hs.connects]; exact hl.awaits txn
  connected k cid := by rw [hs.connections, hs.peers]; exact hl.connected k cid

theorem registered (hs : SameTables c c') : Registered net cfg h c' ↔ Registered net cfg h c := by
  unfold Registered
  simp only [hs.peers, hs.connections]

end SameTables

theorem settle_pendingBinds (r : Bool) : (settle cid c r).pendingBinds.lookup cid = none := by
  cases r with
  | false => exact AList.lookup_erase _ _
  | true =>
    cases hp : c.pendingBinds.lookup cid with
    | none => simp only [settle, hp]
    | some pb => simp only [settle, hp]; exact AList.lookup_erase _ _

theorem dispatch_of_none (hr : bindReply net frame = none) :
    dispatchDataConnMessage net cid c frame = c := by
  unfold bindReply at hr
  unfold dispatchDataConnMessage
  cases hm : parseStun net frame with
  | none => rfl
  | some m =>
    rw [hm] at hr
    dsimp only at hr ⊢
    split_ifs at hr with h₁ h₂
    rw [if_neg h₁, if_neg h₂]

theorem dispatch_of_some (cid : Cid) (c : TurnTcpClient) (hr : bindReply net frame = some r) :
    SameTables (settle cid c r) (dispatchDataConnMessage net cid c frame) := by
  unfold bindReply at hr
  unfold dispatchDataConnMessage
  cases hm : parseStun net frame with
  | none =>
    rw [hm] at hr
    cases hr
  | some m =>
    rw [hm] at hr
    dsimp only at hr ⊢
    split_ifs at hr with h₁ h₂
    · obtain rfl := some.inj hr
      rw [if_pos h₁]
      cases hp : c.pendingBinds.lookup cid with
      | none => simp only [settle, hp]; exact .refl c
      | some pb =>
        simp only [settle, hp]
        exact ⟨rfl, fun _ => rfl, fun _ => rfl, fun _ => rfl, fun _ => rfl⟩
    · obtain rfl := some.inj hr
      rw [if_neg h₁, if_pos h₂]
      exact ⟨rfl, fun _ => rfl, fun _ => rfl, fun _ => rfl, fun _ => rfl⟩

theorem settle_of_none (hp : c.pendingBinds.lookup cid = none) : SameTables c (settle cid c r) := by
  cases r with
  | false =>
    refine ⟨rfl, fun _ => rfl, fun k => ?_, fun _ => rfl, fun _ => rfl⟩
    by_cases hk : k = cid
    · rw [hk, hp]
      exact AList.lookup_erase _ _
    · exact AList.lookup_erase_ne hk
  | true =>
    simp only [settle, hp]
    exact .refl c

theorem foldl_dispatch_settled (frames : List Bytes) (hp : c.pendingBinds.lookup cid = none) :
    SameTables c (frames.foldl (dispatchDataConnMessage net cid) c) := by
  induction frames generalizing c with
  | nil => exact .refl c
  | cons frame frames ih =>
    rw [foldl_cons]
    cases hr : bindReply net frame with
    | none =>
      rw [dispatch_of_none hr]
      exact ih hp
    | some r =>
      have hs := (settle_of_none hp).trans (dispatch_of_some cid c hr)
      exact hs.trans (ih ((hs.binds cid).trans hp))

theorem foldl_dispatch_none (hr : frames.findSome? (bindReply net) = none) :
    frames.foldl (dispatchDataConnMessage net cid) c = c := by
  induction frames with
  | nil => rfl
  | cons frame frames ih =>
    rw [List.findSome?_eq_none_iff] at hr
    rw [foldl_cons, dispatch_of_none (hr frame mem_cons_self)]
    exact ih (List.findSome?_eq_none_iff.mpr fun f hf => hr f (mem_cons_of_mem _ hf))

private theorem foldl_dispatch_some (cid : Cid) (c : TurnTcpClient)
    (hr : frames.findSome? (bindReply net) = some r) :
    SameTables (settle cid c r) (frames.foldl (dispatchDataConnMessage net cid) c) := by
  induction frames with
  | nil => cases hr
  | cons frame frames ih =>
    rw [foldl_cons]
    cases hf : bindReply net frame with
    | none =>
      rw [List.findSome?_cons, hf] at hr
      rw [dispatch_of_none hf]
      exact ih hr
    | some r' =>
      rw [List.findSome?_cons, hf] at hr
      obtain rfl := some.inj hr
      have hs := dispatch_of_some cid c hf
      exact hs.trans (foldl_dispatch_settled frames ((hs.binds cid).trans (settle_pendingBinds r')))

/-- The bytes of a data connection change the tables only by the first answer to its
ConnectionBind. -/
theorem onDataConnectionInbound_tables (net : Inet) (c : TurnTcpClient) (cid : Cid)
    (bytes : Bytes) :
    SameTables ((bindReplyOn net cid bytes c).elim c (settle cid c))
      (c.onDataConnectionInbound net cid bytes) := by
  unfold bindReplyOn
  cases hb : c.boundPeers.lookup cid with
  | some peer =>
    rw [onDataConnectionInbound_bound hb]
    exact ⟨rfl, fun _ => rfl, fun _ => rfl, fun _ => rfl, fun _ => rfl⟩
  | none =>
    obtain ⟨l, hl⟩ := onDataConnectionInbound_unbound hb
    rw [hl]
    dsimp only
    generalize (takeStreamFrames _ _).1 = frames
    cases hr : frames.findSome? (bindReply net) with
    | none =>
      rw [foldl_dispatch_none hr]
      exact ⟨rfl, fun _ => rfl, fun _ => rfl, fun _ => rfl, fun _ => rfl⟩
    | some r =>
      have hs := foldl_dispatch_some cid
        { c with dataConnRxBuffers := c.dataConnRxBuffers.erase cid } hr
      have hsettle : SameTables (settle cid c r)
          (settle cid { c with dataConnRxBuffers := c.dataConnRxBuffers.erase cid } r) := by
        cases r with
        | false => exact ⟨rfl, fun _ => rfl, fun _ => rfl, fun _ => rfl, fun _ => rfl⟩
        | true =>
          simp only [settle]
          cases c.pendingBinds.lookup cid with
          | none => exact ⟨rfl, fun _ => rfl, fun _ => rfl, fun _ => rfl, fun _ => rfl⟩
          | some pb => exact ⟨rfl, fun _ => rfl, fun _ => rfl, fun _ => rfl, fun _ => rfl⟩
      exact (hsettle.trans hs).trans
        ⟨rfl, fun _ => rfl, fun _ => rfl, fun _ => rfl, fun _ => rfl⟩

/-! ### One step -/

theorem Ledger.settle (hl : Ledger net cfg h c) (cid : Cid) (r : Bool) :
    Ledger net cfg h (settle cid c r) := by
  cases hp : c.pendingBinds.lookup cid with
  | none => exact (settle_of_none hp).ledger hl
  | some pb =>
    have hother {k : Cid} {pb' : PendingBind}
        (hk : (c.pendingBinds.erase cid).lookup k = some pb') :
        k ≠ cid ∧ c.pendingBinds.lookup k = some pb' := by
      have hne : k ≠ cid := by
        rintro rfl
        rw [AList.lookup_erase] at hk
        cases hk
      exact ⟨hne, by rwa [AList.lookup_erase_ne hne] at hk⟩
    cases r with
    | false =>
      exact
        { hl with
          disjoint := fun k pb' hk => hl.disjoint k pb' (hother hk).2
          pending := fun k pb' hk => hl.pending k pb' (hother hk).2 }
    | true =>
      simp only [TurnTcpClient.settle, hp]
      have hunbound := hl.disjoint cid pb hp
      have hopen := hl.pending cid pb hp
      constructor
      · constructor
        · intro k pb' hk
          obtain ⟨hne, hk'⟩ := hother hk
          rw [AList.lookup_insert_ne hne]
          exact hl.disjoint k pb' hk'
        · intro k pb' hk
          exact hl.pending k pb' (hother hk).2
        · intro k peer hk
          by_cases hne : k = cid
          · rw [hne, AList.lookup_insert] at hk
            rw [hne, ← some.inj hk]
            exact ⟨_, hopen⟩
          · rw [AList.lookup_insert_ne hne] at hk
            exact hl.bound k peer hk
      · exact hl.config
      · exact hl.awaits
      · intro k cid' hk
        by_cases hne : k = pb.connectionId
        · rw [hne, AList.lookup_insert] at hk
          rw [hne, ← some.inj hk]
          exact ⟨pb.peer, AList.lookup_insert _, hopen⟩
        · rw [AList.lookup_insert_ne hne] at hk
          obtain ⟨peer, hpeer, ho⟩ := hl.connected k cid' hk
          have hcid : cid' ≠ cid := by
            rintro rfl
            rw [hunbound] at hpeer
            cases hpeer
          exact ⟨peer, by rwa [AList.lookup_insert_ne hcid], ho⟩

theorem registered_settle (hl : Ledger net cfg h c) (hf : Fresh net cfg h)
    (hr : Registered net cfg h c) {pb : PendingBind} (hp : c.pendingBinds.lookup cid = some pb) :
    Registered net cfg h (settle cid c true) ↔ c.dataConnections.lookup pb.connectionId = none := by
  have hunbound := hl.disjoint cid pb hp
  have hopen := hl.pending cid pb hp
  simp only [settle, hp]
  constructor
  · intro hreg
    cases hk : c.dataConnections.lookup pb.connectionId with
    | none => rfl
    | some cid' =>
      obtain ⟨peer, hpeer, ho⟩ := hl.connected _ _ hk
      have hcid : cid' ≠ cid := by
        rintro rfl
        rw [hunbound] at hpeer
        cases hpeer
      have hfind := hreg _ ho (by dsimp only; rw [AList.lookup_insert_ne hcid, hpeer]; simp)
      rw [AList.lookup_insert] at hfind
      exact absurd (some.inj hfind).symm hcid
  · intro hnone o ho hbound
    dsimp only at hbound ⊢
    by_cases hcid : o.cid = cid
    · have heq : o = ⟨cid, pb.connectionId, pb.peer⟩ :=
        inj_on_of_nodup_map hf ho hopen hcid
      rw [heq, AList.lookup_insert]
    · rw [AList.lookup_insert_ne hcid] at hbound
      have hfind := hr o ho hbound
      have hne : o.connectionId ≠ pb.connectionId := by
        intro he
        rw [he, hnone] at hfind
        cases hfind
      rw [AList.lookup_insert_ne hne, hfind]

/-- An event that opens nothing. -/
theorem Ledger.stays (hl : Ledger net cfg h c) (ho : openings net cfg h' = openings net cfg h)
    (haw : ∀ txn, c'.pendingConnects.lookup txn = awaited net cfg txn h')
    (hcfg : c'.cfg = c.cfg) (hp : c'.pendingBinds = c.pendingBinds)
    (hd : c'.dataConnections = c.dataConnections) (hb : c'.boundPeers = c.boundPeers) :
    Ledger net cfg h' c' ∧ (Registered net cfg h' c' ↔ Registered net cfg h c) := by
  constructor
  · refine ⟨⟨?_, ?_, ?_⟩, hcfg.trans hl.config, haw, ?_⟩
    · rw [hp, hb]; exact hl.disjoint
    · rw [hp, ho]; exact hl.pending
    · rw [hb, ho]; exact hl.bound
    · rw [hd, hb, ho]; exact hl.connected
  · unfold Registered
    rw [ho, hd, hb]

/-- An event that opens a connection under a fresh id. -/
theorem Ledger.opens {o : Opening} (hl : Ledger net cfg h c)
    (hf : Fresh net cfg h') (ho : openings net cfg h' = o :: openings net cfg h)
    (haw : ∀ txn, c'.pendingConnects.lookup txn = awaited net cfg txn h')
    (hcfg : c'.cfg = c.cfg)
    (hp : c'.pendingBinds = c.pendingBinds.insert o.cid ⟨o.connectionId, o.peer⟩)
    (hd : c'.dataConnections = c.dataConnections) (hb : c'.boundPeers = c.boundPeers) :
    Ledger net cfg h' c' ∧ (Registered net cfg h' c' ↔ Registered net cfg h c) := by
  have hunbound : c.boundPeers.lookup o.cid = none := by
    cases hk : c.boundPeers.lookup o.cid with
    | none => rfl
    | some peer =>
      obtain ⟨k, hmem⟩ := hl.bound _ _ hk
      rw [Fresh, ho, map_cons, nodup_cons] at hf
      exact absurd (mem_map_of_mem hmem) hf.1
  constructor
  · refine ⟨⟨?_, ?_, ?_⟩, hcfg.trans hl.config, haw, ?_⟩
    · intro k pb hk
      rw [hb]
      by_cases hne : k = o.cid
      · rw [hne]
        exact hunbound
      · rw [hp, AList.lookup_insert_ne hne] at hk
        exact hl.disjoint k pb hk
    · intro k pb hk
      rw [ho]
      by_cases hne : k = o.cid
      · rw [hp, hne, AList.lookup_insert] at hk
        rw [← some.inj hk, hne]
        exact mem_cons_self
      · rw [hp, AList.lookup_insert_ne hne] at hk
        exact mem_cons_of_mem _ (hl.pending k pb hk)
    · intro k peer hk
      rw [hb] at hk
      obtain ⟨i, hi⟩ := hl.bound k peer hk
      exact ⟨i, by rw [ho]; exact mem_cons_of_mem _ hi⟩
    · intro k cid hk
      rw [hd] at hk
      obtain ⟨peer, hpeer, hi⟩ := hl.connected k cid hk
      exact ⟨peer, by rw [hb]; exact hpeer, by rw [ho]; exact mem_cons_of_mem _ hi⟩
  · unfold Registered
    rw [ho, hd, hb, forall_mem_cons]
    constructor
    · exact fun hreg => hreg.2
    · exact fun hreg => ⟨fun hne => absurd hunbound hne, hreg⟩

theorem connectToPeer_ledger (hl : Ledger net cfg h c) :
    Ledger net cfg (.connectToPeer txn peer :: h) (c.connectToPeer net txn peer) ∧
      (Registered net cfg (.connectToPeer txn peer :: h) (c.connectToPeer net txn peer) ↔
        Registered net cfg h c) := by
  unfold connectToPeer
  rw [hl.config]
  by_cases htcp : cfg.requestedTransport = requestedTransportTcp
  · rw [if_neg (not_not.mpr htcp)]
    refine hl.stays rfl (fun txn' => ?_) rfl rfl rfl rfl
    by_cases htxn : txn' = txn
    · subst htxn
      simp [awaited, htcp, emitControl]
    · simp [awaited, Ne.symm htxn, emitControl, AList.lookup_insert_ne htxn, hl.awaits]
  · rw [if_pos htcp]
    refine hl.stays rfl (fun txn' => ?_) rfl rfl rfl rfl
    simp [awaited, htcp, hl.awaits]

theorem openDataConnection_cases :
    ((factory = none ∨ factory = some 0) ∧ c.openDataConnection txn factory k peer = c) ∨
    ∃ cid l, factory = some cid ∧ cid ≠ 0 ∧ c.openDataConnection txn factory k peer =
      { c with pendingBinds := c.pendingBinds.insert cid ⟨k, peer⟩, log := l } := by
  unfold openDataConnection sendFramedOnDataCid
  cases factory with
  | none => exact .inl ⟨.inl rfl, rfl⟩
  | some cid =>
    dsimp only
    by_cases hcid : cid = 0
    · rw [if_pos hcid]
      exact .inl ⟨.inr (by rw [hcid]), rfl⟩
    · rw [if_neg hcid]
      split_ifs
      · exact .inr ⟨cid, _, rfl, hcid, rfl⟩
      · exact .inr ⟨cid, _, rfl, hcid, rfl⟩

theorem opening_of_refused (hr : factory = none ∨ factory = some 0) :
    opening net cfg h (.message txn factory bytes) = none := by
  rcases hr with rfl | rfl
  · rfl
  · simp [opening]

theorem openDataConnection_ledger {txn txn' : TransactionId} (hl : Ledger net cfg h c)
    (hf : Fresh net cfg (.message txn factory bytes :: h))
    (ho : ∀ cid, factory = some cid → cid ≠ 0 →
      opening net cfg h (.message txn factory bytes) = some ⟨cid, k, peer⟩)
    (haw : ∀ t, c'.pendingConnects.lookup t =
      awaited net cfg t (.message txn factory bytes :: h))
    (hcfg : c'.cfg = c.cfg) (hp : c'.pendingBinds = c.pendingBinds)
    (hd : c'.dataConnections = c.dataConnections) (hb : c'.boundPeers = c.boundPeers) :
    Ledger net cfg (.message txn factory bytes :: h) (c'.openDataConnection txn' factory k peer) ∧
      (Registered net cfg (.message txn factory bytes :: h)
        (c'.openDataConnection txn' factory k peer) ↔ Registered net cfg h c) := by
  rcases openDataConnection_cases with ⟨hr, he⟩ | ⟨cid, l, hfac, hcid, he⟩
  · rw [he]
    have hno : openings net cfg (.message txn factory bytes :: h) = openings net cfg h := by
      rw [openings, opening_of_refused hr]
      rfl
    exact hl.stays hno haw hcfg hp hd hb
  · rw [he]
    have hyes : openings net cfg (.message txn factory bytes :: h) =
        ⟨cid, k, peer⟩ :: openings net cfg h := by
      rw [openings, ho cid hfac hcid]
      rfl
    exact hl.opens hf hyes haw hcfg (by rw [hp]) hd hb

/-- A message that neither opens a connection nor answers a Connect request. -/
theorem Ledger.ignores (hl : Ledger net cfg h c)
    (hno : opening net cfg h (.message txn factory bytes) = none)
    (hans : ∀ t, answersConnect net t bytes = true → awaited net cfg t h = none)
    (hcfg : c'.cfg = c.cfg) (hc : c'.pendingConnects = c.pendingConnects)
    (hp : c'.pendingBinds = c.pendingBinds) (hd : c'.dataConnections = c.dataConnections)
    (hb : c'.boundPeers = c.boundPeers) :
    Ledger net cfg (.message txn factory bytes :: h) c' ∧
      (Registered net cfg (.message txn factory bytes :: h) c' ↔ Registered net cfg h c) := by
  refine hl.stays ?_ (fun t => ?_) hcfg hp hd hb
  · rw [openings, hno]
    rfl
  · rw [hc, hl.awaits, awaited]
    split_ifs with ha
    · exact hans t ha
    · rfl

theorem opening_eq_none (hm : controlMessage net bytes = some m)
    (hi : m.msgType = turnConnectionAttemptIndication → m.connectionId = none ∨ m.xorPeer = none)
    (hr : m.msgType = turnConnectResponse →
      m.connectionId = none ∨ awaited net cfg m.txnId h = none) :
    opening net cfg h (.message txn factory bytes) = none := by
  cases factory with
  | none => rfl
  | some cid =>
    by_cases hcid : cid = 0
    · exact opening_of_refused (.inr (by rw [hcid]))
    · rw [opening, if_neg hcid, hm]
      dsimp only
      cases hk : m.connectionId with
      | none => rfl
      | some k =>
        dsimp only
        split_ifs with h₁ h₂
        · have hn := (hi h₁).resolve_left (by simp [hk])
          rw [hn]
          rfl
        · have hn := (hr h₂).resolve_left (by simp [hk])
          rw [hn]
          rfl
        · rfl

theorem handleConnectionAttempt_ledger (hl : Ledger net cfg h c)
    (hf : Fresh net cfg (.message txn factory bytes :: h)) (hm : controlMessage net bytes = some m)
    (ht : m.msgType = turnConnectionAttemptIndication) :
    Ledger net cfg (.message txn factory bytes :: h) (c.handleConnectionAttempt txn factory m) ∧
      (Registered net cfg (.message txn factory bytes :: h)
        (c.handleConnectionAttempt txn factory m) ↔ Registered net cfg h c) := by
  have hans (t : TransactionId) : answersConnect net t bytes = false := by
    simp [answersConnect, hm, ht, turnConnectionAttemptIndication, turnConnectResponse]
  have hresp : m.msgType ≠ turnConnectResponse := by
    rw [ht]
    decide
  have hignore (hn : m.connectionId = none ∨ m.xorPeer = none) :
      Ledger net cfg (.message txn factory bytes :: h) c ∧
        (Registered net cfg (.message txn factory bytes :: h) c ↔ Registered net cfg h c) :=
    hl.ignores (opening_eq_none hm (fun _ => hn) fun h' => absurd h' hresp)
      (fun t ha => absurd ha (by simp [hans t])) rfl rfl rfl rfl rfl
  unfold handleConnectionAttempt
  cases hk : m.connectionId with
  | none => exact hignore (.inl hk)
  | some k =>
    cases ha : m.xorPeer with
    | none => exact hignore (.inr ha)
    | some a =>
      refine openDataConnection_ledger hl hf (fun cid hfac hcid => ?_) (fun t => ?_) rfl rfl rfl rfl
      · rw [hfac]
        simp [opening, hm, hk, ha, ht, hcid]
      · rw [awaited, hans t, emit, hl.awaits]
        rfl

theorem handleConnectResponse_ledger (hl : Ledger net cfg h c)
    (hf : Fresh net cfg (.message txn factory bytes :: h)) (hm : controlMessage net bytes = some m)
    (ht : m.msgType = turnConnectResponse) :
    Ledger net cfg (.message txn factory bytes :: h) (c.handleConnectResponse txn factory m) ∧
      (Registered net cfg (.message txn factory bytes :: h)
        (c.handleConnectResponse txn factory m) ↔ Registered net cfg h c) := by
  have hind : m.msgType ≠ turnConnectionAttemptIndication := by
    rw [ht]
    decide
  have hans (t : TransactionId) : answersConnect net t bytes = true ↔
      m.connectionId.isSome = true ∧ m.txnId = t := by
    simp [answersConnect, hm, ht]
  have hignore (hn : m.connectionId = none ∨ awaited net cfg m.txnId h = none) :
      Ledger net cfg (.message txn factory bytes :: h) c ∧
        (Registered net cfg (.message txn factory bytes :: h) c ↔ Registered net cfg h c) := by
    refine hl.ignores (opening_eq_none hm (fun h' => absurd h' hind) fun _ => hn)
      (fun t ha => ?_) rfl rfl rfl rfl rfl
    obtain ⟨hk, rfl⟩ := (hans t).mp ha
    rcases hn with hn | hn
    · rw [hn] at hk
      cases hk
    · exact hn
  unfold handleConnectResponse
  cases hk : m.connectionId with
  | none => exact hignore (.inl hk)
  | some k =>
    cases ha : c.pendingConnects.lookup m.txnId with
    | none => exact hignore (.inr ((hl.awaits _).symm.trans ha))
    | some peer =>
      refine openDataConnection_ledger hl hf (fun cid hfac hcid => ?_) (fun t => ?_) rfl rfl rfl rfl
      · rw [hfac]
        simp [opening, hm, hk, ht, hcid, ← hl.awaits, ha, turnConnectionAttemptIndication,
          turnConnectResponse]
      · rw [awaited]
        by_cases htxn : m.txnId = t
        · rw [if_pos ((hans t).mpr ⟨by rw [hk]; rfl, htxn⟩), htxn]
          exact AList.lookup_erase _ _
        · rw [if_neg fun h' => htxn ((hans t).mp h').2, ← hl.awaits]
          exact AList.lookup_erase_ne (Ne.symm htxn)

theorem dispatchInboundMessage_ledger (hl : Ledger net cfg h c)
    (hf : Fresh net cfg (.message txn factory bytes :: h)) :
    Ledger net cfg (.message txn factory bytes :: h)
        (c.dispatchInboundMessage net md5 txn factory bytes) ∧
      (Registered net cfg (.message txn factory bytes :: h)
        (c.dispatchInboundMessage net md5 txn factory bytes) ↔ Registered net cfg h c) := by
  have hcfg := (TurnClient.dispatchInboundMessage_keeps net md5 c.toTurnClient txn bytes).2
  unfold dispatchInboundMessage
  cases hm : controlMessage net bytes with
  | none =>
    refine hl.ignores ?_ (fun t ha => ?_) hcfg rfl rfl rfl rfl
    · cases factory with
      | none => rfl
      | some cid => simp [opening, hm]
    · simp [answersConnect, hm] at ha
  | some m =>
    dsimp only
    split_ifs with hind hresp
    · exact handleConnectionAttempt_ledger hl hf hm hind
    · exact handleConnectResponse_ledger hl hf hm hresp
    · refine hl.ignores (opening_eq_none hm (fun h' => absurd h' hind)
        fun h' => absurd h' hresp) (fun t ha => ?_) hcfg rfl rfl rfl rfl
      simp [answersConnect, hm, hresp] at ha

private theorem onDataConnectionInbound_registered (hl : Ledger net cfg h c) (hf : Fresh net cfg h)
    (hr : Registered net cfg h c) (cid : Cid) (bytes : Bytes) :
    Registered net cfg h (c.onDataConnectionInbound net cid bytes) ↔
      ¬ rebinds net c (.inbound cid bytes) := by
  have hs := onDataConnectionInbound_tables net c cid bytes
  rw [hs.registered]
  unfold rebinds
  cases hreply : bindReplyOn net cid bytes c with
  | none => simp [hreply, hr]
  | some r =>
    cases hp : c.pendingBinds.lookup cid with
    | none => simp [hp, (settle_of_none hp).registered, hr]
    | some pb =>
      cases r with
      | false =>
        have hkeep : Registered net cfg h (settle cid c false) := hr
        simp [hreply, hkeep]
      | true => simp [hreply, hp, registered_settle hl hf hr hp]

theorem step_ledger (md5 : Bytes → Bytes) (hl : Ledger net cfg h c) (e : DataEvent)
    (hf : Fresh net cfg (e :: h)) :
    Ledger net cfg (e :: h) (c.step net md5 e) ∧ (Registered net cfg h c →
      (Registered net cfg (e :: h) (c.step net md5 e) ↔ ¬ rebinds net c e)) := by
  cases e with
  | connectToPeer txn peer =>
    obtain ⟨hl', hr⟩ := connectToPeer_ledger hl
    exact ⟨hl', fun hreg => by simp [step, hr, hreg, rebinds]⟩
  | message txn factory bytes =>
    obtain ⟨hl', hr⟩ := dispatchInboundMessage_ledger hl hf
    exact ⟨hl', fun hreg => by simp [step, hr, hreg, rebinds]⟩
  | inbound cid bytes =>
    have hs := onDataConnectionInbound_tables net c cid bytes
    have hsettle : Ledger net cfg h ((bindReplyOn net cid bytes c).elim c (settle cid c)) := by
      cases bindReplyOn net cid bytes c with
      | none => exact hl
      | some r => exact hl.settle cid r
    have hl' := hs.ledger hsettle
    have ho : openings net cfg (.inbound cid bytes :: h) = openings net cfg h := rfl
    exact ⟨(hl'.stays ho (fun txn => hl'.awaits txn) rfl rfl rfl rfl).1,
      fun hreg => onDataConnectionInbound_registered hl hf hreg cid bytes⟩

/-! ### Whole histories -/

theorem Fresh.tail {e : DataEvent} (hf : Fresh net cfg (e :: h)) : Fresh net cfg h := by
  unfold Fresh at hf ⊢
  rw [openings, map_append] at hf
  exact hf.of_append_right

theorem after_ledger (md5 : Bytes → Bytes) (t : TurnClient) (hf : Fresh net t.cfg h) :
    Ledger net t.cfg h (after net md5 { toTurnClient := t } h) := by
  induction h with
  | nil =>
    exact ⟨⟨fun _ _ hk => (by cases hk), fun _ _ hk => (by cases hk), fun _ _ hk => (by cases hk)⟩,
      rfl, fun _ => rfl, fun _ _ hk => (by cases hk)⟩
  | cons e h ih => exact (step_ledger md5 (ih hf.tail) e hf).1

/-- For every history in which the factory returns fresh ids: the connections and their
peers are kept apart throughout if and only if no connection id is bound while it is bound
already. -/
theorem peers_kept_apart_iff (net : Inet) (md5 : Bytes → Bytes) (t : TurnClient)
    (h : List DataEvent) (hf : Fresh net t.cfg h) :
    (∀ h', h' <:+ h → KeepsApart net t.cfg h' (after net md5 { toTurnClient := t } h')) ↔
      ∀ e h', e :: h' <:+ h → ¬ rebinds net (after net md5 { toTurnClient := t } h') e := by
  induction h with
  | nil =>
    constructor
    · intro _ e h' hs
      cases suffix_nil.mp hs
    · intro _ h' hs
      obtain rfl := suffix_nil.mp hs
      exact ⟨(after_ledger md5 t hf).toAttributed, fun o ho => by cases ho⟩
  | cons e h ih =>
    have hl := after_ledger md5 t hf.tail
    have hstep := (step_ledger md5 hl e hf).2
    have hih := ih hf.tail
    constructor
    · intro hall e' h' hs
      rcases suffix_cons_iff.mp hs with heq | hs'
      · obtain ⟨rfl, rfl⟩ := List.cons.inj heq
        exact (hstep (hall h' (suffix_cons _ _)).2).mp (hall _ (suffix_refl _)).2
      · exact hih.mp (fun h'' hs'' => hall h'' (hs''.trans (suffix_cons _ _))) e' h' hs'
    · intro hall h' hs
      have hbefore := hih.mpr fun e' h'' hs'' => hall e' h'' (hs''.trans (suffix_cons _ _))
      rcases suffix_cons_iff.mp hs with rfl | hs'
      · exact ⟨(after_ledger md5 t hf).toAttributed,
          (hstep (hbefore h (suffix_refl _)).2).mpr (hall e h (suffix_refl _))⟩
      · exact hbefore h' hs'

def announced : Bytes :=
  [0, 0x1C, 0, 20, 0x21, 0x12, 0xA4, 0x42] ++ List.replicate 12 0 ++
    [0, 0x2A, 0, 4, 0, 0, 0, 7] ++ [0, 0x12, 0, 8, 0, 1, 0, 80, 1, 2, 3, 4]

def tcpAllocation : TurnClient :=
  { carrier := .tcp, serverCid := 1, cfg := { requestedTransport := 6 }, backup := false }

def boundOnce : List DataEvent :=
  [.inbound 2 (0 :: 20 :: bindSuccess), .message (Block.zero 12) (some 2) announced]

theorem announced_connection_kept_apart :
    KeepsApart .posix tcpAllocation.cfg boundOnce
      (after .posix id { toTurnClient := tcpAllocation } boundOnce) := by
  have hfresh : Fresh .posix tcpAllocation.cfg boundOnce := by
    unfold Fresh
    decide +kernel
  refine (peers_kept_apart_iff .posix id tcpAllocation boundOnce hfresh).mpr ?_ boundOnce
    (suffix_refl _)
  intro e h' hs
  rcases suffix_cons_iff.mp hs with heq | hs'
  · obtain ⟨rfl, rfl⟩ := List.cons.inj heq
    unfold rebinds
    decide +kernel
  · rcases suffix_cons_iff.mp hs' with heq | hs''
    · obtain ⟨rfl, rfl⟩ := List.cons.inj heq
      exact id
    · cases suffix_nil.mp hs''

/-- The indication is repeated, and both connections are bound. -/
def boundTwice : List DataEvent :=
  [.inbound 3 (0 :: 20 :: bindSuccess), .inbound 2 (0 :: 20 :: bindSuccess),
    .message (Block.zero 12) (some 3) announced, .message (Block.zero 12) (some 2) announced]

/-- The first connection is bound, but `data_connections_` does not know it any more. -/
theorem connection_replaced : Fresh .posix tcpAllocation.cfg boundTwice ∧
    ¬ KeepsApart .posix tcpAllocation.cfg boundTwice
      (after .posix id { toTurnClient := tcpAllocation } boundTwice) := by
  constructor
  · unfold Fresh
    decide +kernel
  · rintro ⟨-, hreg⟩
    have hlost : ∃ o ∈ openings .posix tcpAllocation.cfg boundTwice,
        (after .posix id { toTurnClient := tcpAllocation } boundTwice).boundPeers.lookup o.cid ≠
          none ∧
        (after .posix id { toTurnClient := tcpAllocation } boundTwice).dataConnections.lookup
          o.connectionId ≠ some o.cid := by
      decide +kernel
    obtain ⟨o, ho, hbound, hne⟩ := hlost
    exact hne (hreg o ho hbound)

end TurnTcpClient

end LinkIce
