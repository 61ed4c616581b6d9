import LinkIce.Lib.Threads
import LinkIce.Session.Publication

/-! The link: its maps, what each of its critical sections does to them, and the calls that
are made of these sections. -/
namespace LinkIce
open Stun

abbrev ConnId := ℕ

def composerIdBit : ConnId := 2 ^ 63

def isComposerId (conn : ConnId) : Bool := conn &&& composerIdBit != 0

structure ComposerEntry where
  peerPkHex : Bytes
  nominated : Bool := false
  deriving DecidableEq

/-- `serial` counts the subscriptions. The code tells them apart by the token only. -/
structure ComposerAcceptSub where
  token : ℕ
  serial : ℕ
  deriving DecidableEq

/-- What the kernel and the subscribers see: the ids that `notify_connect` returned, the calls
of `notify_disconnect`, and the accept callbacks, with whether their id was in
`composer_sessions_` then. -/
inductive LinkNote
  | connected (conn : ConnId)
  | disconnected (conn : ConnId)
  | accepted (conn : ConnId) (serial : ℕ) (live : Bool)
  deriving DecidableEq

/-- `sessions` has the peer of each entry. `subscribed` and `notes` are a record for the
properties. -/
structure Link where
  shutdown : Bool := false
  sessions : AList (fun _ : ConnId => Bytes) := ∅
  peerToIds : AList (fun _ : Bytes => List ConnId) := ∅
  publishedIds : List ConnId := []
  composerSessions : AList (fun _ : ConnId => ComposerEntry) := ∅
  composerPeerToId : AList (fun _ : Bytes => ConnId) := ∅
  composerAcceptSubs : List ComposerAcceptSub := []
  nextComposerId : ℕ := 1
  nextAcceptToken : ℕ := 1
  outboundSignals : AList (fun _ : Bytes => List OutboundSignal) := ∅
  subscribed : ℕ := 0
  notes : List LinkNote := []

/-- The atomic pieces of a call: a critical section, an atomic access or one callback. -/
inductive Section
  | connect (peerHex : Bytes)
  | offerComposer (peerHex : Bytes)
  | offerSessions (peerHex : Bytes) (found : Bool)
  | disconnect (conn : ConnId)
  | claimDisconnect (conn : ConnId)
  | notifyDisconnect (conn : ConnId)
  | reapSessions (idle : List ConnId)
  | shutdown
  | shutdownComposer
  | composerConnect (peerHex : Bytes)
  | composerInsert (peerHex : Bytes) (cid : ConnId)
  | composerConnected (cid : ConnId)
  | composerFailed (cid : ConnId)
  | accept (cid : ConnId) (sub : ComposerAcceptSub)
  | subscribeAccept
  | pushAcceptSub (token : ℕ)
  | unsubscribeAccept (token : ℕ)
  deriving DecidableEq

/-- `onFailed` and the two `onComposer` calls are callbacks of a session; `reapSessions` comes
from the timer, with the sessions that are idle then. -/
inductive LinkCall
  | connect (peerHex : Bytes)
  | deliverOffer (peerHex : Bytes)
  | disconnect (conn : ConnId)
  | onFailed (conn : ConnId)
  | reapSessions (idle : List ConnId)
  | shutdown
  | composerConnect (peerHex : Bytes)
  | onComposerConnected (cid : ConnId)
  | onComposerFailed (cid : ConnId)
  | subscribeAccept
  | unsubscribeAccept (token : ℕ)

namespace Link

def note (n : LinkNote) (l : Link) : Link := { l with notes := n :: l.notes }

def erasePeerId (peerHex : Bytes) (conn : ConnId) (l : Link) : Link :=
  match l.peerToIds.lookup peerHex with
  | none => l
  | some ids =>
    let v := ids.filter (· ≠ conn)
    { l with peerToIds :=
        if v = [] then l.peerToIds.erase peerHex else l.peerToIds.insert peerHex v }

/-- The end of a section that allocates a session: `notify_connect` may refuse. -/
def addSession (peerHex : Bytes) (answer : Option ConnId) (l : Link) : Link :=
  match answer with
  | none => l
  | some conn =>
    ({ l with
      sessions := l.sessions.insert conn peerHex
      peerToIds := l.peerToIds.insert peerHex ((l.peerToIds.lookup peerHex).getD [] ++ [conn])
      publishedIds := l.publishedIds ++ [conn] } : Link).note (.connected conn)

/-- The session that an offer is folded into: the only one of the peer. -/
def foldTarget (peerHex : Bytes) (l : Link) : Option ConnId :=
  match l.peerToIds.lookup peerHex with
  | some [conn] => if conn ∈ l.sessions then some conn else none
  | _ => none

def composerTarget (peerHex : Bytes) (l : Link) : Option ConnId :=
  (l.composerPeerToId.lookup peerHex).filter (· ∈ l.composerSessions)

/-- The part that `disconnect` and `claim_disconnect` have in common. -/
def takeSession (conn : ConnId) (l : Link) : Link × List Section :=
  match l.sessions.lookup conn with
  | none => (l, [])
  | some peerHex =>
    ({ l.erasePeerId peerHex conn with sessions := l.sessions.erase conn },
      [.notifyDisconnect conn])

def takeComposer (cid : ConnId) (l : Link) : Link :=
  match l.composerSessions.lookup cid with
  | none => l
  | some entry => { l with
      composerPeerToId := l.composerPeerToId.erase entry.peerPkHex
      composerSessions := l.composerSessions.erase cid }

/-- One section. The answer is that of `notify_connect`; the sections returned are run next by
the same call. -/
def exec (l : Link) (op : Section) (answer : Option ConnId) : Link × List Section :=
  match op with
  | .connect peerHex => (l.addSession peerHex answer, [])
  | .offerComposer peerHex => (l, [.offerSessions peerHex (l.composerTarget peerHex).isSome])
  | .offerSessions peerHex found =>
    (if found || (l.foldTarget peerHex).isSome then l else l.addSession peerHex answer, [])
  | .disconnect conn => if isComposerId conn then (l.takeComposer conn, []) else l.takeSession conn
  | .claimDisconnect conn => if l.shutdown then (l, []) else l.takeSession conn
  | .notifyDisconnect conn => (l.note (.disconnected conn), [])
  | .reapSessions idle => (l, (l.sessions.keys.filter (· ∈ idle)).map .disconnect)
  | .shutdown =>
    if l.shutdown then (l, [])
    else ({ l with
      shutdown := true
      publishedIds := []
      sessions := ∅
      peerToIds := ∅ }, .shutdownComposer :: l.publishedIds.map .notifyDisconnect)
  | .shutdownComposer =>
    ({ l with
      composerSessions := ∅
      composerPeerToId := ∅
      composerAcceptSubs := [] }, [])
  | .composerConnect peerHex =>
    ({ l with nextComposerId := (l.nextComposerId + 1) % 2 ^ 64 },
      [.composerInsert peerHex (l.nextComposerId ||| composerIdBit)])
  | .composerInsert peerHex cid =>
    (if peerHex ∈ l.composerPeerToId then l
      else { l with
        composerSessions := l.composerSessions.insert cid { peerPkHex := peerHex }
        composerPeerToId := l.composerPeerToId.insert peerHex cid }, [])
  | .composerConnected cid =>
    -- an id that is gone is announced like a new one
    match l.composerSessions.lookup cid with
    | none => (l, l.composerAcceptSubs.map (.accept cid))
    | some entry =>
      if entry.nominated then (l, [])
      else ({ l with composerSessions :=
        l.composerSessions.insert cid { entry with nominated := true } },
        l.composerAcceptSubs.map (.accept cid))
  | .composerFailed cid => (l.takeComposer cid, [])
  | .accept cid sub => (l.note (.accepted cid sub.serial (cid ∈ l.composerSessions)), [])
  | .subscribeAccept =>
    ({ l with nextAcceptToken := (l.nextAcceptToken + 1) % 2 ^ 64 },
      [.pushAcceptSub l.nextAcceptToken])
  | .pushAcceptSub token =>
    ({ l with
      composerAcceptSubs := l.composerAcceptSubs ++ [⟨token, l.subscribed⟩]
      subscribed := l.subscribed + 1 }, [])
  | .unsubscribeAccept token =>
    ({ l with composerAcceptSubs := l.composerAcceptSubs.eraseP (·.token == token) }, [])

/-- The sections of a call. Most calls look at the shutdown flag before they take a lock. -/
def entry (l : Link) : LinkCall → List Section
  | .connect peerHex => if l.shutdown then [] else [.connect peerHex]
  | .deliverOffer peerHex => if l.shutdown then [] else [.offerComposer peerHex]
  | .disconnect conn => [.disconnect conn]
  | .onFailed conn => if l.shutdown then [] else [.claimDisconnect conn]
  | .reapSessions idle => if l.shutdown then [] else [.reapSessions idle]
  | .shutdown => [.shutdown]
  | .composerConnect peerHex => if l.shutdown then [] else [.composerConnect peerHex]
  | .onComposerConnected cid => if l.shutdown then [] else [.composerConnected cid]
  | .onComposerFailed cid => if l.shutdown then [] else [.composerFailed cid]
  | .subscribeAccept => [.subscribeAccept]
  | .unsubscribeAccept token => [.unsubscribeAccept token]

end Link

abbrev LinkRun := Threads Link Section

abbrev LinkEvent := ThreadEvent LinkCall (Option ConnId)

namespace LinkRun

def start : LinkRun := ⟨{}, []⟩

def step (w : LinkRun) (e : LinkEvent) : LinkRun := Threads.step Link.entry Link.exec w e

def run (w : LinkRun) (es : List LinkEvent) : LinkRun := es.foldl step w

end LinkRun

end LinkIce
