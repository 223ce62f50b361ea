import ModHttp3.Basic
import ModHttp3.Lib.LinkedQueue

/-! The datagram filter BIO: `h3q_queue_fill`, `h3q_queue_pop` and
`h3q_peer_addr_bio_recvmmsg`. Results are `none` where the code would follow a
pointer to a freed datagram. -/
namespace ModHttp3.Quic
open Lib

/-- A `BIO_ADDR`; `none` is a cleared one (`AF_UNSPEC`). -/
abbrev BioAddr := Option ℕ

/-- `BIO_MSG`. `data`, `peer` and `localAddr` are `none` for a null pointer. -/
structure BioMsg where
  data : Option Bytes
  dataLen : ℕ
  peer : Option BioAddr
  localAddr : Option BioAddr
  deriving DecidableEq, Repr

/-- `h3q_datagram`; its `next` link is kept by the queue's nodes. -/
structure Datagram where
  data : Bytes
  peer : Option BioAddr
  localAddr : Option BioAddr
  deriving DecidableEq, Repr

/-- `peer_rx_head` and `peer_rx_tail` are the ends of `peerRx`. The copy number `n` is
allocated at address `n`; `serial` counts the copies made. -/
structure Engine where
  peerRx : LinkedQueue Datagram
  currentPeerAddr : BioAddr
  serial : ℕ

def Engine.new : Engine := ⟨.empty, none, 0⟩

def h3qPeerAddrQueueClear (e : Engine) : Option Engine :=
  (e.peerRx.clear e.serial).map fun q => { e with peerRx := q }

/-- Copy a batch into the queue. `alloc n` tells whether the allocations for the copy
number `n` succeed; a failed one, a null buffer or an empty datagram clears the queue. -/
def h3qQueueFill (alloc : ℕ → Bool) : List BioMsg → Engine → Option (Bool × Engine)
  | [], e => some (true, e)
  | source :: rest, e =>
    match source.data with
    | none => (h3qPeerAddrQueueClear e).map fun e => (false, e)
    | some bytes =>
      if alloc e.serial = false ∨ source.dataLen = 0 then
        (h3qPeerAddrQueueClear e).map fun e => (false, e)
      else
        let item := ⟨bytes.take source.dataLen, source.peer, source.localAddr⟩
        (e.peerRx.push e.serial item).bind fun q =>
          h3qQueueFill alloc rest { e with peerRx := q, serial := e.serial + 1 }

/-- `memcpy` of the head's data and addresses into the caller's message. -/
def BioMsg.load (msg : BioMsg) (item : Datagram) : BioMsg where
  data := some item.data
  dataLen := item.data.length
  peer := if msg.peer.isSome && item.peer.isSome then item.peer else msg.peer
  localAddr := if msg.localAddr.isSome && item.localAddr.isSome then item.localAddr
    else msg.localAddr

/-- Move the head of the queue into the caller's message; too long a datagram is dropped. -/
def h3qQueuePop (e : Engine) (msg : BioMsg) : Option (Bool × BioMsg × Engine) :=
  match e.peerRx.head with
  | none => some (false, msg, e)
  | some a =>
    if msg.data.isNone then some (false, msg, e)
    else (e.peerRx.mem a).bind fun node => e.peerRx.dropHead.map fun q =>
      if msg.dataLen < node.val.data.length then (false, msg, { e with peerRx := q })
      else (true, msg.load node.val, { e with peerRx := q })

/-- What the handler returns: its status, `msgs_processed` (`none` when it is left
unwritten) and the caller's first message. -/
structure RecvResult where
  rv : Bool
  processed : Option ℕ
  msg : Option BioMsg
  deriving DecidableEq, Repr

/-- Pop for the caller; the message it gets names the current peer. -/
def recvPop (e : Engine) (msg : BioMsg) : Option (RecvResult × Engine) :=
  (h3qQueuePop e msg).map fun
    | (true, msg, e) => (⟨true, some 1, some msg⟩,
        { e with currentPeerAddr := msg.peer.getD e.currentPeerAddr })
    | (false, msg, e) => (⟨false, some 0, some msg⟩, e)

/-- `answer` is the status of `BIO_recvmmsg` on the next BIO and the messages it filled;
it is asked only when nothing is queued. -/
def h3qPeerAddrBioRecvmmsg (alloc : ℕ → Bool) (e : Engine) (msgs : List BioMsg)
    (answer : Bool × List BioMsg) : Option (RecvResult × Engine) :=
  match msgs with
  | [] => some (⟨false, none, none⟩, e)
  | msg :: _ =>
    let e := { e with currentPeerAddr := none }
    if e.peerRx.head.isSome then recvPop e msg
    else match answer with
      | (true, first :: rest) =>
        (h3qQueueFill alloc (first :: rest) e).bind fun
          | (true, e) => recvPop e first
          | (false, e) => some (⟨false, some 0, some first⟩, e)
      | (rv, received) => some (⟨rv, some received.length, some (received.headD msg)⟩, e)

end ModHttp3.Quic
