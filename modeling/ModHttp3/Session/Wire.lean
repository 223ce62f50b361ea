import ModHttp3.Lib.History
import ModHttp3.Lib.Run
import ModHttp3.Quic.Write
import ModHttp3.Session.Flush

/-! `flush_nghttp3` with the bytes it moves from nghttp3 to the QUIC streams. -/
namespace ModHttp3.Session
open Lib Quic

/-- What nghttp3 has to send on a stream: all bytes so far, whether the stream ends with them,
and the offsets up to which it was told that they were written and acknowledged. -/
structure Output where
  bytes : Bytes
  fin : Bool
  written : ℕ
  acked : ℕ
  deriving DecidableEq, Repr

namespace Output

def empty : Output := ⟨[], false, 0, 0⟩

def pending (o : Output) : Bytes := o.bytes.drop o.written

def addWriteOffset (o : Output) (n : ℕ) : Output := { o with written := o.written + n }

def addAckOffset (o : Output) (n : ℕ) : Output := { o with acked := o.acked + n }

/-- What `nghttp3_conn_writev_stream` may return for the stream: up to 16 buffers with the first
pending bytes, and the fin only with all of them. -/
def offers (o : Output) (vec : List Bytes) (fin : Bool) : Bool :=
  decide (vec.length ≤ 16) && vec.flatten.isPrefixOf o.pending &&
    (!fin || o.fin && vec.flatten == o.pending)

end Output

/-- One round of the loop on a stream: where the buffers begin in its output, the bytes offered
and accepted, and the offsets reported. `lost`: the write broke or there was no handle. -/
structure Attempt where
  start : ℕ
  offered : Bytes
  accepted : Bytes
  lost : Bool
  concluded : Bool
  writeOffset : ℕ
  ackOffset : ℕ
  deriving DecidableEq, Repr

/-- A session with what nghttp3 has to send; `vec` and `fin` are variables of the loop. `log` has
the last round first. -/
structure Wire where
  session : H3Session
  pc : FlushPc
  vec : List Bytes
  fin : Bool
  out : ℤ → Output
  log : List (ℤ × Attempt)

/-- `s` is the session when the first flush begins. -/
def Wire.start (s : H3Session) : Wire := ⟨s, .returned, [], false, fun _ => .empty, []⟩

/-- nghttp3 gets more to send, other code works on the session between two flushes, a flush
begins, or it goes on with an answer of nghttp3 or OpenSSL. -/
inductive WireAct
  | produce (sid : ℤ) (data : Bytes)
  | finish (sid : ℤ)
  | other (s : H3Session)
  | begin
  | flush (a : Answer)
  | writev (sid : ℤ) (vec : List Bytes) (fin : Bool)
  | write (answers : List SslWrite)

/-- These answers come with bytes: `writev` and `write` stand for them. -/
def Answer.movesBytes : Answer → Bool
  | .writevData _ | .wrote _ _ => true
  | _ => false

namespace Wire

def setOut (w : Wire) (sid : ℤ) (o : Output) : Wire := { w with out := Function.update w.out sid o }

/-- The offsets of a round are reported and the round is recorded. -/
def attempt (w : Wire) (sid : ℤ) (a : Attempt) : Wire :=
  { w with
    out := Function.update w.out sid
      (((w.out sid).addWriteOffset a.writeOffset).addAckOffset a.ackOffset)
    log := (sid, a) :: w.log }

/-- The bytes of a stream that is gone are only counted. -/
def swallow (w : Wire) (sid : ℤ) (vec : List Bytes) : Wire :=
  let expected := (vec.map List.length).sum
  w.attempt sid ⟨(w.out sid).written, vec.flatten, [], true, false, expected, expected⟩

/-- After `h3q_stream_write`: all of a broken stream's bytes count, else those accepted. -/
def wrote (w : Wire) (sid : ℤ) (r : Written) : Wire :=
  let expected := (w.vec.map List.length).sum
  let n := if r.result.broken then expected else r.result.accepted
  w.attempt sid ⟨(w.out sid).written, w.vec.flatten, r.bytes, r.result.broken, r.concluded, n, n⟩

def step (conf : SessionConf) (w : Wire) : WireAct → Option Wire
  | .produce sid data =>
    if (w.out sid).fin then none
    else some (w.setOut sid { w.out sid with bytes := (w.out sid).bytes ++ data })
  | .finish sid => some (w.setOut sid { w.out sid with fin := true })
  | .other s => if w.pc = .returned then some { w with session := s } else none
  | .begin => if w.pc = .returned then some { w with pc := w.session.flushStart } else none
  | .flush a =>
    if a.movesBytes then none
    else (flushStep conf w.session w.pc a).map fun next => { w with session := next.1, pc := next.2 }
  | .writev sid vec fin =>
    if w.pc = .writev ∧ 0 ≤ sid ∧ (w.out sid).offers vec fin then
      (flushStep conf w.session w.pc (.writevData sid)).map fun next =>
        let w := { w with session := next.1, pc := next.2 }
        if next.2 = .write sid then { w with vec := vec, fin := fin } else w.swallow sid vec
    else none
  | .write answers => match w.pc with
    | .write sid => do
      let r ← h3qStreamWrite w.vec w.fin answers
      let next ← flushStep conf w.session w.pc (.wrote r.result.blocked r.result.broken)
      some (({ w with session := next.1, pc := next.2 } : Wire).wrote sid r)
    | _ => none

end Wire

/-- The bytes that the QUIC stream accepted, in order. -/
def acceptedBytes (sid : ℤ) : List (ℤ × Attempt) → Bytes
  | [] => []
  | (x, a) :: earlier => acceptedBytes sid earlier ++ if x = sid then a.accepted else []

/-- The stream was reported broken, or was found without a handle. -/
def severed (sid : ℤ) (log : List (ℤ × Attempt)) : Bool := log.any fun e => e.1 == sid && e.2.lost

/-- The last byte of an output of `n` bytes has been accepted, if it has any. -/
def finalAccepted (sid : ℤ) (n : ℕ) (log : List (ℤ × Attempt)) : Prop :=
  n = 0 ∨ ∃ a, (sid, a) ∈ log ∧ a.accepted ≠ [] ∧ a.start + a.accepted.length = n

end ModHttp3.Session
