import ModHttp3.Basic
import ModHttp3.Lib.LinkedQueue

/-! The bounded response queue of a stream: `h3_stream_response_append`,
`h3_session_read_data`, acknowledgement, completion and cancellation. Results are
`none` where the code would follow a pointer to a freed chunk. -/
namespace ModHttp3.Response
open Lib

/-- The counters and flags of a stream's response, without its chunk list. -/
structure ResponseCtl where
  responseBuffered : ℕ
  responseLen : ℕ
  responseBufferLimit : ℕ
  responseSubmitted : Bool
  responseComplete : Bool
  responseCancelled : Bool
  responseProgressAt : ℤ
  deriving DecidableEq, Repr

/-- `h3_response_chunk`; its `next` link is kept by the queue's nodes. -/
structure Chunk where
  len : ℕ
  acked : ℕ
  data : Bytes
  deriving DecidableEq, Repr

/-- `response_head` and `response_tail` are the ends of `chunks`. -/
structure Queue extends ResponseCtl where
  chunks : LinkedQueue Chunk
  responseSubmitChunk : Option Addr
  responseSubmitOffset : ℕ

/-- The response fields as `track_stream` initializes them. -/
def ResponseCtl.new (limit : ℕ) (now : ℤ) : ResponseCtl :=
  ⟨0, 0, limit, false, false, false, now⟩

def Queue.new (limit : ℕ) (now : ℤ) : Queue :=
  { ResponseCtl.new limit now with
    chunks := .empty, responseSubmitChunk := none, responseSubmitOffset := 0 }

def ResponseCtl.h3StreamResponseCancelLocked (c : ResponseCtl) : ResponseCtl :=
  { c with responseCancelled := true, responseComplete := true }

def h3StreamResponseCancelLocked (r : Queue) : Queue :=
  { r with toResponseCtl := r.toResponseCtl.h3StreamResponseCancelLocked }

/-- One iteration of the append loop ends in the condition wait, in a return, or
with a chunk of `n` bytes queued; `resume` tells whether nghttp3 is resumed. -/
inductive AppendStep
  | waits
  | returns (rv : AprStatus)
  | queued (n : ℕ) (resume : Bool)
  deriving DecidableEq, Repr

/-- The producer stays in `apr_thread_cond_timedwait`. -/
def appendWaits (st : SessionFlags) (c : ResponseCtl) : Bool :=
  decide (c.responseBufferLimit ≤ c.responseBuffered) && !c.responseCancelled && !st.aborted &&
    !st.ngh3Dead

def appendChunkLen (c : ResponseCtl) (remaining : ℕ) : ℕ :=
  min (min remaining (c.responseBufferLimit - c.responseBuffered)) streamChunkBytes

/-- Link a new chunk and advance the counters. -/
def queueChunk (bytes : Bytes) (a : Addr) (r : Queue) : Option Queue :=
  (r.chunks.push a ⟨bytes.length, 0, bytes⟩).map fun q =>
    { r with
      chunks := q
      responseSubmitChunk := if r.responseSubmitChunk.isNone then some a else r.responseSubmitChunk
      responseSubmitOffset := if r.responseSubmitChunk.isNone then 0 else r.responseSubmitOffset
      responseBuffered := r.responseBuffered + bytes.length
      responseLen := r.responseLen + bytes.length }

/-- One iteration of the loop in `h3_stream_response_append`, under the session lock.
`malloc` is the allocator's answer, used only when the chunk is allocated. -/
def h3StreamResponseAppend (sizeMax : ℕ) (st : SessionFlags) (data : Bytes) (offset : ℕ)
    (malloc : Option Addr) (r : Queue) : Option (AppendStep × Queue) :=
  if appendWaits st r.toResponseCtl then some (.waits, r)
  else if r.responseCancelled || st.gone then some (.returns .econnaborted, r)
  else
    let chunkLen := appendChunkLen r.toResponseCtl (data.length - offset)
    if chunkLen = 0 ∨ sizeMax - chunkLen < r.responseLen then
      some (.returns .egeneral, h3StreamResponseCancelLocked r)
    else match malloc with
      | none => some (.returns .enomem, h3StreamResponseCancelLocked r)
      | some a => (queueChunk ((data.drop offset).take chunkLen) a r).map fun r' =>
          (.queued chunkLen r.responseSubmitted, r')

/-- What `apr_thread_cond_timedwait` returns; `failed` is every status but success and a timeout. -/
inductive WaitResult
  | signalled
  | timeup
  | failed (code : ℕ)
  deriving DecidableEq, Repr

/-- A producer that waits in `h3_stream_response_append` wakes up: it returns the error of a wait
that failed, and otherwise goes on with the loop. -/
def appendWakeUp (sizeMax : ℕ) (st : SessionFlags) (data : Bytes) (offset : ℕ)
    (malloc : Option Addr) (rv : WaitResult) (r : Queue) : Option (AppendStep × Queue) :=
  match rv with
  | .failed code => some (.returns (.other code), r)
  | .signalled | .timeup => h3StreamResponseAppend sizeMax st data offset malloc r

/-- A producer that wakes up on a cancelled stream, or in a session that is aborted or dead, returns
an error and leaves the queue as it is. -/
theorem appendWakeUp_fails {st : SessionFlags} {r : Queue}
    (h : r.responseCancelled ∨ st.aborted ∨ st.ngh3Dead) (sizeMax : ℕ) (data : Bytes) (offset : ℕ)
    (malloc : Option Addr) (rv : WaitResult) :
    ∃ e, e ≠ .success ∧ appendWakeUp sizeMax st data offset malloc rv r = some (.returns e, r) := by
  have hwait : appendWaits st r.toResponseCtl = false := by
    unfold appendWaits
    rcases h with h | h | h <;> simp [h]
  have hgone : (r.responseCancelled || st.gone) = true := by
    unfold SessionFlags.gone
    rcases h with h | h | h <;> simp [h]
  have happend : h3StreamResponseAppend sizeMax st data offset malloc r =
      some (.returns .econnaborted, r) := by
    simp only [h3StreamResponseAppend, hwait, hgone, Bool.false_eq_true, if_false, if_true]
  cases rv with
  | failed code => exact ⟨.other code, nofun, rfl⟩
  | signalled | timeup => exact ⟨.econnaborted, nofun, happend⟩

/-- `h3_stream_response_complete`; the second component tells whether nghttp3 is resumed. -/
def h3StreamResponseComplete (st : SessionFlags) (r : Queue) : Queue × Bool :=
  ({ r with responseComplete := true }, r.responseSubmitted && st.ngh3 && !st.ngh3Dead)

/-- Consume at most `datalen` bytes of the head chunk and release it when it is used up;
returns the bytes still to be acknowledged. -/
def ackHead (now : ℤ) (datalen : ℕ) (a : Addr) (r : Queue) : Option (ℕ × Queue) := do
  let node ← r.chunks.mem a
  let consumed := min datalen (node.val.len - node.val.acked)
  let acked := node.val.acked + consumed
  let q ← r.chunks.setVal a { node.val with acked := acked }
  let q ← if acked = node.val.len then q.dropHead else some q
  return (datalen - consumed,
    { r with
      chunks := q
      responseBuffered := r.responseBuffered - consumed
      responseProgressAt := now })

/-- The loop of `h3_stream_response_ack_locked`. Every iteration over a chunk with
unacknowledged bytes consumes at least one, so `datalen` iterations are enough. -/
def ackLoop (now : ℤ) : ℕ → ℕ → Queue → Option Queue
  | fuel, datalen, r =>
    if datalen = 0 then some r
    else match r.chunks.head with
      | none => some r
      | some a =>
        match fuel with
        | 0 => none
        | fuel + 1 => do
          let (rest, r') ← ackHead now datalen a r
          ackLoop now fuel rest r'

def h3StreamResponseAckLocked (now : ℤ) (datalen : ℕ) (r : Queue) : Option Queue :=
  ackLoop now datalen datalen r

/-- What `h3_session_read_data` answers: vectors with the end-of-stream flag, or
`NGHTTP3_ERR_WOULDBLOCK`, or `NGHTTP3_ERR_CALLBACK_FAILURE`. -/
inductive ReadData
  | vecs (vec : List Bytes) (eof : Bool)
  | wouldblock
  | failure
  deriving DecidableEq, Repr

/-- Fill vectors from the submit cursor until `veccnt` are used or the list ends. -/
def readLoop : ℕ → Queue → Option (List Bytes × Queue)
  | 0, r => some ([], r)
  | veccnt + 1, r =>
    match r.responseSubmitChunk with
    | none => some ([], r)
    | some a => do
      let node ← r.chunks.mem a
      let remaining := node.val.len - r.responseSubmitOffset
      let base := (node.val.data.drop r.responseSubmitOffset).take remaining
      let (vec, r') ← readLoop veccnt
        { r with responseSubmitChunk := node.next, responseSubmitOffset := 0 }
      return (base :: vec, r')

def h3SessionReadData (veccnt : ℕ) (r : Queue) : Option (ReadData × Queue) :=
  if veccnt = 0 then some (.failure, r)
  else if r.responseCancelled then some (.vecs [] true, r)
  else (readLoop veccnt r).map fun p =>
    if p.1 ≠ [] then
      (.vecs p.1 (p.2.responseSubmitChunk.isNone && p.2.responseComplete), p.2)
    else if p.2.responseComplete then (.vecs [] true, p.2)
    else (.wouldblock, p.2)

end ModHttp3.Response
