import ModHttp3.Response.Integrity

/-! One request on its worker: `h3_filter_out_proto` taking the handler's brigades,
`capture_body_bucket`, `submit_response_nva` and the end of `stream_worker`, one
step for each section under the session lock. Header blocks are left out. -/
namespace ModHttp3.Response
open Lib

/-- The part of a bucket that one `apr_bucket_read` returns; it fails when not readable. -/
structure Piece where
  bytes : Bytes
  readable : Bool
  deriving DecidableEq, Repr

inductive Bucket
  | error
  | response
  | data (pieces : List Piece)
  | eos
  | flush
  | metadata
  deriving DecidableEq, Repr

def Bucket.bytes : Bucket → Bytes
  | .data pieces => pieces.flatMap Piece.bytes
  | _ => []

def brigadeBytes (bb : List Bucket) : Bytes := bb.flatMap Bucket.bytes

/-- `apr_bucket_read`: the data or a failure, and the bucket for the remainder, which APR
inserts behind the one read. -/
def aprBucketRead : List Piece → Option Bytes × List Bucket
  | [] => (some [], [])
  | piece :: rest =>
    if piece.readable then (some piece.bytes, if rest.isEmpty then [] else [.data rest])
    else (none, [])

/-- The fields of `h3_conn_ctx_t` that concern the body. -/
structure ConnCtx where
  streaming : Bool
  responseTooLarge : Bool
  dataheap : Bytes
  dataheapcap : ℕ
  deriving DecidableEq, Repr

/-- `capture_body_bucket`; a bucket that cannot be read is passed over in silence. -/
def captureBodyBucket (limit : ℕ) (pieces : List Piece) (ctx : ConnCtx) :
    ConnCtx × List Bucket :=
  if ctx.responseTooLarge then (ctx, [])
  else match aprBucketRead pieces with
    | (none, rest) => (ctx, rest)
    | (some data, rest) =>
      let len := ctx.dataheap.length
      if data.length = 0 then (ctx, rest)
      else if limit < len ∨ limit - len < data.length then
        ({ ctx with responseTooLarge := true }, rest)
      else
        let newLen := len + data.length
        let start := if ctx.dataheapcap = 0 then h3BodyBufInitCap else ctx.dataheapcap * 2
        ({ ctx with
            dataheap := ctx.dataheap ++ data
            dataheapcap := if ctx.dataheapcap < newLen then growCap newLen start newLen
              else ctx.dataheapcap }, rest)

/-- `submit_response_nva`; `accepted` is the answer of `nghttp3_conn_submit_response`. -/
def submitResponseNva (st : SessionFlags) (accepted : Bool) (r : Queue) : AprStatus × Queue :=
  if r.responseSubmitted then (.success, r)
  else if r.responseCancelled || st.gone then (.econnaborted, r)
  else if accepted then (.success, { r with responseSubmitted := true })
  else (.egeneral, h3StreamResponseCancelLocked r)

/-- The test of `abandon_stalled_responses` on one stream. -/
def responseStalled (stallTimeout now : ℤ) (c : ResponseCtl) : Bool :=
  decide (0 < stallTimeout) && !c.responseCancelled && !c.responseComplete &&
    decide (c.responseBufferLimit ≤ c.responseBuffered) &&
    decide (stallTimeout ≤ now - c.responseProgressAt)

def oversizedMsg : Bytes :=
  "Response exceeded H3MaxResponseBodySize\n".toList.map fun c => UInt8.ofNat c.toNat

/-- What is left to append after the handler: the oversize message in place of too large a
response, the buffered body, or nothing when streaming. -/
def ConnCtx.heldBody (ctx : ConnCtx) : Bytes :=
  if ctx.responseTooLarge then oversizedMsg else if ctx.streaming then [] else ctx.dataheap

/-- Where the worker is. `filter` and `appending` keep the rest of the brigade; the
call of `h3_stream_response_append` in progress is the exchange's producer. -/
inductive Worker
  | handler
  | filter (bb : List Bucket)
  | appending (bb : List Bucket)
  | ending (bb : List Bucket)
  | finishing
  | finalAppend
  | completing
  | finished
  deriving DecidableEq, Repr

/-- `isOpen`: nghttp3 has the stream. `passed` records the bytes the handler passed into the
filter, `eof` that the end of the stream was reported. -/
structure Request where
  core : Exchange
  ctx : ConnCtx
  worker : Worker
  isOpen : Bool
  passed : Bytes
  eof : Bool

/-- `devel` selects the build; `limit` is `h3_max_response_body_size`. -/
structure RequestConf where
  sizeMax : ℕ
  devel : Bool
  limit : ℕ

/-- A worker starts with an empty response; it streams when the limit is the default. -/
def Request.start (streaming : Bool) (bufferLimit : ℕ) (now : ℤ) (flags : SessionFlags) : Request :=
  ⟨.start bufferLimit now flags, ⟨streaming, false, [], 0⟩, .handler, true, [], false⟩

inductive RequestAction
  | pass (mainRequest : Bool) (bb : List Bucket)
  | bucket (accepted headerOnly : Bool)
  | append (malloc : Option Addr)
  | waitFails
  | endOfStream
  | endHandler
  | respond (accepted : Bool)
  | complete
  | read (veccnt : ℕ)
  | ack (now : ℤ) (datalen : ℕ)
  | abandon (stallTimeout now : ℤ)
  | stopSending
  | resetStream
  | streamClose
  | abort
  | dead

namespace Request

def setQueue (σ : Request) (q : Queue) : Request := { σ with core := { σ.core with queue := q } }

/-- `h3_response_start`, then `next` when it succeeds and `failed` when it does not. -/
def responseStart (accepted : Bool) (σ : Request) (next failed : Request → Request) : Request :=
  match submitResponseNva σ.core.flags accepted σ.core.queue with
  | (.success, q) => next (σ.setQueue q)
  | (_, q) => failed (σ.setQueue q)

/-- The brigade is cleaned up and the filter returns to the handler. -/
def filterReturns (σ : Request) : Request := { σ with worker := .handler }

def filterNext (bb : List Bucket) (σ : Request) : Request := { σ with worker := .filter bb }

/-- Enter `h3_stream_response_append` with non-empty data. -/
def callAppend (data : Bytes) (worker : Worker) (σ : Request) : Request :=
  { σ with
    core := { σ.core with producer := appendRest data 0, passed := σ.core.passed ++ data }
    worker := worker }

/-- Read the bucket and append what it holds. -/
def streamBucket (pieces : List Piece) (bb : List Bucket) (σ : Request) : Request :=
  match aprBucketRead pieces with
  | (none, _) => σ.filterReturns
  | (some [], rest) => σ.filterNext (rest ++ bb)
  | (some (x :: xs), rest) => σ.callAppend (x :: xs) (.appending (rest ++ bb))

/-- One iteration of the loop in `h3_filter_out_proto`. An error bucket hands over to
`ap_send_error_response`, which passes brigades of its own. -/
def filterBucket (conf : RequestConf) (accepted headerOnly : Bool) (b : Bucket) (bb : List Bucket)
    (σ : Request) : Request :=
  match b with
  | .error => σ.filterReturns
  | .response =>
    if conf.devel && σ.ctx.streaming then σ.responseStart accepted (filterNext bb) filterReturns
    else σ.filterNext bb
  | .data pieces =>
    if !conf.devel && headerOnly then σ.filterNext bb
    else if σ.ctx.streaming then σ.responseStart accepted (streamBucket pieces bb) filterReturns
    else
      let captured := captureBodyBucket conf.limit pieces σ.ctx
      { σ with ctx := captured.1, worker := .filter (captured.2 ++ bb) }
  | .eos =>
    if σ.ctx.streaming then
      σ.responseStart accepted (fun σ => { σ with worker := .ending bb }) filterReturns
    else σ.filterNext bb
  | .flush =>
    if σ.ctx.streaming then σ.responseStart accepted (filterNext bb) filterReturns
    else σ.filterNext bb
  | .metadata => σ.filterNext bb

def finishDone (σ : Request) : Request := { σ with worker := .completing }

/-- After the handler: submit, then append the body that was held back. -/
def finish (accepted : Bool) (σ : Request) : Request :=
  σ.responseStart accepted
    (if σ.ctx.heldBody = [] then finishDone else callAppend σ.ctx.heldBody .finalAppend) finishDone

/-- Where the worker goes when `h3_stream_response_append` returns. -/
def appendReturns (ok : Bool) : Worker → Worker
  | .appending bb => if ok then .filter bb else .handler
  | .finalAppend => .completing
  | w => w

def afterAppend (σ : Request) (data : Bytes) (offset : ℕ) (x : AppendStep × Queue) : Request :=
  let core := σ.core.afterAppend data offset x
  match x.1 with
  | .waits => { σ with core := core }
  | .returns _ => { σ with core := core, worker := appendReturns false σ.worker }
  | .queued _ _ =>
    { σ with
      core := core
      worker := if core.producer.isNone then appendReturns true σ.worker else σ.worker }

def afterRead (σ : Request) (x : ReadData × Queue) : Request :=
  { σ with
    core := σ.core.afterRead x
    eof := σ.eof || match x.1 with
      | .vecs _ eof => eof
      | _ => false }

def cancel (σ : Request) : Request := σ.setQueue (h3StreamResponseCancelLocked σ.core.queue)

def completed (σ : Request) : Request :=
  σ.setQueue (h3StreamResponseComplete σ.core.flags σ.core.queue).1

/-- nghttp3 asks for data only of an open stream that has a response, on a live session. -/
def serving (σ : Request) : Bool := σ.isOpen && !σ.core.flags.gone

def enabled (σ : Request) : RequestAction → Bool
  | .pass _ _ | .endHandler => σ.worker == .handler
  | .bucket _ _ => match σ.worker with
    | .filter _ => true
    | _ => false
  | .append malloc =>
    σ.core.producer.isSome && malloc.all fun a => (σ.core.queue.chunks.mem a).isNone
  | .waitFails => σ.core.producer.isSome && appendWaits σ.core.flags σ.core.queue.toResponseCtl
  | .endOfStream => match σ.worker with
    | .ending _ => true
    | _ => false
  | .respond _ => σ.worker == .finishing
  | .complete => σ.worker == .completing
  | .read veccnt => σ.serving && σ.core.queue.responseSubmitted && decide (1 ≤ veccnt)
  | .ack _ datalen => decide (σ.core.acked + datalen ≤ σ.core.handed.length)
  | .stopSending | .resetStream | .streamClose => σ.isOpen
  | .abandon _ _ | .abort | .dead => true

/-- The effect of an action; `none` when it follows a dangling pointer. -/
def exec (conf : RequestConf) (σ : Request) : RequestAction → Option Request
  | .pass mainRequest bb =>
    -- A subrequest's brigade goes on to the next filter.
    some { σ with
      worker := if mainRequest then .filter bb else .handler
      passed := σ.passed ++ brigadeBytes bb }
  | .bucket accepted headerOnly => match σ.worker with
    | .filter (b :: bb) => some (σ.filterBucket conf accepted headerOnly b bb)
    | _ => some σ.filterReturns
  | .append malloc => match σ.core.producer with
    | none => some σ
    | some (data, offset) =>
      (h3StreamResponseAppend conf.sizeMax σ.core.flags data offset malloc σ.core.queue).map
        (σ.afterAppend data offset)
  | .waitFails => some { σ with
      core := { σ.core with producer := none }
      worker := appendReturns false σ.worker }
  | .endOfStream => match σ.worker with
    | .ending bb => some (σ.completed.filterNext bb)
    | _ => some σ
  | .endHandler => some { σ with worker := .finishing }
  | .respond accepted => some (σ.finish accepted)
  | .complete => some { σ.completed with worker := .finished }
  | .read veccnt => (h3SessionReadData veccnt σ.core.queue).map σ.afterRead
  | .ack now datalen =>
    (h3StreamResponseAckLocked now datalen σ.core.queue).map fun q =>
      { σ with core := { σ.core with queue := q, acked := σ.core.acked + datalen } }
  | .abandon stallTimeout now =>
    some (if responseStalled stallTimeout now σ.core.queue.toResponseCtl then σ.cancel else σ)
  | .stopSending | .resetStream => some σ.cancel
  | .streamClose => some { σ.cancel with isOpen := false }
  | .abort => some { σ with core := { σ.core with flags := { σ.core.flags with aborted := true } } }
  | .dead => some { σ with core := { σ.core with flags := { σ.core.flags with ngh3Dead := true } } }

def step (conf : RequestConf) (σ : Request) (a : RequestAction) : Option Request :=
  if σ.enabled a then σ.exec conf a else none

end Request

end ModHttp3.Response
