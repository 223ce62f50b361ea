import ModHttp3.Session.State

/-! The callbacks that nghttp3 invokes while one of its functions is running. A callback
with null stream user data does nothing, except that the first one of a request looks
for the stream being read. -/
namespace ModHttp3.Session

/-- The server limits and directives the callbacks read. -/
structure SessionConf where
  limitReqFields : ℤ
  limitReqFieldsize : ℤ
  maxRequestBodySize : ℕ
  maxStreamErrors : ℕ
  streamBufferSize : ℕ

/-- The QPACK tokens that `IS_PSEUDO_TOKEN` knows; all others are regular fields. -/
inductive Token
  | method
  | scheme
  | path
  | authority
  | regular
  deriving DecidableEq, Repr

structure HeaderField where
  token : Token
  name : Bytes
  value : Bytes
  deriving DecidableEq, Repr

/-- `responseData` stands for `h3_session_read_data` and `on_acked_stream_data`, which touch
only the response queue. -/
inductive Callback
  | beginHeaders (sid : ℤ)
  | recvHeader (sid : ℤ) (field : HeaderField)
  | endHeaders (sid : ℤ) (fin : Bool)
  | recvData (sid : ℤ) (data : Bytes)
  | stopSending (sid : ℤ)
  | resetStream (sid : ℤ)
  | streamClose (sid : ℤ)
  | responseData (sid : ℤ)
  deriving DecidableEq, Repr

def Callback.sid : Callback → ℤ
  | .beginHeaders sid | .recvHeader sid _ | .endHeaders sid _ | .recvData sid _
  | .stopSending sid | .resetStream sid | .streamClose sid | .responseData sid => sid

def setPseudo (token : Token) (value : Bytes) (o : H3Stream) : H3Stream :=
  if value.length = 0 ∨ 8192 ≤ value.length then { o with malformed := true }
  else match token with
    | .method => { o with method := some value }
    | .scheme => { o with scheme := some value }
    | .path => { o with path := some value }
    | .authority => { o with authority := some value }
    | .regular => { o with malformed := true }

def fieldOversized (conf : SessionConf) (field : HeaderField) : Bool :=
  decide (0 < conf.limitReqFieldsize) &&
    decide (conf.limitReqFieldsize < field.name.length + field.value.length + 2)

/-- A regular field goes into the header table, unless the request has too many or too long
ones. -/
def addField (conf : SessionConf) (field : HeaderField) (headers : List (Bytes × Bytes))
    (o : H3Stream) : H3Stream :=
  let count := if 0 < conf.limitReqFields then o.headerCount + 1 else o.headerCount
  if 0 < conf.limitReqFields ∧ conf.limitReqFields < count then
    { o with headerCount := count, headersTooLarge := true }
  else if fieldOversized conf field then { o with headerCount := count, headersTooLarge := true }
  else { o with headerCount := count, headers := some (headers ++ [(field.name, field.value)]) }

def onRecvHeader (conf : SessionConf) (field : HeaderField) (o : H3Stream) : H3Stream :=
  if field.token ≠ .regular then
    if fieldOversized conf field then { o with malformed := true }
    else setPseudo field.token field.value o
  else match o.headers with
    | none => o
    | some headers => if o.headersTooLarge then o else addField conf field headers o

def onEndHeaders (fin : Bool) (o : H3Stream) : H3Stream :=
  if o.isBidi then
    { o with headersComplete := true, bodyComplete := o.bodyComplete || fin }
  else o

def onRecvData (conf : SessionConf) (data : Bytes) (o : H3Stream) : H3Stream :=
  if !o.isBidi ∨ data.length = 0 then o
  else if o.requestBodyOverflow then o
  else
    let needed := o.requestBody.length + data.length
    if conf.maxRequestBodySize < needed then { o with requestBodyOverflow := true }
    else
      let start := if o.requestBodyCapacity = 0 then h3BodyBufInitCap else o.requestBodyCapacity
      { o with
        requestBody := o.requestBody ++ data
        requestBodyCapacity :=
          if o.requestBodyCapacity < needed then
            min (growCap needed start needed) conf.maxRequestBodySize
          else o.requestBodyCapacity }

/-- The stream becomes nghttp3's user data; a request stream gets its header table. -/
def onBeginHeaders (o : H3Stream) : H3Stream :=
  { o with
    headers := if o.isBidi && o.headers.isNone then some [] else o.headers
    userData := true }

/-- `on_stop_sending` on the stream object. -/
def onStopSending (o : H3Stream) : H3Stream :=
  { o.responseCancel with
    qstream := none, done := true, bodyComplete := true, bodyTruncated := true }

def onResetStream (o : H3Stream) : H3Stream := { o.responseCancel with done := true }

def onStreamClose (o : H3Stream) : H3Stream :=
  { o.responseCancel with qstream := none, done := true }

namespace H3Session

/-- Whether a callback for `sid` finds its stream. -/
def finds (s : H3Session) : Callback → Bool
  | .beginHeaders sid => s.has sid (·.userData) || s.pending == some sid
  | cb => s.has cb.sid (·.userData)

/-- A callback on the stream it found. -/
def deliver (conf : SessionConf) (s : H3Session) : Callback → H3Session
  | .beginHeaders sid => s.modify sid onBeginHeaders
  | .recvHeader sid field => s.modify sid (onRecvHeader conf field)
  | .endHeaders sid fin => (s.log (.headersEnded sid)).modify sid (onEndHeaders fin)
  | .recvData sid data => s.modify sid (onRecvData conf data)
  | .stopSending sid => s.release sid onStopSending
  | .resetStream sid => (s.logOp .reset (s.qstream sid)).modify sid onResetStream
  | .streamClose sid => (s.log (.closed sid)).release sid onStreamClose
  | .responseData _ => s

def callback (conf : SessionConf) (s : H3Session) (cb : Callback) : H3Session :=
  if s.finds cb then s.deliver conf cb else s

end H3Session

/-- An answer of OpenSSL, nghttp3, APR or the clock to the event thread; `go` where it needs
none, `callback` where nghttp3 calls back before it returns. -/
inductive Answer
  | go
  | flag (yes : Bool)
  | callback (cb : Callback)
  | returned (err : Option LibErr)
  | state (rstate wstate : StreamState)
  | data (n : ℕ)
  | zeroReturn
  | nothing
  | writevFailed (err : LibErr)
  | writevEmpty
  | writevData (sid : ℤ)
  | wrote (blocked broken : Bool)
  | control (opened : List (Option (ℤ × Handle))) (bound : Bool) (created : List Bool)
  | accepted (h : Handle) (sid : ℤ) (created : Bool)
  | noMore (order : List ℤ)
  | stalled (sids : List ℤ)
  deriving DecidableEq, Repr

end ModHttp3.Session
