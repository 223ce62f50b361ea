import ModHttp3.Session.Callbacks

/-! `drain_ready_streams` and `drain_one_stream`, one step for each answer of OpenSSL or
nghttp3. While an nghttp3 function runs, its callbacks are steps of their own. -/
namespace ModHttp3.Session

def h3StreamDrainReadBudget : ℕ := 256
def h3StreamDrainByteBudget : ℕ := 1024 * 1024

/-- The local variables of `drain_ready_streams`. -/
structure Drain where
  snapshot : List ℤ
  start : ℕ
  offset : ℕ
  completed : List ℤ
  readsRemaining : ℕ
  bytesRemaining : ℕ
  dataRead : Bool
  deriving DecidableEq, Repr

def Drain.new (snapshot : List ℤ) (cursor : ℕ) : Drain where
  snapshot := snapshot
  start := if 0 < snapshot.length then cursor % snapshot.length else 0
  offset := 0
  completed := []
  readsRemaining := h3StreamDrainReadBudget
  bytesRemaining := h3StreamDrainByteBudget
  dataRead := false

def Drain.index (d : Drain) : ℕ := (d.start + d.offset) % d.snapshot.length

def Drain.exhausted (d : Drain) : Bool := d.readsRemaining == 0 || d.bytesRemaining == 0

/-- Why `feed_stream_fin` was called: the read side has finished, or a read returned the end. -/
inductive FinFrom
  | finished (writeFinished : Bool)
  | zeroReturn
  deriving DecidableEq, Repr

/-- Where `reject_malformed_stream` was called. -/
inductive RejectFrom
  | read
  | fin (origin : FinFrom)
  deriving DecidableEq, Repr

/-- The nghttp3 calls of a visit: reading data, reading the fin, the two calls of a rejection,
and the close of a stream that has ended. -/
inductive LibCall
  | read
  | fin (origin : FinFrom)
  | shutdown (origin : RejectFrom)
  | close (origin : RejectFrom)
  | closeEnded
  deriving DecidableEq, Repr

/-- Where `drain_one_stream` is; a rejected stream leaves without the test for completion. -/
inductive VisitPc
  | enter
  | loop
  | inside (call : LibCall)
  | leave (rejected : Bool)
  deriving DecidableEq, Repr

namespace H3Session

/-- The end of the branch for finished reads: close the stream if writing has finished too. -/
def closeIfFinished (s : H3Session) (sid : ℤ) (writeFinished : Bool) : VisitPc :=
  if (s.qstream sid).isSome && writeFinished then .inside .closeEnded else .leave false

/-- The end of `feed_stream_fin` and what its caller does next. -/
def finDone (s : H3Session) (sid : ℤ) (origin : FinFrom) : H3Session × VisitPc :=
  let s := s.modify sid fun o => { o with bodyComplete := true }
  match origin with
  | .finished writeFinished => (s, s.closeIfFinished sid writeFinished)
  | .zeroReturn => (s, .leave false)

/-- `reject_malformed_stream` up to its first call of nghttp3. -/
def rejectMalformedStream (s : H3Session) (sid : ℤ) (origin : RejectFrom) : H3Session × VisitPc :=
  (s.logOp .reset (s.qstream sid), .inside (.shutdown origin))

/-- `reject_malformed_stream` after nghttp3 closed the stream: the error is counted. -/
def rejectCounted (conf : SessionConf) (s : H3Session) (sid : ℤ) : H3Session :=
  let s := s.modify sid fun o => { o with done := true, bodyComplete := true }
  let s := { s with streamErrors := s.streamErrors + 1 }
  if conf.maxStreamErrors < s.streamErrors then
    { s with ngh3Dead := true, abortCause := some .excessiveLoad }
  else s

/-- The first query of the visit, and feeding the fin of a stream whose read side has ended.
The stream has a handle, since the scan passes over the others. -/
def visitEnter (s : H3Session) (sid : ℤ) (rstate wstate : StreamState) : H3Session × VisitPc :=
  let finished := h3qStreamIsReadFinished rstate wstate
  let s := (s.logOp .readState (s.qstream sid)).log (.stateSeen sid rstate)
  if finished.1 then
    if s.has sid (·.bodyComplete) then (s, s.closeIfFinished sid finished.2)
    else (s.log (.finFed sid), .inside (.fin (.finished finished.2)))
  else (s, .loop)

/-- nghttp3 has read data of the visited stream. -/
def readReturned (s : H3Session) (sid : ℤ) (err : Option LibErr) : H3Session × VisitPc :=
  let s := { s with pending := none }
  match err with
  | some e =>
    if isMalformedRequestError e then s.rejectMalformedStream sid .read
    else ((s.markNgh3Dead e).modify sid fun o => { o with done := true }, .leave false)
  | none =>
    if s.has sid fun o => o.malformed && !o.done then s.rejectMalformedStream sid .read
    else (s, if s.has sid (·.done) then .leave false else .loop)

/-- nghttp3 has read the fin of the visited stream. -/
def finReturned (s : H3Session) (sid : ℤ) (origin : FinFrom) (err : Option LibErr) :
    H3Session × VisitPc :=
  match err with
  | some e =>
    if isMalformedRequestError e then s.rejectMalformedStream sid (.fin origin)
    else (s.markNgh3Dead e).finDone sid origin
  | none =>
    if s.has sid fun o => o.malformed && !o.done then s.rejectMalformedStream sid (.fin origin)
    else s.finDone sid origin

/-- What follows the return of an nghttp3 function. -/
def callReturned (conf : SessionConf) (s : H3Session) (sid : ℤ) (err : Option LibErr) :
    LibCall → H3Session × VisitPc
  | .read => s.readReturned sid err
  | .fin origin => s.finReturned sid origin err
  | .shutdown origin => (s, .inside (.close origin))
  | .close .read => (s.rejectCounted conf sid, .leave true)
  | .close (.fin origin) => (s.rejectCounted conf sid).finDone sid origin
  | .closeEnded => (s, .leave false)

end H3Session

/-- The read loop of `drain_one_stream`: its exits, then the outcomes of `h3q_stream_read`. -/
def visitLoop (conf : SessionConf) (sid : ℤ) (s : H3Session) (d : Drain) (a : Answer) :
    Option (H3Session × Drain × VisitPc) :=
  if d.exhausted then
    if a = .go then some (s, d, .leave false) else none
  else if (s.qstream sid).isNone then
    if a = .go then some (s.modify sid fun o => { o with done := true }, d, .leave false) else none
  else
    let s := s.logOp .read (s.qstream sid)
    match a with
    | .data n =>
      if 0 < n ∧ n ≤ min conf.streamBufferSize d.bytesRemaining then
        some ({ s with pending := some sid },
          { d with
            readsRemaining := d.readsRemaining - 1
            bytesRemaining := d.bytesRemaining - n
            dataRead := true }, .inside .read)
      else none
    | .zeroReturn => some ((s.log (.zeroReturn sid)).log (.finFed sid), d, .inside (.fin .zeroReturn))
    | .nothing => some (s, d, .leave false)
    | _ => none

/-- One step of `drain_one_stream` on `sid`. -/
def visitStep (conf : SessionConf) (sid : ℤ) (s : H3Session) (d : Drain) :
    VisitPc → Answer → Option (H3Session × Drain × VisitPc)
  | .enter, .state rstate wstate =>
    let next := s.visitEnter sid rstate wstate
    some (next.1, d, next.2)
  | .loop, a => visitLoop conf sid s d a
  | .inside call, .callback cb => some (s.callback conf cb, d, .inside call)
  | .inside call, .returned err =>
    let next := s.callReturned conf sid err call
    some (next.1, d, next.2)
  | _, _ => none

/-- A client's request stream that is closed, and whose worker has returned. -/
def H3Stream.reclaimable (o : H3Stream) : Bool :=
  o.isBidi && !h3SidIsServer o.streamId && o.done && o.qstream.isNone && o.dispatched &&
    o.workerDone

namespace H3Session

/-- The reclaim loop on one stream: out of the table, and its pool destroyed. -/
def reclaimStream (s : H3Session) (sid : ℤ) : H3Session :=
  if s.has sid (·.reclaimable) then
    { s.modify sid (fun o => { o with writeBlocked := false, pool := false }) with
      blockedStreams := if s.has sid (·.writeBlocked) then s.blockedStreams - 1 else s.blockedStreams
      streams := s.streams.filter (· ≠ sid) }
  else s

def reclaim (s : H3Session) (snapshot : List ℤ) : H3Session := snapshot.foldl reclaimStream s

end H3Session

/-- Where `drain_ready_streams` is. -/
inductive DrainPc
  | scan
  | visit (sid : ℤ) (pc : VisitPc)
  | returned
  deriving DecidableEq, Repr

/-- The head of the visit loop, which ends at the end of the snapshot or when nghttp3 is dead. -/
def drainScan (s : H3Session) (d : Drain) : H3Session × Drain × DrainPc :=
  if s.ngh3Dead || decide (d.snapshot.length ≤ d.offset) then (s.reclaim d.snapshot, d, .returned)
  else
    let sid := d.snapshot.getD d.index 0
    if s.has sid (·.done) || (s.qstream sid).isNone || h3SidIsServer sid then
      (s, { d with offset := d.offset + 1 }, .scan)
    else (s, d, .visit sid .enter)

/-- The visited stream is put on the list of completed requests if it is one. -/
def drainList (s : H3Session) (d : Drain) (sid : ℤ) (rejected : Bool) : H3Session × Drain :=
  if !rejected && s.has sid (·.ready) && !s.ngh3Dead then
    (s.log (.listed sid), { d with completed := d.completed ++ [sid] })
  else (s, d)

/-- The visit loop goes on, or resumes at the next stream in another pass if the budget is
spent. -/
def drainNext (s : H3Session) (d : Drain) : H3Session × Drain × DrainPc :=
  if d.exhausted then
    let s := { s with streamDrainCursor := (d.index + 1) % d.snapshot.length }
    (s.reclaim d.snapshot, d, .returned)
  else (s, { d with offset := d.offset + 1 }, .scan)

/-- One step of `drain_ready_streams`. -/
def drainStep (conf : SessionConf) (s : H3Session) (d : Drain) :
    DrainPc → Answer → Option (H3Session × Drain × DrainPc)
  | .scan, .go => some (drainScan s d)
  | .visit sid (.leave rejected), .go =>
    let listed := drainList s d sid rejected
    some (drainNext listed.1 listed.2)
  | .visit sid pc, a => (visitStep conf sid s d pc a).map fun next => (next.1, next.2.1, .visit sid next.2.2)
  | _, _ => none

end ModHttp3.Session
