import ModHttp3.Basic
import Mathlib.Logic.Function.Basic

/-! The state of one connection: `h3_session`, its tracked `h3_stream` objects and the
calls made on their QUIC handles. Response queues are left to their own modules; a
stream keeps only the response flags. -/
namespace ModHttp3.Session

/-- An `h3q_stream*`. -/
abbrev Handle := ℕ

/-- `SSL_STREAM_STATE_*`. -/
inductive StreamState
  | none
  | ok
  | wrongDir
  | finished
  | resetLocal
  | resetRemote
  | connClosed
  deriving DecidableEq, Repr

/-- The read side ended without the client's FIN. -/
def StreamState.broken : StreamState → Bool
  | .resetRemote | .connClosed => true
  | _ => false

/-- `h3q_stream_is_read_finished`: whether reading and whether writing has finished. -/
def h3qStreamIsReadFinished (rstate wstate : StreamState) : Bool × Bool :=
  let readFinished := rstate == .finished || rstate == .resetRemote || rstate == .connClosed
  let wstate := if rstate != .connClosed && rstate != .resetRemote then wstate else .finished
  (readFinished, wstate == .finished || wstate == .resetLocal)

/-- nghttp3's error codes, as far as the module tells them apart. -/
inductive LibErr
  | malformedHttpHeader
  | malformedHttpMessaging
  | other (code : ℤ)
  deriving DecidableEq, Repr

def isMalformedRequestError : LibErr → Bool
  | .malformedHttpHeader | .malformedHttpMessaging => true
  | .other _ => false

/-- What `abort_quic_error_code` and `abort_reason` are derived from. -/
inductive AbortCause
  | lib (err : LibErr)
  | excessiveLoad
  deriving DecidableEq, Repr

/-- `userData`: nghttp3's stream user data points to this stream. `pool`: its pool exists. -/
structure H3Stream where
  streamId : ℤ
  qstream : Option Handle
  isBidi : Bool
  done : Bool
  writeBlocked : Bool
  headersComplete : Bool
  dispatched : Bool
  workerDone : Bool
  bodyComplete : Bool
  bodyTruncated : Bool
  requestBody : Bytes
  requestBodyCapacity : ℕ
  requestBodyOverflow : Bool
  malformed : Bool
  headerCount : ℕ
  headersTooLarge : Bool
  method : Option Bytes
  scheme : Option Bytes
  authority : Option Bytes
  path : Option Bytes
  headers : Option (List (Bytes × Bytes))
  responseSubmitted : Bool
  responseComplete : Bool
  responseCancelled : Bool
  userData : Bool
  pool : Bool
  deriving DecidableEq, Repr

/-- A stream as `track_stream` allocates it. -/
def H3Stream.new (sid : ℤ) (h : Handle) : H3Stream where
  streamId := sid
  qstream := some h
  isBidi := h3SidIsBidi sid
  done := false
  writeBlocked := false
  headersComplete := false
  dispatched := false
  workerDone := false
  bodyComplete := false
  bodyTruncated := false
  requestBody := []
  requestBodyCapacity := 0
  requestBodyOverflow := false
  malformed := false
  headerCount := 0
  headersTooLarge := false
  method := none
  scheme := none
  authority := none
  path := none
  headers := none
  responseSubmitted := false
  responseComplete := false
  responseCancelled := false
  userData := false
  pool := true

def H3Stream.responseCancel (o : H3Stream) : H3Stream :=
  { o with responseCancelled := true, responseComplete := true }

/-- The test at the end of `drain_one_stream`. -/
def H3Stream.ready (o : H3Stream) : Bool :=
  o.isBidi && !o.done && o.headersComplete && o.bodyComplete && !o.dispatched

/-- The operations issued on a QUIC stream handle, other than freeing it. -/
inductive HandleOp
  | streamId
  | readState
  | isWriteBlocked
  | read
  | write
  | reset
  deriving DecidableEq, Repr

/-- What is recorded of a run: calls on handles, how read sides ended, fins passed to nghttp3,
its end of headers and close of a stream, and streams put on the completed list. -/
inductive Event
  | obtained (h : Handle)
  | op (o : HandleOp) (h : Handle)
  | queuedFree (h : Handle)
  | freed (h : Handle)
  | stateSeen (sid : ℤ) (st : StreamState)
  | zeroReturn (sid : ℤ)
  | finFed (sid : ℤ)
  | headersEnded (sid : ℤ)
  | closed (sid : ℤ)
  | listed (sid : ℤ)
  deriving DecidableEq, Repr

/-- The event is a call on a handle. -/
def Event.onHandle : Event → Bool
  | .obtained _ | .op _ _ | .queuedFree _ | .freed _ => true
  | _ => false

/-- `streams` are the keys of the hash and `obj` the stream objects, which stay allocated in
the session's pool. `pendingFree` is a stack; `trace` has the last event first. -/
structure H3Session where
  streams : List ℤ
  obj : ℤ → Option H3Stream
  ngh3 : Bool
  aborted : Bool
  blockedStreams : ℤ
  ngh3Dead : Bool
  abortCause : Option AbortCause
  pendingFree : List Handle
  streamDrainCursor : ℕ
  controlStreamsCreated : Bool
  goawaySent : Bool
  streamErrors : ℕ
  activeTasks : ℕ
  pending : Option ℤ
  trace : List Event

def H3Session.new : H3Session where
  streams := []
  obj := fun _ => none
  ngh3 := true
  aborted := false
  blockedStreams := 0
  ngh3Dead := false
  abortCause := none
  pendingFree := []
  streamDrainCursor := 0
  controlStreamsCreated := false
  goawaySent := false
  streamErrors := 0
  activeTasks := 0
  pending := none
  trace := []

namespace H3Session

def log (s : H3Session) (e : Event) : H3Session := { s with trace := e :: s.trace }

/-- An operation on a handle; the h3q functions ignore a null one. -/
def logOp (s : H3Session) (o : HandleOp) : Option Handle → H3Session
  | none => s
  | some h => s.log (.op o h)

/-- Change the stream object of `sid`, if there is one. -/
def modify (s : H3Session) (sid : ℤ) (f : H3Stream → H3Stream) : H3Session :=
  { s with obj := Function.update s.obj sid ((s.obj sid).map f) }

def qstream (s : H3Session) (sid : ℤ) : Option Handle := (s.obj sid).bind H3Stream.qstream

/-- The stream object of `sid` exists and passes the test. -/
def has (s : H3Session) (sid : ℤ) (test : H3Stream → Bool) : Bool := (s.obj sid).any test

/-- `h3_session_queue_free`. -/
def queueFree (s : H3Session) : Option Handle → H3Session
  | none => s
  | some h => { s with pendingFree := h :: s.pendingFree, trace := .queuedFree h :: s.trace }

/-- Queue the handle of `sid` for freeing and change its stream object. -/
def release (s : H3Session) (sid : ℤ) (f : H3Stream → H3Stream) : H3Session :=
  (s.queueFree (s.qstream sid)).modify sid f

/-- Pop and free everything in `pending_free`. -/
def freePending (s : H3Session) : H3Session :=
  { s with pendingFree := [], trace := (s.pendingFree.map Event.freed).reverse ++ s.trace }

def markNgh3Dead (s : H3Session) (err : LibErr) : H3Session :=
  { s with ngh3Dead := true, abortCause := some (.lib err) }

/-- A new stream in the table. -/
def addStream (s : H3Session) (sid : ℤ) (h : Handle) : H3Session :=
  { s with
    obj := Function.update s.obj sid (some (.new sid h))
    streams := s.streams ++ [sid] }

/-- `track_stream`; `created` tells whether the condition variable could be created. -/
def trackStream (s : H3Session) (sid : ℤ) (h : Handle) (created : Bool) : Option H3Session :=
  if sid ∈ s.streams then some (s.modify sid fun o => { o with qstream := some h })
  else if created then some (s.addStream sid h)
  else none

theorem has_iff {s : H3Session} {sid : ℤ} {test : H3Stream → Bool} :
    s.has sid test ↔ ∃ o, s.obj sid = some o ∧ test o := by
  unfold has
  cases s.obj sid <;> simp

theorem has_of_obj {s : H3Session} {sid : ℤ} {o : H3Stream} (ho : s.obj sid = some o)
    (test : H3Stream → Bool) : s.has sid test = test o := by
  unfold has
  rw [ho, Option.any_some]

@[simp] theorem modify_obj_self (s : H3Session) (sid : ℤ) (f : H3Stream → H3Stream) :
    (s.modify sid f).obj sid = (s.obj sid).map f := Function.update_self ..

theorem modify_obj_ne (s : H3Session) {sid x : ℤ} (f : H3Stream → H3Stream) (hx : x ≠ sid) :
    (s.modify sid f).obj x = s.obj x := Function.update_of_ne hx ..

@[simp] theorem modify_obj_isSome (s : H3Session) (sid x : ℤ) (f : H3Stream → H3Stream) :
    ((s.modify sid f).obj x).isSome = (s.obj x).isSome := by
  by_cases hx : x = sid
  · subst hx
    rw [modify_obj_self, Option.isSome_map]
  · rw [modify_obj_ne s f hx]

private theorem modify_of_none {s : H3Session} {sid : ℤ} (hnone : s.obj sid = none) (f : H3Stream → H3Stream) :
    s.modify sid f = s := by
  unfold modify
  rw [hnone, Option.map_none, ← hnone, Function.update_eq_self]

theorem modify_obj_congr {s s' : H3Session} (h : s'.obj = s.obj) (sid : ℤ) (f : H3Stream → H3Stream) :
    (s'.modify sid f).obj = (s.modify sid f).obj := by
  unfold modify
  rw [h]

theorem modify_modify_obj (s : H3Session) (sid : ℤ) (f g : H3Stream → H3Stream) :
    ((s.modify sid f).modify sid g).obj = (s.modify sid (g ∘ f)).obj := by
  unfold modify
  dsimp only
  rw [Function.update_self, Function.update_idem, Option.map_map]

@[simp] theorem addStream_obj_self (s : H3Session) (sid : ℤ) (h : Handle) :
    (s.addStream sid h).obj sid = some (.new sid h) := Function.update_self ..

theorem addStream_obj_ne (s : H3Session) {sid x : ℤ} (h : Handle) (hx : x ≠ sid) :
    (s.addStream sid h).obj x = s.obj x := Function.update_of_ne hx ..

/-- Tracking a stream without an object adds it, if it does anything. -/
theorem trackStream_new {s s' : H3Session} {sid : ℤ} {h : Handle} {created : Bool}
    (hnew : s.obj sid = none) (ht : s.trackStream sid h created = some s') :
    s' = s ∨ s' = s.addStream sid h := by
  unfold trackStream at ht
  split_ifs at ht
  · cases ht
    exact .inl (modify_of_none hnew _)
  · cases ht
    exact .inr rfl

@[simp] theorem logOp_obj (s : H3Session) (o : HandleOp) (h : Option Handle) :
    (s.logOp o h).obj = s.obj := by
  cases h <;> rfl

@[simp] theorem logOp_ngh3Dead (s : H3Session) (o : HandleOp) (h : Option Handle) :
    (s.logOp o h).ngh3Dead = s.ngh3Dead := by
  cases h <;> rfl

@[simp] theorem queueFree_ngh3Dead (s : H3Session) (h : Option Handle) :
    (s.queueFree h).ngh3Dead = s.ngh3Dead := by
  cases h <;> rfl

@[simp] theorem queueFree_obj (s : H3Session) (h : Option Handle) : (s.queueFree h).obj = s.obj := by
  cases h <;> rfl

theorem release_obj (s : H3Session) (sid : ℤ) (f : H3Stream → H3Stream) :
    (s.release sid f).obj = (s.modify sid f).obj :=
  modify_obj_congr (queueFree_obj s _) sid f

end H3Session

end ModHttp3.Session
