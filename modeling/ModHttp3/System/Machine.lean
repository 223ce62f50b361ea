import ModHttp3.Lib.Run
import ModHttp3.System.Tasks

/-! One session in the process: the event thread between `spawn_serviced_session` and
`h3_session_destroy`, pass after pass, interleaved with the session's request tasks. The
session lock is held by the event thread throughout a drain or a flush; every other section
under the lock is one step. -/
namespace ModHttp3.System
open Session

/-- Which call of `flush_nghttp3` is running. -/
inductive FlushFrom
  | goaway
  | shutdown
  | drained (completed : List ℤ)
  | passEnd
  deriving DecidableEq, Repr

/-- Where the event thread is with this session; `pushing` is in `h3_process_request`. -/
inductive EventPc
  | opening
  | opened
  | passStart
  | flush (origin : FlushFrom) (pc : FlushPc)
  | goawaySent
  | connCheck
  | accepting
  | drain (d : Drain) (pc : DrainPc)
  | deadCheck (completed : List ℤ)
  | dispatch (completed : List ℤ)
  | pushing (task : ℕ) (rest : List ℤ)
  | idleCheck
  | passEnd
  | destroyed
  deriving DecidableEq, Repr

def EventPc.holdsLock : EventPc → Bool
  | .flush _ _ | .drain _ _ => true
  | _ => false

structure State where
  session : H3Session
  pc : EventPc
  tasks : List Task

def State.start : State := ⟨.new, .opening, []⟩

/-- What a worker does next: go on, with the outcome of a call that may fail, or respond. -/
inductive WorkerAct
  | go
  | flag (yes : Bool)
  | respond (call : RespondCall)
  deriving DecidableEq, Repr

inductive Action
  | event (a : Answer)
  | worker (task : ℕ) (w : WorkerAct)
  deriving DecidableEq, Repr

/-- A reserved stream's way through `h3_process_request`, with the next phase and whether the
call returns. -/
def pushStep (s : H3Session) (t : Task) : Answer → Option (H3Session × Phase × Bool)
  | .flag yes => match t.phase with
    | .reserved =>
      if yes then some ({ s with activeTasks := s.activeTasks + 1 }, .counted, false)
      else some (s, .poolFailed, false)
    | .counted => if yes then some (s, .queued, true) else some (s, .pushFailed, false)
    | _ => none
  | .go => match t.phase with
    | .poolFailed => some (s.setStreamDispatched t.sid false, .dropped, true)
    | .pushFailed => some (s.setStreamDispatched t.sid false, .pushUnreserved, false)
    | .pushUnreserved => some ({ s with activeTasks := s.activeTasks - 1 }, .dropped, true)
    | _ => none
  | _ => none

/-- One step of `stream_worker`; `free` tells that the session lock can be taken. -/
def workerStep (s : H3Session) (free : Bool) (t : Task) : WorkerAct → Option (H3Session × Phase)
  | .flag yes => match t.phase with
    | .creating => some (s, if yes then .building else .gaveUp)
    | .building => some (s, if yes then .processing else .gaveUp)
    | _ => none
  | .respond call =>
    if t.phase = .processing ∧ free then
      some (s.modify t.sid (H3Stream.respond s.flags.gone call), .processing)
    else none
  | .go => match t.phase with
    | .queued => some (s, .creating)
    | .gaveUp => if free then some (s.setStreamDispatched t.sid false, .unreserved) else none
    | .unreserved => some ({ s with activeTasks := s.activeTasks - 1 }, .released)
    | .processing => some (s, .marking)
    | .marking =>
      if free then some (s.modify t.sid fun o => { o with workerDone := true }, .marked) else none
    | .marked => some ({ s with activeTasks := s.activeTasks - 1 }, .exited)
    | _ => none

namespace State

/-- What the event thread does when a flush has returned. -/
def flushed (σ : State) : FlushFrom → Answer → Option State
  | .goaway, .go => some { σ with session := { σ.session with goawaySent := true }, pc := .goawaySent }
  | .shutdown, .go => some { σ with session := { σ.session with aborted := true }, pc := .passEnd }
  | .drained completed, .go => some { σ with pc := .deadCheck completed }
  | .passEnd, .stalled sids =>
    if sids.all σ.session.mayStall then
      some { σ with session := σ.session.abandonStalledResponses sids, pc := .idleCheck }
    else none
  | _, _ => none

/-- `h3_process_request` up to the reservation of the stream. -/
def reserve (σ : State) (sid : ℤ) (rest : List ℤ) : State :=
  if σ.session.has sid (·.dispatched) then { σ with pc := .dispatch rest }
  else
    { session := σ.session.setStreamDispatched sid true
      pc := .pushing σ.tasks.length rest
      tasks := σ.tasks ++ [⟨sid, .reserved⟩] }

/-- One step of the event thread. -/
def eventStep (conf : SessionConf) (σ : State) (a : Answer) : Option State :=
  match σ.pc, a with
  | .opening, .control opened bound created =>
    if σ.session.controlAnswer opened created then
      let next := σ.session.createControlStreams opened bound created
      if next.2 then some { σ with session := next.1, pc := .opened }
      else some { σ with session := next.1.destroy, pc := .destroyed }
    else none
  | .opened, .flag alive =>
    if alive then some { σ with pc := .passStart }
    else some { σ with session := σ.session.destroy, pc := .destroyed }
  | .passStart, .flag stopping =>
    if σ.session.aborted then some { σ with pc := .passEnd }
    else if stopping then some { σ with pc := .flush .goaway σ.session.flushStart }
    else some { σ with pc := .connCheck }
  | .flush origin .returned, a => σ.flushed origin a
  | .flush origin pc, a =>
    (flushStep conf σ.session pc a).map fun next =>
      { σ with session := next.1, pc := .flush origin next.2 }
  | .goawaySent, .flag finish =>
    if finish then some { σ with pc := .flush .shutdown σ.session.flushStart }
    else some { σ with pc := .connCheck }
  | .connCheck, .flag closed =>
    if closed then some { σ with session := { σ.session with aborted := true }, pc := .passEnd }
    else some { σ with pc := .accepting }
  -- the scratch pool could not be created
  | .connCheck, .nothing => some { σ with pc := .passEnd }
  | .accepting, .accepted h sid created =>
    if σ.session.acceptAnswer h sid then
      some { σ with session := σ.session.acceptStream h sid created }
    else none
  | .accepting, .noMore order =>
    if order.isPerm σ.session.streams then
      some { σ with pc := .drain (.new order σ.session.streamDrainCursor) .scan }
    else none
  | .drain d .returned, .go =>
    some { σ with pc := .flush (.drained d.completed) σ.session.flushStart }
  | .drain d pc, a =>
    (drainStep conf σ.session d pc a).map fun next =>
      { σ with session := next.1, pc := .drain next.2.1 next.2.2 }
  | .deadCheck completed, .go =>
    if σ.session.ngh3Dead then
      some { σ with session := { σ.session with aborted := true }, pc := .passEnd }
    else some { σ with pc := .dispatch completed }
  | .dispatch (sid :: rest), .go => some (σ.reserve sid rest)
  | .dispatch [], .go => some { σ with pc := .flush .passEnd σ.session.flushStart }
  | .pushing i rest, a => do
    let t ← σ.tasks[i]?
    let next ← pushStep σ.session t a
    some { session := next.1, tasks := σ.tasks.set i ⟨t.sid, next.2.1⟩
           pc := if next.2.2 then .dispatch rest else .pushing i rest }
  | .idleCheck, .flag idle =>
    if idle then
      if σ.session.activeTasks = 0 then
        some { σ with session := { σ.session with aborted := true }, pc := .passEnd }
      else none
    else some { σ with pc := .passEnd }
  | .passEnd, .flag shutdownDone =>
    if σ.session.aborted && shutdownDone && σ.session.activeTasks == 0 then
      some { σ with session := σ.session.destroy, pc := .destroyed }
    else some { σ with pc := .passStart }
  | _, _ => none

/-- One step of the system. -/
def step (conf : SessionConf) (σ : State) : Action → Option State
  | .event a => σ.eventStep conf a
  | .worker i w => do
    let t ← σ.tasks[i]?
    let next ← workerStep σ.session (!σ.pc.holdsLock) t w
    some { σ with session := next.1, tasks := σ.tasks.set i ⟨t.sid, next.2⟩ }

end State

/-! A session with one request, from its control streams to its end. -/
section

def sampleConf : SessionConf where
  limitReqFields := 100
  limitReqFieldsize := 40
  maxRequestBodySize := 1024
  maxStreamErrors := 8
  streamBufferSize := 512

/-- The session is opened and gets as far as accepting streams. -/
def openSession : List Action :=
  [.event (.control [some (3, 10), some (7, 11), some (11, 12)] true [true, true, true]),
    .event (.flag true), .event (.flag false), .event (.flag false)]

/-- A pass goes on from the end of a flush to the next one, with no request to dispatch. -/
def endPass : List Action :=
  [.event .writevEmpty, .event .go, .event .go, .event .go, .event .writevEmpty,
    .event (.stalled []), .event (.flag false), .event (.flag false)]

/-- The request on stream 0 arrives, is put on the list and is handed to a worker. -/
def receiveRequest : List Action :=
  [.event (.accepted 20 0 true), .event (.noMore [0, 3, 7, 11]), .event .go, .event (.state .ok .ok),
    .event (.data 100), .event (.callback (.beginHeaders 0)),
    .event (.callback (.recvHeader 0 ⟨.path, [58], [47]⟩)), .event (.callback (.endHeaders 0 false)),
    .event (.returned none), .event .zeroReturn, .event (.returned none), .event .go,
    .event .go, .event .go, .event .go, .event .go, .event .go,
    .event .writevEmpty, .event .go, .event .go, .event .go, .event (.flag true), .event (.flag true),
    .event .go, .event .writevEmpty, .event (.stalled []), .event (.flag false), .event (.flag false)]

/-- The worker answers it, and marks it as served. -/
def serveRequest : List Action :=
  [.worker 0 .go, .worker 0 (.flag true), .worker 0 (.flag true), .worker 0 (.respond (.submit true)),
    .worker 0 (.respond (.append true)), .worker 0 (.respond .complete), .worker 0 .go, .worker 0 .go]

/-- In the next pass the stream has ended in both directions, is closed and reclaimed. -/
def closeRequest : List Action :=
  [.event (.flag false), .event (.flag false), .event (.noMore [0, 3, 7, 11]), .event .go,
    .event (.state .finished .finished), .event (.callback (.streamClose 0)), .event (.returned none),
    .event .go, .event .go, .event .go, .event .go, .event .go, .event .go]

def endSession : List Action :=
  [.worker 0 .go, .event (.flag false), .event (.flag true), .event (.flag true)]

def oneRequest : List Action :=
  openSession ++ receiveRequest ++ serveRequest ++ closeRequest ++ endPass ++ endSession

example : (Lib.runActions (State.step sampleConf) .start oneRequest).map
    (fun σ => (σ.pc, σ.tasks, σ.session.streams)) =
      some (.destroyed, [⟨0, .exited⟩], [3, 7, 11]) := by
  decide +kernel

end

end ModHttp3.System
