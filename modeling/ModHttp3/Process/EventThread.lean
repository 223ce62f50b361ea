import ModHttp3.Lib.SwapRemove
import ModHttp3.System.Machine

/-! `h3_event_thread` with its two tables of connections: pending handshakes and active sessions.
A session in the table is a state of the session machine, which the thread drives pass by pass. -/
namespace ModHttp3.Process
open Session ModHttp3.System Lib

/-- An `h3q_conn*`. -/
abbrev Conn := ℕ

/-- `h3_pending_handshake`. -/
structure PendingHandshake where
  conn : Conn
  acceptedAt : ℤ
  deriving DecidableEq, Repr

structure ActiveSession where
  qconn : Conn
  state : State

/-- The directives read by the thread; `notes` tells that the MPM provides the note functions. -/
structure IoConf where
  maxConnections : ℕ
  handshakeTimeout : ℤ
  notes : Bool
  session : SessionConf

/-- Where the thread is: `loop` and `pumped` are before and after `h3q_engine_pump`. -/
inductive ThreadPc
  | loop
  | pumped
  | accepting
  | progress (now : ℤ) (i : ℕ)
  | serving (i : ℕ)
  | leaving
  | exited
  deriving DecidableEq, Repr

/-- `h3_io_t`. The last three fields record the calls of the note functions as their difference,
the connections taken from the engine, and those freed, the last one first. -/
structure Io where
  pendingHandshakes : List PendingHandshake
  activeSessions : List ActiveSession
  activeSessionCount : ℕ
  threadRunning : Bool
  draining : Bool
  pc : ThreadPc
  balance : ℤ
  accepted : List Conn
  freed : List Conn

def Io.start : Io := ⟨[], [], 0, true, false, .loop, 0, [], []⟩

/-- What `spawn_serviced_session` meets: no pool, no session, or the answers for the control
streams and whether the connection is still open and gets a `conn_rec`. -/
inductive SpawnAnswer
  | noPool
  | noSession
  | control (opened : List (Option (ℤ × Handle))) (bound : Bool) (created : List Bool) (alive : Bool)
  deriving DecidableEq, Repr

inductive HandshakeAnswer
  | closed
  | done (spawn : SpawnAnswer)
  | waiting
  deriving DecidableEq, Repr

/-- `stop` and `drain` are set by other threads; `worker` is a step of a request task. -/
inductive IoAct
  | stop
  | drain
  | go
  | accept (conn : Option Conn) (prepared : Bool) (now : ℤ)
  | handshake (a : HandshakeAnswer)
  | session (a : Answer)
  | worker (session task : ℕ) (w : WorkerAct)

namespace Io

/-- `h3_io_at_connection_limit`. -/
def atConnectionLimit (conf : IoConf) (io : Io) : Bool :=
  decide (conf.maxConnections ≤ io.activeSessions.length + io.pendingHandshakes.length)

def noteConnAdded (conf : IoConf) (io : Io) : Io :=
  if conf.notes then { io with balance := io.balance + 1 } else io

def noteConnRemoved (conf : IoConf) (io : Io) : Io :=
  if conf.notes then { io with balance := io.balance - 1 } else io

def connFree (io : Io) (conn : Conn) : Io := { io with freed := conn :: io.freed }

def removePendingHandshake (conf : IoConf) (io : Io) (index : ℕ) (freeConn : Bool) : Io :=
  match io.pendingHandshakes[index]? with
  | none => io
  | some p =>
    let io := if freeConn then io.connFree p.conn else io
    let io := io.noteConnRemoved conf
    { io with pendingHandshakes := swapRemove io.pendingHandshakes index }

/-- The session enters the table. -/
def addSession (conf : IoConf) (io : Io) (s : ActiveSession) : Io :=
  ({ io with
    activeSessions := io.activeSessions ++ [s]
    activeSessionCount := io.activeSessionCount + 1 } : Io).noteConnAdded conf

/-- The session of a new connection, with its control streams. -/
def newSession (conf : IoConf) (opened : List (Option (ℤ × Handle))) (bound : Bool)
    (created : List Bool) (alive : Bool) : Option State :=
  (State.start.eventStep conf.session (.control opened bound created)).bind fun σ =>
    if σ.pc = .destroyed then some σ else σ.eventStep conf.session (.flag alive)

/-- `spawn_serviced_session`: every failure frees the connection. -/
def spawnServicedSession (conf : IoConf) (io : Io) (conn : Conn) : SpawnAnswer → Option Io
  | .noPool | .noSession => some (io.connFree conn)
  | .control opened bound created alive =>
    (newSession conf opened bound created alive).map fun σ =>
      if σ.pc = .destroyed then io.connFree conn else io.addSession conf ⟨conn, σ⟩

/-- `prepare_accepted_connection` and the limit before it; the connection is freed if it is not
taken over. -/
def acceptConnection (conf : IoConf) (io : Io) (conn : Conn) (prepared : Bool) (now : ℤ) : Io :=
  let io := { io with accepted := conn :: io.accepted }
  if io.atConnectionLimit conf || !prepared then io.connFree conn
  else ({ io with pendingHandshakes := io.pendingHandshakes ++ [⟨conn, now⟩] } : Io).noteConnAdded conf

/-- One round of `progress_pending_handshakes` on the entry at `i`. -/
def progressPendingHandshake (conf : IoConf) (io : Io) (now : ℤ) (i : ℕ) (p : PendingHandshake) :
    IoAct → Option Io
  | .go =>
    if conf.handshakeTimeout ≤ now - p.acceptedAt then some (io.removePendingHandshake conf i true)
    else none
  | .handshake a =>
    if conf.handshakeTimeout ≤ now - p.acceptedAt then none
    else match a with
      | .closed => some (io.removePendingHandshake conf i true)
      | .done spawn =>
        (io.spawnServicedSession conf p.conn spawn).map (·.removePendingHandshake conf i false)
      | .waiting => some { io with pc := .progress now (i + 1) }
  | _ => none

/-- A session that has ended leaves the table. -/
def removeSession (conf : IoConf) (io : Io) (i : ℕ) (s : ActiveSession) : Io :=
  let io := (io.connFree s.qconn).noteConnRemoved conf
  { io with
    activeSessions := swapRemove io.activeSessions i
    activeSessionCount := io.activeSessionCount - 1 }

/-- The thread goes on with the session at `i`, and to the next one after its pass. -/
def serveSession (conf : IoConf) (io : Io) (i : ℕ) (s : ActiveSession) (a : Answer) : Option Io :=
  (s.state.eventStep conf.session a).map fun σ =>
    if σ.pc = .destroyed then io.removeSession conf i s
    else
      { io with
        activeSessions := io.activeSessions.set i { s with state := σ }
        pc := if s.state.pc = .passEnd then .serving (i + 1) else .serving i }

/-- One step of `h3_event_thread`. -/
def threadStep (conf : IoConf) (io : Io) (act : IoAct) : Option Io :=
  match io.pc, act with
  | .loop, .go =>
    some { io with pc := if io.threadRunning || !io.activeSessions.isEmpty then .pumped else .leaving }
  | .pumped, .go =>
    some { io with pc := if io.threadRunning && !io.draining then .accepting else .serving 0 }
  | .accepting, .accept none _ now => some { io with pc := .progress now 0 }
  | .accepting, .accept (some conn) prepared now =>
    if conn ∈ io.accepted then none else some (io.acceptConnection conf conn prepared now)
  | .progress now i, act => match io.pendingHandshakes[i]? with
    | some p => io.progressPendingHandshake conf now i p act
    | none => some { io with pc := .serving 0 }
  | .serving i, .session a => io.activeSessions[i]?.bind fun s => io.serveSession conf i s a
  | .serving i, .go =>
    if io.activeSessions[i]?.isNone then some { io with pc := .loop } else none
  | .leaving, .go =>
    if io.pendingHandshakes.isEmpty then some { io with pc := .exited }
    else some (io.removePendingHandshake conf 0 true)
  | _, _ => none

def step (conf : IoConf) (io : Io) : IoAct → Option Io
  | .stop => some { io with threadRunning := false }
  | .drain => some { io with draining := true }
  | .worker j k w => do
    let s ← io.activeSessions[j]?
    let σ ← s.state.step conf.session (.worker k w)
    some { io with activeSessions := io.activeSessions.set j { s with state := σ } }
  | act => io.threadStep conf act

end Io

end ModHttp3.Process
