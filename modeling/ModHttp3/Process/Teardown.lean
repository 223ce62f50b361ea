import ModHttp3.Lib.Ledger
import ModHttp3.Process.Accounting
import ModHttp3.Process.Listener

/-! The listener from `h3_io_listen_start` to the end of `teardown`: when the engine, the worker pool and the
connections are created, used and freed, while the event thread and the workers run. -/
namespace ModHttp3.Process
open Session ModHttp3.System Lib

inductive Resource
  | engine
  | workerPool
  | conn (c : Conn)
  deriving DecidableEq, Repr

/-- Where `teardown` is. -/
inductive Phase
  | eventThread
  | join
  | workerPool
  | sessions
  | engine
  deriving DecidableEq, Repr

/-- Where the thread is that starts and stops the listener; `idle` is outside of both. -/
inductive Owner
  | starting (stage : Stage)
  | idle
  | teardown (phase : Phase)
  deriving DecidableEq, Repr

/-- `h3_io_t` with its three pointers, which are set or null, and a record of what was done to the resources,
the last event first. -/
structure Life where
  io : Io
  owner : Owner
  eventThread : Bool
  workerPool : Bool
  qengine : Bool
  uses : List (Use Resource)

/-- `call` is the next call in `h3_io_listen_start`, `stop` enters `h3_io_listen_stop`, `next` goes on in
`teardown`. -/
inductive LifeAct
  | call (ok : Bool)
  | stop
  | next
  | io (act : IoAct)

/-- The connection that a step of the event thread works on. -/
def Io.stepConn (io : Io) (act : IoAct) : Option Conn :=
  match io.pc, act with
  | .accepting, .accept conn _ _ => conn
  | .progress _ i, _ => io.pendingHandshakes[i]?.map (·.conn)
  | .serving i, .session _ => io.activeSessions[i]?.map (·.qconn)
  | .leaving, .go => io.pendingHandshakes[0]?.map (·.conn)
  | _, _ => none

/-- A connection is taken from the engine or used, and then perhaps freed. -/
def Io.connUses (io io' : Io) (c : Conn) : List (Use Resource) :=
  (if c ∈ io'.freed then [.free (.conn c)] else []) ++
    [if c ∈ io.accepted then .access (.conn c) else .gain (.conn c)]

/-- While it serves a session, the event thread pushes requests to the pool. -/
def IoAct.poolUses : IoAct → List (Use Resource)
  | .session _ => [.access .workerPool]
  | _ => []

/-- What a step of the event thread uses: the engine, whatever it does, and one connection. -/
def Io.threadUses (io io' : Io) (act : IoAct) : List (Use Resource) :=
  (io.stepConn act).elim [] (io.connUses io') ++ (act.poolUses ++ [.access .engine])

namespace Life

def start : Life := ⟨.start, .starting .wakeup, false, false, false, []⟩

/-- The next call in `h3_io_listen_start`. -/
def listenCall (w : Life) (ok : Bool) : Stage → Life
  | .wakeup => { w with owner := if ok then .starting .workerPool else .idle }
  | .workerPool =>
    if ok then
      { w with owner := .starting .engine, workerPool := true, uses := .gain .workerPool :: w.uses }
    else { w with owner := .idle }
  | .engine =>
    if ok then { w with owner := .starting .eventThread, qengine := true, uses := .gain .engine :: w.uses }
    else { w with owner := .teardown .eventThread }
  | .eventThread =>
    if ok then { w with owner := .idle, eventThread := true }
    else { w with owner := .teardown .eventThread, io := { w.io with threadRunning := false } }

/-- One step of `teardown`; the wait for the sessions is no step, as nobody is left to end them. -/
def teardown (w : Life) : Phase → Option Life
  | .eventThread =>
    some (if w.eventThread then
      { w with owner := .teardown .join, io := { w.io with threadRunning := false } }
    else { w with owner := .teardown .workerPool })
  | .join =>
    if w.io.pc = .exited then some { w with owner := .teardown .workerPool, eventThread := false } else none
  | .workerPool =>
    some (if w.workerPool then
      { w with owner := .teardown .sessions, workerPool := false, uses := .free .workerPool :: w.uses }
    else { w with owner := .teardown .sessions })
  | .sessions => if w.io.activeSessions.isEmpty then some { w with owner := .teardown .engine } else none
  | .engine =>
    some (if w.qengine then { w with owner := .idle, qengine := false, uses := .free .engine :: w.uses }
    else { w with owner := .idle })

/-- A step of the event thread or of a request task, or the flag set by `h3_io_listen_drain`. -/
def ioStep (conf : IoConf) (w : Life) : IoAct → Option Life
  | .stop => none
  | .drain => (w.io.step conf .drain).map fun io => { w with io := io }
  | .worker j k a =>
    (w.io.step conf (.worker j k a)).map fun io =>
      { w with io := io, uses := .access .workerPool :: w.uses }
  | act =>
    if w.eventThread then
      (w.io.threadStep conf act).map fun io => { w with io := io, uses := w.io.threadUses io act ++ w.uses }
    else none

/-- `h3_io_listen_stop` is called by the hooks and by the pool cleanup, also when it was called before. -/
def step (conf : IoConf) (w : Life) : LifeAct → Option Life
  | .call ok => match w.owner with
    | .starting stage => some (w.listenCall ok stage)
    | _ => none
  | .stop => if w.owner = .idle then some { w with owner := .teardown .eventThread } else none
  | .next => match w.owner with
    | .teardown phase => w.teardown phase
    | _ => none
  | .io act => w.ioStep conf act

end Life

section
variable {conf : IoConf} {io io' : Io} {c : Conn}

/-- Where the two lists of the event thread place a connection. -/
def Io.connPlace (io : Io) (c : Conn) : Place :=
  if c ∈ io.freed then .freed else if c ∈ io.accepted then .held else .fresh

/-- A step works on one connection, which was not freed before. -/
structure Touches (io io' : Io) (c : Conn) : Prop where
  unfreed : c ∉ io.freed
  accepted : ∀ x, x ∈ io'.accepted ↔ x = c ∨ x ∈ io.accepted
  freed : ∀ x, x ≠ c → (x ∈ io'.freed ↔ x ∈ io.freed)

/-- What a step does to the connections. -/
def Handles (io io' : Io) : Option Conn → Prop
  | none => io'.accepted = io.accepted ∧ io'.freed = io.freed
  | some c => Touches io io' c

theorem Accounted.unfreed (hA : Accounted conf io) (hc : 0 < io.owners c) : c ∈ io.accepted ∧ c ∉ io.freed := by
  have howned := hA.books.owned c
  have hle := List.nodup_iff_count_le_one.mp hA.fresh c
  constructor
  · exact List.count_pos_iff.mp (by omega)
  · exact List.count_eq_zero.mp (by omega)

theorem Accounted.new_unfreed (hA : Accounted conf io) (hc : c ∉ io.accepted) : c ∉ io.freed := by
  have howned := hA.books.owned c
  rw [List.count_eq_zero.mpr hc] at howned
  exact List.count_eq_zero.mp (by omega)

/-- A step works on a connection of the tables and takes none. -/
theorem Accounted.touches (hA : Accounted conf io) (hc : 0 < io.owners c) (hacc : io'.accepted = io.accepted)
    (hfreed : io'.freed = io.freed ∨ io'.freed = c :: io.freed) : Touches io io' c := by
  obtain ⟨hmem, hnot⟩ := hA.unfreed hc
  refine ⟨hnot, fun x => ?_, fun x hx => ?_⟩
  · rw [hacc]
    constructor
    · exact Or.inr
    · rintro (rfl | hx)
      · exact hmem
      · exact hx
  · rcases hfreed with h | h <;> rw [h]
    rw [List.mem_cons, or_iff_right hx]

theorem owners_pending {i : ℕ} {p : PendingHandshake} (hp : io.pendingHandshakes[i]? = some p) :
    0 < io.owners p.conn := by
  have hmem := List.mem_map_of_mem (f := PendingHandshake.conn) (List.mem_of_getElem? hp)
  exact Nat.add_pos_left (List.count_pos_iff.mpr hmem) _

theorem owners_active {i : ℕ} {s : ActiveSession} (hs : io.activeSessions[i]? = some s) :
    0 < io.owners s.qconn := by
  have hmem := List.mem_map_of_mem (f := ActiveSession.qconn) (List.mem_of_getElem? hs)
  exact Nat.add_pos_right _ (List.count_pos_iff.mpr hmem)

theorem Accounted.accept_touches (hA : Accounted conf io) {prepared : Bool} {now : ℤ} (hnew : c ∉ io.accepted) :
    Touches io (io.acceptConnection conf c prepared now) c := by
  unfold Io.acceptConnection
  dsimp only
  split_ifs
  · refine ⟨hA.new_unfreed hnew, fun x => List.mem_cons, fun x hx => ?_⟩
    exact List.mem_cons.trans (or_iff_right hx)
  · rw [noteConnAdded_eq]
    exact ⟨hA.new_unfreed hnew, fun x => List.mem_cons, fun x _ => Iff.rfl⟩

theorem Accounted.drop_touches (hA : Accounted conf io) {i : ℕ} {p : PendingHandshake}
    (hp : io.pendingHandshakes[i]? = some p) : Touches io (io.removePendingHandshake conf i true) p.conn := by
  rw [removePendingHandshake_eq hp]
  exact hA.touches (owners_pending hp) rfl (.inr rfl)

theorem Accounted.progress_touches (hA : Accounted conf io) {now : ℤ} {i : ℕ} {p : PendingHandshake} {act : IoAct}
    (hp : io.pendingHandshakes[i]? = some p) (h : io.progressPendingHandshake conf now i p act = some io') :
    Touches io io' p.conn := by
  unfold Io.progressPendingHandshake at h
  split at h
  · split_ifs at h
    cases h
    exact hA.drop_touches hp
  · split_ifs at h
    split at h
    · cases h
      exact hA.drop_touches hp
    · obtain ⟨io₁, hs, rfl⟩ := Option.map_eq_some_iff.mp h
      rcases spawn_cases hs with rfl | ⟨s, rfl, -, -⟩
      · have hp' : (io.connFree p.conn).pendingHandshakes[i]? = some p := hp
        rw [removePendingHandshake_eq hp']
        exact hA.touches (owners_pending hp) rfl (.inr rfl)
      · rw [removePendingHandshake_eq (addSession_pending s hp), addSession_eq]
        exact hA.touches (owners_pending hp) rfl (.inl rfl)
    · cases h
      exact hA.touches (owners_pending hp) rfl (.inl rfl)
  · cases h

theorem Accounted.serve_touches (hA : Accounted conf io) {i : ℕ} {s : ActiveSession} {a : Answer}
    (hs : io.activeSessions[i]? = some s) (h : io.serveSession conf i s a = some io') :
    Touches io io' s.qconn := by
  obtain ⟨σ, hσ, rfl⟩ := Option.map_eq_some_iff.mp h
  split
  · rw [removeSession_eq]
    exact hA.touches (owners_active hs) rfl (.inr rfl)
  · exact hA.touches (owners_active hs) rfl (.inl rfl)

theorem Accounted.threadStep_handles (hA : Accounted conf io) {act : IoAct}
    (h : io.threadStep conf act = some io') : Handles io io' (io.stepConn act) := by
  unfold Io.threadStep at h
  unfold Io.stepConn
  split at h
  · rename_i hpc
    cases h
    rw [hpc]
    exact ⟨rfl, rfl⟩
  · rename_i hpc
    cases h
    rw [hpc]
    exact ⟨rfl, rfl⟩
  · rename_i hpc
    cases h
    rw [hpc]
    exact ⟨rfl, rfl⟩
  · rename_i hpc
    split_ifs at h with hnew
    cases h
    rw [hpc]
    exact hA.accept_touches hnew
  · rename_i hpc
    rw [hpc]
    dsimp only
    split at h
    · rename_i hp
      rw [hp]
      exact hA.progress_touches hp h
    · rename_i hp
      cases h
      rw [hp]
      exact ⟨rfl, rfl⟩
  · rename_i hpc
    obtain ⟨s, hs, h⟩ := Option.bind_eq_some_iff.mp h
    rw [hpc]
    dsimp only
    rw [hs]
    exact hA.serve_touches hs h
  · rename_i hpc
    split_ifs at h
    cases h
    rw [hpc]
    exact ⟨rfl, rfl⟩
  · rename_i hpc
    rw [hpc]
    dsimp only
    cases hp : io.pendingHandshakes[0]? with
    | none =>
      have hnil : io.pendingHandshakes = [] :=
        List.length_eq_zero_iff.mp (Nat.le_zero.mp (List.getElem?_eq_none_iff.mp hp))
      rw [if_pos (List.isEmpty_iff.mpr hnil)] at h
      cases h
      exact ⟨rfl, rfl⟩
    | some p =>
      have hne : ¬io.pendingHandshakes.isEmpty := by
        intro hnil
        rw [List.isEmpty_iff.mp hnil] at hp
        cases hp
      rw [if_neg hne] at h
      cases h
      exact hA.drop_touches hp
  · cases h

variable {l : List (Use Resource)}

/-- The first event of a step finds or puts its connection in use. -/
theorem Touches.first (ht : Touches io io' c) (hl : Legal l) (hp : ∀ x, place l (.conn x) = io.connPlace x) :
    ∃ u : Use Resource, io.connUses io' c = (if c ∈ io'.freed then [.free (.conn c)] else []) ++ [u] ∧
      u.resource = .conn c ∧ Legal (u :: l) ∧ place (u :: l) (.conn c) = .held := by
  refine ⟨_, rfl, ?_⟩
  have hc := hp c
  unfold Io.connPlace at hc
  rw [if_neg ht.unfreed] at hc
  by_cases hacc : c ∈ io.accepted
  · rw [if_pos hacc] at hc ⊢
    refine ⟨rfl, ⟨hc, hl⟩, ?_⟩
    rw [place_access, hc]
  · rw [if_neg hacc] at hc ⊢
    exact ⟨rfl, ⟨hc, hl⟩, place_cons_self (Use.gain (Resource.conn c))⟩

theorem Touches.uses (ht : Touches io io' c) (hl : Legal l) (hp : ∀ x, place l (.conn x) = io.connPlace x) :
    Legal (io.connUses io' c ++ l) ∧ place (io.connUses io' c ++ l) (.conn c) = io'.connPlace c ∧
      ∀ r, r ≠ .conn c → place (io.connUses io' c ++ l) r = place l r := by
  obtain ⟨u, huses, hu, hl', hheld⟩ := ht.first hl hp
  have hother : ∀ r, r ≠ .conn c → place (u :: l) r = place l r := by
    intro r hr
    exact place_cons_ne (hu ▸ hr.symm)
  rw [huses]
  unfold Io.connPlace
  by_cases hfree : c ∈ io'.freed
  · rw [if_pos hfree, if_pos hfree]
    refine ⟨⟨.inl hheld, hl'⟩, place_cons_self (Use.free (Resource.conn c)), fun r hr => ?_⟩
    have hlast : place (.free (.conn c) :: u :: l) r = place (u :: l) r := place_cons_ne hr.symm
    exact hlast.trans (hother r hr)
  · rw [if_neg hfree, if_neg hfree, if_pos ((ht.accepted c).mpr (.inl rfl))]
    exact ⟨hl', hheld, hother⟩

theorem Touches.connPlace (ht : Touches io io' c) {x : Conn} (hx : x ≠ c) : io'.connPlace x = io.connPlace x := by
  unfold Io.connPlace
  simp only [ht.freed x hx, ht.accepted x, hx, false_or]

/-- What a step records about its connection is legal, and agrees with the lists. -/
theorem Handles.uses {oc : Option Conn} (hh : Handles io io' oc) (hl : Legal l)
    (hp : ∀ x, place l (.conn x) = io.connPlace x) :
    Legal (oc.elim [] (io.connUses io') ++ l) ∧
      (∀ x, place (oc.elim [] (io.connUses io') ++ l) (.conn x) = io'.connPlace x) ∧
      ∀ r, (∀ c, r ≠ .conn c) → place (oc.elim [] (io.connUses io') ++ l) r = place l r := by
  cases oc with
  | none =>
    refine ⟨hl, fun x => ?_, fun r _ => rfl⟩
    obtain ⟨hacc, hfreed⟩ := hh
    unfold Io.connPlace
    rw [hacc, hfreed]
    exact hp x
  | some c =>
    have ht : Touches io io' c := hh
    obtain ⟨hlegal, hself, hother⟩ := ht.uses hl hp
    refine ⟨hlegal, fun x => ?_, fun r hr => hother r (hr c)⟩
    by_cases hx : x = c
    · subst hx
      exact hself
    · rw [ht.connPlace hx, ← hp x]
      exact hother _ fun he => hx (Resource.conn.inj he)

end

/-- What the fields of the listener are at each place of its owner. -/
def Owner.Meets (w : Life) : Owner → Prop
  | .starting .wakeup | .starting .workerPool =>
    w.eventThread = false ∧ place w.uses .workerPool = .fresh ∧ place w.uses .engine = .fresh
  | .starting .engine => w.eventThread = false ∧ w.workerPool = true ∧ place w.uses .engine = .fresh
  | .starting .eventThread => w.eventThread = false ∧ w.workerPool = true ∧ w.qengine = true
  | .idle => w.eventThread = false → w.workerPool = false ∧ w.qengine = false
  | .teardown .eventThread | .teardown .join => True
  | .teardown .workerPool => w.eventThread = false
  | .teardown .sessions | .teardown .engine => w.eventThread = false ∧ w.workerPool = false

/-- The record is legal and agrees with the fields, and the event thread has what it uses. -/
structure Kept (conf : IoConf) (w : Life) : Prop where
  accounted : Accounted conf w.io
  legal : Legal w.uses
  conns : ∀ c, place w.uses (.conn c) = w.io.connPlace c
  pool : place w.uses .workerPool = .held ↔ w.workerPool = true
  engine : place w.uses .engine = .held ↔ w.qengine = true
  running : w.eventThread = true → w.workerPool = true ∧ w.qengine = true
  rest : w.eventThread = false → w.io.activeSessions = [] ∧ w.io.pendingHandshakes = []
  owner : w.owner.Meets w

section
variable {conf : IoConf} {w w' : Life}

private theorem kept_start (conf : IoConf) : Kept conf .start where
  accounted := accounted_start conf
  legal := trivial
  conns _ := rfl
  pool := ⟨fun h => (Place.noConfusion h), fun h => (Bool.noConfusion h)⟩
  engine := ⟨fun h => (Place.noConfusion h), fun h => (Bool.noConfusion h)⟩
  running h := absurd h Bool.false_ne_true
  rest _ := ⟨rfl, rfl⟩
  owner := ⟨rfl, rfl, rfl⟩

/-- The owner goes on without a change to the resources. -/
theorem Kept.goOn (hK : Kept conf w) {o : Owner} (ho : o.Meets { w with owner := o }) :
    Kept conf { w with owner := o } :=
  ⟨hK.accounted, hK.legal, hK.conns, hK.pool, hK.engine, hK.running, hK.rest, ho⟩

theorem Kept.stopped (hK : Kept conf w) : Kept conf { w with io := { w.io with threadRunning := false } } :=
  ⟨hK.accounted.turn (onward_self w.io), hK.legal, hK.conns, hK.pool, hK.engine, hK.running, hK.rest, by
    have ho := hK.owner
    unfold Owner.Meets at ho ⊢
    exact ho⟩

theorem place_of_ne {r r' : Resource} {u : Use Resource} (hu : u.resource = r) (hr : r ≠ r') (l : List (Use Resource)) :
    place (u :: l) r' = place l r' :=
  place_cons_ne (hu ▸ hr)

/-- The owner creates or destroys the worker pool. -/
theorem Kept.poolEvent (hK : Kept conf w) (hthread : w.eventThread = false) {u : Use Resource}
    (hu : u.resource = .workerPool) (hall : u.allowed (place w.uses .workerPool)) {set : Bool}
    (hset : u.after (place w.uses .workerPool) = .held ↔ set = true) {o : Owner}
    (ho : o.Meets { w with owner := o, workerPool := set, uses := u :: w.uses }) :
    Kept conf { w with owner := o, workerPool := set, uses := u :: w.uses } where
  accounted := hK.accounted
  legal := ⟨hu.symm ▸ hall, hK.legal⟩
  conns c := (place_of_ne hu Resource.noConfusion _).trans (hK.conns c)
  pool := by
    have hself := place_cons_self (l := w.uses) u
    rw [hu] at hself
    rw [hself]
    exact hset
  engine := by
    rw [place_of_ne hu Resource.noConfusion]
    exact hK.engine
  running h := absurd (hthread.symm.trans h) Bool.false_ne_true
  rest := hK.rest
  owner := ho

/-- The owner creates or destroys the engine. -/
theorem Kept.engineEvent (hK : Kept conf w) (hthread : w.eventThread = false) {u : Use Resource}
    (hu : u.resource = .engine) (hall : u.allowed (place w.uses .engine)) {set : Bool}
    (hset : u.after (place w.uses .engine) = .held ↔ set = true) {o : Owner}
    (ho : o.Meets { w with owner := o, qengine := set, uses := u :: w.uses }) :
    Kept conf { w with owner := o, qengine := set, uses := u :: w.uses } where
  accounted := hK.accounted
  legal := ⟨hu.symm ▸ hall, hK.legal⟩
  conns c := (place_of_ne hu Resource.noConfusion _).trans (hK.conns c)
  pool := by
    rw [place_of_ne hu Resource.noConfusion]
    exact hK.pool
  engine := by
    have hself := place_cons_self (l := w.uses) u
    rw [hu] at hself
    rw [hself]
    exact hset
  running h := absurd (hthread.symm.trans h) Bool.false_ne_true
  rest := hK.rest
  owner := ho

/-- Before the pool is created there is nothing to destroy. -/
theorem Kept.nothing (hK : Kept conf w) (hpool : place w.uses .workerPool = .fresh)
    (hengine : place w.uses .engine = .fresh) : w.workerPool = false ∧ w.qengine = false := by
  constructor
  · exact Bool.eq_false_iff.mpr fun h => Place.noConfusion (hpool.symm.trans (hK.pool.mpr h))
  · exact Bool.eq_false_iff.mpr fun h => Place.noConfusion (hengine.symm.trans (hK.engine.mpr h))

theorem Kept.listenCall (hK : Kept conf w) (ok : Bool) {stage : Stage} (ho : w.owner = .starting stage) :
    Kept conf (w.listenCall ok stage) := by
  have hmeets := hK.owner
  rw [ho] at hmeets
  cases stage with
  | wakeup =>
    obtain ⟨hthread, hpool, hengine⟩ := hmeets
    cases ok with
    | true => exact hK.goOn (o := .starting .workerPool) ⟨hthread, hpool, hengine⟩
    | false => exact hK.goOn (o := .idle) fun _ => hK.nothing hpool hengine
  | workerPool =>
    obtain ⟨hthread, hpool, hengine⟩ := hmeets
    cases ok with
    | true =>
      refine hK.poolEvent (u := .gain .workerPool) (o := .starting .engine) hthread rfl hpool
        (iff_of_true rfl rfl) ⟨hthread, rfl, ?_⟩
      exact (place_of_ne rfl Resource.noConfusion _).trans hengine
    | false => exact hK.goOn (o := .idle) fun _ => hK.nothing hpool hengine
  | engine =>
    obtain ⟨hthread, hpool, hengine⟩ := hmeets
    cases ok with
    | true =>
      exact hK.engineEvent (u := .gain .engine) (o := .starting .eventThread) hthread rfl hengine
        (iff_of_true rfl rfl) ⟨hthread, hpool, rfl⟩
    | false => exact hK.goOn (o := .teardown .eventThread) trivial
  | eventThread =>
    obtain ⟨hthread, hpool, hengine⟩ := hmeets
    cases ok with
    | true =>
      exact ⟨hK.accounted, hK.legal, hK.conns, hK.pool, hK.engine, fun _ => ⟨hpool, hengine⟩,
        fun h => absurd h.symm Bool.false_ne_true, fun h => absurd h.symm Bool.false_ne_true⟩
    | false => exact hK.stopped.goOn (o := .teardown .eventThread) trivial

theorem Kept.teardown (hK : Kept conf w) {phase : Phase} (ho : w.owner = .teardown phase)
    (h : w.teardown phase = some w') : Kept conf w' := by
  have hmeets := hK.owner
  rw [ho] at hmeets
  cases phase with
  | eventThread =>
    cases h
    split_ifs with hthread
    · exact hK.stopped.goOn (o := .teardown .join) trivial
    · exact hK.goOn (o := .teardown .workerPool) (Bool.eq_false_iff.mpr hthread)
  | join =>
    obtain ⟨hexited, he⟩ := Option.ite_none_right_eq_some.mp h
    cases he
    exact ⟨hK.accounted, hK.legal, hK.conns, hK.pool, hK.engine, fun h => absurd h Bool.false_ne_true,
      fun _ => hK.accounted.exited hexited, rfl⟩
  | workerPool =>
    have hthread : w.eventThread = false := hmeets
    cases h
    split_ifs with hpool
    · exact hK.poolEvent (u := .free .workerPool) (o := .teardown .sessions) hthread rfl (.inl (hK.pool.mpr hpool))
        (iff_of_false Place.noConfusion Bool.false_ne_true) ⟨hthread, rfl⟩
    · exact hK.goOn (o := .teardown .sessions) ⟨hthread, Bool.eq_false_iff.mpr hpool⟩
  | sessions =>
    obtain ⟨-, he⟩ := Option.ite_none_right_eq_some.mp h
    cases he
    exact hK.goOn (o := .teardown .engine) hmeets
  | engine =>
    obtain ⟨hthread, hpool⟩ := hmeets
    cases h
    split_ifs with hengine
    · exact hK.engineEvent (u := .free .engine) (o := .idle) hthread rfl (.inl (hK.engine.mpr hengine))
        (iff_of_false Place.noConfusion Bool.false_ne_true) fun _ => ⟨hpool, rfl⟩
    · exact hK.goOn (o := .idle) fun _ => ⟨hpool, Bool.eq_false_iff.mpr hengine⟩

/-- While the event thread runs, the owner's place asks nothing of the record. -/
theorem Owner.meets_running {o : Owner} (hrun : w.eventThread = true) (ho : o.Meets w) (io : Io)
    (uses : List (Use Resource)) : o.Meets { w with io := io, uses := uses } := by
  have hno : w.eventThread ≠ false := fun h => Bool.false_ne_true (h.symm.trans hrun)
  cases o with
  | starting stage => cases stage <;> exact absurd ho.1 hno
  | idle => exact fun h => absurd h hno
  | teardown phase =>
    cases phase with
    | eventThread | join => trivial
    | workerPool => exact absurd ho hno
    | sessions | engine => exact absurd ho.1 hno

/-- What the event thread uses apart from connections is there. -/
theorem Kept.access (hK : Kept conf w) (hrun : w.eventThread = true) (act : IoAct) :
    Legal (act.poolUses ++ .access .engine :: w.uses) ∧
      ∀ r, place (act.poolUses ++ .access .engine :: w.uses) r = place w.uses r := by
  obtain ⟨hpool, hengine⟩ := hK.running hrun
  have hlegal : Legal (.access .engine :: w.uses) := ⟨hK.engine.mpr hengine, hK.legal⟩
  unfold IoAct.poolUses
  split
  · refine ⟨⟨place_access.trans (hK.pool.mpr hpool), hlegal⟩, fun r => ?_⟩
    exact place_access.trans place_access
  · exact ⟨hlegal, fun r => place_access⟩

theorem Kept.threadStep (hK : Kept conf w) (hrun : w.eventThread = true) {act : IoAct} {io : Io}
    (h : w.io.threadStep conf act = some io) (hstep : w.io.step conf act = some io) :
    Kept conf { w with io := io, uses := w.io.threadUses io act ++ w.uses } := by
  obtain ⟨hlegal, hsame⟩ := hK.access hrun act
  obtain ⟨hlegal', hconns, hother⟩ := (hK.accounted.threadStep_handles h).uses hlegal
    fun x => (hsame (.conn x)).trans (hK.conns x)
  have huses : w.io.threadUses io act ++ w.uses =
      (w.io.stepConn act).elim [] (w.io.connUses io) ++ (act.poolUses ++ .access .engine :: w.uses) := by
    simp [Io.threadUses]
  rw [huses]
  exact {
    accounted := hK.accounted.step hstep
    legal := hlegal'
    conns := hconns
    pool := by
      rw [hother _ fun _ => Resource.noConfusion, hsame]
      exact hK.pool
    engine := by
      rw [hother _ fun _ => Resource.noConfusion, hsame]
      exact hK.engine
    running := hK.running
    rest := fun hrest => absurd (hrest.symm.trans hrun) Bool.false_ne_true
    owner := Owner.meets_running hrun hK.owner _ _ }

theorem Kept.ioStep (hK : Kept conf w) {act : IoAct} (h : w.ioStep conf act = some w') : Kept conf w' := by
  cases act with
  | stop => cases h
  | drain =>
    cases h
    exact ⟨hK.accounted.turn (onward_self w.io), hK.legal, hK.conns, hK.pool, hK.engine, hK.running, hK.rest,
      hK.owner⟩
  | worker j k a =>
    obtain ⟨io, hio, rfl⟩ := Option.map_eq_some_iff.mp h
    have hA := hK.accounted.step hio
    obtain ⟨s, hs, hio⟩ := Option.bind_eq_some_iff.mp hio
    obtain ⟨σ, hσ, hio⟩ := Option.bind_eq_some_iff.mp hio
    -- a session in the table: the event thread has not been joined
    have hrun : w.eventThread = true := by
      by_contra hno
      rw [(hK.rest (Bool.eq_false_iff.mpr hno)).1] at hs
      cases hs
    have hpool : place w.uses .workerPool = .held := hK.pool.mpr (hK.running hrun).1
    cases hio
    exact {
      accounted := hA
      legal := ⟨hpool, hK.legal⟩
      conns := fun c => place_access.trans (hK.conns c)
      pool := by
        rw [place_access]
        exact hK.pool
      engine := by
        rw [place_access]
        exact hK.engine
      running := hK.running
      rest := fun hrest => absurd (hrest.symm.trans hrun) Bool.false_ne_true
      owner := Owner.meets_running hrun hK.owner _ _ }
  | _ =>
    obtain ⟨hrun, h⟩ := Option.ite_none_right_eq_some.mp h
    obtain ⟨io, hio, rfl⟩ := Option.map_eq_some_iff.mp h
    exact hK.threadStep hrun hio hio

theorem Kept.step (hK : Kept conf w) {act : LifeAct} (h : w.step conf act = some w') : Kept conf w' := by
  cases act with
  | call ok =>
    cases ho : w.owner with
    | starting stage =>
      simp only [Life.step, ho, Option.some.injEq] at h
      cases h
      exact hK.listenCall ok ho
    | idle | teardown phase => simp only [Life.step, ho, reduceCtorEq] at h
  | stop =>
    obtain ⟨-, he⟩ := Option.ite_none_right_eq_some.mp h
    cases he
    exact hK.goOn (o := .teardown .eventThread) trivial
  | next =>
    cases ho : w.owner with
    | teardown phase =>
      simp only [Life.step, ho] at h
      exact hK.teardown ho h
    | idle | starting stage => simp only [Life.step, ho, reduceCtorEq] at h
  | io act => exact hK.ioStep h

private theorem kept_reach (h : Reach (Life.step conf) anyStep .start w) : Kept conf w :=
  h.invariant (kept_start conf) fun _ _ _ hK _ hs => hK.step hs

/-- Once the event thread has been joined, every connection it took is freed. -/
theorem Kept.all_freed (hK : Kept conf w) (hthread : w.eventThread = false) {c : Conn}
    (hc : c ∈ w.io.accepted) : c ∈ w.io.freed := by
  have howned := hK.accounted.books.owned c
  unfold Io.owners at howned
  rw [(hK.rest hthread).1, (hK.rest hthread).2] at howned
  have hpos := List.count_pos_iff.mpr hc
  simp only [List.map_nil, List.count_nil, Nat.zero_add] at howned
  exact List.count_pos_iff.mp (howned ▸ hpos)

/-- However the listener is started and stopped, and whichever of its calls fail, no thread uses the engine, the
worker pool or a connection before it is created or after it is destroyed, and nothing is destroyed twice. The
engine goes last, after every connection; `teardown` never waits for a session, as the event thread has ended them
all; and when it is over nothing is left. -/
theorem teardown_orderly (h : Reach (Life.step conf) anyStep .start w) :
    Legal w.uses ∧
    (Use.free .engine ∈ w.uses → ∀ c ∈ w.io.accepted, Use.free (.conn c) ∈ w.uses) ∧
    (w.owner = .teardown .sessions → w.io.activeSessions = []) ∧
    (w.owner = .idle → w.eventThread = false → ∀ r, place w.uses r ≠ .held) := by
  have hK := kept_reach h
  refine ⟨hK.legal, fun hfree c hc => ?_, fun ho => ?_, fun ho hthread r => ?_⟩
  · have hplace : place w.uses .engine = .freed := hK.legal.remains hfree
    have hthread : w.eventThread = false := by
      refine Bool.eq_false_iff.mpr fun hrun => ?_
      have hheld := hK.engine.mpr (hK.running hrun).2
      exact Place.noConfusion (hplace.symm.trans hheld)
    apply free_mem_of_freed
    rw [hK.conns, Io.connPlace, if_pos (hK.all_freed hthread hc)]
  · have hmeets := hK.owner
    rw [ho] at hmeets
    exact (hK.rest hmeets.1).1
  · have hmeets := hK.owner
    rw [ho] at hmeets
    obtain ⟨hpool, hengine⟩ := hmeets hthread
    cases r with
    | engine => exact fun hheld => Bool.false_ne_true (hengine.symm.trans (hK.engine.mp hheld))
    | workerPool => exact fun hheld => Bool.false_ne_true (hpool.symm.trans (hK.pool.mp hheld))
    | conn c =>
      rw [hK.conns, Io.connPlace]
      split_ifs with hfreed hacc
      · exact Place.noConfusion
      · exact absurd (hK.all_freed hthread hacc) hfreed
      · exact Place.noConfusion

end

/-- The listener is started, serves a connection, and is stopped. -/
def startAndStop : List LifeAct :=
  List.replicate 4 (.call true) ++ (oneConnection.take 11).map .io ++ [.stop, .next, .io .go, .io .go] ++
    List.replicate 4 .next

theorem teardown_orderly_startAndStop :
    ∃ w, Reach (Life.step sampleIoConf) anyStep .start w ∧ w.io.accepted = [6, 5] ∧ Use.free .engine ∈ w.uses ∧
      Legal w.uses ∧ (∀ c ∈ w.io.accepted, Use.free (.conn c) ∈ w.uses) ∧ ∀ r, place w.uses r ≠ .held := by
  have hrun : (runActions (Life.step sampleIoConf) .start startAndStop).map
      (fun w => (w.owner, w.eventThread, w.io.accepted, decide (Use.free .engine ∈ w.uses))) =
        some (.idle, false, [6, 5], true) := by decide +kernel
  obtain ⟨w, hw, he⟩ := Option.map_eq_some_iff.mp hrun
  simp only [Prod.mk.injEq, decide_eq_true_eq] at he
  obtain ⟨howner, hthread, hacc, hfree⟩ := he
  have hr := Reach.of_runActions _ hw
  obtain ⟨hlegal, hconns, -, hleft⟩ := teardown_orderly hr
  exact ⟨w, hr, hacc, hfree, hlegal, hconns hfree, hleft howner hthread⟩

end ModHttp3.Process
