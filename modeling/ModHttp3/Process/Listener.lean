import Mathlib.Data.List.Nodup
import ModHttp3.Lib.Run

/-! The listener of a child process and its UDP descriptor: `h3_child_init`, the port acquirer,
`h3_io_listen_start`, the hooks and the pool cleanup that stop it, and the end of the pool. Descriptors
are numbered in the order in which `h3_socket_open` returned them. -/
namespace ModHttp3.Process
open Lib

inductive OpenAnswer
  | eagain
  | failure
  | socket
  deriving DecidableEq, Repr

/-- The calls in `h3_io_listen_start` that may fail, in their order. -/
inductive Stage
  | wakeup
  | workerPool
  | engine
  | eventThread
  deriving DecidableEq, Repr

/-- Where the thread is that brings up the listener. `failed` is the branch of the caller of
`h3_io_listen_start`, which has the descriptor by value. -/
inductive Starter
  | looping
  | opening
  | opened (fd : ℕ)
  | starting (stage : Stage) (fd : ℕ)
  | failed (fd : ℕ)
  | finished
  deriving DecidableEq, Repr

/-- The fields of `h3_io_t` that matter here; no descriptor stands for `-1`. -/
structure Listener where
  udpFd : Option ℕ
  draining : Bool
  deriving DecidableEq, Repr

/-- `closed` records the descriptors passed to the OS close. `childIo` tells that `child_h3_io` is
set, `registered` that the pre-cleanup is in the pool, `acquirer` that the acquirer's thread brings
up the listener and not `h3_child_init` itself. A stopping hook that waits for that thread is `joining`.
`pchild` tells that the pool is there. -/
structure Child where
  opened : ℕ
  closed : List ℕ
  io : Option Listener
  childIo : Bool
  registered : Bool
  stopping : Bool
  acquirer : Bool
  starter : Starter
  joining : Option Bool
  pchild : Bool
  deriving DecidableEq, Repr

inductive ChildAct
  | skip
  | socketOpen (answer : OpenAnswer) (threadCreated : Bool)
  | check
  | call (ok : Bool)
  | socketClose
  | stopping (graceful : Bool)
  | joined
  | stopped
  | preCleanup
  | poolDestroy
  deriving DecidableEq, Repr

namespace Child

def start : Child := ⟨0, [], none, false, false, false, false, .opening, none, true⟩

/-- `teardown`, as far as the descriptor is concerned. -/
def teardown (σ : Child) : Child :=
  match σ.io with
  | none => σ
  | some io => { σ with closed := σ.closed ++ io.udpFd.toList, io := some { io with udpFd := none } }

/-- `h3_io_listen_stop(child_h3_io)`. -/
def listenStop (σ : Child) : Child := if σ.childIo then { σ.teardown with childIo := false } else σ

/-- `h3_io_listen_drain(child_h3_io)`. -/
def listenDrain (σ : Child) : Child :=
  if σ.childIo then { σ with io := σ.io.map fun io => { io with draining := true } } else σ

/-- `listen_stop_cleanup`, once. -/
def listenStopCleanup (σ : Child) : Child :=
  if σ.io.any (·.draining) then { σ.teardown with childIo := false, registered := false }
  else { σ with registered := false }

/-- The pool is destroyed, after its pre-cleanups. `apr_socket_create` has registered a cleanup for each socket,
which closes it; `h3_socket_close` goes to the OS directly and leaves that in place. -/
def poolDestroy (σ : Child) : Child :=
  { σ with closed := σ.closed ++ List.range σ.opened, pchild := false }

/-- Enter `h3_io_listen_start`. -/
def listenStart (fd : ℕ) (σ : Child) : Child :=
  { σ with io := some ⟨some fd, false⟩, starter := .starting .wakeup fd }

/-- `h3_socket_close`. -/
def socketClose (fd : ℕ) (σ : Child) : Child := { σ with closed := σ.closed ++ [fd], starter := .finished }

/-- The next call in `h3_io_listen_start`. The last two failures tear the listener down. -/
def listenCall (ok : Bool) (stage : Stage) (fd : ℕ) (σ : Child) : Child :=
  match stage, ok with
  | .wakeup, true => { σ with starter := .starting .workerPool fd }
  | .workerPool, true => { σ with starter := .starting .engine fd }
  | .engine, true => { σ with childIo := true, starter := .starting .eventThread fd }
  | .eventThread, true => { σ with registered := true, starter := .finished }
  | .wakeup, false | .workerPool, false => { σ with starter := .failed fd }
  | .engine, false => { σ.teardown with starter := .failed fd }
  | .eventThread, false => { σ.teardown with childIo := false, starter := .failed fd }

/-- The answer of `h3_socket_open` to `h3_child_init` or to the acquirer. -/
def socketOpen (answer : OpenAnswer) (threadCreated : Bool) (σ : Child) : Child :=
  match answer, σ.acquirer with
  | .eagain, true => { σ with starter := .looping }
  | .eagain, false =>
    if threadCreated then { σ with acquirer := true, starter := .looping } else { σ with starter := .finished }
  | .failure, _ => { σ with starter := .finished }
  | .socket, true => { σ with opened := σ.opened + 1, starter := .opened σ.opened }
  | .socket, false => listenStart σ.opened { σ with opened := σ.opened + 1 }

/-- The main thread is out of `h3_child_init` and in no hook. -/
def mainFree (σ : Child) : Bool := (σ.acquirer || σ.starter == .finished) && σ.joining.isNone

/-- One action of a child that has its pool. -/
def act (σ : Child) : ChildAct → Option Child
  | .skip => if σ.starter = .opening ∧ σ.acquirer = false then some { σ with starter := .finished } else none
  | .socketOpen answer threadCreated =>
    if σ.starter = .opening then some (σ.socketOpen answer threadCreated) else none
  | .check => match σ.starter with
    | .looping => some { σ with starter := if σ.stopping then .finished else .opening }
    | .opened fd => some (if σ.stopping then socketClose fd σ else listenStart fd σ)
    | _ => none
  | .call ok => match σ.starter with
    | .starting stage fd => some (listenCall ok stage fd σ)
    | _ => none
  | .socketClose => match σ.starter with
    | .failed fd => some (socketClose fd σ)
    | _ => none
  | .stopping graceful =>
    if σ.mainFree then some { σ with stopping := true, joining := some graceful } else none
  | .joined => match σ.joining, σ.starter with
    | some graceful, .finished =>
      some { (if graceful then σ.listenDrain else σ.listenStop) with joining := none }
    | _, _ => none
  | .stopped => if σ.mainFree then some σ.listenStop else none
  | .preCleanup => if σ.mainFree ∧ σ.registered then some σ.listenStopCleanup else none
  | .poolDestroy => if σ.mainFree ∧ σ.registered = false then some σ.poolDestroy else none

def step (σ : Child) (a : ChildAct) : Option Child := if σ.pchild then σ.act a else none

/-- Neither the engine nor the event thread fails to be created. -/
def engineStarts (σ : Child) : ChildAct → Bool
  | .call false => match σ.starter with
    | .starting .engine _ | .starting .eventThread _ => false
    | _ => true
  | _ => true

/-- The cleanups of the pool find no descriptor that is closed already. -/
def leftToPool (σ : Child) : ChildAct → Bool
  | .poolDestroy => σ.closed.isEmpty
  | _ => true

/-- The descriptor that the listener has. -/
def ioFd (σ : Child) : List ℕ := (σ.io.bind (·.udpFd)).toList

/-- What may still be closed: by the thread that brings up the listener or, once that has handed
over its descriptor, through the listener. -/
def toClose (σ : Child) : List ℕ :=
  match σ.starter with
  | .looping | .opening => []
  | .opened fd | .failed fd => [fd]
  | .starting .eventThread _ => σ.ioFd
  | .starting _ fd => [fd]
  | .finished => if σ.childIo || σ.registered then σ.ioFd else []

end Child

/-- The listener is not reachable from outside `h3_io_listen_start`. -/
def Starter.inside : Starter → Bool
  | .starting .eventThread _ | .finished => false
  | _ => true

/-- Every descriptor is closed, or to be closed, once. -/
structure Child.Ledger (σ : Child) : Prop where
  nodup : (σ.closed ++ σ.toClose).Nodup
  bound : ∀ fd ∈ σ.closed ++ σ.toClose, fd < σ.opened
  unpublished : σ.starter.inside → σ.childIo = false ∧ σ.registered = false
  holds : ∀ stage fd, σ.starter = .starting stage fd → stage ≠ .eventThread → σ.io.bind (·.udpFd) = some fd

namespace Child

variable {σ σ' : Child}

private theorem ledger_start : start.Ledger := by
  refine ⟨List.nodup_nil, ?_, fun _ => ⟨rfl, rfl⟩, ?_⟩
  · intro fd hfd
    cases hfd
  · intro stage fd h
    cases h

private theorem teardown_closed (σ : Child) : σ.teardown.closed = σ.closed ++ σ.ioFd := by
  unfold teardown ioFd
  cases σ.io with
  | none => simp
  | some io => rfl

private theorem teardown_ioFd (σ : Child) : σ.teardown.ioFd = [] := by
  unfold teardown ioFd
  cases hio : σ.io with
  | none => simp [hio]
  | some io => rfl

theorem Ledger.outside (h : σ.Ledger) (hpub : (σ.childIo || σ.registered) = true) : σ.starter.inside = false := by
  by_contra hin
  obtain ⟨hc, hr⟩ := h.unpublished (Bool.not_eq_false _ ▸ hin)
  rw [hc, hr] at hpub
  cases hpub

/-- What is to be closed is with the listener, once others can reach it. -/
theorem toClose_outside (hout : σ.starter.inside = false) :
    σ.toClose = σ.ioFd ∨ σ.toClose = [] ∧ σ.childIo = false ∧ σ.registered = false := by
  cases hs : σ.starter with
  | starting stage fd =>
    cases stage with
    | eventThread => simp [toClose, hs]
    | _ => simp [hs, Starter.inside] at hout
  | finished =>
    cases hpub : σ.childIo || σ.registered with
    | true => simp [toClose, hs, hpub]
    | false =>
      have hfree := Bool.or_eq_false_iff.mp hpub
      simp [toClose, hs, hfree]
  | _ => simp [hs, Starter.inside] at hout

theorem Ledger.toClose_published (h : σ.Ledger) (hpub : (σ.childIo || σ.registered) = true) :
    σ.toClose = σ.ioFd := by
  rcases toClose_outside (h.outside hpub) with heq | ⟨-, hc, hr⟩
  · exact heq
  · rw [hc, hr] at hpub
    cases hpub

/-- Nothing new is to be closed. -/
theorem Ledger.of_sublist (h : σ.Ledger) (hsub : (σ'.closed ++ σ'.toClose).Sublist (σ.closed ++ σ.toClose))
    (hopened : σ'.opened = σ.opened)
    (hun : σ'.starter.inside → σ'.childIo = false ∧ σ'.registered = false)
    (hheld : ∀ stage fd, σ'.starter = .starting stage fd → stage ≠ .eventThread →
      σ'.io.bind (·.udpFd) = some fd) : σ'.Ledger where
  nodup := h.nodup.sublist hsub
  bound := fun fd hfd => hopened ▸ h.bound fd (hsub.subset hfd)
  unpublished := hun
  holds := hheld

/-- The thread moves on without having a descriptor. -/
theorem Ledger.turn (h : σ.Ledger) (hin : σ.starter.inside) {s : Starter}
    (hs : s = .looping ∨ s = .opening ∨ s = .finished) (acquirer : Bool) :
    ({ σ with starter := s, acquirer := acquirer } : Child).Ledger := by
  have hun := h.unpublished hin
  have hnone : ({ σ with starter := s, acquirer := acquirer } : Child).toClose = [] := by
    rcases hs with rfl | rfl | rfl
    · rfl
    · rfl
    · simp [toClose, hun]
  refine h.of_sublist ?_ rfl (fun _ => hun) ?_
  · rw [hnone]
    exact List.Sublist.append_left (List.nil_sublist _) _
  · intro stage fd heq
    rcases hs with rfl | rfl | rfl <;> cases heq

/-- A new descriptor. -/
theorem Ledger.open (h : σ.Ledger) (hs : σ.starter = .opening) :
    ({ σ with opened := σ.opened + 1, starter := .opened σ.opened } : Child).Ledger := by
  have hclosed : ∀ fd ∈ σ.closed, fd < σ.opened := fun fd hfd => h.bound fd (List.mem_append_left _ hfd)
  have hnodup : σ.closed.Nodup := h.nodup.sublist (List.sublist_append_left _ _)
  refine ⟨?_, ?_, fun _ => h.unpublished (by rw [hs]; rfl), ?_⟩
  · change (σ.closed ++ [σ.opened]).Nodup
    refine hnodup.append (List.nodup_singleton _) ?_
    intro fd hfd hnew
    have hlt := hclosed fd hfd
    have heq := List.mem_singleton.mp hnew
    omega
  · intro fd hfd
    change fd < σ.opened + 1
    rcases List.mem_append.mp hfd with hfd | hfd
    · have hlt := hclosed fd hfd
      omega
    · have heq := List.mem_singleton.mp hfd
      omega
  · intro stage fd heq
    cases heq

/-- The descriptor goes from the thread to the listener that it makes. -/
theorem Ledger.listenStart {fd : ℕ} (h : σ.Ledger) (hs : σ.starter = .opened fd) : (σ.listenStart fd).Ledger := by
  have hsame : (σ.listenStart fd).toClose = σ.toClose := by simp [toClose, Child.listenStart, hs]
  refine h.of_sublist ?_ rfl (fun _ => h.unpublished (by rw [hs]; rfl)) ?_
  · rw [hsame]
    exact List.Sublist.refl _
  · intro stage fd' heq _
    cases heq
    rfl

theorem Ledger.socketOpen (h : σ.Ledger) (hs : σ.starter = .opening) (answer : OpenAnswer) (threadCreated : Bool) :
    (σ.socketOpen answer threadCreated).Ledger := by
  have hin : σ.starter.inside = true := by
    rw [hs]
    rfl
  unfold Child.socketOpen
  split
  · exact h.turn hin (.inl rfl) _
  · split_ifs
    · exact h.turn hin (.inl rfl) _
    · exact h.turn hin (.inr (.inr rfl)) _
  · exact h.turn hin (.inr (.inr rfl)) _
  · exact h.open hs
  · exact (h.open hs).listenStart rfl

/-- The thread closes the descriptor that it has. -/
theorem Ledger.socketClose {fd : ℕ} (h : σ.Ledger) (hs : σ.starter = .opened fd ∨ σ.starter = .failed fd) :
    (σ.socketClose fd).Ledger := by
  have hin : σ.starter.inside = true := by rcases hs with hs | hs <;> rw [hs] <;> rfl
  have hhas : σ.toClose = [fd] := by rcases hs with hs | hs <;> simp [toClose, hs]
  have hun := h.unpublished hin
  have hnone : (σ.socketClose fd).toClose = [] := by simp [toClose, Child.socketClose, hun]
  refine h.of_sublist ?_ rfl (fun _ => hun) ?_
  · rw [hnone, hhas, List.append_nil]
    exact List.Sublist.refl _
  · intro stage fd' heq
    cases heq

/-- Nothing is added while others can reach the listener. -/
theorem Ledger.shrink (h : σ.Ledger) (hpub : (σ.childIo || σ.registered) = true)
    (hstarter : σ'.starter = σ.starter) (hopened : σ'.opened = σ.opened)
    (hfds : (σ'.closed ++ σ'.ioFd).Sublist (σ.closed ++ σ.ioFd)) : σ'.Ledger := by
  have hout : σ'.starter.inside = false := by
    rw [hstarter]
    exact h.outside hpub
  refine h.of_sublist ?_ hopened ?_ ?_
  · rw [h.toClose_published hpub]
    refine List.Sublist.trans ?_ hfds
    rcases toClose_outside hout with heq | ⟨hnil, -⟩
    · rw [heq]
    · rw [hnil]
      exact List.Sublist.append_left (List.nil_sublist _) _
  · intro hin
    rw [hout] at hin
    cases hin
  · intro stage fd hs hne
    rw [hs] at hout
    cases stage with
    | eventThread => exact absurd rfl hne
    | _ => cases hout

/-- Stopping closes the descriptor of the listener. -/
theorem Ledger.teardown (h : σ.Ledger) (hpub : (σ.childIo || σ.registered) = true)
    (hstarter : σ'.starter = σ.starter) (hopened : σ'.opened = σ.opened) (hio : σ'.io = σ.teardown.io)
    (hclosed : σ'.closed = σ.teardown.closed) : σ'.Ledger := by
  have hnone : σ'.ioFd = [] := by
    have hfd := teardown_ioFd σ
    unfold ioFd at hfd ⊢
    rw [hio]
    exact hfd
  refine h.shrink hpub hstarter hopened ?_
  rw [hclosed, teardown_closed, hnone, List.append_nil]

theorem teardown_frame (σ : Child) :
    σ.teardown.starter = σ.starter ∧ σ.teardown.opened = σ.opened ∧ σ.teardown.registered = σ.registered := by
  unfold Child.teardown
  cases σ.io <;> exact ⟨rfl, rfl, rfl⟩

theorem Ledger.listenStop (h : σ.Ledger) : σ.listenStop.Ledger := by
  unfold Child.listenStop
  split_ifs with hc
  · obtain ⟨hs, ho, -⟩ := teardown_frame σ
    exact h.teardown (by rw [hc]; rfl) hs ho rfl rfl
  · exact h

theorem Ledger.listenDrain (h : σ.Ledger) : σ.listenDrain.Ledger := by
  unfold Child.listenDrain
  split_ifs with hc
  · refine h.shrink (by rw [hc]; rfl) rfl rfl ?_
    have hfd : ({ σ with io := σ.io.map fun io => { io with draining := true } } : Child).ioFd = σ.ioFd := by
      unfold ioFd
      cases σ.io <;> rfl
    rw [hfd]
  · exact h

theorem Ledger.listenStopCleanup (h : σ.Ledger) (hr : σ.registered = true) : σ.listenStopCleanup.Ledger := by
  have hpub : (σ.childIo || σ.registered) = true := by
    rw [hr]
    exact Bool.or_true _
  unfold Child.listenStopCleanup
  split_ifs
  · obtain ⟨hs, ho, -⟩ := teardown_frame σ
    exact h.teardown hpub hs ho rfl rfl
  · exact h.shrink hpub rfl rfl (List.Sublist.refl _)

/-- The thread keeps the descriptor from one call to the next. -/
theorem Ledger.keepFd (h : σ.Ledger) {stage : Stage} {fd : ℕ} (hs : σ.starter = .starting stage fd)
    (hne : stage ≠ .eventThread) {s : Starter}
    (hs' : s = .starting .workerPool fd ∨ s = .starting .engine fd ∨ s = .failed fd) :
    ({ σ with starter := s } : Child).Ledger := by
  have hin : σ.starter.inside = true := by
    rw [hs]
    cases stage with
    | eventThread => exact absurd rfl hne
    | _ => rfl
  have hhas : σ.toClose = [fd] := by
    cases stage with
    | eventThread => exact absurd rfl hne
    | _ => simp [toClose, hs]
  have hstill : ({ σ with starter := s } : Child).toClose = [fd] := by
    rcases hs' with rfl | rfl | rfl <;> rfl
  refine h.of_sublist ?_ rfl (fun _ => h.unpublished hin) ?_
  · rw [hhas, hstill]
  · intro stage' fd' heq _
    have hfd : fd' = fd := by rcases hs' with rfl | rfl | rfl <;> cases heq <;> rfl
    rw [hfd]
    exact h.holds stage fd hs hne

/-- Publishing hands the descriptor over to the listener. -/
theorem Ledger.publish (h : σ.Ledger) {fd : ℕ} (hs : σ.starter = .starting .engine fd) :
    ({ σ with childIo := true, starter := .starting .eventThread fd } : Child).Ledger := by
  have hio : σ.ioFd = [fd] := by
    unfold ioFd
    rw [h.holds .engine fd hs nofun]
    rfl
  have hhas : σ.toClose = [fd] := by simp [toClose, hs]
  refine h.of_sublist ?_ rfl nofun ?_
  · change (σ.closed ++ σ.ioFd).Sublist _
    rw [hio, hhas]
  · intro stage' fd' heq hne
    cases heq
    exact absurd rfl hne

theorem Ledger.register (h : σ.Ledger) {fd : ℕ} (hs : σ.starter = .starting .eventThread fd) :
    ({ σ with registered := true, starter := .finished } : Child).Ledger := by
  have hhas : σ.toClose = σ.ioFd := by simp [toClose, hs]
  have hstill : ({ σ with registered := true, starter := .finished } : Child).toClose = σ.ioFd := by
    simp [toClose, ioFd]
  refine h.of_sublist ?_ rfl nofun ?_
  · rw [hhas, hstill]
  · intro stage' fd' heq
    cases heq

/-- One call of `h3_io_listen_start`. -/
theorem Ledger.listenCall (h : σ.Ledger) {stage : Stage} {fd : ℕ} (hs : σ.starter = .starting stage fd) {ok : Bool}
    (hok : σ.engineStarts (.call ok)) : (listenCall ok stage fd σ).Ledger := by
  cases ok with
  | true =>
    cases stage with
    | wakeup => exact h.keepFd hs nofun (.inl rfl)
    | workerPool => exact h.keepFd hs nofun (.inr (.inl rfl))
    | engine => exact h.publish hs
    | eventThread => exact h.register hs
  | false =>
    unfold engineStarts at hok
    rw [hs] at hok
    cases stage with
    | wakeup => exact h.keepFd hs nofun (.inr (.inr rfl))
    | workerPool => exact h.keepFd hs nofun (.inr (.inr rfl))
    | engine => cases hok
    | eventThread => cases hok

theorem Ledger.act (h : σ.Ledger) {a : ChildAct} (hok : σ.engineStarts a) (hpool : a ≠ .poolDestroy)
    (hstep : σ.act a = some σ') : σ'.Ledger := by
  cases a with
  | skip =>
    simp only [Child.act] at hstep
    split_ifs at hstep with hopen
    cases hstep
    exact h.turn (by rw [hopen.1]; rfl) (.inr (.inr rfl)) _
  | socketOpen answer threadCreated =>
    simp only [Child.act] at hstep
    split_ifs at hstep with hopen
    cases hstep
    exact h.socketOpen hopen answer threadCreated
  | check =>
    simp only [Child.act] at hstep
    split at hstep
    · rename_i hs
      cases hstep
      refine h.turn (by rw [hs]; rfl) ?_ _
      split_ifs
      · exact .inr (.inr rfl)
      · exact .inr (.inl rfl)
    · rename_i fd hs
      cases hstep
      split_ifs
      · exact h.socketClose (.inl hs)
      · exact h.listenStart hs
    · cases hstep
  | call ok =>
    simp only [Child.act] at hstep
    split at hstep
    · rename_i stage fd hs
      cases hstep
      exact h.listenCall hs hok
    · cases hstep
  | socketClose =>
    simp only [Child.act] at hstep
    split at hstep
    · rename_i fd hs
      cases hstep
      exact h.socketClose (.inr hs)
    · cases hstep
  | stopping graceful =>
    simp only [Child.act] at hstep
    split_ifs at hstep
    cases hstep
    exact ⟨h.nodup, h.bound, h.unpublished, h.holds⟩
  | joined =>
    simp only [Child.act] at hstep
    split at hstep
    · rename_i graceful _ _
      cases hstep
      cases graceful with
      | true => exact ⟨h.listenDrain.nodup, h.listenDrain.bound, h.listenDrain.unpublished, h.listenDrain.holds⟩
      | false => exact ⟨h.listenStop.nodup, h.listenStop.bound, h.listenStop.unpublished, h.listenStop.holds⟩
    · cases hstep
  | stopped =>
    simp only [Child.act] at hstep
    split_ifs at hstep
    cases hstep
    exact h.listenStop
  | preCleanup =>
    simp only [Child.act] at hstep
    split_ifs at hstep with hreg
    cases hstep
    exact h.listenStopCleanup hreg.2
  | poolDestroy => exact absurd rfl hpool

/-- The pool closes every socket once. -/
private theorem poolDestroy_nodup (hclosed : σ.closed = []) : σ.poolDestroy.closed.Nodup := by
  unfold poolDestroy
  rw [hclosed]
  exact List.nodup_range

/-- One step, before and at the end of the pool. -/
theorem Ledger.step (h : σ.Ledger) {a : ChildAct} (hok : (σ.engineStarts a && σ.leftToPool a) = true)
    (hstep : σ.step a = some σ') : σ'.closed.Nodup ∧ (σ'.pchild = true → σ'.Ledger) := by
  obtain ⟨hstarts, hleft⟩ := Bool.and_eq_true_iff.mp hok
  obtain ⟨-, hact⟩ := Option.ite_none_right_eq_some.mp hstep
  by_cases ha : a = .poolDestroy
  · subst ha
    obtain ⟨-, hact⟩ := Option.ite_none_right_eq_some.mp hact
    cases hact
    exact ⟨poolDestroy_nodup (List.isEmpty_iff.mp hleft), fun hc => by cases hc⟩
  · have hledger := h.act hstarts ha hact
    exact ⟨hledger.nodup.sublist (List.sublist_append_left _ _), fun _ => hledger⟩

/-- When neither the engine nor the event thread fails to be created, and the module has closed none of its
descriptors when the pool is destroyed, every descriptor that `h3_socket_open` returned is passed to the OS
close at most once. -/
theorem descriptor_closed_once (h : Reach step (fun σ a => σ.engineStarts a && σ.leftToPool a) start σ) :
    σ.closed.Nodup := by
  have hinv : σ.closed.Nodup ∧ (σ.pchild = true → σ.Ledger) := by
    refine h.invariant (I := fun σ => σ.closed.Nodup ∧ (σ.pchild = true → σ.Ledger))
      ⟨List.nodup_nil, fun _ => ledger_start⟩ ?_
    intro σ a σ' hi hok hs
    exact (hi.2 (Option.ite_none_right_eq_some.mp hs).1).step hok hs
  exact hinv.1

/-- The port is found on a retry; a graceful stop, the stopped hook and the cleanup follow. -/
def gracefulLife : List ChildAct :=
  [.socketOpen .eagain true, .check, .socketOpen .eagain true, .check, .socketOpen .socket true, .check, .call true,
    .call true, .call true, .call true, .stopping true, .joined, .stopped, .preCleanup]

/-- The listener of a child that is ended without hooks. -/
def endedByPool : List ChildAct :=
  [.socketOpen .socket true, .call true, .call true, .call true, .call true, .preCleanup, .poolDestroy]

theorem descriptor_closed_once_graceful :
    (∃ σ, Reach step (fun σ a => σ.engineStarts a && σ.leftToPool a) start σ ∧ σ.closed = [0] ∧ σ.pchild = true ∧
      σ.closed.Nodup) ∧
    ∃ σ, Reach step (fun σ a => σ.engineStarts a && σ.leftToPool a) start σ ∧ σ.closed = [0] ∧ σ.pchild = false ∧
      σ.closed.Nodup := by
  have hrun : (runChecked step (fun σ a => σ.engineStarts a && σ.leftToPool a) start gracefulLife).map
      (fun σ => (σ.closed, σ.pchild)) = some ([0], true) := by decide
  have hended : (runChecked step (fun σ a => σ.engineStarts a && σ.leftToPool a) start endedByPool).map
      (fun σ => (σ.closed, σ.pchild)) = some ([0], false) := by decide
  obtain ⟨σ, hσ, hvals⟩ := Option.map_eq_some_iff.mp hrun
  obtain ⟨τ, hτ, hvals'⟩ := Option.map_eq_some_iff.mp hended
  obtain ⟨hclosed, hpool⟩ := Prod.mk.inj hvals
  obtain ⟨hclosed', hpool'⟩ := Prod.mk.inj hvals'
  have hr := Reach.of_runChecked _ hσ
  have hr' := Reach.of_runChecked _ hτ
  exact ⟨⟨σ, hr, hclosed, hpool, descriptor_closed_once hr⟩, τ, hr', hclosed', hpool', descriptor_closed_once hr'⟩

/-- When the engine is not created, teardown closes the descriptor and then the caller does. And after a graceful
stop that went well the pool closes it again. -/
theorem descriptor_closed_twice :
    (∃ σ, Reach step anyStep start σ ∧ σ.closed = [0, 0] ∧ σ.pchild = true) ∧
    ∃ σ, Reach step (fun σ a => σ.engineStarts a) start σ ∧ σ.closed = [0, 0] ∧ σ.pchild = false := by
  have hrun : (runActions step start
      [.socketOpen .socket true, .call true, .call true, .call false, .socketClose]).map
        (fun σ => (σ.closed, σ.pchild)) = some ([0, 0], true) := by
    decide
  have hlife : (runChecked step (fun σ a => σ.engineStarts a) start (gracefulLife ++ [.poolDestroy])).map
      (fun σ => (σ.closed, σ.pchild)) = some ([0, 0], false) := by
    decide
  obtain ⟨σ, hσ, hvals⟩ := Option.map_eq_some_iff.mp hrun
  obtain ⟨τ, hτ, hvals'⟩ := Option.map_eq_some_iff.mp hlife
  obtain ⟨hclosed, hpool⟩ := Prod.mk.inj hvals
  obtain ⟨hclosed', hpool'⟩ := Prod.mk.inj hvals'
  exact ⟨⟨σ, Reach.of_runActions _ hσ, hclosed, hpool⟩, τ, Reach.of_runChecked _ hτ, hclosed', hpool'⟩

end Child

end ModHttp3.Process
