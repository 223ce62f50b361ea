import ModHttp3.System.Machine
import ModHttp3.Session.Change

/-! What a step of the system can be. Invariants are proved by cases on `Move`, not on the
step function. -/
namespace ModHttp3.System
open Session

/-- The event thread stands between two calls: no drain or flush is running, and no task is
being pushed. -/
def EventPc.between : EventPc → Bool
  | .opening | .destroyed | .pushing _ _ => false
  | .drain _ pc => pc == .returned
  | .flush _ pc => pc == .returned
  | _ => true

/-- Where a plain turn of the event thread may lead. -/
def EventPc.afterTurn : EventPc → Bool
  | .opening | .opened | .destroyed | .pushing _ _ | .drain _ _ => false
  | _ => true

/-- The completed requests that the event thread has yet to pass to `h3_process_request`. -/
def EventPc.completed : EventPc → List ℤ
  | .drain d _ => d.completed
  | .flush (.drained completed) _ | .deadCheck completed | .dispatch completed => completed
  | .pushing _ rest => rest
  | _ => []

/-- Which places follow one another in the event thread. -/
inductive EventPc.Leads : EventPc → EventPc → Prop
  | opened : Leads .opening .opened
  | notOpened : Leads .opening .destroyed
  | spawned : Leads .opened .passStart
  | notSpawned : Leads .opened .destroyed
  | aborted : Leads .passStart .passEnd
  | stopping {pc : FlushPc} : Leads .passStart (.flush .goaway pc)
  | running : Leads .passStart .connCheck
  | inFlush {origin : FlushFrom} {pc pc' : FlushPc} : Leads (.flush origin pc) (.flush origin pc')
  | goawayFlushed : Leads (.flush .goaway .returned) .goawaySent
  | shutdownFlushed : Leads (.flush .shutdown .returned) .passEnd
  | drainFlushed {completed : List ℤ} : Leads (.flush (.drained completed) .returned) (.deadCheck completed)
  | passFlushed : Leads (.flush .passEnd .returned) .idleCheck
  | finishing {pc : FlushPc} : Leads .goawaySent (.flush .shutdown pc)
  | unfinished : Leads .goawaySent .connCheck
  | connClosed : Leads .connCheck .passEnd
  | connOpen : Leads .connCheck .accepting
  | accepted : Leads .accepting .accepting
  | noMore {d : Drain} : Leads .accepting (.drain d .scan)
  | inDrain {d d' : Drain} {pc pc' : DrainPc} : Leads (.drain d pc) (.drain d' pc')
  | drained {d : Drain} {pc : FlushPc} : Leads (.drain d .returned) (.flush (.drained d.completed) pc)
  | dead {completed : List ℤ} : Leads (.deadCheck completed) .passEnd
  | alive {completed : List ℤ} : Leads (.deadCheck completed) (.dispatch completed)
  | skipped {sid : ℤ} {rest : List ℤ} : Leads (.dispatch (sid :: rest)) (.dispatch rest)
  | reserved {sid : ℤ} {rest : List ℤ} {i : ℕ} : Leads (.dispatch (sid :: rest)) (.pushing i rest)
  | dispatched {pc : FlushPc} : Leads (.dispatch []) (.flush .passEnd pc)
  | inPush {i : ℕ} {rest : List ℤ} : Leads (.pushing i rest) (.pushing i rest)
  | pushed {i : ℕ} {rest : List ℤ} : Leads (.pushing i rest) (.dispatch rest)
  | checked : Leads .idleCheck .passEnd
  | ended : Leads .passEnd .destroyed
  | nextPass : Leads .passEnd .passStart

/-- The session has its control streams and is not destroyed: passes run on it. -/
def EventPc.inService : EventPc → Bool
  | .opening | .opened | .destroyed => false
  | _ => true

/-- Only the flags of the session that the event thread itself sets have changed. -/
def SetsFlags (s s' : H3Session) : Prop :=
  s' = s ∨ s' = { s with aborted := true } ∨ s' = { s with goawaySent := true }

/-- What `h3_process_request` does with a reserved stream, one statement at a time. -/
inductive Push (s : H3Session) (t : Task) : Answer → H3Session → Phase → Bool → Prop
  | count (hq : t.phase = .reserved) :
      Push s t (.flag true) { s with activeTasks := s.activeTasks + 1 } .counted false
  | noPool (hq : t.phase = .reserved) : Push s t (.flag false) s .poolFailed false
  | queue (hq : t.phase = .counted) : Push s t (.flag true) s .queued true
  | noThread (hq : t.phase = .counted) : Push s t (.flag false) s .pushFailed false
  | undo (hq : t.phase = .poolFailed) :
      Push s t .go (s.setStreamDispatched t.sid false) .dropped true
  | unreserve (hq : t.phase = .pushFailed) :
      Push s t .go (s.setStreamDispatched t.sid false) .pushUnreserved false
  | uncount (hq : t.phase = .pushUnreserved) :
      Push s t .go { s with activeTasks := s.activeTasks - 1 } .dropped true

/-- What `stream_worker` does, one statement at a time. -/
inductive Work (s : H3Session) (free : Bool) (t : Task) : WorkerAct → H3Session → Phase → Prop
  | begin (hq : t.phase = .queued) : Work s free t .go s .creating
  | created (yes : Bool) (hq : t.phase = .creating) :
      Work s free t (.flag yes) s (if yes then .building else .gaveUp)
  | built (yes : Bool) (hq : t.phase = .building) :
      Work s free t (.flag yes) s (if yes then .processing else .gaveUp)
  | respond (call : RespondCall) (hq : t.phase = .processing) (hfree : free = true) :
      Work s free t (.respond call) (s.modify t.sid (H3Stream.respond s.flags.gone call)) .processing
  | unreserve (hq : t.phase = .gaveUp) (hfree : free = true) :
      Work s free t .go (s.setStreamDispatched t.sid false) .unreserved
  | release (hq : t.phase = .unreserved) :
      Work s free t .go { s with activeTasks := s.activeTasks - 1 } .released
  | answered (hq : t.phase = .processing) : Work s free t .go s .marking
  | mark (hq : t.phase = .marking) (hfree : free = true) :
      Work s free t .go (s.modify t.sid fun o => { o with workerDone := true }) .marked
  | leave (hq : t.phase = .marked) :
      Work s free t .go { s with activeTasks := s.activeTasks - 1 } .exited

theorem pushStep_push {s s' : H3Session} {t : Task} {a : Answer} {p : Phase} {back : Bool}
    (h : pushStep s t a = some (s', p, back)) : Push s t a s' p back := by
  unfold pushStep at h
  split at h
  · rename_i yes
    split at h
    · rename_i hq
      cases yes <;> cases h
      · exact .noPool hq
      · exact .count hq
    · rename_i hq
      cases yes <;> cases h
      · exact .noThread hq
      · exact .queue hq
    · cases h
  · split at h
    · rename_i hq
      cases h
      exact .undo hq
    · rename_i hq
      cases h
      exact .unreserve hq
    · rename_i hq
      cases h
      exact .uncount hq
    · cases h
  · cases h

theorem workerStep_work {s s' : H3Session} {free : Bool} {t : Task} {w : WorkerAct} {p : Phase}
    (h : workerStep s free t w = some (s', p)) : Work s free t w s' p := by
  unfold workerStep at h
  split at h
  · rename_i yes
    split at h
    · rename_i hq
      cases h
      exact .created yes hq
    · rename_i hq
      cases h
      exact .built yes hq
    · cases h
  · split_ifs at h with hq
    cases h
    exact .respond _ hq.1 hq.2
  · split at h
    · rename_i hq
      cases h
      exact .begin hq
    · rename_i hq
      split_ifs at h with hfree
      cases h
      exact .unreserve hq hfree
    · rename_i hq
      cases h
      exact .release hq
    · rename_i hq
      cases h
      exact .answered hq
    · rename_i hq
      split_ifs at h with hfree
      cases h
      exact .mark hq hfree
    · rename_i hq
      cases h
      exact .leave hq
    · cases h

inductive Move (conf : SessionConf) (σ : State) : Action → State → Prop
  | opened {opened : List (Option (ℤ × Handle))} {bound : Bool} {created : List Bool}
      (hpc : σ.pc = .opening) (hans : σ.session.controlAnswer opened created)
      (hall : (σ.session.createControlStreams opened bound created).2 = true) :
      Move conf σ (.event (.control opened bound created))
        ⟨(σ.session.createControlStreams opened bound created).1, .opened, σ.tasks⟩
  | openFailed {opened : List (Option (ℤ × Handle))} {bound : Bool} {created : List Bool}
      (hpc : σ.pc = .opening) (hans : σ.session.controlAnswer opened created)
      (hall : (σ.session.createControlStreams opened bound created).2 = false) :
      Move conf σ (.event (.control opened bound created))
        ⟨(σ.session.createControlStreams opened bound created).1.destroy, .destroyed, σ.tasks⟩
  | destroyed {a : Answer}
      (hpc : σ.pc = .opened ∨ σ.pc = .passEnd ∧ σ.session.activeTasks = 0) :
      Move conf σ (.event a) ⟨σ.session.destroy, .destroyed, σ.tasks⟩
  | turn {a : Answer} {s : H3Session} {pc : EventPc} (hpc : σ.pc.between) (hpc' : pc.afterTurn)
      (hs : SetsFlags σ.session s) (hc : pc.completed ⊆ σ.pc.completed) :
      Move conf σ (.event a) ⟨s, pc, σ.tasks⟩
  | accepted {h : Handle} {sid : ℤ} {created : Bool} (hpc : σ.pc = .accepting)
      (hans : σ.session.acceptAnswer h sid) :
      Move conf σ (.event (.accepted h sid created))
        { σ with session := σ.session.acceptStream h sid created }
  | drainStart {order : List ℤ} (hpc : σ.pc = .accepting) (horder : order.Perm σ.session.streams) :
      Move conf σ (.event (.noMore order))
        { σ with pc := .drain (.new order σ.session.streamDrainCursor) .scan }
  | drain {a : Answer} {d d' : Drain} {pc pc' : DrainPc} {s : H3Session} (hpc : σ.pc = .drain d pc)
      (hd : drainStep conf σ.session d pc a = some (s, d', pc')) :
      Move conf σ (.event a) ⟨s, .drain d' pc', σ.tasks⟩
  | flush {a : Answer} {origin : FlushFrom} {pc pc' : FlushPc} {s : H3Session}
      (hpc : σ.pc = .flush origin pc) (hf : flushStep conf σ.session pc a = some (s, pc')) :
      Move conf σ (.event a) ⟨s, .flush origin pc', σ.tasks⟩
  | abandon {sids : List ℤ} (hpc : σ.pc = .flush .passEnd .returned) :
      Move conf σ (.event (.stalled sids))
        ⟨σ.session.abandonStalledResponses sids, .idleCheck, σ.tasks⟩
  | reserved {a : Answer} {sid : ℤ} {rest : List ℤ} (hpc : σ.pc = .dispatch (sid :: rest))
      (hfree : σ.session.has sid (·.dispatched) = false) :
      Move conf σ (.event a) ⟨σ.session.setStreamDispatched sid true, .pushing σ.tasks.length rest,
        σ.tasks ++ [⟨sid, .reserved⟩]⟩
  | push {a : Answer} {i : ℕ} {rest : List ℤ} {t : Task} {s : H3Session} {p : Phase} {back : Bool}
      (hpc : σ.pc = .pushing i rest) (ht : σ.tasks[i]? = some t)
      (hp : pushStep σ.session t a = some (s, p, back)) :
      Move conf σ (.event a)
        ⟨s, if back then .dispatch rest else .pushing i rest, σ.tasks.set i ⟨t.sid, p⟩⟩
  | worker {i : ℕ} {w : WorkerAct} {t : Task} {s : H3Session} {p : Phase}
      (ht : σ.tasks[i]? = some t)
      (hw : workerStep σ.session (!σ.pc.holdsLock) t w = some (s, p)) :
      Move conf σ (.worker i w) ⟨s, σ.pc, σ.tasks.set i ⟨t.sid, p⟩⟩

variable {conf : SessionConf} {σ σ' : State} {a : Answer}

theorem turn_from {pc₀ pc : EventPc} {s : H3Session} (hpc : σ.pc = pc₀) (hb : pc₀.between)
    (hpc' : pc.afterTurn) (hs : SetsFlags σ.session s) (hc : pc.completed ⊆ pc₀.completed) :
    Move conf σ (.event a) ⟨s, pc, σ.tasks⟩ := by
  subst hpc
  exact .turn hb hpc' hs hc

private theorem flushed_move {origin : FlushFrom} (hpc : σ.pc = .flush origin .returned)
    (h : σ.flushed origin a = some σ') : Move conf σ (.event a) σ' := by
  unfold State.flushed at h
  split at h
  · cases h
    exact turn_from hpc rfl rfl (.inr (.inr rfl)) nofun
  · cases h
    exact turn_from hpc rfl rfl (.inr (.inl rfl)) nofun
  · cases h
    exact turn_from hpc rfl rfl (.inl rfl) (List.Subset.refl _)
  · split at h
    · cases h
      exact .abandon hpc
    · cases h
  · cases h

private theorem reserve_move {sid : ℤ} {rest : List ℤ} (hpc : σ.pc = .dispatch (sid :: rest)) :
    Move conf σ (.event a) (σ.reserve sid rest) := by
  unfold State.reserve
  split
  · exact turn_from hpc rfl rfl (.inl rfl) (List.subset_cons_self _ _)
  · rename_i hd
    exact .reserved hpc (Bool.not_eq_true _ ▸ hd)

private theorem eventStep_move (h : σ.eventStep conf a = some σ') : Move conf σ (.event a) σ' := by
  unfold State.eventStep at h
  split at h
  · rename_i hpc
    split at h
    · rename_i hans
      dsimp only at h
      split at h
      · rename_i hall
        cases h
        exact .opened hpc hans hall
      · rename_i hall
        cases h
        exact .openFailed hpc hans (Bool.not_eq_true _ ▸ hall)
    · cases h
  · rename_i hpc
    split at h
    · cases h
      exact turn_from hpc rfl rfl (.inl rfl) nofun
    · cases h
      exact .destroyed (.inl hpc)
  · rename_i hpc
    split_ifs at h <;> cases h <;> exact turn_from hpc rfl rfl (.inl rfl) nofun
  · rename_i hpc
    exact flushed_move hpc h
  · rename_i hpc
    obtain ⟨⟨s, pc'⟩, hf, he⟩ := Option.map_eq_some_iff.mp h
    cases he
    exact .flush hpc hf
  · rename_i hpc
    split_ifs at h <;> cases h <;> exact turn_from hpc rfl rfl (.inl rfl) nofun
  · rename_i hpc
    split_ifs at h
    · cases h
      exact turn_from hpc rfl rfl (.inr (.inl rfl)) nofun
    · cases h
      exact turn_from hpc rfl rfl (.inl rfl) nofun
  · rename_i hpc
    cases h
    exact turn_from hpc rfl rfl (.inl rfl) nofun
  · rename_i hpc
    split_ifs at h with hans
    cases h
    exact .accepted hpc hans
  · rename_i hpc
    split_ifs at h with horder
    cases h
    exact .drainStart hpc (List.isPerm_iff.mp horder)
  · rename_i hpc
    cases h
    exact turn_from hpc rfl rfl (.inl rfl) (List.Subset.refl _)
  · rename_i hpc _
    obtain ⟨⟨s, d', pc'⟩, hd, he⟩ := Option.map_eq_some_iff.mp h
    cases he
    exact .drain hpc hd
  · rename_i hpc
    split_ifs at h
    · cases h
      exact turn_from hpc rfl rfl (.inr (.inl rfl)) nofun
    · cases h
      exact turn_from hpc rfl rfl (.inl rfl) (List.Subset.refl _)
  · rename_i hpc
    cases h
    exact reserve_move hpc
  · rename_i hpc
    cases h
    exact turn_from hpc rfl rfl (.inl rfl) nofun
  · rename_i hpc
    obtain ⟨t, ht, h⟩ := Option.bind_eq_some_iff.mp h
    obtain ⟨⟨s, p, back⟩, hp, h⟩ := Option.bind_eq_some_iff.mp h
    cases h
    exact .push hpc ht hp
  · rename_i hpc
    split_ifs at h
    · cases h
      exact turn_from hpc rfl rfl (.inr (.inl rfl)) nofun
    · cases h
      exact turn_from hpc rfl rfl (.inl rfl) nofun
  · rename_i hpc
    split_ifs at h with hdone
    · cases h
      simp only [Bool.and_eq_true, beq_iff_eq] at hdone
      exact .destroyed (.inr ⟨hpc, hdone.2⟩)
    · cases h
      exact turn_from hpc rfl rfl (.inl rfl) nofun
  · cases h

theorem step_move {act : Action} (h : σ.step conf act = some σ') : Move conf σ act σ' := by
  cases act with
  | event a => exact eventStep_move h
  | worker i w =>
    obtain ⟨t, ht, h⟩ := Option.bind_eq_some_iff.mp h
    obtain ⟨⟨s, p⟩, hw, h⟩ := Option.bind_eq_some_iff.mp h
    cases h
    exact .worker ht hw

private theorem flushed_leads {origin : FlushFrom} (h : σ.flushed origin a = some σ') :
    (EventPc.flush origin .returned).Leads σ'.pc := by
  unfold State.flushed at h
  split at h
  · cases h
    exact .goawayFlushed
  · cases h
    exact .shutdownFlushed
  · cases h
    exact .drainFlushed
  · split_ifs at h
    cases h
    exact .passFlushed
  · cases h

theorem eventStep_leads (h : σ.eventStep conf a = some σ') : σ.pc.Leads σ'.pc := by
  unfold State.eventStep at h
  split at h
  case h_1 hpc =>
    rw [hpc]
    dsimp only at h
    split_ifs at h <;> cases h
    · exact .opened
    · exact .notOpened
  case h_2 hpc =>
    rw [hpc]
    split_ifs at h <;> cases h
    · exact .spawned
    · exact .notSpawned
  case h_3 hpc =>
    rw [hpc]
    split_ifs at h <;> cases h
    · exact .aborted
    · exact .stopping
    · exact .running
  case h_4 hpc =>
    rw [hpc]
    exact flushed_leads h
  case h_5 hpc =>
    rw [hpc]
    obtain ⟨next, -, rfl⟩ := Option.map_eq_some_iff.mp h
    exact .inFlush
  case h_6 hpc =>
    rw [hpc]
    split_ifs at h <;> cases h
    · exact .finishing
    · exact .unfinished
  case h_7 hpc =>
    rw [hpc]
    split_ifs at h <;> cases h
    · exact .connClosed
    · exact .connOpen
  case h_8 hpc =>
    rw [hpc]
    cases h
    exact .connClosed
  case h_9 hpc =>
    split_ifs at h
    cases h
    dsimp only
    rw [hpc]
    exact .accepted
  case h_10 hpc =>
    rw [hpc]
    split_ifs at h
    cases h
    exact .noMore
  case h_11 hpc =>
    rw [hpc]
    cases h
    exact .drained
  case h_12 hpc _ =>
    rw [hpc]
    obtain ⟨next, -, rfl⟩ := Option.map_eq_some_iff.mp h
    exact .inDrain
  case h_13 hpc =>
    rw [hpc]
    split_ifs at h <;> cases h
    · exact .dead
    · exact .alive
  case h_14 hpc =>
    rw [hpc]
    cases h
    unfold State.reserve
    split_ifs
    · exact .skipped
    · exact .reserved
  case h_15 hpc =>
    rw [hpc]
    cases h
    exact .dispatched
  case h_16 hpc =>
    rw [hpc]
    obtain ⟨t, -, h⟩ := Option.bind_eq_some_iff.mp h
    obtain ⟨⟨s, p, back⟩, -, h⟩ := Option.bind_eq_some_iff.mp h
    cases h
    cases back
    · exact .inPush
    · exact .pushed
  case h_17 hpc =>
    rw [hpc]
    split_ifs at h <;> cases h <;> exact .checked
  case h_18 hpc =>
    rw [hpc]
    split_ifs at h <;> cases h
    · exact .ended
    · exact .nextPass
  case h_19 => cases h

/-- Until its pass ends a session stays in service, and no other pass begins. -/
theorem inService_leads {pc pc' : EventPc} (hl : pc.Leads pc') (hin : pc.inService = true) (hend : pc ≠ .passEnd) :
    pc'.inService = true ∧ pc' ≠ .passStart := by
  cases hl with
  | opened | notOpened | spawned | notSpawned => cases hin
  | ended | nextPass => exact absurd rfl hend
  | _ => exact ⟨rfl, nofun⟩

/-- In `flush_nghttp3` the event thread has just entered it or has made a step of it. -/
theorem eventStep_in_flush {origin : FlushFrom} {pc' : FlushPc} (h : σ.eventStep conf a = some σ')
    (hpc' : σ'.pc = .flush origin pc') :
    (∃ pc, σ.pc = .flush origin pc ∧ flushStep conf σ.session pc a = some (σ'.session, pc')) ∨
      pc' = σ.session.flushStart ∧ σ'.session = σ.session := by
  unfold State.eventStep at h
  split at h
  case h_1 =>
    split_ifs at h
    dsimp only at h
    split_ifs at h <;> cases h <;> cases hpc'
  case h_4 =>
    unfold State.flushed at h
    split at h
    case h_4 =>
      split_ifs at h
      cases h
      cases hpc'
    all_goals
      cases h
      try cases hpc'
  case h_5 hpc =>
    obtain ⟨⟨s, pc⟩, hf, rfl⟩ := Option.map_eq_some_iff.mp h
    cases hpc'
    exact .inl ⟨_, hpc, hf⟩
  case h_9 hpc =>
    split_ifs at h
    cases h
    cases hpc.symm.trans hpc'
  case h_12 =>
    obtain ⟨next, -, rfl⟩ := Option.map_eq_some_iff.mp h
    cases hpc'
  case h_14 =>
    cases h
    unfold State.reserve at hpc'
    split_ifs at hpc'
  case h_16 =>
    obtain ⟨t, -, h⟩ := Option.bind_eq_some_iff.mp h
    obtain ⟨⟨s, p, back⟩, -, h⟩ := Option.bind_eq_some_iff.mp h
    cases h
    cases back <;> cases hpc'
  -- elsewhere the next place is given outright
  all_goals
    try split_ifs at h
    all_goals
      cases h
      try cases hpc'
      try exact .inr ⟨rfl, rfl⟩

/-- Streams come to the list of completed requests when they are ready. -/
theorem completed_step {act : Action} (h : σ.step conf act = some σ') {sid : ℤ} (hsid : sid ∈ σ'.pc.completed) :
    sid ∈ σ.pc.completed ∨ σ.session.has sid (·.ready) := by
  cases step_move h with
  | opened hpc hans hall => cases hsid
  | openFailed hpc hans hall => cases hsid
  | destroyed hpc => cases hsid
  | turn hpc hpc' hs hc => exact .inl (hc hsid)
  | accepted hpc hans => exact .inl hsid
  | drainStart hpc horder => cases hsid
  | @drain a d d' pc pc' s hpc hd =>
    rw [hpc]
    change sid ∈ d'.completed at hsid
    obtain ⟨-, hcompleted | ⟨x, -, hx, -, hcompleted⟩⟩ := drainStep_completed conf hd
    · rw [hcompleted] at hsid
      exact .inl hsid
    · rw [hcompleted] at hsid
      rcases List.mem_append.mp hsid with hold | hnew
      · exact .inl hold
      · rw [List.mem_singleton.mp hnew]
        exact .inr hx
  | @flush a origin pc pc' s hpc hf =>
    rw [hpc]
    cases origin <;> exact .inl hsid
  | abandon hpc => cases hsid
  | reserved hpc hfree =>
    rw [hpc]
    exact .inl (List.mem_cons_of_mem _ hsid)
  | @push a i rest t s p back hpc ht hp =>
    rw [hpc]
    cases back <;> exact .inl hsid
  | worker ht hw => exact .inl hsid

/-- Tasks are made for the streams on the list, and stay with them. -/
theorem tasks_step {act : Action} (h : σ.step conf act = some σ') {t : Task} (ht : t ∈ σ'.tasks) :
    (∃ u ∈ σ.tasks, Task.sid u = t.sid) ∨ t.sid ∈ σ.pc.completed := by
  have hset : ∀ {i : ℕ} {u : Task} {p : Phase}, σ.tasks[i]? = some u → t ∈ σ.tasks.set i ⟨u.sid, p⟩ →
      ∃ u ∈ σ.tasks, Task.sid u = t.sid := by
    intro i u p hu hmem
    rcases List.mem_or_eq_of_mem_set hmem with hold | rfl
    · exact ⟨t, hold, rfl⟩
    · exact ⟨u, List.mem_of_getElem? hu, rfl⟩
  cases step_move h with
  | reserved hpc hfree =>
    rcases List.mem_append.mp ht with hold | hnew
    · exact .inl ⟨t, hold, rfl⟩
    · rw [List.mem_singleton.mp hnew, hpc]
      exact .inr List.mem_cons_self
  | push hpc hu hp => exact .inl (hset hu ht)
  | worker hu hw => exact .inl (hset hu ht)
  | _ => exact .inl ⟨t, ht, rfl⟩

/-- No task is taken away, and none gets another stream. -/
theorem taskSids_subset {act : Action} (h : σ.step conf act = some σ') :
    σ.tasks.map Task.sid ⊆ σ'.tasks.map Task.sid := by
  have hset : ∀ {i : ℕ} {u : Task} {p : Phase}, σ.tasks[i]? = some u →
      σ.tasks.map Task.sid ⊆ (σ.tasks.set i ⟨u.sid, p⟩).map Task.sid := by
    intro i u p hu
    have hsid : (σ.tasks.map Task.sid)[i]? = some u.sid := by rw [List.getElem?_map, hu, Option.map_some]
    obtain ⟨hi, he⟩ := List.getElem?_eq_some_iff.mp hsid
    rw [List.map_set, ← he, List.set_getElem_self]
    exact List.Subset.refl _
  cases step_move h with
  | reserved hpc hfree =>
    rw [List.map_append]
    exact List.subset_append_left _ _
  | push hpc hu hp => exact hset hu
  | worker hu hw => exact hset hu
  | _ => exact List.Subset.refl _

end ModHttp3.System
