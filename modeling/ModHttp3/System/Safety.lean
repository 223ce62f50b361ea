import ModHttp3.System.Lifetime

/-! Worker lifetime safety in every run of a session. -/
namespace ModHttp3.System
open Session Lib

section
variable {conf : SessionConf} {σ σ' : State} {act : Action}

def EventPc.pushes : EventPc → Bool
  | .pushing _ _ => true
  | _ => false

theorem ne_pushing {pc : EventPc} (hpc : σ.pc = pc) (hp : pc.pushes = false) (i : ℕ) (rest : List ℤ) :
    σ.pc ≠ .pushing i rest := by
  intro he
  rw [← hpc, he] at hp
  cases hp

theorem Apart.running {pc : EventPc} (hpush : σ.pc.pushes = false) (hrun : pc.inService)
    (hknown : ∀ sid ∈ pc.completed, (custody σ.session sid).isSome) : Apart σ pc := by
  constructor
  · exact ne_pushing rfl hpush
  · rintro (rfl | rfl) <;> cases hrun
  · rintro rfl
    cases hrun
  · exact hknown

private theorem setsFlags_sameCustody {s s' : H3Session} (h : SetsFlags s s') : SameCustody s s' := by
  rcases h with rfl | rfl | rfl <;> exact ⟨rfl, rfl, rfl⟩

/-- No task is left when the session is destroyed at the end of a pass. -/
theorem Lifetime.none_left (hL : Lifetime σ) (hpush : ∀ i rest, σ.pc ≠ .pushing i rest)
    (hactive : σ.session.activeTasks = 0) : ∀ t ∈ σ.tasks, t.phase.touchesSession = false := by
  intro t ht
  have hcount : t.phase.isCounted = false := by
    have hzero := hL.counted.symm.trans hactive
    exact Bool.eq_false_iff.mpr fun h => List.countP_eq_zero.mp hzero t ht h
  have hevent : t.phase.onEventThread = false := by
    obtain ⟨i, hi⟩ := List.mem_iff_getElem?.mp ht
    refine Bool.eq_false_iff.mpr fun h => ?_
    obtain ⟨rest, hp⟩ := hL.pushing i t hi h
    exact hpush i rest hp
  generalize t.phase = p at hcount hevent
  cases p <;> first | rfl | (cases hcount; done) | cases hevent

theorem Lifetime.drain {a : Answer} {d d' : Drain} {pc pc' : DrainPc} {s : H3Session}
    (hL : Lifetime σ) (hpc : σ.pc = .drain d pc)
    (hd : drainStep conf σ.session d pc a = some (s, d', pc')) :
    Lifetime ⟨s, .drain d' pc', σ.tasks⟩ := by
  have hapart : Apart σ (.drain d' pc') := by
    apply Apart.running (by rw [hpc]; rfl) rfl
    · intro sid hsid
      have hold : ∀ x ∈ d.completed, (custody σ.session x).isSome :=
        fun x hx => hL.known x (hpc ▸ hx)
      obtain ⟨-, hcompleted | ⟨x, -, hx, -, hcompleted⟩⟩ := drainStep_completed conf hd
      · exact hold sid (hcompleted ▸ hsid)
      · have hsid' : sid ∈ d.completed ++ [x] := hcompleted ▸ hsid
        rcases List.mem_append.mp hsid' with h | h
        · exact hold sid h
        · obtain ⟨o, ho, -⟩ := H3Session.has_iff.mp hx
          rw [List.mem_singleton.mp h]
          simp [custody, ho]
  obtain ⟨s₁, hs, ⟨rfl, -⟩ | ⟨rfl, -⟩⟩ := drainStep_changes (V := fun _ => True)
    (R := fun _ => True) conf (fun _ _ => trivial) (fun _ _ _ => trivial) hd
  · exact hL.reclaims hapart ((changes_sameCustody hs).reclaims.trans (reclaim_reclaims _ _))
  · exact hL.reclaims hapart (changes_sameCustody hs).reclaims

/-- Every step of the system keeps the invariant. -/
theorem Lifetime.step (hL : Lifetime σ) (h : σ.step conf act = some σ') : Lifetime σ' := by
  cases step_move h with
  | opened hpc hans hall =>
    apply hL.adds _ (createControlStreams_adds hans)
    exact ⟨ne_pushing hpc rfl, fun _ => hL.early (.inl hpc), nofun, nofun⟩
  | openFailed hpc hans hall =>
    have htasks := hL.early (.inl hpc)
    apply hL.adds _ ((createControlStreams_adds hans).trans (destroy_sameCustody _).adds)
    refine ⟨ne_pushing hpc rfl, nofun, fun _ t ht => ?_, nofun⟩
    rw [htasks] at ht
    cases ht
  | destroyed hpc =>
    have hpush : ∀ i rest, σ.pc ≠ .pushing i rest := by
      rcases hpc with hpc | ⟨hpc, -⟩ <;> exact ne_pushing hpc rfl
    apply hL.reclaims _ (destroy_sameCustody σ.session).reclaims
    refine ⟨hpush, nofun, fun _ => ?_, nofun⟩
    rcases hpc with hpc | ⟨-, hactive⟩
    · intro t ht
      rw [hL.early (.inr hpc)] at ht
      cases ht
    · exact hL.none_left hpush hactive
  | @turn a s pc hpc hpc' hs hc =>
    apply hL.reclaims _ (setsFlags_sameCustody hs).reclaims
    apply Apart.running
    · generalize σ.pc = pc₀ at hpc
      cases pc₀ <;> first | rfl | cases hpc
    · cases pc <;> first | rfl | cases hpc'
    · exact fun sid hsid => hL.known sid (hc hsid)
  | accepted hpc hans =>
    apply hL.adds _ (acceptStream_adds hans)
    exact .running (by rw [hpc]; rfl) (by rw [hpc]; rfl) hL.known
  | drainStart hpc horder =>
    apply hL.reclaims _ (SameCustody.refl _).reclaims
    exact .running (by rw [hpc]; rfl) rfl nofun
  | drain hpc hd => exact hL.drain hpc hd
  | @flush a origin pc pc' s hpc hf =>
    have hs := flushStep_changes (V := fun _ => True) (R := fun _ => True) conf
      (fun _ _ _ => trivial) hf
    apply hL.reclaims _ (changes_sameCustody hs).reclaims
    have hsame : (EventPc.flush origin pc').completed = σ.pc.completed := by
      rw [hpc]
      cases origin <;> rfl
    exact .running (by rw [hpc]; rfl) rfl fun sid hsid => hL.known sid (hsame ▸ hsid)
  | abandon hpc =>
    apply hL.reclaims _ (foldl_responseCancel_sameCustody _ σ.session).reclaims
    exact .running (by rw [hpc]; rfl) rfl nofun
  | reserved hpc hfree => exact hL.reserve hpc hfree
  | push hpc ht hp => exact hL.push hpc ht hp
  | worker ht hw => exact hL.worker ht hw

theorem lifetime_reach (h : Reach (State.step conf) anyStep .start σ) : Lifetime σ :=
  h.invariant lifetime_start fun _ _ _ hL _ hs => hL.step hs

private theorem pushStep_phase {s s' : H3Session} {t : Task} {a : Answer} {p : Phase} {back : Bool}
    (h : pushStep s t a = some (s', p, back)) :
    (p.holds → t.phase.holds) ∧ (p.touchesSession → t.phase.touchesSession) := by
  cases pushStep_push h with
  | uncount hq =>
    rw [hq]
    exact ⟨nofun, fun _ => rfl⟩
  | count hq | noPool hq | queue hq | noThread hq | undo hq | unreserve hq =>
    rw [hq]
    exact ⟨fun _ => rfl, fun _ => rfl⟩

private theorem workerStep_phase {s s' : H3Session} {t : Task} {w : WorkerAct} {p : Phase} {free : Bool}
    (h : workerStep s free t w = some (s', p)) :
    (p.holds → t.phase.holds) ∧ (p.touchesSession → t.phase.touchesSession) := by
  cases workerStep_work h with
  | release hq | leave hq => exact ⟨nofun, nofun⟩
  | begin hq | created _ hq | built _ hq | respond _ hq | unreserve hq | answered hq | mark hq =>
    rw [hq]
    exact ⟨fun _ => rfl, fun _ => rfl⟩

/-- A task that is done with its stream, or with the session, stays so. -/
private theorem step_task (h : σ.step conf act = some σ') {i : ℕ} {t : Task} (ht : σ.tasks[i]? = some t) :
    ∃ t', σ'.tasks[i]? = some t' ∧ (t'.phase.holds → t.phase.holds) ∧
      (t'.phase.touchesSession → t.phase.touchesSession) := by
  have hi : i < σ.tasks.length := (List.getElem?_eq_some_iff.mp ht).1
  have hset : ∀ (j : ℕ) (u : Task) (p : Phase), σ.tasks[j]? = some u →
      (p.holds → u.phase.holds) ∧ (p.touchesSession → u.phase.touchesSession) →
      ∃ t', (σ.tasks.set j ⟨u.sid, p⟩)[i]? = some t' ∧ (t'.phase.holds → t.phase.holds) ∧
        (t'.phase.touchesSession → t.phase.touchesSession) := by
    intro j u p hu hp
    by_cases hj : j = i
    · subst hj
      cases hu.symm.trans ht
      exact ⟨_, List.getElem?_set_self hi, hp⟩
    · exact ⟨t, by rw [List.getElem?_set_ne hj, ht], id, id⟩
  cases step_move h with
  | reserved hpc hfree => exact ⟨t, by rw [List.getElem?_append_left hi, ht], id, id⟩
  | push hpc hu hp => exact hset _ _ _ hu (pushStep_phase hp)
  | worker hu hw => exact hset _ _ _ hu (workerStep_phase hw)
  | _ => exact ⟨t, ht, id, id⟩

/-- In some continuation of the run, task `i` accesses its stream. -/
def State.MayTouchStream (conf : SessionConf) (σ : State) (i : ℕ) : Prop :=
  ∃ σ' t, Reach (State.step conf) anyStep σ σ' ∧ σ'.tasks[i]? = some t ∧ t.phase.touchesStream

/-- In some continuation of the run, task `i` accesses the session. -/
def State.MayTouchSession (conf : SessionConf) (σ : State) (i : ℕ) : Prop :=
  ∃ σ' t, Reach (State.step conf) anyStep σ σ' ∧ σ'.tasks[i]? = some t ∧ t.phase.touchesSession

theorem reach_task (h : Reach (State.step conf) anyStep σ σ') {i : ℕ} {t : Task}
    (ht : σ.tasks[i]? = some t) :
    ∃ t', σ'.tasks[i]? = some t' ∧ (t'.phase.holds → t.phase.holds) ∧
      (t'.phase.touchesSession → t.phase.touchesSession) := by
  induction h with
  | start => exact ⟨t, ht, id, id⟩
  | next _ _ hs ih =>
    obtain ⟨u, hu, hh, hts⟩ := ih
    obtain ⟨v, hv, hh', hts'⟩ := step_task hs hu
    exact ⟨v, hv, fun h => hh (hh' h), fun h => hts (hts' h)⟩

private theorem not_mayTouchStream {i : ℕ} {t : Task} (ht : σ.tasks[i]? = some t)
    (hh : t.phase.holds = false) : ¬ σ.MayTouchStream conf i := by
  rintro ⟨σ', u, hreach, hu, htouch⟩
  obtain ⟨t', ht', hholds, -⟩ := reach_task hreach ht
  cases hu.symm.trans ht'
  rw [hholds (Phase.holds_of_touchesStream htouch)] at hh
  cases hh

private theorem not_mayTouchSession {i : ℕ} {t : Task} (ht : σ.tasks[i]? = some t)
    (hh : t.phase.touchesSession = false) : ¬ σ.MayTouchSession conf i := by
  rintro ⟨σ', u, hreach, hu, htouch⟩
  obtain ⟨t', ht', -, hsession⟩ := reach_task hreach ht
  cases hu.symm.trans ht'
  rw [hsession htouch] at hh
  cases hh

/-- In every run, whatever the interleaving and whichever calls fail: `active_tasks` is the
number of counted tasks; a stream has at most one holder, and is reserved while it has one;
a stream that has left the table or lost its pool is never accessed by a task again; and
neither is a session after its destruction. -/
theorem worker_lifetime_safe (h : Reach (State.step conf) anyStep .start σ) :
    σ.session.activeTasks = σ.tasks.countP (·.phase.isCounted) ∧
    (∀ (i j : ℕ) (t u : Task), i ≠ j → σ.tasks[i]? = some t → σ.tasks[j]? = some u →
      t.sid = u.sid → ¬ (t.phase.holds ∧ u.phase.holds)) ∧
    (∀ t ∈ σ.tasks, t.phase.holds → σ.session.has t.sid (·.dispatched)) ∧
    (∀ (i : ℕ) (t : Task), σ.tasks[i]? = some t →
      t.sid ∉ σ.session.streams ∨ σ.session.has t.sid (fun o => !o.pool) →
      ¬ σ.MayTouchStream conf i) ∧
    (σ.pc = .destroyed → ∀ (i : ℕ) (t : Task), σ.tasks[i]? = some t →
      ¬ σ.MayTouchSession conf i) := by
  have hL := lifetime_reach h
  refine ⟨hL.counted, ?_, ?_, ?_, ?_⟩
  · rintro i j t u hne ht hu hsid ⟨hth, huh⟩
    have := hL.sole ht hu hne hsid (Phase.not_letGo_of_holds hth)
    rw [Phase.not_letGo_of_holds huh] at this
    cases this
  · intro t ht hh
    obtain ⟨o, ho, hc⟩ := Option.map_eq_some_iff.mp (hL.holder t ht hh)
    exact H3Session.has_iff.mpr ⟨o, ho, congrArg Custody.dispatched hc⟩
  · intro i t ht hgone
    apply not_mayTouchStream ht
    refine Bool.eq_false_iff.mpr fun hh => ?_
    have hc := hL.holder t (List.mem_of_getElem? ht) hh
    rcases hgone with hgone | hgone
    · cases hL.removed _ _ hc hgone
    · obtain ⟨o, ho, hpool⟩ := H3Session.has_iff.mp hgone
      obtain ⟨o', ho', hc'⟩ := Option.map_eq_some_iff.mp hc
      cases ho.symm.trans ho'
      have hp : o.pool = true := congrArg Custody.pool hc'
      rw [hp] at hpool
      cases hpool
  · intro hpc i t ht
    exact not_mayTouchSession ht (hL.ended hpc t (List.mem_of_getElem? ht))

/-- The hypotheses are met by a session that served a request and was destroyed. -/
theorem worker_lifetime_safe_oneRequest :
    ∃ σ, Reach (State.step sampleConf) anyStep .start σ ∧ σ.pc = .destroyed ∧
      σ.tasks = [⟨0, .exited⟩] ∧ σ.session.streams = [3, 7, 11] ∧ ¬ σ.MayTouchStream sampleConf 0 ∧
      ¬ σ.MayTouchSession sampleConf 0 := by
  have hrun : (runActions (State.step sampleConf) .start oneRequest).map
      (fun σ => (σ.pc, σ.tasks, σ.session.streams)) =
        some (.destroyed, [⟨0, .exited⟩], [3, 7, 11]) := by
    decide +kernel
  obtain ⟨σ, hσ, he⟩ := Option.map_eq_some_iff.mp hrun
  obtain ⟨hpc, htasks, hstreams⟩ : σ.pc = .destroyed ∧ σ.tasks = [⟨0, .exited⟩] ∧
      σ.session.streams = [3, 7, 11] := by
    simpa using he
  have hreach := Reach.of_runActions oneRequest hσ
  have hsafe := worker_lifetime_safe hreach
  have ht : σ.tasks[0]? = some ⟨0, .exited⟩ := by rw [htasks]; rfl
  refine ⟨σ, hreach, hpc, htasks, hstreams, ?_, hsafe.2.2.2.2 hpc 0 _ ht⟩
  apply hsafe.2.2.2.1 0 _ ht
  left
  rw [hstreams]
  decide

end

end ModHttp3.System
