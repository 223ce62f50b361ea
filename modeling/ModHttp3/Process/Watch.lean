import ModHttp3.Process.Wakeup

/-! What the event thread has to see is seen in a pass before it sleeps: the argument for anything of that kind,
from the laws that it has to satisfy. -/
namespace ModHttp3.Process
open Session ModHttp3.System Lib

/-- The pass of the session at `j` is yet to come to the places after `before`. -/
def Waking.Due (before : EventPc → Bool) (w : Waking) (j : ℕ) (pc : EventPc) : Prop :=
  w.awake ∨ ∃ i, w.io.pc = .serving i ∧ (i < j ∨ i = j ∧ before pc)

/-- Something that a pass of the session has to see. It is `marked` on a session until a pass has left the
places `before`; as long as it is not due in this round of the loop, an `alarm` keeps the thread from sleeping. -/
structure Watch (conf : IoConf) (capacity : ℕ) (ok : Waking → WakeAct → Prop) where
  marked : Waking → ActiveSession → Prop
  before : EventPc → Bool
  alarm : Waking → Prop
  inv : Waking → Prop
  before_start : before .passStart
  before_end : before .passEnd = false
  inv_start : inv .start
  inv_step : ∀ {w act w'}, Orderly conf w → inv w → w.step conf capacity act = some w' → inv w'
  alarm_step : ∀ {w act w'}, Orderly conf w → w.step conf capacity act = some w' → alarm w → alarm w' ∨ w'.awake
  other : ∀ {w act w'} {s : ActiveSession}, Orderly conf w → w.step conf capacity act = some w' →
    (∀ i t a, act = .io (.session a) → w.io.pc = .serving i → w.io.activeSessions[i]? = some t →
      t.qconn ≠ s.qconn) →
    marked w' s → marked w s ∨ alarm w' ∨ w'.awake
  worker : ∀ {w w'} {j k : ℕ} {wa : WorkerAct} {s : ActiveSession} {σ : State}, Orderly conf w →
    w.step conf capacity (.io (.worker j k wa)) = some w' → w.io.activeSessions[j]? = some s →
    s.state.step conf.session (.worker k wa) = some σ → marked w' { s with state := σ } → marked w s ∨ alarm w'
  inside : ∀ {w w'} {i : ℕ} {s : ActiveSession} {a : Answer} {σ : State}, Orderly conf w → inv w →
    ok w (.io (.session a)) → w.step conf capacity (.io (.session a)) = some w' → w.io.pc = .serving i →
    w.io.activeSessions[i]? = some s → s.state.eventStep conf.session a = some σ → s.state.pc ≠ .passEnd →
    marked w' { s with state := σ } → before σ.pc ∨ alarm w' ∨ marked w s ∧ before s.state.pc = false
  kept : ∀ {w w'} {i : ℕ} {s : ActiveSession} {a : Answer} {σ : State}, Orderly conf w →
    w.step conf capacity (.io (.session a)) = some w' → w.io.pc = .serving i →
    w.io.activeSessions[i]? = some s → s.state.eventStep conf.session a = some σ → s.state.pc = .passEnd →
    marked w' { s with state := σ } → marked w s ∨ alarm w'

namespace Watch

section
variable {conf : IoConf} {capacity : ℕ} {ok : Waking → WakeAct → Prop} (W : Watch conf capacity ok)
  {w w' : Waking} {act : WakeAct}

/-- What is marked is due, or an alarm is out. -/
def Heard (w : Waking) : Prop :=
  ∀ j s, w.io.activeSessions[j]? = some s → W.marked w s → w.Due W.before j s.state.pc ∨ W.alarm w

variable {W}

private theorem not_awake_of_serving {i : ℕ} (hpc : w.io.pc = .serving i) : w.awake = false := by
  unfold Waking.awake
  rw [hpc]

/-- In the loop over the sessions only the session at the index and those behind it are due. -/
theorem Heard.passed (hH : W.Heard w) {i j : ℕ} {s : ActiveSession} (hpc : w.io.pc = .serving i)
    (hs : w.io.activeSessions[j]? = some s) (hm : W.marked w s) (hj : j < i ∨ i = j ∧ W.before s.state.pc = false) :
    W.alarm w := by
  rcases hH j s hs hm with hdue | halarm
  · rcases hdue with hawake | ⟨i', hpc', hdue⟩
    · rw [not_awake_of_serving hpc] at hawake
      cases hawake
    · rw [hpc] at hpc'
      cases hpc'
      rcases hj with hj | ⟨he, hbefore⟩
      · omega
      · rcases hdue with hdue | ⟨-, hdue⟩
        · omega
        · rw [hbefore] at hdue
          cases hdue
  · exact halarm

/-- Out of the loop over the sessions, and not on the way to it, nothing is due. -/
theorem Heard.idle (hH : W.Heard w) {j : ℕ} {s : ActiveSession} (hawake : w.awake = false)
    (hpc : w.io.pc.inServing = false) (hs : w.io.activeSessions[j]? = some s) (hm : W.marked w s) : W.alarm w := by
  rcases hH j s hs hm with hdue | halarm
  · rcases hdue with hdue | ⟨i, hpc', -⟩
    · rw [hawake] at hdue
      cases hdue
    · rw [hpc'] at hpc
      cases hpc
  · exact halarm

/-- A session that the step leaves alone and that was not due. -/
theorem keep (hO : Orderly conf w) (h : w.step conf capacity act = some w') {s : ActiveSession} {j : ℕ}
    (hquiet : ∀ i t a, act = .io (.session a) → w.io.pc = .serving i → w.io.activeSessions[i]? = some t →
      t.qconn ≠ s.qconn)
    (hm : W.marked w' s) (halarm : W.marked w s → W.alarm w) : w'.Due W.before j s.state.pc ∨ W.alarm w' := by
  rcases W.other hO h hquiet hm with hm | ha | hawake
  · exact (W.alarm_step hO h (halarm hm)).symm.imp_left .inl
  · exact .inr ha
  · exact .inl (.inl hawake)

/-- A step that does not move the thread. -/
theorem Heard.still (hH : W.Heard w) (hO : Orderly conf w) (h : w.step conf capacity act = some w')
    (hpc : w'.io.pc = w.io.pc) (hwait : w'.wait = w.wait) {j : ℕ} {s : ActiveSession} {pc : EventPc}
    (hs : w.io.activeSessions[j]? = some s) (hpc' : pc = s.state.pc)
    (hm : W.marked w s ∨ W.alarm w' ∨ w'.awake) : w'.Due W.before j pc ∨ W.alarm w' := by
  rcases hm with hm | ha | hawake
  · rcases hH j s hs hm with hdue | ha
    · left
      unfold Waking.Due Waking.awake at hdue ⊢
      rw [hpc, hwait, hpc']
      exact hdue
    · exact (W.alarm_step hO h ha).symm.imp_left .inl
  · exact .inr ha
  · exact .inl (.inl hawake)

theorem Heard.worker_step (hH : W.Heard w) (hO : Orderly conf w) {i k : ℕ} {wa : WorkerAct} {t : ActiveSession}
    {σ : State} (h : w.step conf capacity (.io (.worker i k wa)) = some w') (ht : w.io.activeSessions[i]? = some t)
    (hσ : t.state.step conf.session (.worker k wa) = some σ) (hpc : w'.io.pc = w.io.pc) (hwait : w'.wait = w.wait)
    (hs' : w'.io.activeSessions = w.io.activeSessions.set i { t with state := σ }) : W.Heard w' := by
  intro j s hs hm
  rw [hs', List.getElem?_set] at hs
  split_ifs at hs with hij hlt
  · cases hs
    subst hij
    refine hH.still hO h hpc hwait ht (worker_pc hσ) ?_
    exact (W.worker hO h ht hσ hm).imp_right .inl
  · refine hH.still hO h hpc hwait hs rfl (W.other hO h (fun i t a he => ?_) hm)
    cases he

/-- The thread goes on with the pass of the session at the index. -/
theorem Heard.inside_step (hH : W.Heard w) (hO : Orderly conf w) (hI : W.inv w) {i : ℕ} {a : Answer}
    {t : ActiveSession} {σ : State} (hok : ok w (.io (.session a)))
    (h : w.step conf capacity (.io (.session a)) = some w') (hpc : w.io.pc = .serving i)
    (ht : w.io.activeSessions[i]? = some t) (hσ : t.state.eventStep conf.session a = some σ)
    (hend : t.state.pc ≠ .passEnd) (hpc' : w'.io.pc = .serving i)
    (hs' : w'.io.activeSessions = w.io.activeSessions.set i { t with state := σ }) : W.Heard w' := by
  intro j s hs hm
  rw [hs', List.getElem?_set] at hs
  split_ifs at hs with hij hlt
  · cases hs
    subst hij
    rcases W.inside hO hI hok h hpc ht hσ hend hm with hb | ha | ⟨hm, hb⟩
    · exact .inl (.inr ⟨i, hpc', .inr ⟨rfl, hb⟩⟩)
    · exact .inr ha
    · exact (W.alarm_step hO h (hH.passed hpc ht hm (.inr ⟨rfl, hb⟩))).symm.imp_left .inl
  · rcases Nat.lt_or_gt_of_ne hij with hlt | hgt
    · exact .inl (.inr ⟨i, hpc', .inl hlt⟩)
    · refine keep hO h (fun i' t' a' _ hpc'' ht' => ?_) hm fun hm => hH.passed hpc hs hm (.inl hgt)
      rw [hpc] at hpc''
      cases hpc''
      exact hO.other_conn ht' hs hij

/-- The pass is over, and the thread goes to the next session. -/
theorem Heard.kept_step (hH : W.Heard w) (hO : Orderly conf w) {i : ℕ} {a : Answer}
    {t : ActiveSession} {σ : State} (h : w.step conf capacity (.io (.session a)) = some w')
    (hpc : w.io.pc = .serving i) (ht : w.io.activeSessions[i]? = some t)
    (hσ : t.state.eventStep conf.session a = some σ) (hend : t.state.pc = .passEnd)
    (hpc' : w'.io.pc = .serving (i + 1))
    (hs' : w'.io.activeSessions = w.io.activeSessions.set i { t with state := σ }) : W.Heard w' := by
  intro j s hs hm
  rw [hs', List.getElem?_set] at hs
  split_ifs at hs with hij hlt
  · cases hs
    subst hij
    have hb : W.before t.state.pc = false := hend ▸ W.before_end
    rcases W.kept hO h hpc ht hσ hend hm with hm | ha
    · exact (W.alarm_step hO h (hH.passed hpc ht hm (.inr ⟨rfl, hb⟩))).symm.imp_left .inl
    · exact .inr ha
  · rcases Nat.lt_or_gt_of_ne hij with hlt | hgt
    · refine .inl (.inr ⟨i + 1, hpc', ?_⟩)
      -- the passes of the sessions behind this one have not begun
      rw [hO.others_rest hpc hs hij, W.before_start]
      rcases Nat.lt_or_eq_of_le (Nat.succ_le_of_lt hlt) with hlt | he
      · exact .inl hlt
      · exact .inr ⟨he, rfl⟩
    · refine keep hO h (fun i' t' a' _ hpc'' ht' => ?_) hm fun hm => hH.passed hpc hs hm (.inl hgt)
      rw [hpc] at hpc''
      cases hpc''
      exact hO.other_conn ht' hs hij

theorem Heard.removed_step (hH : W.Heard w) (hO : Orderly conf w) {i : ℕ} {a : Answer} {t : ActiveSession}
    (h : w.step conf capacity (.io (.session a)) = some w') (hpc : w.io.pc = .serving i)
    (ht : w.io.activeSessions[i]? = some t) (hpc' : w'.io.pc = .serving i)
    (hs' : w'.io.activeSessions = swapRemove w.io.activeSessions i) : W.Heard w' := by
  intro j s hs hm
  by_cases hj : j < i
  · have hs₀ : w.io.activeSessions[j]? = some s := by
      have htake := take_swapRemove ht
      rw [← List.getElem?_take_of_lt hj, ← htake, List.getElem?_take_of_lt hj, ← hs']
      exact hs
    refine keep hO h (fun i' t' a' _ hpc'' ht' => ?_) hm fun hm => hH.passed hpc hs₀ hm (.inl hj)
    rw [hpc] at hpc''
    cases hpc''
    exact hO.other_conn ht' hs₀ (Nat.ne_of_gt hj)
  · refine .inl (.inr ⟨i, hpc', ?_⟩)
    rw [hO.removed_rest hpc ht hs' (List.mem_of_getElem? hs), W.before_start]
    rcases Nat.lt_or_eq_of_le (Nat.le_of_not_lt hj) with hlt | he
    · exact .inl hlt
    · exact .inr ⟨he, rfl⟩

theorem Heard.step (hH : W.Heard w) (hO : Orderly conf w) (hI : W.inv w) (hok : ok w act)
    (h : w.step conf capacity act = some w') : W.Heard w' := by
  cases hO.move h with
  | awake hawake => exact fun j s hs hm => .inl (.inl hawake)
  | rests hact hpc hwait hs' =>
    intro j s hs hm
    rw [hs'] at hs
    exact hH.still hO h hpc hwait hs rfl (W.other hO h (fun i t a he => absurd he (hact a)) hm)
  | sleeps hpc hpc' hs' =>
    intro j s hs hm
    rw [hs'] at hs
    refine keep hO h (fun i t a _ hpc'' => ?_) hm fun hm => hH.idle ?_ ?_ hs hm
    · rw [hpc] at hpc''
      cases hpc''
    · unfold Waking.awake
      rw [hpc]
    · rw [hpc]
      rfl
  | leaves hs' =>
    intro j s hs
    rw [hs'] at hs
    cases hs
  | enters hpc' hall =>
    intro j s hs hm
    refine .inl (.inr ⟨0, hpc', ?_⟩)
    rw [hall s (List.mem_of_getElem? hs), W.before_start]
    rcases Nat.eq_zero_or_pos j with rfl | hpos
    · exact .inr ⟨rfl, rfl⟩
    · exact .inl hpos
  | worker ht hσ hpc hwait hs' => exact hH.worker_step hO h ht hσ hpc hwait hs'
  | inside hpc ht hσ hend hpc' hs' => exact hH.inside_step hO hI hok h hpc ht hσ hend hpc' hs'
  | kept hpc ht hσ hend hpc' hs' => exact hH.kept_step hO h hpc ht hσ hend hpc' hs'
  | removed hpc ht hpc' hs' => exact hH.removed_step hO h hpc ht hpc' hs'
  | done hpc hnone hpc' hs' =>
    intro j s hs hm
    rw [hs'] at hs
    have hj := (List.getElem?_eq_some_iff.mp hs).1
    have hi := List.getElem?_eq_none_iff.mp hnone
    refine keep hO h (fun i' t a _ hpc'' ht => ?_) hm fun hm => hH.passed hpc hs hm (.inl (Nat.lt_of_lt_of_le hj hi))
    rw [hpc] at hpc''
    cases hpc''
    rw [hnone] at ht
    cases ht

end

end Watch

end ModHttp3.Process
