import ModHttp3.System.Aside

/-! QUIC stream handles in every run of a session. -/
namespace ModHttp3.System
open Session Lib

section
variable {conf : SessionConf} {σ σ' : State} {act : Action}

theorem handleOk_new : HandleOk .new := by
  constructor <;> first | trivial | nofun

theorem handleOk_step (hH : HandleOk σ.session) (h : σ.step conf act = some σ') :
    HandleOk σ'.session := by
  cases step_kind h with
  | opened hpc hans hall => exact (hH.controlOpened hans hall).1
  | openFailed hpc hans hall => exact (hH.controlFailed hans hall).1.destroy
  | destroyed hpc => exact hH.destroy
  | accepted hpc hans => exact hH.accept hans
  | drain hpc hd =>
    obtain ⟨s₁, hs, ⟨rfl, -⟩ | ⟨rfl, -⟩⟩ := drainStep_changes (V := fun _ => True)
      (R := fun _ => True) conf (fun _ _ => trivial) (fun _ _ _ => trivial) hd
    · exact (hH.changes hs).same (reclaim_sameHandles _ _)
    · exact hH.changes hs
  | flush hpc hf =>
    exact hH.changes (flushStep_changes (V := fun _ => True) (R := fun _ => True) conf
      (fun _ _ _ => trivial) hf)
  | aside hs hpc hc => exact hH.same hs.sameHandles

private theorem handleOk_reach (h : Reach (State.step conf) anyStep .start σ) : HandleOk σ.session :=
  h.invariant (I := fun σ => HandleOk σ.session) handleOk_new fun _ _ _ hH _ hs =>
    handleOk_step hH hs

theorem freed_mem_iff {s : H3Session} {h : Handle} : .freed h ∈ s.trace ↔ Use.free h ∈ s.uses := by
  unfold H3Session.uses
  rw [List.mem_filterMap]
  constructor
  · exact fun hm => ⟨_, hm, rfl⟩
  · rintro ⟨e, he, hu⟩
    cases e <;> cases hu
    exact he

private theorem count_freed (s : H3Session) (h : Handle) :
    s.trace.count (.freed h) = s.uses.count (.free h) := by
  unfold H3Session.uses List.count
  rw [List.countP_filterMap]
  congr 1
  funext e
  cases e with
  | freed x =>
    rw [Bool.eq_iff_iff]
    simp [Event.use]
  | _ => rfl

/-- In every run, a handle is in at most one of three places: with one stream, once in
`pending_free`, or freed. It is freed at most once, and no call is made on it once it is
queued or freed. -/
theorem handles_used_safely (h : Reach (State.step conf) anyStep .start σ) (g : Handle) :
    (∀ sid sid', σ.session.qstream sid = some g → σ.session.qstream sid' = some g → sid = sid') ∧
    σ.session.pendingFree.count g ≤ 1 ∧
    (∀ sid, σ.session.qstream sid = some g →
      g ∉ σ.session.pendingFree ∧ .freed g ∉ σ.session.trace) ∧
    (g ∈ σ.session.pendingFree → .freed g ∉ σ.session.trace) ∧
    σ.session.trace.count (.freed g) ≤ 1 ∧
    (∀ later earlier o, σ.session.trace = later ++ .op o g :: earlier →
      .queuedFree g ∉ earlier ∧ .freed g ∉ earlier) := by
  have hH := handleOk_reach h
  have hfreed : .freed g ∈ σ.session.trace → place σ.session.uses g = .freed :=
    fun hm => hH.legal.remains (freed_mem_iff.mp hm)
  refine ⟨fun sid sid' => hH.inj sid sid' g, List.nodup_iff_count_le_one.mp hH.nodup g, ?_, ?_, ?_, ?_⟩
  · intro sid hq
    have hheld := hH.held sid g hq
    constructor
    · intro hin
      cases hheld.symm.trans (hH.queued g hin)
    · intro hm
      cases hheld.symm.trans (hfreed hm)
  · intro hin hm
    cases (hH.queued g hin).symm.trans (hfreed hm)
  · rw [count_freed]
    exact hH.legal.count_free_le
  · intro later earlier o htrace
    have huses : σ.session.uses = later.filterMap Event.use ++ .access g :: earlier.filterMap Event.use := by
      unfold H3Session.uses
      rw [htrace, List.filterMap_append]
      rfl
    obtain ⟨hq, hf⟩ := (huses ▸ hH.legal).access_before
    exact ⟨fun hm => hq (List.mem_filterMap.mpr ⟨_, hm, rfl⟩),
      fun hm => hf (List.mem_filterMap.mpr ⟨_, hm, rfl⟩)⟩

/-- The request's handle of a whole session is freed, and freed once. -/
theorem handles_used_safely_oneRequest :
    ∃ σ, Reach (State.step sampleConf) anyStep .start σ ∧ .freed 20 ∈ σ.session.trace ∧
      20 ∉ σ.session.pendingFree ∧ σ.session.trace.count (.freed 20) ≤ 1 := by
  have hrun : (runActions (State.step sampleConf) .start oneRequest).map
      (fun σ => (decide (.freed 20 ∈ σ.session.trace), σ.session.pendingFree)) = some (true, []) := by
    decide +kernel
  obtain ⟨σ, hσ, he⟩ := Option.map_eq_some_iff.mp hrun
  obtain ⟨hfreed, hpending⟩ : .freed 20 ∈ σ.session.trace ∧ σ.session.pendingFree = [] := by
    simpa using he
  have hreach := Reach.of_runActions oneRequest hσ
  obtain ⟨-, -, -, -, hcount, -⟩ := handles_used_safely hreach 20
  exact ⟨σ, hreach, hfreed, by simp [hpending], hcount⟩

end

end ModHttp3.System
