import ModHttp3.System.Whole

/-! From the list of completed requests to the tasks that process them. -/
namespace ModHttp3.System
open Session Lib

section
variable {conf : SessionConf} {σ σ' : State} {act : Action}

/-- Streams that wait for `h3_process_request`, and those of tasks, have been on the list. -/
structure Listed (σ : State) : Prop where
  completed : ∀ sid ∈ σ.pc.completed, .listed sid ∈ σ.session.notes
  tasks : ∀ t ∈ σ.tasks, .listed (Task.sid t) ∈ σ.session.notes

theorem Listed.completed_step (hL : Listed σ) (h : σ.step conf act = some σ') :
    ∀ sid ∈ σ'.pc.completed, .listed sid ∈ σ'.session.notes := by
  have hmono := notes_mono h
  have hsub : σ'.pc.completed ⊆ σ.pc.completed →
      ∀ sid ∈ σ'.pc.completed, .listed sid ∈ σ'.session.notes :=
    fun hc sid hin => hmono (hL.completed sid (hc hin))
  cases step_effect h with
  | added hs hvisit hc =>
    rw [hc]
    nofun
  | still hs hdead hvisit hc => exact hsub hc
  | callback hpc => exact hsub (List.Subset.refl _)
  | begin hpc hdone hq hclient =>
    apply hsub
    rw [hpc]
    exact List.Subset.refl _
  | enter hpc =>
    apply hsub
    rw [hpc]
    exact List.Subset.refl _
  | loop hpc hv hc =>
    apply hsub
    rw [hpc]
    change Drain.completed _ ⊆ Drain.completed _
    rw [hc]
    exact List.Subset.refl _
  | returned hpc =>
    apply hsub
    rw [hpc]
    exact List.Subset.refl _
  | @leave d d' sid rejected s pc hpc hs hdead hvisit hc =>
    intro x hx
    change x ∈ d'.completed at hx
    change .listed x ∈ s.notes
    have hold : ∀ y ∈ d.completed, .listed y ∈ σ.session.notes := fun y hy => by
      apply hL.completed
      rw [hpc]
      exact hy
    rw [hc] at hx
    rw [hs.notes]
    unfold drainList at hx ⊢
    split_ifs at hx ⊢
    · rcases List.mem_append.mp hx with hx | hx
      · exact List.mem_cons_of_mem _ (hold x hx)
      · cases List.mem_singleton.mp hx
        exact List.mem_cons_self
    · exact hold x hx

theorem Listed.step (hL : Listed σ) (h : σ.step conf act = some σ') : Listed σ' := by
  refine ⟨hL.completed_step h, fun t ht => notes_mono h ?_⟩
  rcases tasks_step h ht with ⟨u, hu, he⟩ | hcompleted
  · rw [← he]
    exact hL.tasks u hu
  · exact hL.completed _ hcompleted

private theorem listed_reach {ok : State → Action → Prop} (h : Reach (State.step conf) ok .start σ) :
    Listed σ :=
  h.invariant ⟨nofun, nofun⟩ fun _ _ _ hL _ hs => hL.step hs

/-- In every run in which OpenSSL and nghttp3 keep to their contract: a stream on the list of
completed requests is one of the client's bidirectional streams, its headers have ended, the
client's FIN was read, and its read side was never found reset or lost. Tasks are made for
such streams only. And if a stream of a task that was handed over is reserved again, the
worker had given it up before processing. -/
theorem whole_requests_dispatched
    (h : Reach (State.step conf) (fun σ act => contract σ act) .start σ) :
    (∀ later sid earlier, σ.session.trace = later ++ .listed sid :: earlier →
      h3SidIsBidi sid ∧ h3SidIsServer sid = false ∧ .headersEnded sid ∈ earlier ∧
      (.stateSeen sid .finished ∈ earlier ∨ .zeroReturn sid ∈ earlier) ∧
      .stateSeen sid .resetRemote ∉ earlier ∧ .stateSeen sid .connClosed ∉ earlier) ∧
    (∀ sid ∈ σ.pc.completed, .listed sid ∈ σ.session.trace) ∧
    (∀ t ∈ σ.tasks, .listed (Task.sid t) ∈ σ.session.trace) ∧
    (∀ (i j : ℕ) (t u : Task), i < j → σ.tasks[i]? = some t → σ.tasks[j]? = some u →
      t.sid = u.sid → t.phase.handedOver → t.phase = .unreserved ∨ t.phase = .released) := by
  have hR := requests_reach h
  have hL := listed_reach h
  refine ⟨?_, fun sid hs => mem_trace_of_notes (hL.completed sid hs),
    fun t ht => mem_trace_of_notes (hL.tasks t ht), ?_⟩
  · intro later sid earlier htrace
    have hwhole : Justified WholeRequest σ.session.trace := by
      apply hR.listed.of_filter
      · intro e l _ hJ
        cases e with
        | listed x =>
          obtain ⟨hbidi, hclient, hheaders, hended, hstates⟩ := hJ
          refine ⟨hbidi, hclient, (List.mem_filter.mp hheaders).1,
            clientEnded_mono hended (List.filter_subset_self _), fun st hst => ?_⟩
          exact hstates st (List.mem_filter.mpr ⟨hst, rfl⟩)
        | _ => trivial
      · intro e l he
        cases e <;> trivial
    obtain ⟨hbidi, hclient, hheaders, hended, hstates⟩ := hwhole later (.listed sid) earlier htrace
    refine ⟨hbidi, hclient, hheaders, hended, fun hst => ?_, fun hst => ?_⟩
    · cases hstates _ hst
    · cases hstates _ hst
  · intro i j t u hij ht hu hsid hover
    have hgone := (lifetime_reach (h.mono fun _ _ _ => trivial)).order i j t u hij ht hu hsid
    generalize t.phase = p at hover hgone
    cases p <;> first | (cases hgone; done) | (cases hover; done) | skip
    · exact .inl rfl
    · exact .inr rfl

/-- One request of a whole session. -/
theorem whole_requests_dispatched_oneRequest :
    ∃ σ, Reach (State.step sampleConf) (fun σ act => contract σ act) .start σ ∧
      σ.tasks = [⟨0, .exited⟩] ∧ .listed 0 ∈ σ.session.trace ∧
      .headersEnded 0 ∈ σ.session.trace := by
  have hrun : (runChecked (State.step sampleConf) (fun σ act => contract σ act) .start oneRequest).map
      (fun σ => σ.tasks) = some [⟨0, .exited⟩] := by
    decide +kernel
  obtain ⟨σ, hσ, htasks⟩ := Option.map_eq_some_iff.mp hrun
  have hreach := Reach.of_runChecked _ hσ
  obtain ⟨hwhole, -, hlisted, -⟩ := whole_requests_dispatched hreach
  have h0 : .listed 0 ∈ σ.session.trace := hlisted ⟨0, .exited⟩ (by rw [htasks]; exact List.mem_cons_self)
  obtain ⟨later, earlier, htrace⟩ := List.append_of_mem h0
  refine ⟨σ, hreach, htasks, h0, ?_⟩
  rw [htrace]
  exact List.mem_append_right _ (List.mem_cons_of_mem _ (hwhole later 0 earlier htrace).2.2.1)

/-- The headers of the request on stream 0 have ended, and its trailers wait for QPACK inserts; in the next pass its
read side is found reset. nghttp3 closes a stream that waits so without calling back. -/
def resetWhileBlocked : List Action :=
  openSession ++
  [.event (.accepted 20 0 true), .event (.noMore [0, 3, 7, 11]), .event .go, .event (.state .ok .ok),
    .event (.data 100), .event (.callback (.beginHeaders 0)),
    .event (.callback (.recvHeader 0 ⟨.path, [58], [47]⟩)), .event (.callback (.endHeaders 0 false)),
    .event (.returned none), .event .nothing, .event .go, .event .go, .event .go, .event .go, .event .go,
    .event .go] ++ endPass ++
  [.event (.flag false), .event (.flag false), .event (.noMore [0, 3, 7, 11]), .event .go,
    .event (.state .resetRemote .ok), .event (.returned none), .event (.returned none), .event .go]

/-- The stream is put on the list of completed requests, although the client has reset it and no FIN was read. -/
theorem reset_stream_listed :
    ∃ σ earlier, Reach (State.step sampleConf) (fun σ act => finReported σ act && lossFinal σ act) .start σ ∧
      0 ∈ σ.pc.completed ∧ σ.session.trace = .listed 0 :: earlier ∧ .stateSeen 0 .resetRemote ∈ earlier ∧
      .stateSeen 0 .finished ∉ earlier ∧ .zeroReturn 0 ∉ earlier := by
  have hrun : (runChecked (State.step sampleConf) (fun σ act => finReported σ act && lossFinal σ act) .start
      resetWhileBlocked).map (fun σ => (σ.pc.completed, σ.session.trace)) =
      some ([0], [.listed 0, .finFed 0, .stateSeen 0 .resetRemote, .op .readState 20, .op .read 20, .headersEnded 0,
        .op .read 20, .stateSeen 0 .ok, .op .readState 20, .op .streamId 20, .obtained 20, .obtained 12, .obtained 11,
        .obtained 10]) := by
    decide +kernel
  obtain ⟨σ, hσ, hvals⟩ := Option.map_eq_some_iff.mp hrun
  obtain ⟨hcompleted, htrace⟩ := Prod.mk.inj hvals
  refine ⟨σ, _, Reach.of_runChecked _ hσ, ?_, htrace, by decide, by decide, by decide⟩
  rw [hcompleted]
  exact List.mem_cons_self

end

end ModHttp3.System
