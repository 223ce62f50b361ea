import ModHttp3.Response.Intact

/-! When the end of a response may be reported: in sound runs of a request, in both
response modes, only after every byte the handler passed was handed out. -/
namespace ModHttp3.Response
open Lib

namespace Request

section
variable {limit : ℕ} {conf : RequestConf} {σ : Request}

private theorem handed_le_passed {core : Exchange} (hinv : Inv limit core)
    (hc : core.queue.responseCancelled = false) {passed owed : Bytes}
    (hkept : passed = core.passed ++ owed) : core.handed <+: passed := by
  obtain ⟨b, -, hprod, hhand, -⟩ := hinv.transfer
  have hle : core.handed <+: core.appended := by
    rw [← hhand, ← hprod]
    exact b.inOrder
  rw [hkept]
  exact (hle.trans (hinv.appended_le hc)).trans (List.prefix_append _ _)

/-- Once the response is complete, everything the handler passed was appended. -/
theorem Intact.passed_eq (hi : σ.Intact) (hinv : Inv limit σ.core) (hl : σ.live = true)
    (hcomplete : σ.core.queue.responseComplete = true) : σ.passed = σ.core.appended := by
  obtain ⟨hs, hc⟩ := live_iff.mp hl
  obtain ⟨howed, hnone⟩ := hi.settled hcomplete
  have hpend : σ.core.pending = [] := by simp [Exchange.pending, hnone]
  rcases hinv.source hc with hsource | ⟨hgone, -⟩
  · rw [hi.kept, howed, hsource, hpend]
    simp
  · rw [gone_of_serving hs] at hgone
    cases hgone

/-- The end is reported only when the vectors handed out now are the last of the body. -/
theorem Whole.read (h : Whole limit σ) {veccnt : ℕ} (hv : 1 ≤ veccnt) (hs : σ.serving = true)
    (hsub : σ.core.queue.responseSubmitted = true) :
    ∃ x, h3SessionReadData veccnt σ.core.queue = some x ∧ Whole limit (σ.afterRead x) := by
  have hc : σ.core.queue.responseCancelled = false := by
    by_contra hne
    rcases h.shut (by simpa using hne) with hcon | hcon
    · rw [hsub] at hcon
      cases hcon
    · rw [hs] at hcon
      cases hcon
  have hl : σ.live = true := live_iff.mpr ⟨hs, hc⟩
  have hi := h.intact hl
  obtain ⟨b, hb, hprod, hhand, -⟩ := h.inv.transfer
  obtain ⟨vec, q, hok, hread, -, hctl, -⟩ := readData_implements hb hc hv
  obtain ⟨x, hx, hinv⟩ := inv_read h.inv hv
  obtain rfl : (readAnswer σ.core.queue b vec, q) = x := Option.some.inj (hread.symm.trans hx)
  refine ⟨_, hx, ?_⟩
  have hcan : q.responseCancelled = false := by
    rw [hctl]
    exact hc
  have hcompl : q.responseComplete = σ.core.queue.responseComplete := by rw [hctl]
  have hsub' : q.responseSubmitted = true := by
    rw [hctl]
    exact hsub
  have hnotcan : q.responseCancelled ≠ true := by simp [hcan]
  have hclosed : σ.isOpen = false → q.responseCancelled = true := by
    intro hopen
    rw [hctl]
    exact h.closed hopen
  unfold readAnswer at hinv ⊢
  split_ifs at hinv ⊢ with hwait
  · refine ⟨hinv, fun hcancel => absurd hcancel hnotcan, hclosed, fun he => ⟨hsub', ?_⟩, h.producing,
      h.ending, fun _ => ⟨hi.kept, hi.fits, hi.heap, fun hcomplete => ?_, fun he => ?_⟩⟩
    · exact hcompl.trans (h.ended (by simpa [Request.afterRead] using he)).2
    · exact hi.settled (hcompl.symm.trans hcomplete)
    · exact hi.whole (by simpa [Request.afterRead] using he)
  · refine ⟨hinv, fun hcancel => absurd hcancel hnotcan, hclosed, fun he => ⟨hsub', ?_⟩, h.producing,
      h.ending, fun _ => ⟨hi.kept, hi.fits, hi.heap, fun hcomplete => ?_, fun he => ?_⟩⟩
    · simp only [Request.afterRead, Bool.or_eq_true, Bool.and_eq_true] at he
      exact hcompl.trans (he.elim (fun he => (h.ended he).2) fun he => he.2)
    · exact hi.settled (hcompl.symm.trans hcomplete)
    · change σ.core.handed ++ vec.flatten = σ.passed
      simp only [Request.afterRead, Bool.or_eq_true, Bool.and_eq_true, decide_eq_true_eq] at he
      rcases he with he | ⟨hall, hcomplete⟩
      · -- The end was reported before, so nothing can be left for these vectors.
        have hle : σ.core.handed ++ vec.flatten <+: σ.passed := handed_le_passed hinv hcan hi.kept
        refine hle.eq_of_length_le ?_
        rw [← hi.whole he, List.length_append]
        omega
      · rw [hi.passed_eq h.inv hl hcomplete, ← hprod, ← hall, hhand]

/-- Setting `response_complete` is sound when the body is all with append. -/
theorem Whole.completed (h : Whole limit σ)
    (howed : σ.live = true → σ.owed = [] ∧ σ.core.producer = none) : Whole limit σ.completed := by
  refine ⟨?_, h.shut, h.closed, fun he => ⟨(h.ended he).1, rfl⟩, h.producing, h.ending, fun hl => ?_⟩
  · exact inv_setQueue h.inv (fun _ hb => implements_complete hb σ.core.flags) rfl id
  · have hi := h.intact hl
    exact ⟨hi.kept, hi.fits, hi.heap, fun _ => howed hl, hi.whole⟩

theorem Whole.ack (h : Whole limit σ) (now : ℤ) {n : ℕ}
    (hn : σ.core.acked + n ≤ σ.core.handed.length) :
    ∃ q, h3StreamResponseAckLocked now n σ.core.queue = some q ∧
      Whole limit { σ with core := { σ.core with queue := q, acked := σ.core.acked + n } } := by
  obtain ⟨b, hb, -, hhand, hack⟩ := h.inv.transfer
  obtain ⟨q, hq, hinv⟩ := inv_ack h.inv now hn
  obtain ⟨q', hq', -, hctl⟩ := ack_implements now hb (n := n) (by rwa [hack, hhand])
  obtain rfl : q = q' := Option.some.inj (hq.symm.trans hq')
  have hkeep : q.responseSubmitted = σ.core.queue.responseSubmitted ∧
      q.responseComplete = σ.core.queue.responseComplete ∧
      q.responseCancelled = σ.core.queue.responseCancelled := by
    rw [hctl]
    unfold ResponseCtl.ackLocked
    split_ifs <;> exact ⟨rfl, rfl, rfl⟩
  refine ⟨q, hq, hinv, fun hcancel => ?_, fun hopen => hkeep.2.2.trans (h.closed hopen),
    fun he => ⟨hkeep.1.trans (h.ended he).1, hkeep.2.1.trans (h.ended he).2⟩, h.producing,
    h.ending, fun hl => ?_⟩
  · have hshut := h.shut (hkeep.2.2.symm.trans hcancel)
    rwa [← hkeep.1] at hshut
  · obtain ⟨hs, hc⟩ := live_iff.mp hl
    have hi := h.intact (live_iff.mpr ⟨hs, hkeep.2.2.symm.trans hc⟩)
    exact ⟨hi.kept, hi.fits, hi.heap, fun hcomplete => hi.settled (hkeep.2.1.symm.trans hcomplete),
      hi.whole⟩

/-- A session that goes away makes no promise any more. -/
theorem Whole.setFlags (h : Whole limit σ) {flags : SessionFlags}
    (hg : σ.core.flags.gone = true → flags.gone = true) :
    Whole limit { σ with core := { σ.core with flags := flags } } := by
  have hserving : flags.gone = false → σ.core.flags.gone = false := by
    intro hf
    by_contra hne
    rw [hg (by simpa using hne)] at hf
    cases hf
  refine ⟨inv_flags h.inv hg, fun hcancel => ?_, h.closed, h.ended, h.producing, h.ending,
    fun hl => ?_⟩
  · refine (h.shut hcancel).imp_right fun hs => ?_
    simp only [Request.serving, Bool.and_eq_false_iff, Bool.not_eq_false'] at hs ⊢
    exact hs.imp_right hg
  · obtain ⟨hs, hc⟩ := live_iff.mp hl
    simp only [Request.serving, Bool.and_eq_true, Bool.not_eq_true'] at hs
    have hs' : σ.serving = true := by
      simp only [Request.serving, Bool.and_eq_true, Bool.not_eq_true']
      exact ⟨hs.1, hserving hs.2⟩
    have hi := h.intact (live_iff.mpr ⟨hs', hc⟩)
    exact ⟨hi.kept, hi.fits, hi.heap, hi.settled, hi.whole⟩

theorem Whole.pass (h : Whole limit σ) (hw : σ.worker = .handler) {mainRequest : Bool}
    {bb : List Bucket} (hsound : σ.Sound conf (.pass mainRequest bb)) :
    Whole limit { σ with
      worker := if mainRequest then .filter bb else .handler
      passed := σ.passed ++ brigadeBytes bb } := by
  have hp : σ.core.producer = none := h.idle (by simp [hw, Worker.appends])
  refine ⟨h.inv, h.shut, h.closed, h.ended, ?_, ?_, fun hl => ?_⟩
  · intro data offset hdata
    rw [hp] at hdata
    cases hdata
  · intro hends
    cases mainRequest <;> cases hends
  · have hi := h.intact hl
    obtain ⟨rfl, hnil⟩ : mainRequest = true ∧ _ := hsound hl
    have howed : σ.owed = σ.ctx.dataheap := by simp [owed, hw, Worker.early, Worker.rest, brigadeBytes]
    refine ⟨?_, hi.fits, hi.heap, fun hcomplete => ⟨?_, hp⟩, fun he => ?_⟩
    · rw [hi.kept, howed]
      simp [owed, Worker.early, Worker.rest]
    · have hheap := (hi.settled hcomplete).1
      rw [howed] at hheap
      simp [owed, Worker.early, Worker.rest, hheap, hnil hcomplete]
    · rw [hnil (h.ended he).2, List.append_nil]
      exact hi.whole he

theorem Whole.finish (h : Whole limit σ) (hw : σ.worker = .finishing) (accepted : Bool) :
    Whole limit (σ.finish accepted) := by
  have hp : σ.core.producer = none := h.idle (by simp [hw, Worker.appends])
  unfold Request.finish
  refine h.responseStart accepted (fun q hq _ => ?_) fun q hq hl => hq.moveDead hp hl rfl
  have hbody : (σ.setQueue q).live = true → (σ.setQueue q).owed = σ.ctx.heldBody := by
    intro hl
    have hi := hq.intact hl
    have hfits : σ.ctx.responseTooLarge = false := hi.fits
    have howed : (σ.setQueue q).owed = σ.ctx.dataheap := by
      simp [owed, Request.setQueue, hw, Worker.early, Worker.rest, brigadeBytes]
    rw [howed, ConnCtx.heldBody, hfits, if_neg (by simp)]
    cases hstream : σ.ctx.streaming with
    | false => rfl
    | true => exact hi.heap hstream
  by_cases hnil : σ.ctx.heldBody = []
  · rw [if_pos hnil]
    refine hq.moveOn hp rfl fun hl => ?_
    rw [hbody hl, hnil]
    rfl
  · rw [if_neg hnil]
    refine hq.callAppend hp hnil rfl fun hl => ?_
    rw [hbody hl]
    simp [owed, Request.callAppend, Worker.early, Worker.rest, brigadeBytes]

theorem Whole.endOfStream (h : Whole limit σ) {bb : List Bucket} (hw : σ.worker = .ending bb)
    (hsound : σ.Sound conf .endOfStream) : Whole limit (σ.completed.filterNext bb) := by
  have hp : σ.core.producer = none := h.idle (by simp [hw, Worker.appends])
  have hstream := h.ending (by simp [hw, Worker.ends])
  have hdone : Whole limit σ.completed := by
    refine h.completed fun hl => ⟨?_, hp⟩
    have hrest : brigadeBytes σ.worker.rest = [] := hsound hl
    simp [owed, (h.intact hl).heap hstream, hrest]
  refine hdone.moveOn hp rfl fun hl => ?_
  simp [owed, Request.completed, Request.setQueue, hw, Worker.early, Worker.rest]

theorem Whole.complete (h : Whole limit σ) (hw : σ.worker = .completing) :
    Whole limit { σ.completed with worker := .finished } := by
  have hp : σ.core.producer = none := h.idle (by simp [hw, Worker.appends])
  have howed : σ.owed = [] := by simp [owed, hw, Worker.early, Worker.rest, brigadeBytes]
  have hdone : Whole limit σ.completed := h.completed fun _ => ⟨howed, hp⟩
  exact hdone.moveOn hp rfl fun _ => howed.symm

/-- Only a response that cannot reach the client loses its producer to a failed wait. -/
theorem Whole.waitFails (h : Whole limit σ) (hsome : σ.core.producer.isSome = true)
    (hsound : σ.Sound conf .waitFails) :
    Whole limit { σ with
      core := { σ.core with producer := none }
      worker := appendReturns false σ.worker } := by
  obtain ⟨⟨data, offset⟩, hp⟩ := Option.isSome_iff_exists.mp hsome
  have hl : σ.live = false := by
    by_contra hne
    exact hsound (by simpa using hne)
  refine h.appendFails hp hl ⟨⟨h.inv.transfer, h.inv.limit_eq⟩, fun hc => ?_⟩ rfl rfl rfl id id
  have hc' : σ.core.queue.responseCancelled = false := hc
  have hopen : σ.isOpen = true := by
    by_contra hne
    have hcancel := h.closed (by simpa using hne)
    rw [hc'] at hcancel
    cases hcancel
  have hgone : σ.core.flags.gone = true := by
    simpa [Request.live, Request.serving, hopen, hc'] using hl
  exact .inr ⟨hgone, h.inv.appended_le hc'⟩

/-- Cancelling outside a sound step is only possible when nobody is served. -/
theorem Whole.cancelDead (h : Whole limit σ) (hl : σ.live = false) : Whole limit σ.cancel :=
  h.cancel (h.shutOfDead hl)

theorem Whole.streamClose (h : Whole limit σ) :
    Whole limit { σ.cancel with isOpen := false } := by
  refine ⟨?_, fun _ => .inr rfl, fun _ => rfl, fun he => ⟨(h.ended he).1, rfl⟩, h.producing, h.ending,
    fun hl => ?_⟩
  · exact inv_setQueue h.inv (fun _ => implements_cancel) rfl fun _ => rfl
  · cases hl

/-- Every enabled sound action has a result, and keeps the response whole. -/
theorem Whole.exec (h : Whole limit σ) {a : RequestAction} (ha : σ.enabled a = true)
    (hsound : σ.Sound conf a) : ∃ τ, σ.exec conf a = some τ ∧ Whole limit τ := by
  cases a with
  | pass mainRequest bb => exact ⟨_, rfl, h.pass (by simpa [Request.enabled] using ha) hsound⟩
  | bucket accepted headerOnly =>
    cases hw : σ.worker with
    | filter bb =>
      cases bb with
      | nil =>
        refine ⟨σ.filterReturns, by simp [Request.exec, hw], ?_⟩
        refine h.moveOn (h.idle (by simp [hw, Worker.appends])) rfl fun _ => ?_
        simp [owed, hw, Worker.early, Worker.rest]
      | cons b bb =>
        refine ⟨_, by simp [Request.exec, hw]; rfl, h.filterBucket hw accepted headerOnly fun hl => ?_⟩
        have hbucket : σ.SoundBucket conf headerOnly σ.worker.rest := hsound hl
        rwa [hw] at hbucket
    | _ => simp [Request.enabled, hw] at ha
  | append malloc =>
    simp only [Request.enabled, Bool.and_eq_true, Option.all_eq_true, Option.isNone_iff_eq_none] at ha
    obtain ⟨⟨data, offset⟩, hp⟩ := Option.isSome_iff_exists.mp ha.1
    obtain ⟨x, hx, hwhole⟩ := h.append hp ha.2 hsound
    exact ⟨_, by simp only [Request.exec, hp, hx, Option.map_some], hwhole⟩
  | waitFails =>
    simp only [Request.enabled, Bool.and_eq_true] at ha
    exact ⟨_, rfl, h.waitFails ha.1 hsound⟩
  | endOfStream =>
    cases hw : σ.worker with
    | ending bb => exact ⟨_, by simp only [Request.exec, hw], h.endOfStream hw hsound⟩
    | _ => simp [Request.enabled, hw] at ha
  | endHandler =>
    have hw : σ.worker = .handler := by simpa [Request.enabled] using ha
    refine ⟨_, rfl, h.moveOn (h.idle (by simp [hw, Worker.appends])) rfl fun _ => ?_⟩
    simp [owed, hw, Worker.early, Worker.rest]
  | respond accepted => exact ⟨_, rfl, h.finish (by simpa [Request.enabled] using ha) accepted⟩
  | complete => exact ⟨_, rfl, h.complete (by simpa [Request.enabled] using ha)⟩
  | read veccnt =>
    simp only [Request.enabled, Bool.and_eq_true, decide_eq_true_eq] at ha
    obtain ⟨x, hx, hwhole⟩ := h.read ha.2 ha.1.1 ha.1.2
    exact ⟨_, by simp only [Request.exec, hx, Option.map_some], hwhole⟩
  | ack now n =>
    obtain ⟨q, hq, hwhole⟩ := h.ack now (of_decide_eq_true ha)
    exact ⟨_, by simp only [Request.exec, hq, Option.map_some], hwhole⟩
  | abandon stallTimeout now =>
    refine ⟨_, rfl, ?_⟩
    split_ifs with hstalled
    · refine h.cancelDead ?_
      by_contra hne
      have hnot := hsound (by simpa using hne)
      simp [hstalled] at hnot
    · exact h
  | stopSending =>
    refine ⟨_, rfl, h.cancelDead ?_⟩
    by_contra hne
    exact hsound (by simpa using hne)
  | resetStream =>
    refine ⟨_, rfl, h.cancelDead ?_⟩
    by_contra hne
    exact hsound (by simpa using hne)
  | streamClose => exact ⟨_, rfl, h.streamClose⟩
  | abort => exact ⟨_, rfl, h.setFlags fun _ => by simp [SessionFlags.gone]⟩
  | dead => exact ⟨_, rfl, h.setFlags fun _ => by simp [SessionFlags.gone]⟩

end

private theorem whole_reach {conf : RequestConf} {streaming : Bool} {limit : ℕ} {now : ℤ}
    {flags : SessionFlags} {σ : Request}
    (h : Reach (step conf) (Sound conf) (.start streaming limit now flags) σ) : Whole limit σ := by
  refine h.invariant (whole_start streaming limit now flags) ?_
  intro s a t hs hok hstep
  unfold Request.step at hstep
  split_ifs at hstep with ha
  obtain ⟨τ, hτ, hwhole⟩ := hs.exec ha hok
  rw [hτ] at hstep
  cases hstep
  exact hwhole

/-- In sound runs, while nghttp3 has the stream on a live session, the end of the stream was
reported only if every byte the handler passed into the filter was handed out. -/
theorem eof_only_when_whole (conf : RequestConf) (streaming : Bool) (limit : ℕ) (now : ℤ)
    (flags : SessionFlags) {σ : Request}
    (h : Reach (step conf) (Sound conf) (.start streaming limit now flags) σ)
    (hserving : σ.serving = true) (heof : σ.eof = true) : σ.core.handed = σ.passed := by
  have hwhole := whole_reach h
  obtain ⟨hsub, -⟩ := hwhole.ended heof
  have hc : σ.core.queue.responseCancelled = false := by
    by_contra hne
    rcases hwhole.shut (by simpa using hne) with hcon | hcon
    · rw [hsub] at hcon
      cases hcon
    · rw [hserving] at hcon
      cases hcon
  exact (hwhole.intact (live_iff.mpr ⟨hserving, hc⟩)).whole heof

def exampleConf : RequestConf := ⟨1000, true, 1000⟩

/-- A streamed response that fills the queue, drains and ends. -/
def wholeRun : List RequestAction :=
  [.pass true [.data [⟨[1, 2], true⟩, ⟨[3], true⟩], .eos], .bucket true false, .append (some 7),
    .read 16, .ack 1 2, .bucket true false, .append (some 8), .bucket true false, .endOfStream,
    .bucket true false, .endHandler, .respond true, .complete, .read 16]

theorem eof_only_when_whole_run :
    ∃ σ, runChecked (step exampleConf) (Sound exampleConf) (.start true 2 0 ⟨false, false, true⟩)
        wholeRun = some σ ∧
      σ.serving = true ∧ σ.eof = true ∧ σ.passed = [1, 2, 3] ∧ σ.core.handed = σ.passed := by
  have hrun : (runChecked (step exampleConf) (Sound exampleConf)
      (.start true 2 0 ⟨false, false, true⟩) wholeRun).map
        (fun σ => (σ.serving, σ.eof, σ.passed)) = some (true, true, [1, 2, 3]) := by
    decide +kernel
  obtain ⟨σ, hσ, hval⟩ := Option.map_eq_some_iff.mp hrun
  simp only [Prod.mk.injEq] at hval
  obtain ⟨hserving, heof, hpassed⟩ := hval
  have hwhole := eof_only_when_whole exampleConf true 2 0 ⟨false, false, true⟩
    (Reach.of_runChecked wholeRun hσ) hserving heof
  exact ⟨σ, hσ, hserving, heof, hpassed, hwhole⟩

/-- A response abandoned as stalled, an append that runs out of memory, and a buffered body
with a bucket that cannot be read. -/
def cutShortRuns : List (Bool × List RequestAction) :=
  [(true, [.pass true [.data [⟨[1, 2, 3], true⟩], .eos], .bucket true false, .append (some 7),
      .read 16, .abandon 10 100, .read 16]),
    (true, [.pass true [.data [⟨[1, 2, 3], true⟩], .eos], .bucket true false, .append (some 7),
      .read 16, .ack 1 2, .append none, .read 16]),
    (false, [.pass true [.data [⟨[1], true⟩], .data [⟨[2], false⟩], .eos], .bucket true false,
      .bucket true false, .bucket true false, .bucket true false, .endHandler, .respond true,
      .append (some 7), .complete, .read 16])]

theorem cut_short_ended_as_complete :
    cutShortRuns.Forall fun run => ∃ σ,
      Reach (step exampleConf) anyStep (.start run.1 2 0 ⟨false, false, true⟩) σ ∧
        σ.serving = true ∧ σ.eof = true ∧ σ.core.handed ≠ σ.passed := by
  have hruns : ∀ run ∈ cutShortRuns, ((runActions (step exampleConf)
      (.start run.1 2 0 ⟨false, false, true⟩) run.2).map fun σ =>
        (σ.serving, σ.eof, decide (σ.core.handed = σ.passed))) = some (true, true, false) := by
    decide +kernel
  refine List.forall_iff_forall_mem.mpr fun run hmem => ?_
  obtain ⟨σ, hσ, hval⟩ := Option.map_eq_some_iff.mp (hruns run hmem)
  simp only [Prod.mk.injEq, decide_eq_false_iff_not] at hval
  exact ⟨σ, Reach.of_runActions run.2 hσ, hval⟩

end Request

end ModHttp3.Response
