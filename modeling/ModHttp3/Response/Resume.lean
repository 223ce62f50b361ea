import ModHttp3.Response.Steps

/-! Responses that nghttp3 waits for: its flag for a stream whose reader had no data, which only
`nghttp3_conn_resume_stream` clears. -/
namespace ModHttp3.Response
open Lib

/-- The response of a stream, its session, and whether nghttp3 holds the stream data-blocked. -/
structure Feed where
  queue : Queue
  flags : SessionFlags
  blocked : Bool

/-- One critical section of a worker or of the event thread. `append` is an iteration of the loop in
`h3_stream_response_append`; `cancel` comes from callbacks and from stalled responses. -/
inductive FeedAct
  | submit (accepted : Bool)
  | append (data : Bytes) (offset : ℕ) (malloc : Option Addr)
  | complete
  | read (veccnt : ℕ)
  | ack (now : ℤ) (datalen : ℕ)
  | cancel
  | abort
  | dead
  | destroy

def Feed.start (limit : ℕ) (now : ℤ) (flags : SessionFlags) : Feed := ⟨.new limit now, flags, false⟩

def Feed.afterAppend (w : Feed) : AppendStep × Queue → Feed
  | (.queued _ true, q) => { w with queue := q, blocked := false }
  | (_, q) => { w with queue := q }

/-- nghttp3 reads a response after it was submitted, and is gone once the session is destroyed. -/
def Feed.step (sizeMax : ℕ) (w : Feed) : FeedAct → Option Feed
  | .submit accepted => some { w with queue := (submitResponseNva w.flags accepted w.queue).2 }
  | .append data offset malloc =>
    (h3StreamResponseAppend sizeMax w.flags data offset malloc w.queue).map w.afterAppend
  | .complete =>
    let completed := h3StreamResponseComplete w.flags w.queue
    some { w with queue := completed.1, blocked := w.blocked && !completed.2 }
  | .read veccnt =>
    if w.queue.responseSubmitted && w.flags.ngh3 then
      (h3SessionReadData veccnt w.queue).map fun p =>
        { w with queue := p.2, blocked := w.blocked || p.1 == .wouldblock }
    else none
  | .ack now datalen =>
    (h3StreamResponseAckLocked now datalen w.queue).map fun q => { w with queue := q }
  | .cancel => some { w with queue := h3StreamResponseCancelLocked w.queue }
  | .abort => some { w with flags := { w.flags with aborted := true } }
  | .dead => some { w with flags := { w.flags with ngh3Dead := true } }
  | .destroy => some
      { queue := h3StreamResponseCancelLocked w.queue
        flags := { w.flags with ngh3 := false }
        blocked := false }

section
variable {r r' : Queue}

/-- Acknowledgements move neither the reader's cursor nor the response's flags. -/
structure SameReader (r r' : Queue) : Prop where
  submitChunk : r'.responseSubmitChunk = r.responseSubmitChunk
  submitted : r'.responseSubmitted = r.responseSubmitted
  complete : r'.responseComplete = r.responseComplete
  cancelled : r'.responseCancelled = r.responseCancelled

theorem SameReader.trans {r'' : Queue} (h : SameReader r r') (h' : SameReader r' r'') :
    SameReader r r'' :=
  ⟨h'.submitChunk.trans h.submitChunk, h'.submitted.trans h.submitted,
    h'.complete.trans h.complete, h'.cancelled.trans h.cancelled⟩

private theorem ackHead_sameReader {now : ℤ} {datalen rest : ℕ} {a : Addr}
    (h : ackHead now datalen a r = some (rest, r')) : SameReader r r' := by
  unfold ackHead at h
  simp only [Option.bind_eq_bind, Option.bind_eq_some_iff, Option.pure_def] at h
  obtain ⟨node, -, q, -, h⟩ := h
  split_ifs at h
  · obtain ⟨q', -, hq'⟩ := Option.bind_eq_some_iff.mp h
    cases hq'
    exact ⟨rfl, rfl, rfl, rfl⟩
  · cases h
    exact ⟨rfl, rfl, rfl, rfl⟩

theorem ackLoop_sameReader (now : ℤ) (fuel : ℕ) {datalen : ℕ}
    (h : ackLoop now fuel datalen r = some r') : SameReader r r' := by
  induction fuel generalizing datalen r with
  | zero =>
    unfold ackLoop at h
    split_ifs at h
    · cases h
      exact ⟨rfl, rfl, rfl, rfl⟩
    · split at h
      · cases h
        exact ⟨rfl, rfl, rfl, rfl⟩
      · cases h
  | succ fuel ih =>
    unfold ackLoop at h
    split_ifs at h
    · cases h
      exact ⟨rfl, rfl, rfl, rfl⟩
    · split at h
      · cases h
        exact ⟨rfl, rfl, rfl, rfl⟩
      · obtain ⟨⟨rest, r₁⟩, hhead, hrest⟩ := Option.bind_eq_some_iff.mp h
        exact (ackHead_sameReader hhead).trans (ih hrest)

theorem readLoop_none (veccnt : ℕ) (h : r.responseSubmitChunk = none) :
    readLoop veccnt r = some ([], r) := by
  cases veccnt with
  | zero => rfl
  | succ veccnt =>
    unfold readLoop
    rw [h]

private theorem readLoop_ctl (veccnt : ℕ) {vec : List Bytes} (h : readLoop veccnt r = some (vec, r')) :
    r'.toResponseCtl = r.toResponseCtl := by
  induction veccnt generalizing r vec with
  | zero =>
    cases h
    rfl
  | succ veccnt ih =>
    unfold readLoop at h
    split at h
    · cases h
      rfl
    · simp only [Option.bind_eq_bind, Option.bind_eq_some_iff, Option.pure_def, Option.some.injEq,
        Prod.mk.injEq, Prod.exists] at h
      obtain ⟨node, -, vec', r₁, hloop, -, rfl⟩ := h
      have hctl := ih hloop
      exact hctl

/-- A reader with room for a vector gets none only at the end of the queue. -/
private theorem readLoop_nil {veccnt : ℕ} (hv : veccnt ≠ 0) (h : readLoop veccnt r = some ([], r')) :
    r'.responseSubmitChunk = none := by
  cases hchunk : r.responseSubmitChunk with
  | none =>
    rw [readLoop_none veccnt hchunk] at h
    cases h
    exact hchunk
  | some a =>
    obtain ⟨n, rfl⟩ := Nat.exists_eq_succ_of_ne_zero hv
    unfold readLoop at h
    simp only [hchunk, Option.bind_eq_bind, Option.bind_eq_some_iff, Option.pure_def,
      Option.some.injEq, Prod.mk.injEq, Prod.exists] at h
    obtain ⟨node, -, vec', r₁, -, hcons, -⟩ := h
    cases hcons

theorem readData_ctl {veccnt : ℕ} {answer : ReadData}
    (h : h3SessionReadData veccnt r = some (answer, r')) : r'.toResponseCtl = r.toResponseCtl := by
  unfold h3SessionReadData at h
  split_ifs at h
  · cases h
    rfl
  · cases h
    rfl
  · obtain ⟨⟨vec, r₁⟩, hloop, hans⟩ := Option.map_eq_some_iff.mp h
    have hctl := readLoop_ctl veccnt hloop
    split_ifs at hans <;> cases hans <;> exact hctl

private theorem readData_none {veccnt : ℕ} {answer : ReadData} (hchunk : r.responseSubmitChunk = none)
    (h : h3SessionReadData veccnt r = some (answer, r')) : r' = r := by
  unfold h3SessionReadData at h
  rw [readLoop_none veccnt hchunk] at h
  split_ifs at h
  · cases h
    rfl
  · cases h
    rfl
  · obtain ⟨p, hp, hans⟩ := Option.map_eq_some_iff.mp h
    cases hp
    split_ifs at hans <;> cases hans <;> rfl

/-- The reader is told to wait only when nothing is queued and more may come. -/
private theorem readData_wouldblock {veccnt : ℕ} (h : h3SessionReadData veccnt r = some (.wouldblock, r')) :
    r'.responseSubmitChunk = none ∧ r'.responseComplete = false := by
  unfold h3SessionReadData at h
  split_ifs at h with hv
  · cases h
  · cases h
  · obtain ⟨⟨vec, r₁⟩, hloop, hans⟩ := Option.map_eq_some_iff.mp h
    split_ifs at hans with hvec hcomplete
    · cases hans
    · cases hans
    · cases hans
      obtain rfl : vec = [] := by simpa using hvec
      exact ⟨readLoop_nil hv hloop, by simpa using hcomplete⟩

end

/-- A blocked reader has a response to wait for; while that is neither cancelled nor on a dead
session, nothing is queued for it and more may come. -/
structure Feed.Supplied (w : Feed) : Prop where
  submitted : w.blocked → w.queue.responseSubmitted
  ngh3 : w.blocked → w.flags.ngh3
  waits : w.blocked → w.queue.responseCancelled = false → w.flags.ngh3Dead = false →
    w.queue.responseSubmitChunk = none ∧ w.queue.responseComplete = false

namespace Feed.Supplied

variable {sizeMax : ℕ} {w w' : Feed}

/-- The reader is no longer blocked. -/
theorem resumed (h : w.blocked = false) : w.Supplied :=
  ⟨fun hb => absurd hb (by simp [h]), fun hb => absurd hb (by simp [h]), fun hb => absurd hb (by simp [h])⟩

theorem same (h : w.Supplied) {q : Queue} (hq : SameReader w.queue q) :
    Supplied { w with queue := q } where
  submitted := fun hb => hq.submitted.trans (h.submitted hb)
  ngh3 := h.ngh3
  waits := by
    intro hb hc hd
    obtain ⟨hchunk, hcomplete⟩ := h.waits hb (hq.cancelled.symm.trans hc) hd
    exact ⟨hq.submitChunk.trans hchunk, hq.complete.trans hcomplete⟩

theorem cancel (h : w.Supplied) : Supplied { w with queue := h3StreamResponseCancelLocked w.queue } :=
  ⟨h.submitted, h.ngh3, fun _ hc => by cases hc⟩

theorem submit (h : w.Supplied) (accepted : Bool) :
    Supplied { w with queue := (submitResponseNva w.flags accepted w.queue).2 } := by
  unfold submitResponseNva
  split_ifs with hsub hgone hacc
  · exact h
  · exact h
  · exact ⟨fun _ => rfl, h.ngh3, h.waits⟩
  · exact h.cancel

/-- A chunk is queued behind a blocked reader only together with its resumption. -/
theorem append (h : w.Supplied) {data : Bytes} {offset : ℕ} {malloc : Option Addr}
    (hs : w.step sizeMax (.append data offset malloc) = some w') : w'.Supplied := by
  obtain ⟨x, hx, rfl⟩ := Option.map_eq_some_iff.mp hs
  unfold h3StreamResponseAppend at hx
  dsimp only at hx
  split_ifs at hx with hwaits hgone hlen
  · cases hx
    exact h
  · cases hx
    exact h
  · cases hx
    exact h.cancel
  · cases malloc with
    | none =>
      cases hx
      exact h.cancel
    | some a =>
      obtain ⟨q, hq, rfl⟩ := Option.map_eq_some_iff.mp hx
      cases hsub : w.queue.responseSubmitted with
      | true => exact resumed rfl
      | false =>
        have hb : w.blocked = false := by
          by_contra hb
          have := h.submitted (by simpa using hb)
          rw [hsub] at this
          cases this
        exact resumed hb

theorem complete (h : w.Supplied) (hs : w.step sizeMax .complete = some w') : w'.Supplied := by
  cases hs
  refine ⟨?_, ?_, ?_⟩
  · intro hb
    exact h.submitted (Bool.and_eq_true_iff.mp hb).1
  · intro hb
    exact h.ngh3 (Bool.and_eq_true_iff.mp hb).1
  · intro hb _ hd
    obtain ⟨hblocked, hnot⟩ := Bool.and_eq_true_iff.mp hb
    have hsub := h.submitted hblocked
    have hngh3 := h.ngh3 hblocked
    have hd : w.flags.ngh3Dead = false := hd
    simp [h3StreamResponseComplete, hsub, hngh3, hd] at hnot

theorem read (h : w.Supplied) {veccnt : ℕ} (hs : w.step sizeMax (.read veccnt) = some w') :
    w'.Supplied := by
  unfold Feed.step at hs
  split_ifs at hs with hen
  obtain ⟨hsub, hngh3⟩ := Bool.and_eq_true_iff.mp hen
  obtain ⟨⟨answer, q⟩, hread, rfl⟩ := Option.map_eq_some_iff.mp hs
  have hctl := readData_ctl hread
  refine ⟨fun _ => (congrArg ResponseCtl.responseSubmitted hctl).trans hsub, fun _ => hngh3, ?_⟩
  intro hb hc hd
  rcases Bool.or_eq_true_iff.mp hb with hold | hnew
  · have hc' : w.queue.responseCancelled = false :=
      (congrArg ResponseCtl.responseCancelled hctl).symm.trans hc
    obtain ⟨hchunk, hcomplete⟩ := h.waits hold hc' hd
    obtain rfl := readData_none hchunk hread
    exact ⟨hchunk, hcomplete⟩
  · obtain rfl : answer = .wouldblock := by simpa using hnew
    exact readData_wouldblock hread

theorem step (h : w.Supplied) {act : FeedAct} (hs : w.step sizeMax act = some w') : w'.Supplied := by
  cases act with
  | submit accepted =>
    cases hs
    exact h.submit accepted
  | append data offset malloc => exact h.append hs
  | complete => exact h.complete hs
  | read veccnt => exact h.read hs
  | ack now datalen =>
    obtain ⟨q, hq, rfl⟩ := Option.map_eq_some_iff.mp hs
    exact h.same (ackLoop_sameReader now datalen hq)
  | cancel =>
    cases hs
    exact h.cancel
  | abort =>
    cases hs
    exact ⟨h.submitted, h.ngh3, h.waits⟩
  | dead =>
    cases hs
    exact ⟨h.submitted, h.ngh3, fun _ _ hd => by cases hd⟩
  | destroy =>
    cases hs
    exact resumed rfl

end Feed.Supplied

/-- A stream that is data-blocked in nghttp3, not cancelled and on a session that is not dead has
no unsubmitted chunk, and its response is not complete. -/
theorem no_lost_resume {sizeMax limit : ℕ} {now : ℤ} {flags : SessionFlags} {w : Feed}
    (h : Reach (Feed.step sizeMax) anyStep (.start limit now flags) w) (hb : w.blocked)
    (hc : w.queue.responseCancelled = false) (hd : w.flags.ngh3Dead = false) :
    w.queue.responseSubmitChunk = none ∧ w.queue.responseComplete = false := by
  have hsupplied : w.Supplied :=
    h.invariant (Feed.Supplied.resumed rfl) fun _ _ _ hi _ hs => hi.step hs
  exact hsupplied.waits hb hc hd

/-- A response is submitted, runs dry, gets a chunk, and runs dry again. -/
def dryRun : List FeedAct :=
  [.submit true, .read 1, .append [1, 2] 0 (some 0), .read 1, .read 1]

theorem no_lost_resume_dry :
    ∃ w, Reach (Feed.step 1000) anyStep (.start 10 0 ⟨false, false, true⟩) w ∧ w.blocked ∧
      w.queue.responseLen = 2 ∧ w.queue.responseSubmitChunk = none ∧
      w.queue.responseComplete = false := by
  have hrun : (runActions (Feed.step 1000) (.start 10 0 ⟨false, false, true⟩) dryRun).map
      (fun w => (w.blocked, w.queue.responseCancelled, w.flags.ngh3Dead, w.queue.responseLen)) =
        some (true, false, false, 2) := by
    decide +kernel
  obtain ⟨w, hw, he⟩ := Option.map_eq_some_iff.mp hrun
  simp only [Prod.mk.injEq] at he
  obtain ⟨hb, hc, hd, hlen⟩ := he
  have hr := Reach.of_runActions _ hw
  exact ⟨w, hr, hb, hlen, no_lost_resume hr hb hc hd⟩

/-- A request's response as nghttp3 sees it. -/
def Request.feed (σ : Request) (blocked : Bool) : Feed := ⟨σ.core.queue, σ.core.flags, blocked⟩

/-- The response after one critical section, or untouched. -/
def Request.FeedsTo (sizeMax : ℕ) (σ σ' : Request) : Prop :=
  ∀ b, ∃ b', Reach (Feed.step sizeMax) anyStep (σ.feed b) (σ'.feed b')

namespace Request

variable {sizeMax : ℕ} {conf : RequestConf} {σ σ' : Request}

theorem FeedsTo.of_eq (hq : σ'.core.queue = σ.core.queue) (hf : σ'.core.flags = σ.core.flags) :
    FeedsTo sizeMax σ σ' := by
  intro b
  have hfeed : σ'.feed b = σ.feed b := by rw [Request.feed, Request.feed, hq, hf]
  exact ⟨b, hfeed ▸ .start⟩

theorem FeedsTo.of_step (act : FeedAct)
    (h : ∀ b, ∃ b', (σ.feed b).step sizeMax act = some (σ'.feed b')) : FeedsTo sizeMax σ σ' := by
  intro b
  obtain ⟨b', hb'⟩ := h b
  exact ⟨b', .next .start trivial hb'⟩

theorem responseStart_core (accepted : Bool) {next failed : Request → Request}
    (hnext : ∀ τ, (next τ).core.queue = τ.core.queue ∧ (next τ).core.flags = τ.core.flags)
    (hfailed : ∀ τ, (failed τ).core.queue = τ.core.queue ∧ (failed τ).core.flags = τ.core.flags) :
    (σ.responseStart accepted next failed).core.queue = (submitResponseNva σ.core.flags accepted σ.core.queue).2 ∧
      (σ.responseStart accepted next failed).core.flags = σ.core.flags := by
  unfold responseStart
  split
  · rename_i q hq
    rw [(hnext _).1, (hnext _).2, hq]
    exact ⟨rfl, rfl⟩
  · rename_i q _ hq
    rw [(hfailed _).1, (hfailed _).2, hq]
    exact ⟨rfl, rfl⟩

theorem feeds_responseStart (accepted : Bool) {next failed : Request → Request}
    (hnext : ∀ τ, (next τ).core.queue = τ.core.queue ∧ (next τ).core.flags = τ.core.flags)
    (hfailed : ∀ τ, (failed τ).core.queue = τ.core.queue ∧ (failed τ).core.flags = τ.core.flags) :
    FeedsTo sizeMax σ (σ.responseStart accepted next failed) := by
  obtain ⟨hqueue, hflags⟩ := responseStart_core (σ := σ) accepted hnext hfailed
  apply FeedsTo.of_step (.submit accepted)
  intro b
  refine ⟨b, ?_⟩
  unfold Request.feed
  rw [hqueue, hflags]
  rfl

theorem streamBucket_core (pieces : List Piece) (bb : List Bucket) (τ : Request) :
    (streamBucket pieces bb τ).core.queue = τ.core.queue ∧
      (streamBucket pieces bb τ).core.flags = τ.core.flags := by
  unfold streamBucket
  split <;> exact ⟨rfl, rfl⟩

private theorem feeds_filterBucket (conf : RequestConf) (accepted headerOnly : Bool) (b : Bucket)
    (bb : List Bucket) (σ : Request) :
    FeedsTo sizeMax σ (σ.filterBucket conf accepted headerOnly b bb) := by
  have hsame : ∀ τ : Request, τ.core.queue = τ.core.queue ∧ τ.core.flags = τ.core.flags :=
    fun _ => ⟨rfl, rfl⟩
  unfold filterBucket
  cases b with
  | error => exact .of_eq rfl rfl
  | response =>
    dsimp only
    split_ifs
    · exact feeds_responseStart accepted hsame hsame
    · exact .of_eq rfl rfl
  | data pieces =>
    dsimp only
    split_ifs
    · exact .of_eq rfl rfl
    · exact feeds_responseStart accepted (streamBucket_core pieces bb) hsame
    · exact .of_eq rfl rfl
  | eos =>
    dsimp only
    split_ifs
    · exact feeds_responseStart accepted hsame hsame
    · exact .of_eq rfl rfl
  | flush =>
    dsimp only
    split_ifs
    · exact feeds_responseStart accepted hsame hsame
    · exact .of_eq rfl rfl
  | metadata => exact .of_eq rfl rfl

private theorem feeds_finish (accepted : Bool) (σ : Request) : FeedsTo sizeMax σ (σ.finish accepted) := by
  unfold finish
  apply feeds_responseStart
  · intro τ
    split_ifs <;> exact ⟨rfl, rfl⟩
  · exact fun _ => ⟨rfl, rfl⟩

private theorem feeds_append {malloc : Option Addr} {data : Bytes} {offset : ℕ} {x : AppendStep × Queue}
    (hx : h3StreamResponseAppend sizeMax σ.core.flags data offset malloc σ.core.queue = some x) :
    FeedsTo sizeMax σ (σ.afterAppend data offset x) := by
  apply FeedsTo.of_step (.append data offset malloc)
  intro b
  obtain ⟨outcome, q⟩ := x
  refine ⟨((σ.feed b).afterAppend (outcome, q)).blocked, ?_⟩
  have hstep : (σ.feed b).step sizeMax (.append data offset malloc) =
      some ((σ.feed b).afterAppend (outcome, q)) := by
    rw [Feed.step]
    exact congrArg (Option.map _) hx
  rw [hstep]
  cases outcome with
  | waits => rfl
  | returns rv => rfl
  | queued n resume => cases resume <;> rfl

theorem feeds_completed (σ : Request) : FeedsTo sizeMax σ σ.completed := by
  apply FeedsTo.of_step .complete
  exact fun b => ⟨_, rfl⟩

private theorem feeds_cancel (σ : Request) : FeedsTo sizeMax σ σ.cancel := by
  apply FeedsTo.of_step .cancel
  exact fun b => ⟨b, rfl⟩

private theorem feeds_read {veccnt : ℕ} {x : ReadData × Queue} (hs : σ.serving)
    (hsub : σ.core.queue.responseSubmitted) (hx : h3SessionReadData veccnt σ.core.queue = some x) :
    FeedsTo sizeMax σ (σ.afterRead x) := by
  have hngh3 : σ.core.flags.ngh3 = true := by
    simp only [serving, SessionFlags.gone, Bool.and_eq_true, Bool.not_eq_true', Bool.or_eq_false_iff,
      Bool.not_eq_false'] at hs
    exact hs.2.2
  apply FeedsTo.of_step (.read veccnt)
  intro b
  obtain ⟨answer, q⟩ := x
  refine ⟨b || answer == .wouldblock, ?_⟩
  have hen : ((σ.feed b).queue.responseSubmitted && (σ.feed b).flags.ngh3) = true :=
    Bool.and_eq_true_iff.mpr ⟨hsub, hngh3⟩
  have hread : h3SessionReadData veccnt (σ.feed b).queue = some (answer, q) := hx
  rw [Feed.step, if_pos hen, hread]
  cases answer <;> rfl

/-- Every step of a request, with its worker's own control flow, is at most one of the critical
sections above for its response. -/
private theorem step_feeds {a : RequestAction} (h : σ.step conf a = some σ') :
    FeedsTo conf.sizeMax σ σ' := by
  cases step_move h with
  | bucket hw => exact feeds_filterBucket conf _ _ _ _ σ
  | append hp hm hx => exact feeds_append hx
  | respond hw => exact feeds_finish _ σ
  | endOfStream hw => exact feeds_completed σ
  | complete hw => exact feeds_completed σ
  | read hs hsub hv hx => exact feeds_read hs hsub hx
  | @ack now datalen q hn hq =>
    apply FeedsTo.of_step (.ack now datalen)
    intro b
    have hack : h3StreamResponseAckLocked now datalen (σ.feed b).queue = some q := hq
    exact ⟨b, by rw [Feed.step, hack]; rfl⟩
  | abandoned | stopSending | resetStream | streamClose => exact feeds_cancel σ
  | abort =>
    apply FeedsTo.of_step .abort
    exact fun b => ⟨b, rfl⟩
  | dead =>
    apply FeedsTo.of_step .dead
    exact fun b => ⟨b, rfl⟩
  | passed | filtered | waitFails | endHandler | waited => exact .of_eq rfl rfl

/-- So the response of every request is reached by critical sections alone. -/
theorem reach_feeds {ok : Request → RequestAction → Prop} {streaming : Bool} {limit : ℕ} {now : ℤ}
    {flags : SessionFlags} (h : Reach (step conf) ok (.start streaming limit now flags) σ) :
    ∃ b, Reach (Feed.step conf.sizeMax) anyStep (.start limit now flags) (σ.feed b) := by
  induction h with
  | start => exact ⟨false, .start⟩
  | next _ _ hs ih =>
    obtain ⟨b, hb⟩ := ih
    obtain ⟨b', hb'⟩ := step_feeds hs b
    exact ⟨b', hb.trans hb'⟩

end Request

end ModHttp3.Response
