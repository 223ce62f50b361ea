import ModHttp3.Response.Filter

/-! What keeps a response whole on its way from the handler to the queue: which steps are
sound, and the invariant that sound worker steps preserve in both response modes. -/
namespace ModHttp3.Response
open Lib LinkedQueue

/-- The rest of the brigade the worker is in. -/
def Worker.rest : Worker → List Bucket
  | .filter bb | .appending bb | .ending bb => bb
  | _ => []

/-- The buffered body is not passed to append yet. -/
def Worker.early : Worker → Bool
  | .finalAppend | .completing | .finished => false
  | _ => true

def Worker.appends : Worker → Bool
  | .appending _ | .finalAppend => true
  | _ => false

def Worker.ends : Worker → Bool
  | .ending _ => true
  | _ => false

namespace Request

/-- Bytes taken from the handler and not yet passed to append. -/
def owed (σ : Request) : Bytes :=
  (if σ.worker.early then σ.ctx.dataheap else []) ++ brigadeBytes σ.worker.rest

/-- The response can still reach the client. -/
def live (σ : Request) : Bool := σ.serving && !σ.core.queue.responseCancelled

/-- What a filter iteration needs of its bucket: it can be read, it is body of the response,
a buffered body stays within its limit, and no data follows an error. -/
def SoundBucket (conf : RequestConf) (σ : Request) (headerOnly : Bool) : List Bucket → Prop
  | .error :: bb => brigadeBytes bb = []
  | .data pieces :: _ =>
    (conf.devel = true ∨ headerOnly = false) ∧
      ∀ piece ∈ pieces.head?, piece.readable = true ∧
        (σ.ctx.streaming = false → σ.ctx.dataheap.length + piece.bytes.length ≤ conf.limit)
  | _ => True

/-- The step does not cut a response that can still reach the client: the handler passes
nothing for a subrequest or after the end, buckets are sound, append finds memory and the
length counter has room, its wait does not fail, the response is not stalled, and nghttp3
does not stop or reset the stream. -/
def Sound (conf : RequestConf) (σ : Request) (a : RequestAction) : Prop :=
  σ.live = true → match a with
    | .pass mainRequest bb => mainRequest = true ∧
        (σ.core.queue.responseComplete = true → brigadeBytes bb = [])
    | .bucket _ headerOnly => σ.SoundBucket conf headerOnly σ.worker.rest
    | .endOfStream => brigadeBytes σ.worker.rest = []
    | .append malloc => appendWaits σ.core.flags σ.core.queue.toResponseCtl = false →
        malloc.isSome = true ∧ ∀ p ∈ σ.core.producer, σ.core.queue.responseLen +
          appendChunkLen σ.core.queue.toResponseCtl (p.1.length - p.2) ≤ conf.sizeMax
    | .abandon stallTimeout now =>
        responseStalled stallTimeout now σ.core.queue.toResponseCtl = false
    | .waitFails | .stopSending | .resetStream => False
    | _ => True

instance (conf : RequestConf) (σ : Request) (headerOnly : Bool) (bb : List Bucket) :
    Decidable (σ.SoundBucket conf headerOnly bb) :=
  match bb with
  | .error :: _ => inferInstanceAs (Decidable (_ = []))
  | .data _ :: _ => inferInstanceAs (Decidable (_ ∧ _))
  | [] | .response :: _ | .eos :: _ | .flush :: _ | .metadata :: _ =>
    inferInstanceAs (Decidable True)

instance (conf : RequestConf) (σ : Request) (a : RequestAction) : Decidable (σ.Sound conf a) :=
  match a with
  | .pass _ _ => inferInstanceAs (Decidable (_ → _ ∧ _))
  | .bucket _ headerOnly =>
    inferInstanceAs (Decidable (_ → σ.SoundBucket conf headerOnly σ.worker.rest))
  | .endOfStream => inferInstanceAs (Decidable (_ → _ = []))
  | .append _ => inferInstanceAs (Decidable (_ → _ → _ ∧ _))
  | .abandon _ _ => inferInstanceAs (Decidable (_ → _ = false))
  | .waitFails | .stopSending | .resetStream => inferInstanceAs (Decidable (_ → False))
  | .endHandler | .respond _ | .complete | .read _ | .ack _ _ | .streamClose | .abort | .dead =>
    inferInstanceAs (Decidable (_ → True))

/-- While the response can reach the client nothing is missing between the handler and append. -/
structure Intact (σ : Request) : Prop where
  kept : σ.passed = σ.core.passed ++ σ.owed
  fits : σ.ctx.responseTooLarge = false
  heap : σ.ctx.streaming = true → σ.ctx.dataheap = []
  settled : σ.core.queue.responseComplete = true → σ.owed = [] ∧ σ.core.producer = none
  whole : σ.eof = true → σ.core.handed = σ.passed

structure Whole (limit : ℕ) (σ : Request) : Prop where
  inv : Inv limit σ.core
  shut : σ.core.queue.responseCancelled = true →
    σ.core.queue.responseSubmitted = false ∨ σ.serving = false
  closed : σ.isOpen = false → σ.core.queue.responseCancelled = true
  ended : σ.eof = true →
    σ.core.queue.responseSubmitted = true ∧ σ.core.queue.responseComplete = true
  producing : ∀ data offset, σ.core.producer = some (data, offset) →
    offset < data.length ∧ σ.worker.appends = true
  ending : σ.worker.ends = true → σ.ctx.streaming = true
  intact : σ.live = true → σ.Intact

section
variable {limit : ℕ} {conf : RequestConf} {σ : Request}

theorem whole_start (streaming : Bool) (limit : ℕ) (now : ℤ) (flags : SessionFlags) :
    Whole limit (.start streaming limit now flags) := by
  refine ⟨inv_start limit now flags, ?_, ?_, ?_, ?_, ?_, fun _ => ⟨rfl, rfl, fun _ => rfl, ?_, ?_⟩⟩
  · intro h
    cases h
  · intro h
    cases h
  · intro h
    cases h
  · intro data offset h
    cases h
  · intro h
    cases h
  · intro h
    cases h
  · intro h
    cases h

theorem live_iff : σ.live = true ↔
    σ.serving = true ∧ σ.core.queue.responseCancelled = false := by
  simp [live]

theorem gone_of_serving (h : σ.serving = true) : σ.core.flags.gone = false := by
  simp only [serving, Bool.and_eq_true, Bool.not_eq_true'] at h
  exact h.2

/-- A worker that is not in append has no call in progress. -/
theorem Whole.idle (h : Whole limit σ) (hw : σ.worker.appends = false) :
    σ.core.producer = none := by
  cases hp : σ.core.producer with
  | none => rfl
  | some p =>
    have happ := (h.producing p.1 p.2 hp).2
    rw [hw] at happ
    cases happ

/-- Moving the worker keeps the invariant when no owed byte is dropped. -/
theorem Whole.move (h : Whole limit σ) (hp : σ.core.producer = none) {w : Worker} {ctx : ConnCtx}
    (hend : w.ends = true → ctx.streaming = true)
    (hlive : σ.live = true → ({ σ with worker := w, ctx := ctx } : Request).owed = σ.owed ∧
      ctx.responseTooLarge = false ∧ (ctx.streaming = true → ctx.dataheap = [])) :
    Whole limit { σ with worker := w, ctx := ctx } := by
  refine ⟨h.inv, h.shut, h.closed, h.ended, ?_, hend, fun hl => ?_⟩
  · intro data offset hdata
    rw [hp] at hdata
    cases hdata
  · have hi := h.intact hl
    obtain ⟨howed, hfits, hheap⟩ := hlive hl
    refine ⟨?_, hfits, hheap, ?_, hi.whole⟩
    · rw [howed]
      exact hi.kept
    · rw [howed]
      exact hi.settled

/-- The worker goes on, and still owes what it did. -/
theorem Whole.moveOn (h : Whole limit σ) (hp : σ.core.producer = none) {w : Worker} (hend : w.ends = false)
    (howed : σ.live = true → ({ σ with worker := w } : Request).owed = σ.owed) :
    Whole limit { σ with worker := w } := by
  refine h.move hp (fun hw => ?_) fun hl => ⟨howed hl, (h.intact hl).fits, (h.intact hl).heap⟩
  rw [hend] at hw
  cases hw

/-- Passing owed bytes to append keeps the invariant. -/
theorem Whole.callAppend (h : Whole limit σ) (hp : σ.core.producer = none) {data : Bytes}
    (hne : data ≠ []) {w : Worker} (hw : w.appends = true)
    (howed : σ.live = true → σ.owed = data ++ (σ.callAppend data w).owed) :
    Whole limit (σ.callAppend data w) := by
  have hrest : appendRest data 0 = some (data, 0) := if_pos (List.length_pos_iff.mpr hne)
  refine ⟨inv_call h.inv hp, h.shut, h.closed, h.ended, ?_, fun hends => ?_, fun hl => ?_⟩
  · intro data' offset hdata
    obtain ⟨rfl, rfl⟩ : data = data' ∧ 0 = offset := by
      simpa [Request.callAppend, hrest] using hdata
    exact ⟨List.length_pos_iff.mpr hne, hw⟩
  · cases w <;> simp_all [Request.callAppend, Worker.appends, Worker.ends]
  · have hi := h.intact hl
    refine ⟨?_, hi.fits, hi.heap, ?_, hi.whole⟩
    · have hkept := hi.kept
      rw [howed hl, ← List.append_assoc] at hkept
      exact hkept
    · intro hc
      have hnil := (hi.settled hc).1
      rw [howed hl] at hnil
      exact absurd (List.append_eq_nil_iff.mp hnil).1 hne

/-- A submitted flag or a cancellation leaves the transfer alone. -/
theorem inv_setQueue {core : Exchange} (h : Inv limit core) {q : Queue}
    (himp : ∀ b, Implements core.queue b → Implements q b)
    (hlimit : q.responseBufferLimit = core.queue.responseBufferLimit)
    (hcancel : core.queue.responseCancelled = true → q.responseCancelled = true) :
    Inv limit { core with queue := q } := by
  obtain ⟨b, hb, hrest⟩ := h.transfer
  refine ⟨⟨⟨b, himp b hb, hrest⟩, hlimit.trans h.limit_eq⟩, fun hc => h.source ?_⟩
  by_contra hne
  have hq := hcancel (by simpa using hne)
  rw [show q.responseCancelled = false from hc] at hq
  cases hq

theorem implements_submitted {r : Queue} {b : Transfer UInt8} (h : Implements r b) :
    Implements { r with responseSubmitted := true } b := by
  obtain ⟨gone, cells, k, h⟩ := h
  exact ⟨gone, cells, k, h.of_ctl rfl rfl rfl rfl rfl rfl⟩

/-- Cancelling is harmless when the stream has no response or is not served any more. -/
theorem Whole.cancel (h : Whole limit σ)
    (hshut : σ.core.queue.responseSubmitted = false ∨ σ.serving = false) :
    Whole limit σ.cancel := by
  refine ⟨?_, fun _ => hshut, fun _ => rfl, fun he => ⟨(h.ended he).1, rfl⟩, h.producing, h.ending,
    fun hl => ?_⟩
  · exact inv_setQueue h.inv (fun _ => implements_cancel) rfl fun _ => rfl
  · have hc := (live_iff.mp hl).2
    cases hc

theorem Whole.submitted (h : Whole limit σ) (hl : σ.live = true) :
    Whole limit (σ.setQueue { σ.core.queue with responseSubmitted := true }) := by
  have hi := h.intact hl
  have hc := (live_iff.mp hl).2
  refine ⟨?_, fun hcancel => ?_, h.closed, fun he => ⟨rfl, (h.ended he).2⟩, h.producing, h.ending,
    fun _ => ?_⟩
  · exact inv_setQueue h.inv (fun _ => implements_submitted) rfl id
  · rw [show σ.core.queue.responseCancelled = true from hcancel] at hc
    cases hc
  · exact ⟨hi.kept, hi.fits, hi.heap, hi.settled, hi.whole⟩

/-- A response start either succeeds, with worker, context and record unchanged, or leaves a
response that cannot reach the client. -/
theorem Whole.responseStart (h : Whole limit σ) (accepted : Bool) {P : Request → Prop}
    {next failed : Request → Request}
    (hnext : ∀ q, Whole limit (σ.setQueue q) → (σ.live = false → (σ.setQueue q).live = false) →
      P (next (σ.setQueue q)))
    (hfailed : ∀ q, Whole limit (σ.setQueue q) → (σ.setQueue q).live = false →
      P (failed (σ.setQueue q))) :
    P (σ.responseStart accepted next failed) := by
  have hsame : σ.setQueue σ.core.queue = σ := rfl
  unfold Request.responseStart submitResponseNva
  by_cases hsub : σ.core.queue.responseSubmitted = true
  · rw [if_pos hsub]
    exact hnext σ.core.queue h id
  rw [if_neg hsub]
  have hsub' : σ.core.queue.responseSubmitted = false := by simpa using hsub
  by_cases hgone : (σ.core.queue.responseCancelled || σ.core.flags.gone) = true
  · rw [if_pos hgone]
    refine hfailed σ.core.queue h ?_
    rw [hsame]
    by_contra hl
    obtain ⟨hserving, hc⟩ := live_iff.mp (by simpa using hl)
    simp [hc, gone_of_serving hserving] at hgone
  rw [if_neg hgone]
  cases accepted with
  | true =>
    have hok : σ.core.queue.responseCancelled = false ∧ σ.core.flags.gone = false := by
      simpa using hgone
    have hopen : σ.isOpen = true := by
      by_contra hne
      have hc := h.closed (by simpa using hne)
      rw [hok.1] at hc
      cases hc
    have hl : σ.live = true := by simp [Request.live, Request.serving, hok, hopen]
    refine hnext _ (h.submitted hl) fun hdead => ?_
    rw [hl] at hdead
    cases hdead
  | false =>
    refine hfailed _ (h.cancel (.inl hsub')) ?_
    simp [Request.live, Request.setQueue, h3StreamResponseCancelLocked,
      ResponseCtl.h3StreamResponseCancelLocked]

@[simp] theorem brigadeBytes_cons (b : Bucket) (bb : List Bucket) :
    brigadeBytes (b :: bb) = b.bytes ++ brigadeBytes bb := rfl

/-- A read takes the first piece; the remainder stays in front of the brigade. -/
theorem aprBucketRead_bytes {pieces : List Piece} (hread : ∀ p ∈ pieces.head?, p.readable = true)
    (bb : List Bucket) : ∃ data rest, aprBucketRead pieces = (some data, rest) ∧
      (∀ p ∈ pieces.head?, data = p.bytes) ∧ (pieces = [] → data = []) ∧
      brigadeBytes (.data pieces :: bb) = data ++ brigadeBytes (rest ++ bb) := by
  cases pieces with
  | nil => exact ⟨[], [], rfl, by simp, fun _ => rfl, rfl⟩
  | cons piece pieces =>
    have hpiece : piece.readable = true := hread piece rfl
    refine ⟨piece.bytes, if pieces.isEmpty then [] else [.data pieces],
      by simp [aprBucketRead, hpiece], by simp, by simp, ?_⟩
    cases pieces with
    | nil => simp [Bucket.bytes]
    | cons p ps => simp [Bucket.bytes]

/-- A sound bucket is captured whole. -/
theorem captureBodyBucket_sound {ctx : ConnCtx} (hfits : ctx.responseTooLarge = false)
    {pieces : List Piece} {lim : ℕ} (hsound : ∀ p ∈ pieces.head?, p.readable = true ∧
      ctx.dataheap.length + p.bytes.length ≤ lim) (bb : List Bucket) :
    ∃ ctx' rest, captureBodyBucket lim pieces ctx = (ctx', rest) ∧
      ctx'.responseTooLarge = false ∧ ctx'.streaming = ctx.streaming ∧
      ctx'.dataheap ++ brigadeBytes (rest ++ bb) =
        ctx.dataheap ++ brigadeBytes (.data pieces :: bb) := by
  obtain ⟨data, rest, hread, hdata, hnil, hbytes⟩ :=
    aprBucketRead_bytes (fun p hp => (hsound p hp).1) bb
  rw [hbytes]
  unfold captureBodyBucket
  rw [if_neg (by simp [hfits]), hread]
  by_cases hlen : data.length = 0
  · obtain rfl := List.eq_nil_of_length_eq_zero hlen
    exact ⟨ctx, rest, by simp, hfits, rfl, rfl⟩
  · have hroom : ctx.dataheap.length + data.length ≤ lim := by
      cases pieces with
      | nil => simp [hnil rfl] at hlen
      | cons p ps =>
        rw [hdata p rfl]
        exact (hsound p rfl).2
    have hnot : ¬ (lim < ctx.dataheap.length ∨ lim - ctx.dataheap.length < data.length) := by
      omega
    simp only [if_neg hlen, if_neg hnot]
    exact ⟨_, rest, rfl, hfits, rfl, by simp⟩

/-- Nothing is promised about a response that cannot reach the client. -/
theorem Whole.moveDead (h : Whole limit σ) (hp : σ.core.producer = none) (hl : σ.live = false)
    {w : Worker} (hend : w.ends = false) : Whole limit { σ with worker := w } := by
  refine h.moveOn hp hend fun hl' => ?_
  rw [hl] at hl'
  cases hl'

/-- Leaving the bucket behind drops no byte of the body. -/
theorem Whole.skip (h : Whole limit σ) {b : Bucket} {bb : List Bucket}
    (hw : σ.worker = .filter (b :: bb)) (hb : σ.live = true → b.bytes = []) :
    Whole limit (σ.filterNext bb) := by
  refine h.moveOn (h.idle (by simp [hw, Worker.appends])) rfl fun hl => ?_
  simp [owed, hw, Worker.early, Worker.rest, hb hl]

theorem Whole.streamBucket (h : Whole limit σ) {pieces : List Piece} {bb : List Bucket}
    (hw : σ.worker = .filter (.data pieces :: bb)) (hstream : σ.ctx.streaming = true)
    (hread : σ.live = true → ∀ p ∈ pieces.head?, p.readable = true) :
    Whole limit (σ.streamBucket pieces bb) := by
  have hp : σ.core.producer = none := h.idle (by simp [hw, Worker.appends])
  cases hl : σ.live with
  | false =>
    unfold Request.streamBucket
    split
    · exact h.moveDead hp hl rfl
    · exact h.moveDead hp hl rfl
    · refine h.callAppend hp (List.cons_ne_nil _ _) rfl fun hl' => ?_
      rw [hl] at hl'
      cases hl'
  | true =>
    have hheap := (h.intact hl).heap hstream
    obtain ⟨data, rest, hbucket, -, -, hbytes⟩ := aprBucketRead_bytes (hread hl) bb
    have howed : σ.owed = data ++ brigadeBytes (rest ++ bb) := by
      rw [← hbytes]
      simp [owed, hw, Worker.early, Worker.rest, hheap]
    unfold Request.streamBucket
    rw [hbucket]
    cases data with
    | nil =>
      refine h.moveOn hp rfl fun _ => ?_
      simpa [owed, Worker.early, Worker.rest, hheap] using howed.symm
    | cons x xs =>
      refine h.callAppend hp (List.cons_ne_nil _ _) rfl fun _ => ?_
      simpa [owed, Request.callAppend, Worker.early, Worker.rest, hheap] using howed

/-- The filter loop hands over every byte of a sound bucket. -/
theorem Whole.filterBucket (h : Whole limit σ) {b : Bucket} {bb : List Bucket}
    (hw : σ.worker = .filter (b :: bb)) (accepted headerOnly : Bool)
    (hsound : σ.live = true → σ.SoundBucket conf headerOnly (b :: bb)) :
    Whole limit (σ.filterBucket conf accepted headerOnly b bb) := by
  have hp : σ.core.producer = none := h.idle (by simp [hw, Worker.appends])
  have hback : ∀ q, (σ.live = false → (σ.setQueue q).live = false) →
      (σ.setQueue q).live = true → σ.live = true := by
    intro q hdead hl
    by_contra hne
    rw [hdead (by simpa using hne)] at hl
    cases hl
  -- A bucket without data, in front of which the response may have to be started.
  have hstart : b.bytes = [] →
      Whole limit (σ.responseStart accepted (Request.filterNext bb) Request.filterReturns) := by
    intro hb
    refine h.responseStart accepted (fun q hq _ => ?_) fun q hq hl => hq.moveDead hp hl rfl
    exact hq.skip hw fun _ => hb
  unfold Request.filterBucket
  cases b with
  | error =>
    refine h.moveOn hp rfl fun hl => ?_
    have hbb : brigadeBytes bb = [] := hsound hl
    simp [owed, hw, Worker.early, Worker.rest, Bucket.bytes, hbb]
    rfl
  | response =>
    dsimp only
    split_ifs
    · exact hstart rfl
    · exact h.skip hw fun _ => rfl
  | data pieces =>
    dsimp only
    split_ifs with hskip hstream
    · refine h.skip hw fun hl => ?_
      obtain ⟨hbody, -⟩ : _ ∧ _ := hsound hl
      rcases hbody with hd | hd
      · simp [hd] at hskip
      · simp [hd] at hskip
    · refine h.responseStart accepted (fun q hq hdead => ?_) fun q hq hl => hq.moveDead hp hl rfl
      refine hq.streamBucket hw hstream fun hl p hpiece => ?_
      obtain ⟨-, hpieces⟩ : _ ∧ _ := hsound (hback q hdead hl)
      exact (hpieces p hpiece).1
    · refine h.move hp nofun fun hl => ?_
      obtain ⟨-, hpieces⟩ : _ ∧ _ := hsound hl
      have hbuffering : σ.ctx.streaming = false := by simpa using hstream
      obtain ⟨ctx, rest, hcapture, hfits, hmode, hbytes⟩ := captureBodyBucket_sound
        (h.intact hl).fits (fun p hpiece => ⟨(hpieces p hpiece).1, (hpieces p hpiece).2 hbuffering⟩) bb
      rw [hcapture]
      refine ⟨?_, hfits, fun hs => ?_⟩
      · simpa [owed, hw, Worker.early, Worker.rest] using hbytes
      · rw [hmode, hbuffering] at hs
        cases hs
  | eos =>
    dsimp only
    split_ifs with hstream
    · refine h.responseStart accepted (fun q hq _ => ?_) fun q hq hl => hq.moveDead hp hl rfl
      refine hq.move hp (fun _ => hstream) fun hl => ⟨?_, (hq.intact hl).fits, (hq.intact hl).heap⟩
      simp [owed, Request.setQueue, hw, Worker.early, Worker.rest, Bucket.bytes]
    · exact h.skip hw fun _ => rfl
  | flush =>
    dsimp only
    split_ifs
    · exact hstart rfl
    · exact h.skip hw fun _ => rfl
  | metadata => exact h.skip hw fun _ => rfl

/-- With memory and room in the counters an iteration that does not wait queues a chunk. -/
private theorem append_queues {st : SessionFlags} {r : Queue} {data : Bytes} {offset : ℕ}
    {malloc : Option Addr} (hgone : st.gone = false) (hc : r.responseCancelled = false)
    (hwait : appendWaits st r.toResponseCtl = false) (hoff : offset < data.length)
    (hmalloc : malloc.isSome = true)
    (hlen : r.responseLen + appendChunkLen r.toResponseCtl (data.length - offset) ≤ conf.sizeMax)
    {x : AppendStep × Queue}
    (hx : h3StreamResponseAppend conf.sizeMax st data offset malloc r = some x) :
    ∃ n resume, x.1 = .queued n resume := by
  have hroom : r.responseBuffered < r.responseBufferLimit := by
    have hflags : st.aborted = false ∧ st.ngh3Dead = false := by
      simp only [SessionFlags.gone, Bool.or_eq_false_iff] at hgone
      exact hgone.1
    simpa [appendWaits, hc, hflags] using hwait
  have hpos : appendChunkLen r.toResponseCtl (data.length - offset) ≠ 0 := by
    unfold appendChunkLen streamChunkBytes
    omega
  obtain ⟨a, rfl⟩ := Option.isSome_iff_exists.mp hmalloc
  have hzero : ¬ (appendChunkLen r.toResponseCtl (data.length - offset) = 0 ∨
      conf.sizeMax - appendChunkLen r.toResponseCtl (data.length - offset) < r.responseLen) := by
    omega
  simp only [h3StreamResponseAppend, hwait, hc, hgone, Bool.or_self, Bool.false_eq_true, if_false,
    if_neg hzero, Option.map_eq_some_iff] at hx
  obtain ⟨r', -, rfl⟩ := hx
  exact ⟨_, _, rfl⟩

theorem appends_of_returns (ok : Bool) {w : Worker} (hw : w.appends = true) :
    (appendReturns ok w).ends = false := by
  cases w with
  | appending bb => cases ok <;> rfl
  | finalAppend => rfl
  | _ => cases hw

theorem owed_of_returns {w : Worker} (hw : w.appends = true) :
    (appendReturns true w).early = w.early ∧ (appendReturns true w).rest = w.rest := by
  cases w with
  | appending bb => exact ⟨rfl, rfl⟩
  | finalAppend => exact ⟨rfl, rfl⟩
  | _ => cases hw

theorem ends_of_appends {w : Worker} (hw : w.appends = true) : w.ends = false := by
  cases w with
  | ending bb => cases hw
  | _ => rfl

theorem Whole.shutOfDead (h : Whole limit σ) (hl : σ.live = false) :
    σ.core.queue.responseSubmitted = false ∨ σ.serving = false := by
  cases hs : σ.serving with
  | false => exact .inr rfl
  | true =>
    have hc : σ.core.queue.responseCancelled = true := by simpa [Request.live, hs] using hl
    exact .inl ((h.shut hc).resolve_right (by simp [hs]))

/-- An append call that fails leaves a response that cannot reach the client. -/
theorem Whole.appendFails (h : Whole limit σ) {data : Bytes} {offset : ℕ}
    (hp : σ.core.producer = some (data, offset)) (hl : σ.live = false) {core : Exchange}
    (hinv : Inv limit core) (hprod : core.producer = none) (hflags : core.flags = σ.core.flags)
    (hsub : core.queue.responseSubmitted = σ.core.queue.responseSubmitted)
    (hcancel : σ.core.queue.responseCancelled = true → core.queue.responseCancelled = true)
    (hcomplete : σ.core.queue.responseComplete = true → core.queue.responseComplete = true) :
    Whole limit { σ with core := core, worker := appendReturns false σ.worker } := by
  have hserving : ({ σ with core := core, worker := appendReturns false σ.worker } : Request).serving =
      σ.serving := by simp [Request.serving, hflags]
  have hends := appends_of_returns false (h.producing data offset hp).2
  refine ⟨hinv, fun _ => ?_, fun hopen => hcancel (h.closed hopen),
    fun he => ⟨hsub.trans (h.ended he).1, hcomplete (h.ended he).2⟩, ?_, ?_, fun hl' => ?_⟩
  · rw [hserving, hsub]
    exact h.shutOfDead hl
  · intro data' offset' hdata
    rw [hprod] at hdata
    cases hdata
  · intro he
    rw [hends] at he
    cases he
  · obtain ⟨hs, hc⟩ := live_iff.mp hl'
    rw [hserving] at hs
    by_contra
    have hcancelled : σ.core.queue.responseCancelled = true := by simpa [Request.live, hs] using hl
    rw [hcancel hcancelled] at hc
    cases hc

/-- An append call that queues a chunk: what is owed stays, the rest of the call is still to do. -/
theorem Whole.appendQueues (h : Whole limit σ) {data : Bytes} {offset n : ℕ} {q : Queue}
    (hp : σ.core.producer = some (data, offset)) (hw : σ.worker.appends)
    (hc : σ.core.queue.responseCancelled = false) (hcan : q.responseCancelled = false)
    (hsub : q.responseSubmitted = σ.core.queue.responseSubmitted)
    (hcompl : q.responseComplete = σ.core.queue.responseComplete)
    (hinv : Inv limit (σ.core.afterAppend data offset (.queued n σ.core.queue.responseSubmitted, q))) :
    Whole limit (σ.afterAppend data offset (.queued n σ.core.queue.responseSubmitted, q)) := by
  have hback : σ.serving = true → σ.live = true := fun hs => live_iff.mpr ⟨hs, hc⟩
  -- The worker goes on with the brigade when nothing of the call is left.
  set w := if (appendRest data (offset + n)).isNone then appendReturns true σ.worker
    else σ.worker with hwdef
  have hsame : w.early = σ.worker.early ∧ w.rest = σ.worker.rest ∧ w.ends = false := by
    rw [hwdef]
    split_ifs
    · exact ⟨(owed_of_returns hw).1, (owed_of_returns hw).2, appends_of_returns true hw⟩
    · exact ⟨rfl, rfl, ends_of_appends hw⟩
  refine ⟨hinv, fun hcancel => ?_, fun hopen => ?_,
    fun he => ⟨hsub.trans (h.ended he).1, hcompl.trans (h.ended he).2⟩, ?_, fun hends => ?_,
    fun hl => ?_⟩
  · rw [show q.responseCancelled = true from hcancel] at hcan
    cases hcan
  · have hclosed := h.closed hopen
    rw [hc] at hclosed
    cases hclosed
  · intro data' offset' hrest
    have hrest' : appendRest data (offset + n) = some (data', offset') := hrest
    have hlt : offset' < data'.length := by
      unfold appendRest at hrest'
      split_ifs at hrest' with hlt
      obtain ⟨rfl, rfl⟩ : data = data' ∧ offset + n = offset' := by simpa using hrest'
      exact hlt
    refine ⟨hlt, ?_⟩
    change w.appends = true
    rw [hwdef, hrest']
    exact hw
  · have hne : w.ends = true := hends
    rw [hsame.2.2] at hne
    cases hne
  · have hi := h.intact (hback (live_iff.mp hl).1)
    have howed : (σ.afterAppend data offset (.queued n σ.core.queue.responseSubmitted, q)).owed =
        σ.owed := by
      change (if w.early then σ.ctx.dataheap else []) ++ brigadeBytes w.rest = σ.owed
      rw [hsame.1, hsame.2.1]
      rfl
    refine ⟨?_, hi.fits, hi.heap, fun hcomplete => ?_, hi.whole⟩
    · rw [howed]
      exact hi.kept
    · have hnone := (hi.settled (hcompl.symm.trans hcomplete)).2
      rw [hp] at hnone
      cases hnone

theorem Whole.append (h : Whole limit σ) {data : Bytes} {offset : ℕ}
    (hp : σ.core.producer = some (data, offset)) {malloc : Option Addr}
    (hm : ∀ a, malloc = some a → σ.core.queue.chunks.mem a = none)
    (hsound : σ.Sound conf (.append malloc)) :
    ∃ x, h3StreamResponseAppend conf.sizeMax σ.core.flags data offset malloc σ.core.queue = some x ∧
      Whole limit (σ.afterAppend data offset x) := by
  obtain ⟨b, hb, -⟩ := h.inv.transfer
  obtain ⟨hoff, hw⟩ := h.producing data offset hp
  obtain ⟨x, hx, hinv⟩ := inv_append conf.sizeMax h.inv hp hm
  obtain ⟨x', hx', hspec⟩ := append_implements hb conf.sizeMax σ.core.flags data offset hm
  obtain rfl : x = x' := Option.some.inj (hx.symm.trans hx')
  refine ⟨x, hx, ?_⟩
  cases hspec with
  | waits _ => exact h
  | refused hgone =>
    have hl : σ.live = false := by
      by_contra hne
      obtain ⟨hs, hc⟩ := live_iff.mp (by simpa using hne)
      simp [hc, gone_of_serving hs] at hgone
    exact h.appendFails hp hl hinv rfl rfl rfl id id
  | cancels rv =>
    have hl : σ.live = false := by
      by_contra hne
      have hlive : σ.live = true := by simpa using hne
      obtain ⟨hs, hc⟩ := live_iff.mp hlive
      have hwait : appendWaits σ.core.flags σ.core.queue.toResponseCtl = false := by
        by_contra hwait
        rw [h3StreamResponseAppend, if_pos (by simpa using hwait)] at hx
        simp at hx
      obtain ⟨hmalloc, hlen⟩ := hsound hlive hwait
      obtain ⟨n, resume, hq⟩ := append_queues (gone_of_serving hs) hc hwait hoff hmalloc
        (hlen (data, offset) hp) hx
      cases hq
    exact h.appendFails hp hl hinv rfl rfl rfl (fun _ => rfl) fun _ => rfl
  | queued n q hc hg hn hlen himp hctl =>
    exact h.appendQueues hp hw hc (by rw [hctl]; exact hc) (by rw [hctl]) (by rw [hctl]) hinv

end

end Request

end ModHttp3.Response
