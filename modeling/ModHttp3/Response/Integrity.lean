import ModHttp3.Lib.Run
import ModHttp3.Response.Refinement

/-! Every interleaving of a producer appending to one stream's response with the
event thread reading from it and acknowledging it. -/
namespace ModHttp3.Response
open Lib LinkedQueue

/-- `producer` is the `h3_stream_response_append` call in progress, with its offset. The last
four fields only record what happened: data passed to append, bytes queued, bytes of the
vectors handed out, and bytes acknowledged. -/
structure Exchange where
  queue : Queue
  flags : SessionFlags
  producer : Option (Bytes × ℕ)
  passed : Bytes
  appended : Bytes
  handed : Bytes
  acked : ℕ

inductive Action
  | call (data : Bytes)
  | append (malloc : Option Addr)
  | waitFails
  | read (veccnt : ℕ)
  | ack (now : ℤ) (datalen : ℕ)
  | complete
  | abort
  | dead

def Exchange.start (limit : ℕ) (now : ℤ) (flags : SessionFlags) : Exchange :=
  ⟨.new limit now, flags, none, [], [], [], 0⟩

/-- `malloc` returns unused memory, nghttp3 passes at least one vector and acknowledges only
bytes it was handed; one worker appends at a time, and its wait can fail only while it waits. -/
def enabled (σ : Exchange) : Action → Bool
  | .call _ => σ.producer.isNone
  | .append malloc => σ.producer.isSome && malloc.all fun a => (σ.queue.chunks.mem a).isNone
  | .waitFails => σ.producer.isSome && appendWaits σ.flags σ.queue.toResponseCtl
  | .read veccnt => decide (1 ≤ veccnt)
  | .ack _ datalen => decide (σ.acked + datalen ≤ σ.handed.length)
  | .complete | .abort | .dead => true

/-- The append call goes on while bytes are left. -/
def appendRest (data : Bytes) (offset : ℕ) : Option (Bytes × ℕ) :=
  if offset < data.length then some (data, offset) else none

/-- What the append iteration leaves behind. -/
def Exchange.afterAppend (σ : Exchange) (data : Bytes) (offset : ℕ) :
    AppendStep × Queue → Exchange
  | (.waits, q) => { σ with queue := q }
  | (.returns _, q) => { σ with queue := q, producer := none }
  | (.queued n _, q) =>
    { σ with
      queue := q
      producer := appendRest data (offset + n)
      appended := σ.appended ++ (data.drop offset).take n }

def Exchange.afterRead (σ : Exchange) : ReadData × Queue → Exchange
  | (.vecs vec _, q) => { σ with queue := q, handed := σ.handed ++ vec.flatten }
  | (_, q) => { σ with queue := q }

/-- The effect of an action; `none` when it follows a dangling pointer. -/
def exec (sizeMax : ℕ) (σ : Exchange) : Action → Option Exchange
  | .call data => some { σ with producer := appendRest data 0, passed := σ.passed ++ data }
  | .append malloc =>
    match σ.producer with
    | none => some σ
    | some (data, offset) =>
      (h3StreamResponseAppend sizeMax σ.flags data offset malloc σ.queue).map
        (σ.afterAppend data offset)
  -- `apr_thread_cond_timedwait` failed: append returns with a part of its data queued.
  | .waitFails => some { σ with producer := none }
  | .read veccnt => (h3SessionReadData veccnt σ.queue).map σ.afterRead
  | .ack now datalen =>
    (h3StreamResponseAckLocked now datalen σ.queue).map fun q =>
      { σ with queue := q, acked := σ.acked + datalen }
  | .complete => some { σ with queue := (h3StreamResponseComplete σ.flags σ.queue).1 }
  | .abort => some { σ with flags := { σ.flags with aborted := true } }
  | .dead => some { σ with flags := { σ.flags with ngh3Dead := true } }

def step (sizeMax : ℕ) (σ : Exchange) (a : Action) : Option Exchange :=
  if enabled σ a then exec sizeMax σ a else none

/-- The wait of append succeeds or times out. -/
def waitSound : Action → Bool
  | .waitFails => false
  | _ => true

/-- The bytes of the call in progress that are not queued yet. -/
def Exchange.pending (σ : Exchange) : Bytes := σ.producer.elim [] fun p => p.1.drop p.2

/-- The queue implements the recorded transfer. -/
def Exchange.Transferred (σ : Exchange) : Prop :=
  ∃ b, Implements σ.queue b ∧ b.produced = σ.appended ∧ b.handed = σ.handed ∧ b.acked = σ.acked

/-- Data passed to append is queued or still pending, unless the session went away and appends fail. -/
def Exchange.Sourced (σ : Exchange) : Prop :=
  σ.queue.responseCancelled = false →
    σ.passed = σ.appended ++ σ.pending ∨ σ.flags.gone = true ∧ σ.appended <+: σ.passed

/-- What every step keeps. -/
structure Stored (limit : ℕ) (σ : Exchange) : Prop where
  transfer : σ.Transferred
  limit_eq : σ.queue.responseBufferLimit = limit

/-- What every step but a failed wait keeps. -/
structure Inv (limit : ℕ) (σ : Exchange) : Prop extends Stored limit σ where
  source : σ.Sourced

theorem Inv.appended_le {limit : ℕ} {σ : Exchange} (h : Inv limit σ)
    (hc : σ.queue.responseCancelled = false) : σ.appended <+: σ.passed := by
  rcases h.source hc with hs | ⟨-, hs⟩
  · exact ⟨σ.pending, hs.symm⟩
  · exact hs

theorem inv_start (limit : ℕ) (now : ℤ) (flags : SessionFlags) :
    Inv limit (.start limit now flags) :=
  ⟨⟨⟨.start, implements_new limit now, rfl, rfl, rfl⟩, rfl⟩, fun _ => .inl rfl⟩

section
variable {limit : ℕ} {σ : Exchange}

theorem inv_call (h : Inv limit σ) {data : Bytes} (hp : σ.producer = none) :
    Inv limit { σ with producer := appendRest data 0, passed := σ.passed ++ data } := by
  refine ⟨⟨h.transfer, h.limit_eq⟩, fun hc => ?_⟩
  rcases h.source hc with hs | ⟨hg, hs⟩
  · left
    have hpend : σ.pending = [] := by simp [Exchange.pending, hp]
    rw [hpend, List.append_nil] at hs
    simp only [Exchange.pending, appendRest, hs]
    cases data with
    | nil => simp
    | cons x data => simp
  · exact .inr ⟨hg, hs.trans (List.prefix_append _ _)⟩

theorem pending_appendRest (data : Bytes) (offset : ℕ) :
    (appendRest data offset).elim [] (fun p => p.1.drop p.2) = data.drop offset := by
  unfold appendRest
  split_ifs with hlt
  · rfl
  · rw [List.drop_of_length_le (by omega)]
    rfl

theorem Exchange.Transferred.append (h : σ.Transferred) (sizeMax : ℕ) (data : Bytes) (offset : ℕ)
    {malloc : Option Addr} (hm : ∀ a, malloc = some a → σ.queue.chunks.mem a = none) :
    ∃ x b, h3StreamResponseAppend sizeMax σ.flags data offset malloc σ.queue = some x ∧
      AppendSpec σ.flags data offset σ.queue b x ∧ (σ.afterAppend data offset x).Transferred := by
  obtain ⟨b, hb, hprod, hhand, hack⟩ := h
  obtain ⟨x, hx, hspec⟩ := append_implements hb sizeMax σ.flags data offset hm
  refine ⟨x, b, hx, hspec, ?_⟩
  cases hspec with
  | waits _ => exact ⟨b, hb, hprod, hhand, hack⟩
  | refused _ => exact ⟨b, hb, hprod, hhand, hack⟩
  | cancels rv => exact ⟨b, implements_cancel hb, hprod, hhand, hack⟩
  | queued n q hc hg hn hlen himp hctl =>
    refine ⟨_, himp, ?_, hhand, hack⟩
    simp only [Transfer.produce, Exchange.afterAppend, hprod]

/-- A cancelled stream hands out nothing; any other one hands out what the transfer allows. -/
theorem Exchange.Transferred.read (h : σ.Transferred) {veccnt : ℕ} (hv : 1 ≤ veccnt) :
    ∃ x, h3SessionReadData veccnt σ.queue = some x ∧ (σ.afterRead x).Transferred ∧
      (σ.afterRead x).queue.toResponseCtl = σ.queue.toResponseCtl := by
  obtain ⟨b, hb, hprod, hhand, hack⟩ := h
  cases hc : σ.queue.responseCancelled with
  | true =>
    refine ⟨_, by rw [h3SessionReadData, if_neg (by omega), if_pos hc], ?_, rfl⟩
    exact ⟨b, hb, hprod, by simpa [Exchange.afterRead] using hhand, hack⟩
  | false =>
    obtain ⟨vec, q, hok, hread, himp, hctl, hnil⟩ := readData_implements hb hc hv
    refine ⟨_, hread, ?_⟩
    unfold readAnswer
    split_ifs with hwait
    · refine ⟨⟨b, ?_, hprod, hhand, hack⟩, hctl⟩
      change Implements q b
      simpa [hwait.1, Transfer.hand_nil] using himp
    · refine ⟨⟨_, himp, hprod, ?_, hack⟩, hctl⟩
      simp only [Transfer.hand, Exchange.afterRead, hhand]

theorem Exchange.Transferred.ack (h : σ.Transferred) (now : ℤ) {n : ℕ}
    (hn : σ.acked + n ≤ σ.handed.length) :
    ∃ q, h3StreamResponseAckLocked now n σ.queue = some q ∧
      Exchange.Transferred { σ with queue := q, acked := σ.acked + n } ∧
      q.toResponseCtl = σ.queue.toResponseCtl.ackLocked now n := by
  obtain ⟨b, hb, hprod, hhand, hack⟩ := h
  obtain ⟨q, hq, himp, hctl⟩ := ack_implements now hb (n := n) (by rwa [hack, hhand])
  refine ⟨q, hq, ⟨_, himp, hprod, hhand, ?_⟩, hctl⟩
  simp only [Transfer.ack, hack]

theorem Stored.append (h : Stored limit σ) (sizeMax : ℕ) (data : Bytes) (offset : ℕ) {malloc : Option Addr}
    (hm : ∀ a, malloc = some a → σ.queue.chunks.mem a = none) :
    ∃ x b, h3StreamResponseAppend sizeMax σ.flags data offset malloc σ.queue = some x ∧
      AppendSpec σ.flags data offset σ.queue b x ∧ Stored limit (σ.afterAppend data offset x) := by
  obtain ⟨x, b, hx, hspec, htransfer⟩ := h.transfer.append sizeMax data offset hm
  refine ⟨x, b, hx, hspec, htransfer, ?_⟩
  cases hspec with
  | waits _ | refused _ | cancels _ => exact h.limit_eq
  | queued n q hc hg hn hlen himp hctl =>
    rw [Exchange.afterAppend, hctl]
    exact h.limit_eq

theorem inv_append (sizeMax : ℕ) (h : Inv limit σ) {data : Bytes} {offset : ℕ}
    (hp : σ.producer = some (data, offset)) {malloc : Option Addr}
    (hm : ∀ a, malloc = some a → σ.queue.chunks.mem a = none) :
    ∃ x, h3StreamResponseAppend sizeMax σ.flags data offset malloc σ.queue = some x ∧
      Inv limit (σ.afterAppend data offset x) := by
  have hpend : σ.pending = data.drop offset := by simp [Exchange.pending, hp]
  obtain ⟨x, b, hx, hspec, hstored⟩ := h.toStored.append sizeMax data offset hm
  refine ⟨x, hx, hstored, ?_⟩
  cases hspec with
  | waits _ => exact h.source
  | refused hgone =>
    intro hc
    have hc' : σ.queue.responseCancelled = false := hc
    refine .inr ⟨?_, h.appended_le hc⟩
    change σ.flags.gone = true
    simpa [hc'] using hgone
  | cancels rv =>
    intro hc
    cases hc
  | queued n q hc hg hn hlen himp hctl =>
    intro _
    have hs : σ.passed = σ.appended ++ data.drop offset := by
      rcases h.source hc with hs | ⟨hg', -⟩
      · rwa [hpend] at hs
      · rw [hg] at hg'
        cases hg'
    left
    simp only [Exchange.afterAppend, Exchange.pending, pending_appendRest, hs, List.append_assoc]
    rw [← List.drop_drop, List.take_append_drop]

theorem Stored.read (h : Stored limit σ) {veccnt : ℕ} (hv : 1 ≤ veccnt) :
    ∃ x, h3SessionReadData veccnt σ.queue = some x ∧ Stored limit (σ.afterRead x) ∧
      (σ.afterRead x).queue.toResponseCtl = σ.queue.toResponseCtl := by
  obtain ⟨x, hx, htransfer, hctl⟩ := h.transfer.read hv
  refine ⟨x, hx, ⟨htransfer, ?_⟩, hctl⟩
  rw [hctl]
  exact h.limit_eq

theorem inv_read (h : Inv limit σ) {veccnt : ℕ} (hv : 1 ≤ veccnt) :
    ∃ x, h3SessionReadData veccnt σ.queue = some x ∧ Inv limit (σ.afterRead x) := by
  obtain ⟨x, hx, hstored, hctl⟩ := h.toStored.read hv
  refine ⟨x, hx, hstored, fun hc => ?_⟩
  rw [hctl] at hc
  have hsource := h.source hc
  obtain ⟨answer, q⟩ := x
  cases answer <;> exact hsource

theorem Stored.ack (h : Stored limit σ) (now : ℤ) {n : ℕ} (hn : σ.acked + n ≤ σ.handed.length) :
    ∃ q, h3StreamResponseAckLocked now n σ.queue = some q ∧
      Stored limit { σ with queue := q, acked := σ.acked + n } ∧
      q.responseCancelled = σ.queue.responseCancelled := by
  obtain ⟨q, hq, htransfer, hctl⟩ := h.transfer.ack now hn
  obtain ⟨hlimit, hcancelled, -⟩ := ackLocked_flags now n σ.queue.toResponseCtl
  rw [← hctl] at hlimit hcancelled
  exact ⟨q, hq, ⟨htransfer, hlimit.trans h.limit_eq⟩, hcancelled⟩

theorem inv_ack (h : Inv limit σ) (now : ℤ) {n : ℕ} (hn : σ.acked + n ≤ σ.handed.length) :
    ∃ q, h3StreamResponseAckLocked now n σ.queue = some q ∧
      Inv limit { σ with queue := q, acked := σ.acked + n } := by
  obtain ⟨q, hq, hstored, hcancelled⟩ := h.toStored.ack now hn
  exact ⟨q, hq, hstored, fun hc => h.source (hcancelled ▸ hc)⟩

theorem Stored.complete (h : Stored limit σ) :
    Stored limit { σ with queue := (h3StreamResponseComplete σ.flags σ.queue).1 } := by
  obtain ⟨b, hb, hrest⟩ := h.transfer
  exact ⟨⟨b, implements_complete hb σ.flags, hrest⟩, h.limit_eq⟩

theorem inv_flags (h : Inv limit σ) {flags : SessionFlags}
    (hg : σ.flags.gone = true → flags.gone = true) : Inv limit { σ with flags := flags } :=
  ⟨⟨h.transfer, h.limit_eq⟩, fun hc => (h.source hc).imp_right fun hs => ⟨hg hs.1, hs.2⟩⟩

/-- No enabled action follows a dangling pointer, and the queue goes on implementing the transfer. -/
theorem stored_exec (sizeMax : ℕ) (h : Stored limit σ) {a : Action} (ha : enabled σ a) :
    ∃ τ, exec sizeMax σ a = some τ ∧ Stored limit τ := by
  cases a with
  | append malloc =>
    simp only [enabled, Bool.and_eq_true, Option.all_eq_true, Option.isNone_iff_eq_none] at ha
    obtain ⟨⟨data, offset⟩, hp⟩ := Option.isSome_iff_exists.mp ha.1
    obtain ⟨x, -, hx, -, hstored⟩ := h.append sizeMax data offset ha.2
    exact ⟨_, by simp only [exec, hp, hx, Option.map_some], hstored⟩
  | read veccnt =>
    obtain ⟨x, hx, hstored, -⟩ := h.read (of_decide_eq_true ha)
    exact ⟨_, by simp only [exec, hx, Option.map_some], hstored⟩
  | ack now n =>
    obtain ⟨q, hq, hstored, -⟩ := h.ack now (of_decide_eq_true ha)
    exact ⟨_, by simp only [exec, hq, Option.map_some], hstored⟩
  | complete => exact ⟨_, rfl, h.complete⟩
  | call _ | waitFails | abort | dead => exact ⟨_, rfl, h.transfer, h.limit_eq⟩

/-- The invariant survives every action but a failed wait. -/
private theorem inv_exec {sizeMax : ℕ} (h : Inv limit σ) {a : Action} (ha : enabled σ a) (hwait : waitSound a) {τ : Exchange}
    (hτ : exec sizeMax σ a = some τ) : Inv limit τ := by
  cases a with
  | call data =>
    cases hτ
    exact inv_call h (Option.isNone_iff_eq_none.mp ha)
  | append malloc =>
    simp only [enabled, Bool.and_eq_true, Option.all_eq_true, Option.isNone_iff_eq_none] at ha
    obtain ⟨⟨data, offset⟩, hp⟩ := Option.isSome_iff_exists.mp ha.1
    obtain ⟨x, hx, hinv⟩ := inv_append sizeMax h hp ha.2
    simp only [exec, hp, hx, Option.map_some] at hτ
    cases hτ
    exact hinv
  | waitFails => cases hwait
  | read veccnt =>
    obtain ⟨x, hx, hinv⟩ := inv_read h (of_decide_eq_true ha)
    simp only [exec, hx, Option.map_some] at hτ
    cases hτ
    exact hinv
  | ack now n =>
    obtain ⟨q, hq, hinv⟩ := inv_ack h now (of_decide_eq_true ha)
    simp only [exec, hq, Option.map_some] at hτ
    cases hτ
    exact hinv
  | complete =>
    cases hτ
    exact ⟨h.toStored.complete, h.source⟩
  | abort | dead =>
    cases hτ
    exact inv_flags h fun _ => by simp [SessionFlags.gone]

end

section
variable {sizeMax limit : ℕ} {now : ℤ} {flags : SessionFlags} {σ : Exchange}

private theorem stored_reach (h : Reach (step sizeMax) anyStep (.start limit now flags) σ) : Stored limit σ := by
  refine h.invariant (inv_start limit now flags).toStored ?_
  intro s a t hs _ hstep
  obtain ⟨ha, hexec⟩ := Option.ite_none_right_eq_some.mp hstep
  obtain ⟨τ, hτ, hstored⟩ := stored_exec sizeMax hs ha
  rw [hτ] at hexec
  cases hexec
  exact hstored

private theorem inv_reach (h : Reach (step sizeMax) (fun _ a => waitSound a) (.start limit now flags) σ) : Inv limit σ := by
  refine h.invariant (inv_start limit now flags) ?_
  intro s a t hs hwait hstep
  obtain ⟨ha, hexec⟩ := Option.ite_none_right_eq_some.mp hstep
  exact inv_exec hs ha hwait hexec

end

/-- In every reachable state of a stream that was not cancelled, bytes leave in the order they
were queued with none lost or repeated, the submit cursor is null or a live chunk,
the counters are exact, the end of the stream is reported only after a complete response was
handed out whole, and no further action follows a dangling pointer. If no wait of append failed, what
was queued is what was passed to append, as far as it is queued. -/
theorem response_queue_integrity (sizeMax limit : ℕ) (now : ℤ) (flags : SessionFlags)
    {σ : Exchange} (h : Reach (step sizeMax) anyStep (.start limit now flags) σ)
    (hc : σ.queue.responseCancelled = false) :
    σ.handed <+: σ.appended ∧
    (Reach (step sizeMax) (fun _ a => waitSound a) (.start limit now flags) σ → σ.appended <+: σ.passed) ∧
    (∃ cells, σ.queue.chunks.Rep cells ∧
      ∀ a, σ.queue.responseSubmitChunk = some a → a ∈ cells.map Prod.fst) ∧
    σ.queue.responseBuffered + σ.acked = σ.appended.length ∧
    σ.queue.responseBuffered ≤ limit ∧
    σ.queue.responseLen = σ.appended.length ∧
    (∀ veccnt vec q, 1 ≤ veccnt → h3SessionReadData veccnt σ.queue = some (.vecs vec true, q) →
      σ.queue.responseComplete = true ∧ σ.handed ++ vec.flatten = σ.appended) ∧
    ∀ a, enabled σ a → exec sizeMax σ a ≠ none := by
  have hstored := stored_reach h
  obtain ⟨b, hb, hprod, hhand, hack⟩ := hstored.transfer
  obtain ⟨gone, cells, k, href⟩ := id hb
  refine ⟨?_, fun hwait => (inv_reach hwait).appended_le hc, ⟨cells, href.rep, fun a ha => ?_⟩, ?_, ?_, ?_, ?_, ?_⟩
  · rw [← hhand, ← hprod]
    exact b.inOrder
  · rw [href.submit, cursor, Option.map_eq_some_iff] at ha
    obtain ⟨c, hc, rfl⟩ := ha
    exact List.mem_map_of_mem (List.mem_of_getElem? hc)
  · rw [← hack, ← hprod]
    exact href.buffered
  · rw [← hstored.limit_eq]
    exact href.bounded
  · rw [← hprod]
    exact href.len
  · intro veccnt vec q hv hread
    obtain ⟨vec', q', hok, hread', -⟩ := readData_implements hb hc hv
    rw [hread'] at hread
    simp only [Option.some.injEq, Prod.mk.injEq, readAnswer] at hread
    split_ifs at hread with hwait
    · simp at hread
    · simp only [ReadData.vecs.injEq, Bool.and_eq_true, decide_eq_true_eq] at hread
      obtain ⟨⟨rfl, hall, hcomp⟩, -⟩ := hread
      exact ⟨hcomp, by rw [← hhand, ← hprod, hall]⟩
  · intro a ha
    obtain ⟨τ, hτ, -⟩ := stored_exec sizeMax hstored ha
    simp [hτ]

/-- A run in which the queue fills, drains and refills. -/
def integrityRun : List Action :=
  [.call [1, 2, 3, 4, 5], .append (some 7), .read 4, .ack 1 2, .append (some 8), .read 1, .ack 2 3,
    .complete]

theorem response_queue_integrity_run :
    ∃ σ, runActions (step 1000) (.start 3 0 ⟨false, false, true⟩) integrityRun = some σ ∧
      σ.handed = [1, 2, 3, 4, 5] ∧ σ.handed <+: σ.passed ∧
      σ.queue.responseBuffered + σ.acked = σ.appended.length := by
  have hrun : (runActions (step 1000) (.start 3 0 ⟨false, false, true⟩) integrityRun).map
      (fun σ => (σ.queue.responseCancelled, σ.handed)) = some (false, [1, 2, 3, 4, 5]) := by
    decide +kernel
  obtain ⟨σ, hσ, hval⟩ := Option.map_eq_some_iff.mp hrun
  have hchecked : runChecked (step 1000) (fun _ a => waitSound a) (.start 3 0 ⟨false, false, true⟩) integrityRun =
      runActions (step 1000) (.start 3 0 ⟨false, false, true⟩) integrityRun := rfl
  simp only [Prod.mk.injEq] at hval
  obtain ⟨hle, hsource, -, hb, -⟩ := response_queue_integrity 1000 3 0 ⟨false, false, true⟩
    (Reach.of_runActions integrityRun hσ) hval.1
  have hpassed := hsource (Reach.of_runChecked integrityRun (hchecked.trans hσ))
  exact ⟨σ, hσ, hval.2, hle.trans hpassed, hb⟩

/-- When the wait fails, the rest of its call is missing between the data of two calls. -/
example : (runActions (step 1000) (.start 2 0 ⟨false, false, true⟩)
    [.call [1, 2, 3], .append (some 7), .waitFails, .read 1, .ack 1 2, .call [9], .append (some 8), .read 1]).map
      (fun σ => (σ.passed, σ.handed)) = some ([1, 2, 3, 9], [1, 2, 9]) := by
  decide +kernel

end ModHttp3.Response
