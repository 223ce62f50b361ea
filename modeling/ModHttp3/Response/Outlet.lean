import ModHttp3.Quic.Write
import ModHttp3.Response.Integrity
import ModHttp3.Response.ZeroCopy

/-! A response from the worker to the wire: the queue, the references to its chunks that nghttp3 has, and the
rounds of `flush_nghttp3` in which OpenSSL reads them. What nghttp3 does is part of the steps; what is assumed of it is
a condition on them. -/
namespace ModHttp3.Response
open Lib LinkedQueue Quic

/-- `h3_stream_response_cleanup_locked`. Every chunk has an unacknowledged byte, so that there are no more chunks than
`response_buffered`. -/
def h3StreamResponseCleanupLocked (r : Queue) : Option Queue :=
  (r.chunks.clear r.responseBuffered).map fun q =>
    { r with
      chunks := q
      responseSubmitChunk := none
      responseSubmitOffset := 0
      responseBuffered := 0 }

/-- A response on its way. `outq` records the buffers that nghttp3 has made or was handed and that are not
acknowledged; `eof` tells whether the end was reported for a cancelled response, `completed` that the worker has called
`h3_stream_response_complete`, `lost` that the write broke or the stream had no handle; `body` is what OpenSSL took of
the body. -/
structure Outlet where
  exchange : Exchange
  outq : List Vec
  eof : Option Bool
  completed : Bool
  lost : Bool
  body : Bytes
  concluded : Bool
  freed : Bool

/-- `frame` and `header` are bytes that nghttp3 makes itself. `vec` is what `nghttp3_conn_writev_stream` returns, and
`datalens` are the lengths with which `nghttp3_conn_add_ack_offset` calls back. -/
inductive OutletAct
  | worker (a : Action)
  | cancel
  | frame (bytes : Bytes)
  | read (veccnt : ℕ) (header : Bytes)
  | flush (vec : List Vec) (fin : Bool) (answers : List SslWrite) (datalens : List ℕ) (now : ℤ)
  | swallow (vec : List Vec) (datalens : List ℕ) (now : ℤ)
  | cleanup

namespace Outlet

def start (limit : ℕ) (now : ℤ) (flags : SessionFlags) : Outlet :=
  ⟨.start limit now flags, [], none, false, false, [], false, false⟩

def setQueue (w : Outlet) (q : Queue) : Outlet := { w with exchange := { w.exchange with queue := q } }

/-- A step of the worker, or a flag that another thread sets. -/
def workerStep (sizeMax : ℕ) (w : Outlet) : Action → Option Outlet
  | .read _ | .ack _ _ => none
  | .complete =>
    (step sizeMax w.exchange .complete).map fun x => { w with exchange := x, completed := true }
  | a => (step sizeMax w.exchange a).map fun x => { w with exchange := x }

/-- nghttp3 asks for more. -/
def read (w : Outlet) (veccnt : ℕ) (header : Bytes) : Option Outlet := do
  let vec ← handVecs veccnt w.exchange.queue
  let x ← h3SessionReadData veccnt w.exchange.queue
  match x.1 with
  | .vecs _ eof =>
    some { w with
      exchange := w.exchange.afterRead x
      outq := w.outq ++ .own header :: vec
      eof := if eof then some w.exchange.queue.responseCancelled else none }
  | _ => some { w with exchange := w.exchange.afterRead x }

/-- `n` bytes are reported to nghttp3 as written and acknowledged, and it calls back. -/
def report (w : Outlet) (now : ℤ) (datalens : List ℕ) (n : ℕ) : Option Outlet :=
  (ackAll now datalens w.exchange.queue).map fun q =>
    { w with
      exchange := { w.exchange with queue := q, acked := w.exchange.acked + datalens.sum }
      outq := skipBytes n w.outq }

/-- The write of a round of `flush_nghttp3`, in which OpenSSL reads the buffers that it takes, and the number of bytes
that are reported. -/
def write (w : Outlet) (vec : List Vec) (fin : Bool) (answers : List SslWrite) : Option (Outlet × ℕ) := do
  let bytes ← loads w.exchange.queue.chunks vec
  let r ← h3qStreamWrite bytes fin answers
  some ({ w with
    lost := w.lost || r.result.broken
    body := w.body ++ payload r.result.accepted vec bytes
    concluded := w.concluded || r.concluded },
    if r.result.broken then (vec.map Vec.len).sum else r.result.accepted)

/-- A step; for a stream that is gone, `flush_nghttp3` reports the buffers as they are. Nobody uses the stream once its
chunks were freed: nghttp3 has closed it or was deleted, and its worker has returned. -/
def step (sizeMax : ℕ) (w : Outlet) (act : OutletAct) : Option Outlet :=
  if w.freed then none
  else match act with
    | .worker a => w.workerStep sizeMax a
    | .cancel => some (w.setQueue (h3StreamResponseCancelLocked w.exchange.queue))
    | .frame bytes => some { w with outq := w.outq ++ [.own bytes] }
    | .read veccnt header => w.read veccnt header
    | .flush vec fin answers datalens now =>
      (w.write vec fin answers).bind fun x => x.1.report now datalens x.2
    | .swallow vec datalens now => ({ w with lost := true } : Outlet).report now datalens (vec.map Vec.len).sum
    | .cleanup =>
      if w.exchange.producer.isNone then
        (h3StreamResponseCleanupLocked w.exchange.queue).map fun q => { w.setQueue q with freed := true }
      else none

/-- The worker completes the response after its appends, and no wait of these fails. -/
def inOrder (w : Outlet) : OutletAct → Bool
  | .worker (.call _) => !w.completed
  | .worker .waitFails => false
  | .worker .complete => w.exchange.producer.isNone
  | _ => true

/-- What nghttp3 is assumed to do. It asks for at least one vector, and for no more after the end; it returns buffers
from the first on that is not acknowledged, the fin only with all that are left; and of the bytes that are reported it
calls back for those of the body. -/
def nghttp3Sound (w : Outlet) : OutletAct → Bool
  | .frame _ => w.eof.isNone
  | .read veccnt _ => w.eof.isNone && decide (1 ≤ veccnt)
  | .flush vec fin answers datalens _ =>
    vec.isPrefixOf w.outq && (!fin || w.eof.isSome && decide (w.outq.length ≤ vec.length)) &&
      (w.write vec fin answers).all fun x => datalens.sum == bodyLen x.2 w.outq
  | .swallow vec datalens _ => vec.isPrefixOf w.outq && datalens.sum == bodyLen (vec.map Vec.len).sum w.outq
  | _ => true

end Outlet

/-- The queue implements the recorded transfer, and nghttp3 refers to what is handed out and not acknowledged. -/
structure Outlet.Holds (w : Outlet) (b : Transfer UInt8) (gone : Bytes) (cells : List Cell) (k : ℕ) : Prop where
  refines : Refines w.exchange.queue b gone cells k
  refers : Refers w.outq cells k
  produced : b.produced = w.exchange.appended
  handed : b.handed = w.exchange.handed
  acked : b.acked = w.exchange.acked

/-- The chunks are those of the transfer until they are freed, and then none is left. -/
structure Outlet.Backed (limit : ℕ) (w : Outlet) : Prop where
  holds : w.freed = false → ∃ b gone cells k, w.Holds b gone cells k
  empty : w.freed = true → ∀ a, w.exchange.queue.chunks.mem a = none
  limit_eq : w.exchange.queue.responseBufferLimit = limit
  inOrder : w.exchange.handed <+: w.exchange.appended
  acked_le : w.exchange.acked ≤ w.exchange.handed.length
  bounded : w.exchange.appended.length ≤ w.exchange.acked + limit

/-- What is passed to append is queued or pending, unless appends fail; the end of a response that was not cancelled
comes after all of it. -/
structure Outlet.Sourced (w : Outlet) : Prop where
  source : w.exchange.passed = w.exchange.appended ++ w.exchange.pending ∨
    (w.exchange.queue.responseCancelled = true ∨ w.exchange.flags.gone = true) ∧ w.exchange.appended <+: w.exchange.passed
  idle : w.completed = true → w.exchange.producer = none
  flagged : w.exchange.queue.responseComplete = true →
    w.exchange.queue.responseCancelled = true ∨ w.completed = true
  whole : w.eof = some false → w.completed = true ∧ w.exchange.handed = w.exchange.appended ∧
    (w.exchange.passed = w.exchange.appended ∨ w.exchange.flags.gone = true)

/-- While nothing is lost, OpenSSL has the body that was acknowledged, and a concluded stream has all of it. -/
structure Outlet.Delivered (w : Outlet) : Prop where
  body : w.lost = false → w.body = w.exchange.handed.take w.exchange.acked
  final : w.concluded = true → w.lost = false → w.eof.isSome ∧ w.exchange.acked = w.exchange.handed.length

structure Outlet.Sound (limit : ℕ) (w : Outlet) : Prop where
  backed : w.Backed limit
  sourced : w.Sourced
  delivered : w.Delivered

section
variable {limit sizeMax : ℕ} {w w' : Outlet} {b : Transfer UInt8} {gone : Bytes} {cells : List Cell} {k : ℕ}

theorem Outlet.Holds.backed (h : w.Holds b gone cells k) (hfreed : w.freed = false)
    (hlimit : w.exchange.queue.responseBufferLimit = limit) : w.Backed limit where
  holds _ := ⟨b, gone, cells, k, h⟩
  empty he := absurd (hfreed.symm.trans he) Bool.false_ne_true
  limit_eq := hlimit
  inOrder := by
    rw [← h.handed, ← h.produced]
    exact b.inOrder
  acked_le := by
    rw [← h.acked, ← h.handed]
    exact b.acked_le
  bounded := by
    have hbuffered := h.refines.buffered
    have hbounded := h.refines.bounded
    rw [← h.produced, ← h.acked]
    omega

theorem Outlet.backed_start (limit : ℕ) (now : ℤ) (flags : SessionFlags) : (start limit now flags).Backed limit := by
  obtain ⟨gone, cells, k, h⟩ := implements_new limit now
  have hcells : cells = [] := by
    cases cells with
    | nil => rfl
    | cons c cells => cases h.rep.seg.1
  subst hcells
  have hrefers : Refers [] [] k := by
    rw [Refers, List.take_nil]
    rfl
  have hholds : (start limit now flags).Holds .start gone [] k := ⟨h, hrefers, rfl, rfl, rfl⟩
  exact hholds.backed rfl rfl

theorem Outlet.sourced_start (limit : ℕ) (now : ℤ) (flags : SessionFlags) : (start limit now flags).Sourced where
  source := .inl rfl
  idle h := absurd h Bool.false_ne_true
  flagged h := absurd h Bool.false_ne_true
  whole h := by cases h

theorem Outlet.delivered_start (limit : ℕ) (now : ℤ) (flags : SessionFlags) : (start limit now flags).Delivered where
  body _ := rfl
  final h := absurd h Bool.false_ne_true

theorem Outlet.Sourced.appended_le (h : w.Sourced) : w.exchange.appended <+: w.exchange.passed := by
  rcases h.source with hs | ⟨-, hs⟩
  · exact ⟨_, hs.symm⟩
  · exact hs

/-- A response that is complete and not cancelled was completed by its worker, after its last append. -/
theorem Outlet.Sourced.ends (h : w.Sourced) (hc : ¬w.exchange.queue.responseCancelled = true)
    (hcomp : w.exchange.queue.responseComplete = true) :
    w.completed = true ∧ (w.exchange.passed = w.exchange.appended ∨ w.exchange.flags.gone = true) := by
  have hdone : w.completed = true := (h.flagged hcomp).resolve_left hc
  refine ⟨hdone, ?_⟩
  rcases h.source with hs | ⟨hfail, -⟩
  · left
    rw [hs, Exchange.pending, h.idle hdone]
    exact List.append_nil _
  · exact .inr (hfail.resolve_left hc)

/-- An iteration of the append loop that queues bytes has queued them in one chunk. -/
private theorem append_queued {st : SessionFlags} {data : Bytes} {offset n : ℕ} {malloc : Option Addr} {resume : Bool}
    {r r' : Queue} (h : h3StreamResponseAppend sizeMax st data offset malloc r = some (.queued n resume, r')) :
    ∃ a, malloc = some a ∧ queueChunk ((data.drop offset).take n) a r = some r' := by
  unfold h3StreamResponseAppend at h
  split_ifs at h
  · cases h
  · cases h
  · dsimp only at h
    split_ifs at h
    · cases h
    · cases malloc with
      | none => cases h
      | some a =>
        obtain ⟨r₁, hr₁, he⟩ := Option.map_eq_some_iff.mp h
        cases he
        exact ⟨a, rfl, hr₁⟩

/-- An append adds chunks behind those that were handed out. -/
private theorem append_refines (h : Refines w.exchange.queue b gone cells k) (hl : Refers w.outq cells k) {data : Bytes}
    {offset : ℕ} {malloc : Option Addr} {x : AppendStep × Queue}
    (hm : ∀ a, malloc = some a → w.exchange.queue.chunks.mem a = none)
    (hx : h3StreamResponseAppend sizeMax w.exchange.flags data offset malloc w.exchange.queue = some x)
    (hspec : AppendSpec w.exchange.flags data offset w.exchange.queue b x) :
    ∃ b' cells', Refines x.2 b' gone cells' k ∧ Refers w.outq cells' k ∧ b'.handed = b.handed ∧ b'.acked = b.acked ∧
      b'.produced = b.produced ++ match x.1 with
        | .queued n _ => (data.drop offset).take n
        | _ => [] := by
  cases hspec with
  | waits _ => exact ⟨b, cells, h, hl, rfl, rfl, (List.append_nil _).symm⟩
  | refused _ => exact ⟨b, cells, h, hl, rfl, rfl, (List.append_nil _).symm⟩
  | cancels rv =>
    exact ⟨b, cells, h.of_ctl rfl rfl rfl rfl rfl rfl, hl, rfl, rfl, (List.append_nil _).symm⟩
  | queued n r' hc hg hn hlen himp hctl =>
    obtain ⟨a, ha, hqueue⟩ := append_queued hx
    have hbytes : ((data.drop offset).take n).length = n := by
      rw [List.length_take, List.length_drop, hlen]
      unfold appendChunkLen
      omega
    have hne : (data.drop offset).take n ≠ [] := by
      rw [← List.length_pos_iff, hbytes]
      exact hn
    have hroom : w.exchange.queue.responseBuffered + ((data.drop offset).take n).length ≤
        w.exchange.queue.responseBufferLimit := by
      have hbound := h.bounded
      rw [hbytes, hlen]
      unfold appendChunkLen
      omega
    obtain ⟨r₁, hr₁, href, -⟩ := queueChunk_refines h hne (hm a ha) hroom
    cases hqueue.symm.trans hr₁
    refine ⟨_, _, href, ?_, rfl, rfl, rfl⟩
    unfold Refers at hl ⊢
    rw [List.take_append_of_le_length h.submit_le]
    exact hl

theorem Outlet.Sound.call (hw : w.Sound limit) (hfreed : w.freed = false) (data : Bytes)
    (hprod : w.exchange.producer = none) (hcomp : w.completed = false) :
    Sound limit { w with exchange :=
      { w.exchange with producer := appendRest data 0, passed := w.exchange.passed ++ data } } := by
  obtain ⟨b, gone, cells, k, h⟩ := hw.backed.holds hfreed
  have hno : ∀ {p : Prop}, w.completed = true → p := fun hc => absurd (hcomp.symm.trans hc) Bool.false_ne_true
  refine ⟨Holds.backed ⟨h.refines, h.refers, h.produced, h.handed, h.acked⟩ hfreed hw.backed.limit_eq,
    ⟨?_, hno, hw.sourced.flagged, fun he => hno (hw.sourced.whole he).1⟩, hw.delivered.body, hw.delivered.final⟩
  rcases hw.sourced.source with hs | ⟨hfail, hs⟩
  · left
    have hpend : w.exchange.pending = [] := by simp [Exchange.pending, hprod]
    rw [hpend, List.append_nil] at hs
    simp only [Exchange.pending, pending_appendRest, List.drop_zero, hs]
  · exact .inr ⟨hfail, hs.trans (List.prefix_append _ _)⟩

theorem Outlet.Sound.append (hw : w.Sound limit) (hfreed : w.freed = false) {data : Bytes} {offset : ℕ}
    {malloc : Option Addr} (hprod : w.exchange.producer = some (data, offset))
    (hm : ∀ a, malloc = some a → w.exchange.queue.chunks.mem a = none) {x : AppendStep × Queue}
    (hx : h3StreamResponseAppend sizeMax w.exchange.flags data offset malloc w.exchange.queue = some x) :
    Sound limit { w with exchange := w.exchange.afterAppend data offset x } := by
  obtain ⟨hB, hS, hD⟩ := hw
  obtain ⟨b, gone, cells, k, h⟩ := hB.holds hfreed
  obtain ⟨x', hx', hspec⟩ := append_implements ⟨gone, cells, k, h.refines⟩ sizeMax w.exchange.flags data offset hm
  cases hx.symm.trans hx'
  obtain ⟨b', cells', href, hl, hhanded, hacked, hproduced⟩ := append_refines h.refines h.refers hm hx hspec
  have hpend : w.exchange.pending = data.drop offset := by simp [Exchange.pending, hprod]
  -- the worker is in an append call: it has not completed the response
  have hno : ∀ {p : Prop}, w.completed = true → p := by
    intro p hc
    have hnone := hS.idle hc
    rw [hprod] at hnone
    cases hnone
  have hwhole : ∀ {p : Prop}, w.eof = some false → p := fun he => hno (hS.whole he).1
  cases hspec with
  | waits _ => exact ⟨hB, hS, hD⟩
  | refused hgone =>
    exact ⟨Holds.backed ⟨h.refines, h.refers, h.produced, h.handed, h.acked⟩ hfreed hB.limit_eq,
      ⟨.inr ⟨hgone, hS.appended_le⟩, hno, hS.flagged, hwhole⟩, hD.body, hD.final⟩
  | cancels rv =>
    exact ⟨Holds.backed ⟨h.refines.of_ctl rfl rfl rfl rfl rfl rfl, h.refers, h.produced, h.handed, h.acked⟩ hfreed
        hB.limit_eq,
      ⟨.inr ⟨.inl rfl, hS.appended_le⟩, hno, fun _ => .inl rfl, hwhole⟩, hD.body, hD.final⟩
  | queued n q hc hg hn hlen himp hctl =>
    have hflags : q.responseBufferLimit = limit ∧ q.responseCancelled = w.exchange.queue.responseCancelled ∧
        q.responseComplete = w.exchange.queue.responseComplete := by
      rw [hctl]
      exact ⟨hB.limit_eq, rfl, rfl⟩
    have hproduced' : b'.produced = w.exchange.appended ++ (data.drop offset).take n := by
      rw [hproduced, h.produced]
    refine ⟨Holds.backed ⟨href, hl, hproduced', hhanded.trans h.handed, hacked.trans h.acked⟩ hfreed hflags.1,
      ⟨.inl ?_, hno, fun hcomp => ?_, hwhole⟩, hD.body, hD.final⟩
    · have hs : w.exchange.passed = w.exchange.appended ++ data.drop offset := by
        rcases hS.source with hs | ⟨hfail | hfail, -⟩
        · rwa [hpend] at hs
        · exact absurd (hc.symm.trans hfail) Bool.false_ne_true
        · exact absurd (hg.symm.trans hfail) Bool.false_ne_true
      simp only [Exchange.afterAppend, Exchange.pending, pending_appendRest, hs, List.append_assoc]
      rw [← List.drop_drop, List.take_append_drop]
    · have hcomp' : w.exchange.queue.responseComplete = true := hflags.2.2.symm.trans hcomp
      exact (hS.flagged hcomp').imp (fun hc' => hflags.2.1.trans hc') id

theorem Outlet.Sound.setFlags (hw : w.Sound limit) (hfreed : w.freed = false) {flags : SessionFlags}
    (hg : flags.gone = true) : Sound limit { w with exchange := { w.exchange with flags := flags } } := by
  obtain ⟨hB, hS, hD⟩ := hw
  obtain ⟨b, gone, cells, k, h⟩ := hB.holds hfreed
  refine ⟨Holds.backed ⟨h.refines, h.refers, h.produced, h.handed, h.acked⟩ hfreed hB.limit_eq,
    ⟨?_, hS.idle, hS.flagged, fun he => ?_⟩, hD.body, hD.final⟩
  · exact hS.source.imp_right fun hs => ⟨.inr hg, hs.2⟩
  · obtain ⟨hc, hh, -⟩ := hS.whole he
    exact ⟨hc, hh, .inr hg⟩

theorem Outlet.Sound.complete (hw : w.Sound limit) (hfreed : w.freed = false) (hprod : w.exchange.producer = none) :
    Sound limit { w with
      exchange := { w.exchange with queue := { w.exchange.queue with responseComplete := true } }
      completed := true } := by
  obtain ⟨hB, hS, hD⟩ := hw
  obtain ⟨b, gone, cells, k, h⟩ := hB.holds hfreed
  have href : Refines { w.exchange.queue with responseComplete := true } b gone cells k :=
    h.refines.of_ctl rfl rfl rfl rfl rfl rfl
  exact ⟨Holds.backed ⟨href, h.refers, h.produced, h.handed, h.acked⟩ hfreed hB.limit_eq,
    ⟨hS.source, fun _ => hprod, fun _ => .inr rfl, fun he => ⟨rfl, (hS.whole he).2⟩⟩, hD.body, hD.final⟩

theorem Outlet.Sound.worker (hw : w.Sound limit) (hfreed : w.freed = false) {a : Action}
    (hok : w.inOrder (.worker a)) (h : w.workerStep sizeMax a = some w') : w'.Sound limit := by
  cases a with
  | read veccnt => cases h
  | ack now n => cases h
  | call data =>
    obtain ⟨x, hx, rfl⟩ := Option.map_eq_some_iff.mp h
    obtain ⟨hen, hx⟩ := Option.ite_none_right_eq_some.mp hx
    cases hx
    have hcomp : w.completed = false := by simpa [inOrder] using hok
    exact hw.call hfreed data (Option.isNone_iff_eq_none.mp hen) hcomp
  | append malloc =>
    obtain ⟨x, hx, rfl⟩ := Option.map_eq_some_iff.mp h
    obtain ⟨hen, hx⟩ := Option.ite_none_right_eq_some.mp hx
    simp only [enabled, Bool.and_eq_true, Option.all_eq_true, Option.isNone_iff_eq_none] at hen
    obtain ⟨⟨data, offset⟩, hp⟩ := Option.isSome_iff_exists.mp hen.1
    rw [exec, hp] at hx
    obtain ⟨y, hy, rfl⟩ := Option.map_eq_some_iff.mp hx
    exact hw.append hfreed hp hen.2 hy
  | waitFails => cases hok
  | complete =>
    cases h
    exact hw.complete hfreed (Option.isNone_iff_eq_none.mp hok)
  | abort =>
    cases h
    exact hw.setFlags hfreed (by simp [SessionFlags.gone])
  | dead =>
    cases h
    exact hw.setFlags hfreed (by simp [SessionFlags.gone])

theorem Outlet.Sound.cancel (hw : w.Sound limit) (hfreed : w.freed = false) :
    (w.setQueue (h3StreamResponseCancelLocked w.exchange.queue)).Sound limit := by
  obtain ⟨hB, hS, hD⟩ := hw
  obtain ⟨b, gone, cells, k, h⟩ := hB.holds hfreed
  have href : Refines (h3StreamResponseCancelLocked w.exchange.queue) b gone cells k :=
    h.refines.of_ctl rfl rfl rfl rfl rfl rfl
  exact ⟨Holds.backed ⟨href, h.refers, h.produced, h.handed, h.acked⟩ hfreed hB.limit_eq,
    ⟨hS.source.imp_right fun hs => ⟨.inl rfl, hs.2⟩, hS.idle, fun _ => .inl rfl, hS.whole⟩, hD.body, hD.final⟩

theorem Refers.frame {l : List Vec} (h : Refers l cells k) (bytes : Bytes) : Refers (l ++ [.own bytes]) cells k := by
  rw [Refers, List.filter_append, h]
  exact List.append_nil _

theorem Outlet.Sound.frame (hw : w.Sound limit) (hfreed : w.freed = false) (bytes : Bytes) :
    Sound limit { w with outq := w.outq ++ [.own bytes] } := by
  obtain ⟨hB, hS, hD⟩ := hw
  obtain ⟨b, gone, cells, k, h⟩ := hB.holds hfreed
  exact ⟨Holds.backed ⟨h.refines, h.refers.frame bytes, h.produced, h.handed, h.acked⟩ hfreed hB.limit_eq,
    ⟨hS.source, hS.idle, hS.flagged, hS.whole⟩, hD.body, hD.final⟩

/-- What a read of a response that is not cancelled leaves, and what it tells. -/
structure ReadSpec (r : Queue) (b : Transfer UInt8) (cells : List Cell) (k v : ℕ) (x : ReadData × Queue) : Prop where
  queue : x.2 =
    { r with responseSubmitChunk := cursor cells (k + min v (cells.length - k)), responseSubmitOffset := 0 }
  vecs : ∀ vec eof, x.1 = .vecs vec eof → vec.flatten = contents ((cells.drop k).take v) ∧
    (eof = true → r.responseComplete = true ∧ b.handed ++ vec.flatten = b.produced)
  nothing : (∀ vec eof, x.1 ≠ .vecs vec eof) → k = cells.length

private theorem readData_spec {r : Queue} (h : Refines r b gone cells k) (hc : r.responseCancelled = false) {v : ℕ}
    (hv : 0 < v) {x : ReadData × Queue} (hx : h3SessionReadData v r = some x) : ReadSpec r b cells k v x := by
  obtain ⟨vec', r', hok, hread, -, -, hnil⟩ := readData_implements ⟨gone, cells, k, h⟩ hc hv
  have hans : x.1 = readAnswer r b vec' := by
    rw [hread] at hx
    cases hx
    rfl
  rw [h3SessionReadData, if_neg (Nat.pos_iff_ne_zero.mp hv), hc, if_neg Bool.false_ne_true, readLoop_refines h v,
    Option.map_some, Option.some.injEq] at hx
  have hflat : (((cells.drop k).take v).map (·.2.data)).flatten = contents ((cells.drop k).take v) := rfl
  have heof : ∀ vec, x.1 = .vecs vec true → r.responseComplete = true ∧ b.handed ++ vec.flatten = b.produced := by
    intro vec he
    rw [hans, readAnswer] at he
    split_ifs at he
    simp only [ReadData.vecs.injEq, Bool.and_eq_true, decide_eq_true_eq] at he
    obtain ⟨rfl, hall, hcomp⟩ := he
    exact ⟨hcomp, hall⟩
  refine ⟨?_, fun vec eof he => ⟨?_, fun hend => heof vec (hend ▸ he)⟩, fun hno => ?_⟩
  · subst hx
    dsimp only
    split_ifs <;> rfl
  · rw [← hflat]
    subst hx
    dsimp only at he
    split_ifs at he with hne hcomp
    · cases he
      rfl
    · cases he
      rw [not_not.mp hne]
  · have hvec : vec' = [] := by
      by_contra hne
      rw [readAnswer, if_neg fun hw => hne hw.1] at hans
      exact hno _ _ hans
    exact h.all_handed_iff.mp (hnil hvec)

/-- A cancelled response is ended, with no more of its body. -/
theorem Outlet.Sound.readCancelled (hw : w.Sound limit) (hfreed : w.freed = false) (header : Bytes) :
    Sound limit { w with
      exchange := { w.exchange with handed := w.exchange.handed ++ List.flatten [] }
      outq := w.outq ++ [.own header]
      eof := some true } := by
  obtain ⟨hB, hS, hD⟩ := hw
  obtain ⟨b, gone, cells, k, h⟩ := hB.holds hfreed
  have hhanded : b.handed = w.exchange.handed ++ List.flatten [] := by
    rw [h.handed, List.flatten_nil, List.append_nil]
  refine ⟨Holds.backed ⟨h.refines, h.refers.frame header, h.produced, hhanded, h.acked⟩ hfreed hB.limit_eq,
    ⟨hS.source, hS.idle, hS.flagged, fun he => ?_⟩, ?_, fun hcon hlost => ⟨rfl, ?_⟩⟩
  · cases he
  · rw [List.flatten_nil, List.append_nil]
    exact hD.body
  · rw [List.flatten_nil, List.append_nil]
    exact (hD.final hcon hlost).2

theorem Outlet.Sound.read (hw : w.Sound limit) (hfreed : w.freed = false) (heof : w.eof = none) {veccnt : ℕ}
    (hv : 0 < veccnt) {header : Bytes} (h : w.read veccnt header = some w') : w'.Sound limit := by
  obtain ⟨vec, hvec, h⟩ := Option.bind_eq_some_iff.mp h
  obtain ⟨x, hx, h⟩ := Option.bind_eq_some_iff.mp h
  obtain ⟨hB, hS, hD⟩ := id hw
  obtain ⟨b, gone, cells, k, hh⟩ := hB.holds hfreed
  by_cases hc : w.exchange.queue.responseCancelled = true
  · rw [handVecs, if_pos hc] at hvec
    rw [h3SessionReadData, if_neg (Nat.pos_iff_ne_zero.mp hv), if_pos hc] at hx
    cases hvec
    cases hx
    dsimp only at h
    rw [if_pos rfl, hc] at h
    cases h
    exact hw.readCancelled hfreed header
  · have hc' : w.exchange.queue.responseCancelled = false := Bool.eq_false_iff.mpr hc
    rw [handVecs, if_neg hc, vecLoop_refines hh.refines] at hvec
    cases hvec
    have hspec := readData_spec hh.refines hc' hv hx
    have hle := hh.refines.submit_le
    have hj : k + min veccnt (cells.length - k) ≤ cells.length := by omega
    have href := hh.refines.advance hj
    rw [← hspec.queue] at href
    have htake : (cells.drop k).take veccnt = (cells.drop k).take (min veccnt (cells.length - k)) := by
      rw [← List.length_drop, ← List.take_eq_take_min]
    have hflags : x.2.toResponseCtl = w.exchange.queue.toResponseCtl := by rw [hspec.queue]
    have hlimit : x.2.responseBufferLimit = limit := by
      rw [hflags]
      exact hB.limit_eq
    have hflagged : x.2.responseComplete = true → x.2.responseCancelled = true ∨ w.completed = true := by
      rw [hflags]
      exact hS.flagged
    have hsource : w.exchange.passed = w.exchange.appended ++ w.exchange.pending ∨
        (x.2.responseCancelled = true ∨ w.exchange.flags.gone = true) ∧ w.exchange.appended <+: w.exchange.passed := by
      rw [hflags]
      exact hS.source
    have hfinal : w.concluded = true → w.lost = false → False := by
      intro hcon hlost
      have hsome := (hD.final hcon hlost).1
      rw [heof] at hsome
      cases hsome
    obtain ⟨answer, q⟩ := x
    cases answer with
    | vecs vec eof =>
      obtain ⟨hflat, hend⟩ := hspec.vecs vec eof rfl
      have hhanded : b.handed ++ contents ((cells.drop k).take (min veccnt (cells.length - k))) =
          w.exchange.handed ++ vec.flatten := by rw [hflat, ← htake, hh.handed]
      dsimp only at h
      cases h
      refine ⟨Holds.backed ⟨href, hh.refers.concat header veccnt, hh.produced, hhanded, hh.acked⟩ hfreed hlimit,
        ⟨hsource, hS.idle, hflagged, fun he => ?_⟩, fun hlost => ?_, fun hcon hlost => (hfinal hcon hlost).elim⟩
      · dsimp only at he
        rw [hc'] at he
        cases eof with
        | false => cases he
        | true =>
          obtain ⟨hcomp, hall⟩ := hend rfl
          rw [hh.handed, hh.produced] at hall
          obtain ⟨hdone, hpassed⟩ := hS.ends hc hcomp
          exact ⟨hdone, hall, hpassed⟩
      · rw [hD.body hlost]
        exact (List.take_append_of_le_length hB.acked_le).symm
    | wouldblock | failure =>
      have hk := hspec.nothing fun vec eof he => by cases he
      dsimp only at h
      cases h
      have hzero : min veccnt (cells.length - k) = 0 := by omega
      rw [hzero] at href
      have hhanded : b.handed ++ contents ((cells.drop k).take 0) = w.exchange.handed := by
        rw [List.take_zero, contents_nil, List.append_nil, hh.handed]
      exact ⟨Holds.backed ⟨href, hh.refers, hh.produced, hhanded, hh.acked⟩ hfreed hlimit,
        ⟨hsource, hS.idle, hflagged, hS.whole⟩, hD.body, hD.final⟩

private theorem texts_length {l : List Vec} (hwf : ∀ c ∈ cells, c.2.data.length = c.2.len)
    (hl : l.filter Vec.isBody = cells.map cellVec) : (texts l cells).map List.length = l.map Vec.len := by
  induction l generalizing cells with
  | nil => rfl
  | cons p l ih =>
    cases p with
    | own bytes => rw [texts, List.map_cons, List.map_cons, ih hwf hl, Vec.len]
    | body a offset len =>
      cases cells with
      | nil => cases hl
      | cons c cells =>
        obtain ⟨hp, hl⟩ := List.cons.inj hl
        have hlen : (c.2.data.drop c.2.acked).length = (cellVec c).len := by
          rw [List.length_drop, hwf c List.mem_cons_self]
          rfl
        rw [show Vec.body a offset len = cellVec c from hp, texts_body, List.map_cons, List.map_cons, hlen,
          ih (fun d hd => hwf d (List.mem_cons_of_mem _ hd)) hl]

/-- What nghttp3 refers to can be read. -/
theorem Outlet.Holds.loads (h : w.Holds b gone cells k) :
    loads w.exchange.queue.chunks w.outq = some (texts w.outq (cells.take k)) ∧
      (texts w.outq (cells.take k)).map List.length = w.outq.map Vec.len := by
  have hwf : ∀ c ∈ cells.take k, c.2.data.length = c.2.len := by
    exact fun c hc => (h.refines.wf c (List.mem_of_mem_take hc)).1
  refine ⟨loads_texts (fun c hc => ?_) hwf h.refers, texts_length hwf h.refers⟩
  exact seg_mem h.refines.rep.seg (List.mem_of_mem_take hc)

/-- When the output of nghttp3 has no bytes left, all that was handed out is acknowledged. -/
theorem Refines.acked_all {r : Queue} {l : List Vec} (h : Refines r b gone cells k) (hl : Refers l cells k)
    (hsum : (l.map Vec.len).sum = 0) : b.acked = b.handed.length := by
  have hnil : cells.take k = [] := by
    cases htake : cells.take k with
    | nil => rfl
    | cons c rest =>
      have hmem : cellVec c ∈ l.filter Vec.isBody := by
        rw [hl, htake]
        exact List.mem_cons_self
      have hzero : (cellVec c).len = 0 :=
        List.sum_eq_zero_iff_forall_eq_nat.mp hsum _ (List.mem_map_of_mem (List.mem_of_mem_filter hmem))
      have hpos := (h.wf c (List.mem_of_mem_take (htake ▸ List.mem_cons_self))).2
      have hlen : c.2.len - c.2.acked = 0 := hzero
      omega
  have hle := b.acked_le
  rw [h.handed, hnil, contents_nil, List.append_nil, h.acked] at *
  omega

/-- What the report of `n` bytes to nghttp3 does to the response. -/
structure Reported (w w' : Outlet) (n : ℕ) : Prop where
  acked : w'.exchange.acked = w.exchange.acked + bodyLen n w.outq
  handed : w'.exchange.handed = w.exchange.handed
  all : n = (w.outq.map Vec.len).sum → w'.exchange.acked = w'.exchange.handed.length
  record : (w'.lost, w'.body, w'.concluded, w'.eof) = (w.lost, w.body, w.concluded, w.eof)

/-- The body bytes in the buffers are those that come next. -/
theorem Outlet.Holds.payload (h : w.Holds b gone cells k) (n : ℕ) :
    payload n w.outq (texts w.outq (cells.take k)) =
      (w.exchange.handed.drop w.exchange.acked).take (bodyLen n w.outq) := by
  rw [payload_texts n (fun c hc => (h.refines.wf c (List.mem_of_mem_take hc)).1) h.refers, ← h.refines.drop_acked,
    h.handed, h.acked]

theorem Outlet.Backed.report (hB : w.Backed limit) (hS : w.Sourced) (hfreed : w.freed = false) (now : ℤ) {n : ℕ}
    (hn : n ≤ (w.outq.map Vec.len).sum) {datalens : List ℕ} (hsum : datalens.sum = bodyLen n w.outq) :
    ∃ w', w.report now datalens n = some w' ∧ w'.Backed limit ∧ w'.Sourced ∧ Reported w w' n := by
  obtain ⟨b, gone, cells, k, h⟩ := hB.holds hfreed
  have hle : b.acked + datalens.sum ≤ b.handed.length := by
    have hbody := bodyLen_le n w.outq
    have hacked := b.acked_le
    rw [h.refines.unacked_length h.refers] at hbody
    omega
  obtain ⟨q, gone', hack, hflags, href⟩ := h.refines.ackAll now datalens hle
  have hrefers := h.refers.skip (fun c hc => (h.refines.wf c hc).2) n
  rw [← hsum] at hrefers
  have hacked : b.acked + datalens.sum = w.exchange.acked + datalens.sum := congrArg (· + datalens.sum) h.acked
  have hrep : w.report now datalens n = some { w with
      exchange := { w.exchange with queue := q, acked := w.exchange.acked + datalens.sum }
      outq := skipBytes n w.outq } := by
    rw [Outlet.report, hack]
    rfl
  refine ⟨_, hrep, Holds.backed ⟨href, hrefers, h.produced, h.handed, hacked⟩ hfreed (hflags.limit.trans hB.limit_eq),
    ⟨?_, hS.idle, ?_, hS.whole⟩, congrArg _ hsum, rfl, fun hall => ?_, rfl⟩
  · dsimp only
    rw [hflags.cancelled]
    exact hS.source
  · dsimp only
    rw [hflags.cancelled, hflags.complete]
    exact hS.flagged
  · have hrest := sum_skipBytes hn
    have hzero : ((skipBytes n w.outq).map Vec.len).sum = 0 := by omega
    have hlast := href.acked_all hrefers hzero
    change b.acked + datalens.sum = b.handed.length at hlast
    rw [h.acked, h.handed] at hlast
    exact hlast

theorem sum_prefix_le {vec l : List Vec} (h : vec <+: l) : (vec.map Vec.len).sum ≤ (l.map Vec.len).sum := by
  obtain ⟨rest, rfl⟩ := h
  rw [List.map_append, List.sum_append]
  exact Nat.le_add_right _ _

theorem Outlet.Sound.swallow (hw : w.Sound limit) (hfreed : w.freed = false) {vec : List Vec} {datalens : List ℕ}
    {now : ℤ} (hok : w.nghttp3Sound (.swallow vec datalens now))
    (h : ({ w with lost := true } : Outlet).report now datalens (vec.map Vec.len).sum = some w') : w'.Sound limit := by
  obtain ⟨hB, hS, hD⟩ := hw
  obtain ⟨b, gone, cells, k, hh⟩ := hB.holds hfreed
  have hB' : Backed limit { w with lost := true } :=
    Holds.backed ⟨hh.refines, hh.refers, hh.produced, hh.handed, hh.acked⟩ hfreed hB.limit_eq
  have hS' : Sourced { w with lost := true } := ⟨hS.source, hS.idle, hS.flagged, hS.whole⟩
  obtain ⟨hvec, hsum⟩ := Bool.and_eq_true_iff.mp hok
  obtain ⟨w₁, hrep, hB₁, hS₁, hr⟩ :=
    hB'.report hS' hfreed now (sum_prefix_le (List.isPrefixOf_iff_prefix.mp hvec)) (beq_iff_eq.mp hsum)
  cases hrep.symm.trans h
  have hlost : w'.lost = true := congrArg Prod.fst hr.record
  exact ⟨hB₁, hS₁, fun hl => absurd (hl.symm.trans hlost) Bool.false_ne_true,
    fun _ hl => absurd (hl.symm.trans hlost) Bool.false_ne_true⟩

/-- What a write does to the record, with the bytes that are reported. -/
structure Written (w w' : Outlet) (vec : List Vec) (fin : Bool) (n : ℕ) : Prop where
  exchange : w'.exchange = w.exchange
  outq : w'.outq = w.outq
  flags : (w'.eof, w'.completed, w'.freed) = (w.eof, w.completed, w.freed)
  le : n ≤ (vec.map Vec.len).sum
  lost : w'.lost = false → w.lost = false
  body : w'.lost = false → w'.body = w.body ++ (w.exchange.handed.drop w.exchange.acked).take (bodyLen n w.outq)
  concluded : w'.concluded = true → w'.lost = false → w.concluded = true ∨ fin = true ∧ n = (vec.map Vec.len).sum

theorem Outlet.Holds.write (hh : w.Holds b gone cells k) {vec : List Vec} (hvec : vec <+: w.outq) {fin : Bool}
    {answers : List SslWrite} {w₀ : Outlet} {n : ℕ} (h : w.write vec fin answers = some (w₀, n)) :
    Written w w₀ vec fin n := by
  obtain ⟨hloads, hlens⟩ := hh.loads
  have htake : vec = w.outq.take vec.length := List.prefix_iff_eq_take.mp hvec
  set bytes := texts w.outq (cells.take k) with hbytes
  have hread : Response.loads w.exchange.queue.chunks vec = some (bytes.take vec.length) := by
    conv_lhs => rw [htake]
    exact loads_take hloads vec.length
  have hsum : ((bytes.take vec.length).map List.length).sum = (vec.map Vec.len).sum := by
    conv_rhs => rw [htake]
    rw [List.map_take, List.map_take, hlens]
  unfold Outlet.write at h
  rw [hread, Option.bind_eq_bind, Option.bind_some] at h
  obtain ⟨r, hr, h⟩ := Option.bind_eq_some_iff.mp h
  obtain ⟨hspec, hconcl⟩ := h3qStreamWrite_spec hr
  have haccepted : r.result.accepted ≤ ((bytes.take vec.length).map List.length).sum := by
    rw [hspec.counted, ← List.length_flatten]
    exact hspec.first.length_le
  cases h
  refine ⟨rfl, rfl, rfl, ?_, fun hl => (Bool.or_eq_false_iff.mp hl).1, fun hl => ?_, fun hc hl => ?_⟩
  · split_ifs <;> omega
  · have hbroken := (Bool.or_eq_false_iff.mp hl).2
    rw [hbroken, if_neg Bool.false_ne_true, ← hh.payload, ← payload_take vec.length bytes haccepted, ← htake]
  · have hbroken := (Bool.or_eq_false_iff.mp hl).2
    refine (Bool.or_eq_true_iff.mp hc).imp_right fun hc₀ => ?_
    obtain ⟨hfin, hblocked, -⟩ := hconcl.mp hc₀
    refine ⟨hfin, ?_⟩
    rw [hbroken, if_neg Bool.false_ne_true, hspec.counted, hspec.whole hblocked hbroken, List.length_flatten, hsum]

/-- What OpenSSL takes changes neither the queue nor the buffers. -/
private theorem Written.holds {vec : List Vec} {fin : Bool} {n : ℕ} (h : Written w w' vec fin n)
    (hh : w.Holds b gone cells k) : w'.Holds b gone cells k := by
  obtain ⟨hrefines, hrefers, hproduced, hhanded, hacked⟩ := hh
  rw [← h.exchange] at hrefines hproduced hhanded hacked
  rw [← h.outq] at hrefers
  exact ⟨hrefines, hrefers, hproduced, hhanded, hacked⟩

private theorem Written.sourced {vec : List Vec} {fin : Bool} {n : ℕ} (h : Written w w' vec fin n)
    (hS : w.Sourced) : w'.Sourced := by
  have hflags := h.flags
  simp only [Prod.mk.injEq] at hflags
  obtain ⟨hsource, hidle, hflagged, hwhole⟩ := hS
  rw [← h.exchange] at hsource hidle hflagged hwhole
  rw [← hflags.2.1] at hidle hflagged hwhole
  rw [← hflags.1] at hwhole
  exact ⟨hsource, hidle, hflagged, hwhole⟩

theorem Outlet.Sound.flush (hw : w.Sound limit) (hfreed : w.freed = false) {vec : List Vec} {fin : Bool}
    {answers : List SslWrite} {datalens : List ℕ} {now : ℤ}
    (hok : w.nghttp3Sound (.flush vec fin answers datalens now))
    (h : (w.write vec fin answers).bind (fun x => x.1.report now datalens x.2) = some w') : w'.Sound limit := by
  obtain ⟨hB, hS, hD⟩ := hw
  obtain ⟨b, gone, cells, k, hh⟩ := hB.holds hfreed
  obtain ⟨⟨w₀, n⟩, hwrite, h⟩ := Option.bind_eq_some_iff.mp h
  simp only [nghttp3Sound, hwrite, Bool.and_eq_true, List.isPrefixOf_iff_prefix, Option.all_some, beq_iff_eq] at hok
  obtain ⟨⟨hvec, hfin⟩, hsum⟩ := hok
  have hx : Written w w₀ vec fin n := hh.write hvec hwrite
  have ⟨hexchange, houtq, hflags, hle, hlost₀, hbody₀, hconcl₀⟩ := hx
  simp only [Prod.mk.injEq] at hflags
  have hn : n ≤ (w₀.outq.map Vec.len).sum := by
    rw [houtq]
    exact hle.trans (sum_prefix_le hvec)
  have hfreed₀ : w₀.freed = false := hflags.2.2.trans hfreed
  have hB₀ : w₀.Backed limit := (hx.holds hh).backed hfreed₀ (by rw [hexchange]; exact hB.limit_eq)
  obtain ⟨w₁, hrep, hB₁, hS₁, hrpt⟩ := hB₀.report (hx.sourced hS) hfreed₀ now hn (by rw [houtq]; exact hsum)
  cases hrep.symm.trans h
  have hrecord := hrpt.record
  simp only [Prod.mk.injEq] at hrecord
  obtain ⟨hlost, hbody, hcon, heof⟩ := hrecord
  have hacked := hrpt.acked
  have hhanded := hrpt.handed
  rw [hexchange] at hacked hhanded
  refine ⟨hB₁, hS₁, fun hl => ?_, fun hc hl => ?_⟩
  · have hl₀ : w₀.lost = false := hlost.symm.trans hl
    rw [hbody, hbody₀ hl₀, hD.body (hlost₀ hl₀), hhanded, hacked, houtq, List.take_add]
  · have hl₀ : w₀.lost = false := hlost.symm.trans hl
    rcases hconcl₀ (hcon.symm.trans hc) hl₀ with hc₀ | ⟨hf, hwhole⟩
    · -- concluded before: nothing was left to acknowledge
      obtain ⟨hsome, hall⟩ := hD.final hc₀ (hlost₀ hl₀)
      have hle₁ := hB₁.acked_le
      refine ⟨by rw [heof, hflags.1]; exact hsome, ?_⟩
      rw [hacked, hhanded] at hle₁ ⊢
      omega
    · rw [hf] at hfin
      simp only [Bool.not_true, Bool.false_or, Bool.and_eq_true, decide_eq_true_eq] at hfin
      refine ⟨by rw [heof, hflags.1]; exact hfin.1, hrpt.all ?_⟩
      rw [hwhole, houtq, hvec.eq_of_length_le hfin.2]

/-- Every chunk has a byte that is not acknowledged. -/
theorem Refines.cells_le {r : Queue} (h : Refines r b gone cells k) : cells.length ≤ r.responseBuffered := by
  have hbuffered := h.buffered
  rw [h.produced, List.length_append, h.acked] at hbuffered
  have hcells : ∀ l : List Cell, (∀ c ∈ l, c.2.data.length = c.2.len ∧ c.2.acked < c.2.len) →
      l.length ≤ (contents l).length := by
    intro l hl
    induction l with
    | nil => exact Nat.le_refl 0
    | cons c l ih =>
      have hc := hl c List.mem_cons_self
      have hrest := ih fun d hd => hl d (List.mem_cons_of_mem _ hd)
      rw [contents_cons, List.length_append, List.length_cons]
      omega
  cases cells with
  | nil => exact Nat.zero_le _
  | cons c cells =>
    have hc := h.wf c List.mem_cons_self
    have hrest := hcells cells fun d hd => h.wf d (List.mem_cons_of_mem _ hd)
    rw [contents_cons, List.length_append, headAcked_cons] at hbuffered
    rw [List.length_cons]
    omega

theorem Outlet.Sound.cleanup (hw : w.Sound limit) (hfreed : w.freed = false) :
    ∃ q, h3StreamResponseCleanupLocked w.exchange.queue = some q ∧
      Sound limit { w.setQueue q with freed := true } := by
  obtain ⟨hB, hS, hD⟩ := hw
  obtain ⟨b, gone, cells, k, h⟩ := hB.holds hfreed
  have hclear := h.refines.rep.clear h.refines.cells_le
  have hq : h3StreamResponseCleanupLocked w.exchange.queue = some { w.exchange.queue with
      chunks := .empty
      responseSubmitChunk := none
      responseSubmitOffset := 0
      responseBuffered := 0 } := by
    rw [h3StreamResponseCleanupLocked, hclear]
    rfl
  refine ⟨_, hq, ⟨fun hf => ?_, fun _ _ => rfl,
    hB.limit_eq, hB.inOrder, hB.acked_le, hB.bounded⟩, ⟨hS.source, hS.idle, hS.flagged, hS.whole⟩, hD.body, hD.final⟩
  cases hf

theorem Outlet.Sound.step (hw : w.Sound limit) {act : OutletAct} (hok : w.inOrder act && w.nghttp3Sound act)
    (h : w.step sizeMax act = some w') : w'.Sound limit := by
  obtain ⟨hfreed, h⟩ := Option.ite_none_left_eq_some.mp h
  have hfreed : w.freed = false := Bool.eq_false_iff.mpr hfreed
  obtain ⟨horder, hlib⟩ := Bool.and_eq_true_iff.mp hok
  cases act with
  | worker a => exact hw.worker hfreed horder h
  | cancel =>
    cases h
    exact hw.cancel hfreed
  | frame bytes =>
    cases h
    exact hw.frame hfreed bytes
  | read veccnt header =>
    obtain ⟨heof, hv⟩ := Bool.and_eq_true_iff.mp hlib
    exact hw.read hfreed (Option.isNone_iff_eq_none.mp heof) (of_decide_eq_true hv) h
  | flush vec fin answers datalens now => exact hw.flush hfreed hlib h
  | swallow vec datalens now => exact hw.swallow hfreed hlib h
  | cleanup =>
    obtain ⟨-, h⟩ := Option.ite_none_right_eq_some.mp h
    obtain ⟨q, hq, hs⟩ := hw.cleanup hfreed
    obtain ⟨q', hq', rfl⟩ := Option.map_eq_some_iff.mp h
    cases hq.symm.trans hq'
    exact hs

theorem Outlet.sound_reach {now : ℤ} {flags : SessionFlags}
    (h : Reach (Outlet.step sizeMax) (fun w act => w.inOrder act && w.nghttp3Sound act) (.start limit now flags) w) : w.Sound limit :=
  h.invariant ⟨backed_start limit now flags, sourced_start limit now flags, delivered_start limit now flags⟩
    fun _ _ _ hw hok hs => hw.step hok hs

end

end ModHttp3.Response
