import ModHttp3.Lib.Transfer
import ModHttp3.Response.Queue
import Mathlib.Data.List.Basic
import Mathlib.Data.List.TakeDrop

/-! The chunk list implements a transfer of bytes. `Refines` names the bytes of
released chunks, the live chunks and the number of chunks already handed out. -/
namespace ModHttp3.Response
open Lib LinkedQueue

abbrev Cell := Addr × Chunk

def contents (cells : List Cell) : Bytes := cells.flatMap (·.2.data)

def headAcked (cells : List Cell) : ℕ := cells.head?.elim 0 (·.2.acked)

@[simp] theorem contents_nil : contents [] = [] := rfl

@[simp] theorem contents_cons (c : Cell) (cells : List Cell) :
    contents (c :: cells) = c.2.data ++ contents cells := rfl

@[simp] theorem contents_append (l₁ l₂ : List Cell) :
    contents (l₁ ++ l₂) = contents l₁ ++ contents l₂ := List.flatMap_append

@[simp] theorem headAcked_cons (c : Cell) (cells : List Cell) :
    headAcked (c :: cells) = c.2.acked := rfl

theorem contents_split (cells : List Cell) (k : ℕ) :
    contents cells = contents (cells.take k) ++ contents (cells.drop k) := by
  rw [← contents_append, List.take_append_drop]

/-- The chunk list `cells`, of which the first `k` were handed out, holds everything
produced after `gone`; only the first chunk can be partly acknowledged. -/
structure Refines (r : Queue) (b : Transfer UInt8) (gone : Bytes) (cells : List Cell) (k : ℕ) :
    Prop where
  rep : r.chunks.Rep cells
  wf : ∀ c ∈ cells, c.2.data.length = c.2.len ∧ c.2.acked < c.2.len
  fresh : ∀ c ∈ cells.tail, c.2.acked = 0
  produced : b.produced = gone ++ contents cells
  handed : b.handed = gone ++ contents (cells.take k)
  acked : b.acked = gone.length + headAcked cells
  submit : r.responseSubmitChunk = cursor cells k
  submit_le : k ≤ cells.length
  offset : r.responseSubmitOffset = 0
  buffered : r.responseBuffered + b.acked = b.produced.length
  bounded : r.responseBuffered ≤ r.responseBufferLimit
  len : r.responseLen = b.produced.length

def Implements (r : Queue) (b : Transfer UInt8) : Prop :=
  ∃ gone cells k, Refines r b gone cells k

theorem implements_new (limit : ℕ) (now : ℤ) : Implements (.new limit now) .start :=
  ⟨[], [], 0, rep_empty, by simp, by simp, rfl, rfl, rfl, rfl, le_rfl, rfl, rfl, Nat.zero_le _, rfl⟩

section
variable {r : Queue} {b : Transfer UInt8} {gone : Bytes} {cells : List Cell} {k : ℕ}

theorem Refines.of_ctl (h : Refines r b gone cells k) {r' : Queue}
    (hc : r'.chunks = r.chunks) (hs : r'.responseSubmitChunk = r.responseSubmitChunk)
    (ho : r'.responseSubmitOffset = r.responseSubmitOffset)
    (hb : r'.responseBuffered = r.responseBuffered)
    (hl : r'.responseBufferLimit = r.responseBufferLimit)
    (hn : r'.responseLen = r.responseLen) : Refines r' b gone cells k where
  rep := hc ▸ h.rep
  wf := h.wf
  fresh := h.fresh
  produced := h.produced
  handed := h.handed
  acked := h.acked
  submit := hs ▸ h.submit
  submit_le := h.submit_le
  offset := ho ▸ h.offset
  buffered := hb ▸ h.buffered
  bounded := hb ▸ hl ▸ h.bounded
  len := hn ▸ h.len

private theorem cursor_append_self {l : List Cell} {c : Cell} (hk : k ≤ l.length) :
    cursor (l ++ [c]) k = if (cursor l k).isNone then some c.1 else cursor l k := by
  rcases hk.lt_or_eq with hlt | rfl
  · simp [cursor, List.getElem?_append_left hlt, List.getElem?_eq_getElem hlt]
  · simp [cursor]

theorem queueChunk_refines (h : Refines r b gone cells k) {bytes : Bytes} (hne : bytes ≠ [])
    {a : Addr} (ha : r.chunks.mem a = none)
    (hroom : r.responseBuffered + bytes.length ≤ r.responseBufferLimit) :
    ∃ r', queueChunk bytes a r = some r' ∧
      Refines r' (b.produce bytes) gone (cells ++ [(a, ⟨bytes.length, 0, bytes⟩)]) k ∧
      r'.toResponseCtl = { r.toResponseCtl with
        responseBuffered := r.responseBuffered + bytes.length
        responseLen := r.responseLen + bytes.length } := by
  obtain ⟨q, hq, hrep⟩ := h.rep.push ha (⟨bytes.length, 0, bytes⟩ : Chunk)
  refine ⟨_, by rw [queueChunk, hq, Option.map_some], ?_, rfl⟩
  have hpos : 0 < bytes.length := List.length_pos_iff.mpr hne
  have hbuf := h.buffered
  have hlen := h.len
  constructor
  · exact hrep
  · intro c hc
    rcases List.mem_append.mp hc with hc | hc
    · exact h.wf c hc
    · obtain rfl := List.mem_singleton.mp hc
      exact ⟨rfl, hpos⟩
  · intro c hc
    cases cells with
    | nil => simp at hc
    | cons d l =>
      simp only [List.cons_append, List.tail_cons, List.mem_append, List.mem_singleton] at hc
      rcases hc with hc | rfl
      · exact h.fresh c hc
      · rfl
  · simp [Transfer.produce, h.produced]
  · simp [Transfer.produce, h.handed, List.take_append_of_le_length h.submit_le]
  · cases cells with
    | nil => simpa [Transfer.produce, headAcked] using h.acked
    | cons d l => simpa [Transfer.produce, headAcked] using h.acked
  · rw [cursor_append_self h.submit_le, ← h.submit]
  · exact h.submit_le.trans (by simp)
  · simp [h.offset]
  · simp only [Transfer.produce, List.length_append]
    omega
  · exact hroom
  · simp only [Transfer.produce, List.length_append, hlen]

/-- Acknowledged bytes were handed out, so the head chunk they lie in was too. -/
theorem Refines.handed_pos {c : Cell} (h : Refines r b gone (c :: cells) k) {n : ℕ} (hn : 0 < n)
    (hle : b.acked + n ≤ b.handed.length) : 0 < k := by
  rw [h.acked, h.handed] at hle
  by_contra hk
  obtain rfl : k = 0 := by omega
  simp at hle
  omega

/-- The head chunk keeps some unacknowledged bytes. -/
theorem Refines.ackPart {a : Addr} {c : Chunk} (h : Refines r b gone ((a, c) :: cells) k) {n : ℕ}
    (hlt : c.acked + n < c.len) (hle : b.acked + n ≤ b.handed.length) {q : LinkedQueue Chunk}
    (hq : q.Rep ((a, { c with acked := c.acked + n }) :: cells)) (now : ℤ) :
    Refines { r with chunks := q, responseBuffered := r.responseBuffered - n,
                     responseProgressAt := now }
      (b.ack n hle) gone ((a, { c with acked := c.acked + n }) :: cells) k := by
  have hbuf := h.buffered
  have hacked := h.acked
  have hbound := h.bounded
  have hhanded := b.handed_le
  constructor
  · exact hq
  · intro d hd
    rcases List.mem_cons.mp hd with rfl | hd
    · exact ⟨(h.wf (a, c) (by simp)).1, hlt⟩
    · exact h.wf d (by simp [hd])
  · exact h.fresh
  · exact h.produced
  · cases k with
    | zero => exact h.handed
    | succ k => exact h.handed
  · simp only [Transfer.ack, headAcked_cons] at hacked ⊢
    omega
  · cases k with
    | zero => exact h.submit
    | succ k => exact h.submit
  · exact h.submit_le
  · exact h.offset
  · simp only [Transfer.ack]
    omega
  · show r.responseBuffered - n ≤ r.responseBufferLimit
    omega
  · exact h.len

/-- The head chunk is used up and released. -/
theorem Refines.ackWhole {a : Addr} {c : Chunk} (h : Refines r b gone ((a, c) :: cells) k) {n : ℕ}
    (hn : 0 < n) (heq : c.acked + n = c.len) (hle : b.acked + n ≤ b.handed.length)
    {q : LinkedQueue Chunk} (hq : q.Rep cells) (now : ℤ) :
    Refines { r with chunks := q, responseBuffered := r.responseBuffered - n,
                     responseProgressAt := now }
      (b.ack n hle) (gone ++ c.data) cells (k - 1) := by
  have hbuf := h.buffered
  have hacked := h.acked
  have hbound := h.bounded
  have hhanded := b.handed_le
  have hk := h.handed_pos hn hle
  obtain ⟨k, rfl⟩ : ∃ j, k = j + 1 := ⟨k - 1, by omega⟩
  have hdata : c.data.length = c.len := (h.wf (a, c) (by simp)).1
  have hhead : headAcked cells = 0 := by
    cases cells with
    | nil => rfl
    | cons d l => exact h.fresh d (by simp)
  constructor
  · exact hq
  · exact fun d hd => h.wf d (by simp [hd])
  · exact fun d hd => h.fresh d (List.mem_of_mem_tail hd)
  · simpa [Transfer.ack] using h.produced
  · simpa [Transfer.ack] using h.handed
  · simp only [Transfer.ack, hhead, List.length_append, headAcked_cons] at hacked ⊢
    omega
  · simpa [cursor] using h.submit
  · simpa using h.submit_le
  · exact h.offset
  · simp only [Transfer.ack]
    omega
  · show r.responseBuffered - n ≤ r.responseBufferLimit
    omega
  · exact h.len

/-- The cells after `n` more bytes are acknowledged, and how many of them were handed out. -/
def ackCells : ℕ → List Cell → ℕ → List Cell × ℕ
  | _, [], k => ([], k)
  | n, c :: cells, k =>
    if n < c.2.len - c.2.acked then ((c.1, { c.2 with acked := c.2.acked + n }) :: cells, k)
    else ackCells (n - (c.2.len - c.2.acked)) cells (k - 1)

theorem ackCells_zero (h : ∀ c ∈ cells, c.2.acked < c.2.len) : ackCells 0 cells k = (cells, k) := by
  cases cells with
  | nil => rfl
  | cons c cells => exact if_pos (Nat.sub_pos_of_lt (h c List.mem_cons_self))

theorem ackCells_add (m n : ℕ) (cells : List Cell) (k : ℕ) :
    ackCells (m + n) cells k = ackCells n (ackCells m cells k).1 (ackCells m cells k).2 := by
  induction cells generalizing m k with
  | nil => rfl
  | cons c cells ih =>
    by_cases hm : m < c.2.len - c.2.acked
    · have hpart : ackCells m (c :: cells) k = ((c.1, { c.2 with acked := c.2.acked + m }) :: cells, k) := if_pos hm
      rw [hpart]
      simp only [ackCells]
      by_cases hn : m + n < c.2.len - c.2.acked
      · rw [if_pos hn, if_pos (by omega), Nat.add_assoc]
      · rw [if_neg hn, if_neg (by omega)]
        congr 1
        omega
    · have hwhole : ackCells m (c :: cells) k = ackCells (m - (c.2.len - c.2.acked)) cells (k - 1) := if_neg hm
      have hboth : ackCells (m + n) (c :: cells) k = ackCells (m + n - (c.2.len - c.2.acked)) cells (k - 1) :=
        if_neg (by omega)
      rw [hwhole, hboth, ← ih]
      congr 1
      omega

/-- One iteration acknowledges what it can of the head chunk. -/
private theorem ackHead_refines {a : Addr} {c : Chunk} (h : Refines r b gone ((a, c) :: cells) k) {n : ℕ}
    (hn : 0 < n) (now : ℤ) :
    ∃ m r', 0 < m ∧ m ≤ n ∧ ackHead now n a r = some (n - m, r') ∧
      (∀ hm, ∃ gone', Refines r' (b.ack m hm) gone' (ackCells m ((a, c) :: cells) k).1
        (ackCells m ((a, c) :: cells) k).2) ∧
      r'.toResponseCtl = { r.toResponseCtl with
        responseBuffered := r.responseBuffered - m, responseProgressAt := now } := by
  have hload := h.rep.load (k := 0) (a := a) (v := c) (by simp)
  have hwf := h.wf (a, c) (by simp)
  have hrep : r.chunks.Rep ([] ++ (a, c) :: cells) := h.rep
  obtain ⟨q, hset, hq⟩ := hrep.setVal
    ({ c with acked := c.acked + min n (c.len - c.acked) } : Chunk)
  simp only at hwf
  refine ⟨min n (c.len - c.acked), ?_⟩
  by_cases hfull : c.acked + min n (c.len - c.acked) = c.len
  · obtain ⟨q', hdrop, hq', -⟩ := Rep.dropHead hq
    refine ⟨{ r with chunks := q', responseBuffered := r.responseBuffered - min n (c.len - c.acked),
                     responseProgressAt := now }, by omega, by omega, ?_, fun hm => ?_, rfl⟩
    · simp only [ackHead, hload, hset, Option.bind_eq_bind, Option.bind_some, if_pos hfull, hdrop]
      rfl
    · have hcells : ackCells (min n (c.len - c.acked)) ((a, c) :: cells) k = (cells, k - 1) := by
        have hzero : min n (c.len - c.acked) - (c.len - c.acked) = 0 := by omega
        rw [ackCells, if_neg (by dsimp only; omega), hzero]
        exact ackCells_zero fun d hd => (h.wf d (List.mem_cons_of_mem _ hd)).2
      rw [hcells]
      exact ⟨_, h.ackWhole (by omega) hfull hm hq' now⟩
  · refine ⟨{ r with chunks := q, responseBuffered := r.responseBuffered - min n (c.len - c.acked),
                     responseProgressAt := now }, by omega, by omega, ?_, fun hm => ?_, rfl⟩
    · simp only [ackHead, hload, hset, Option.bind_eq_bind, Option.bind_some, if_neg hfull]
      rfl
    · rw [ackCells, if_pos (by dsimp only; omega)]
      exact ⟨_, h.ackPart (by omega) hm hq now⟩

end

/-- The effect of `h3_stream_response_ack_locked` on the counters. -/
def ResponseCtl.ackLocked (now : ℤ) (n : ℕ) (c : ResponseCtl) : ResponseCtl :=
  if n = 0 then c
  else { c with responseBuffered := c.responseBuffered - n, responseProgressAt := now }

theorem ackLocked_flags (now : ℤ) (n : ℕ) (c : ResponseCtl) :
    (c.ackLocked now n).responseBufferLimit = c.responseBufferLimit ∧
      (c.ackLocked now n).responseCancelled = c.responseCancelled ∧
      (c.ackLocked now n).responseComplete = c.responseComplete := by
  unfold ResponseCtl.ackLocked
  split_ifs <;> exact ⟨rfl, rfl, rfl⟩

theorem Refines.ack_nothing {r : Queue} {b : Transfer UInt8} {gone : Bytes} {cells : List Cell} {k : ℕ}
    (h : Refines r b gone cells k) (now : ℤ) (fuel : ℕ) (hle : b.acked + 0 ≤ b.handed.length) :
    ∃ r' gone', ackLoop now fuel 0 r = some r' ∧
      Refines r' (b.ack 0 hle) gone' (ackCells 0 cells k).1 (ackCells 0 cells k).2 ∧
      r'.toResponseCtl = r.toResponseCtl.ackLocked now 0 := by
  rw [Transfer.ack_zero, ackCells_zero fun c hc => (h.wf c hc).2]
  exact ⟨r, gone, by simp [ackLoop], h, rfl⟩

theorem ackLoop_refines (now : ℤ) (fuel n : ℕ) (hf : n ≤ fuel) {r : Queue} {b : Transfer UInt8} {gone : Bytes}
    {cells : List Cell} {k : ℕ} (h : Refines r b gone cells k) (hle : b.acked + n ≤ b.handed.length) :
    ∃ r' gone', ackLoop now fuel n r = some r' ∧
      Refines r' (b.ack n hle) gone' (ackCells n cells k).1 (ackCells n cells k).2 ∧
      r'.toResponseCtl = r.toResponseCtl.ackLocked now n := by
  induction fuel generalizing n r b gone cells k with
  | zero =>
    obtain rfl : n = 0 := by omega
    exact h.ack_nothing now 0 hle
  | succ fuel ih =>
    rcases Nat.eq_zero_or_pos n with rfl | hn
    · exact h.ack_nothing now (fuel + 1) hle
    cases cells with
    | nil =>
      -- With no chunk left everything handed out is acknowledged already.
      have hacked := h.acked
      rw [h.handed] at hle
      simp [headAcked] at hle hacked
      omega
    | cons c cells =>
      obtain ⟨a, c⟩ := c
      obtain ⟨m, r₁, hm, hmn, hstep, href, hctl⟩ := ackHead_refines h hn now
      have hle₁ : b.acked + m ≤ b.handed.length := by omega
      obtain ⟨gone₁, href⟩ := href hle₁
      obtain ⟨r', gone', hr', href', hctl'⟩ := ih (n - m) (by omega) href
        (show b.acked + m + (n - m) ≤ b.handed.length by omega)
      refine ⟨r', gone', ?_, ?_, ?_⟩
      · have hhead : r.chunks.head = some a := h.rep.head_eq
        rw [ackLoop, if_neg (by omega : n ≠ 0), hhead]
        simp only [hstep, Option.bind_eq_bind, Option.bind_some]
        exact hr'
      · rwa [← ackCells_add, Transfer.ack_ack b m (n - m) hle₁ _ (by omega),
          show b.ack (m + (n - m)) (by omega) = b.ack n hle by congr 1; omega,
          show m + (n - m) = n by omega] at href'
      · rw [hctl', hctl]
        unfold ResponseCtl.ackLocked
        rw [if_neg (by omega : n ≠ 0)]
        split_ifs with hz
        · rw [show m = n by omega]
        · simp only [Nat.sub_sub]
          rw [show m + (n - m) = n by omega]

theorem ack_implements (now : ℤ) {n : ℕ} {r : Queue} {b : Transfer UInt8} (h : Implements r b)
    (hle : b.acked + n ≤ b.handed.length) :
    ∃ r', h3StreamResponseAckLocked now n r = some r' ∧ Implements r' (b.ack n hle) ∧
      r'.toResponseCtl = r.toResponseCtl.ackLocked now n := by
  obtain ⟨gone, cells, k, h⟩ := h
  obtain ⟨r', gone', hr', href, hctl⟩ := ackLoop_refines now n n le_rfl h hle
  exact ⟨r', hr', ⟨gone', _, _, href⟩, hctl⟩

section
variable {r : Queue} {b : Transfer UInt8} {gone : Bytes} {cells : List Cell} {k : ℕ}

theorem Refines.hand_ok (h : Refines r b gone cells k) (v : ℕ) :
    b.handed ++ contents ((cells.drop k).take v) <+: b.produced := by
  rw [h.handed, h.produced, contents_split cells k, contents_split (cells.drop k) v]
  simp only [List.append_assoc]
  exact ⟨contents ((cells.drop k).drop v), by simp⟩

/-- Moving the cursor over `v` more chunks hands out their bytes. -/
theorem Refines.advance (h : Refines r b gone cells k) {v : ℕ} (hv : k + v ≤ cells.length) :
    Refines { r with responseSubmitChunk := cursor cells (k + v), responseSubmitOffset := 0 }
      (b.hand _ (h.hand_ok v)) gone cells (k + v) where
  rep := h.rep
  wf := h.wf
  fresh := h.fresh
  produced := h.produced
  handed := by
    simp only [Transfer.hand, h.handed, List.append_assoc, ← contents_append, List.take_add]
  acked := h.acked
  submit := rfl
  submit_le := hv
  offset := rfl
  buffered := h.buffered
  bounded := h.bounded
  len := h.len

theorem Refines.all_handed_iff (h : Refines r b gone cells k) :
    b.handed = b.produced ↔ k = cells.length := by
  rw [h.handed, h.produced, List.append_right_inj, contents_split cells k]
  constructor
  · intro heq
    by_contra hne
    have hlt : k < cells.length := lt_of_le_of_ne h.submit_le hne
    have hwf := h.wf _ (List.getElem_mem hlt)
    rw [List.drop_eq_getElem_cons hlt, contents_cons] at heq
    have := congrArg List.length heq
    simp only [List.length_append] at this
    omega
  · rintro rfl
    simp

/-- The vectors are the chunks from the cursor on, at most `v` of them. -/
theorem readLoop_refines (h : Refines r b gone cells k) (v : ℕ) :
    readLoop v r = some (((cells.drop k).take v).map (·.2.data),
      { r with
        responseSubmitChunk := cursor cells (k + min v (cells.length - k))
        responseSubmitOffset := 0 }) := by
  have hr : { r with responseSubmitChunk := cursor cells k, responseSubmitOffset := 0 } = r := by
    rw [← h.submit, ← h.offset]
  induction v generalizing r b k with
  | zero => simp [readLoop, hr]
  | succ v ih =>
    rcases h.submit_le.lt_or_eq with hlt | heq
    · have hget : cells[k]? = some (cells[k].1, cells[k].2) := List.getElem?_eq_getElem hlt
      have hload := h.rep.load hget
      have hsub : r.responseSubmitChunk = some cells[k].1 := by rw [h.submit, cursor, hget]; rfl
      have hlen := (h.wf _ (List.getElem_mem hlt)).1
      have hrec := ih (h.advance (v := 1) hlt) rfl
      rw [show k + min (v + 1) (cells.length - k) = k + 1 + min v (cells.length - (k + 1)) by omega]
      rw [List.drop_eq_getElem_cons hlt, List.take_succ_cons, List.map_cons]
      simp only [readLoop, hsub, hload, Option.bind_eq_bind, Option.bind_some, h.offset,
        List.drop_zero, Nat.sub_zero, hrec, List.take_of_length_le hlen.le]
      rfl
    · have hsub : r.responseSubmitChunk = none := by rw [h.submit, heq]; simp [cursor]
      simp only [readLoop, hsub, heq, List.drop_length, List.take_nil, List.map_nil, Nat.sub_self,
        Nat.min_zero, Nat.add_zero]
      rw [← heq, hr]

end

/-- What the reader is told: vectors with the end flag exactly when the response is complete
and these vectors hold the last bytes produced, or to wait. -/
def readAnswer (r : Queue) (b : Transfer UInt8) (vec : List Bytes) : ReadData :=
  if vec = [] ∧ r.responseComplete = false then .wouldblock
  else .vecs vec (decide (b.handed ++ vec.flatten = b.produced) && r.responseComplete)

theorem readData_implements {r : Queue} {b : Transfer UInt8} (h : Implements r b)
    (hc : r.responseCancelled = false) {v : ℕ} (hv : 0 < v) :
    ∃ vec r' hok, h3SessionReadData v r = some (readAnswer r b vec, r') ∧
      Implements r' (b.hand vec.flatten hok) ∧ r'.toResponseCtl = r.toResponseCtl ∧
      (vec = [] → b.handed = b.produced) := by
  obtain ⟨gone, cells, k, h⟩ := h
  have hread := readLoop_refines h v
  have hle := h.submit_le
  set j := min v (cells.length - k) with hj
  have htake : (cells.drop k).take v = (cells.drop k).take j := by
    rw [hj, ← List.length_drop, ← List.take_eq_take_min]
  have hnext := h.advance (v := j) (by omega)
  have hend := hnext.all_handed_iff
  rw [htake] at hread
  set vec := ((cells.drop k).take j).map (·.2.data) with hvec
  have hflat : vec.flatten = contents ((cells.drop k).take j) := by
    rw [hvec, contents, List.flatMap]
  have hnil : vec = [] → k = cells.length := by
    intro hnil
    have hlen := congrArg List.length hnil
    simp only [hvec, List.length_map, List.length_take, List.length_drop, List.length_nil] at hlen
    omega
  refine ⟨vec, { r with responseSubmitChunk := cursor cells (k + j), responseSubmitOffset := 0 },
    hflat ▸ h.hand_ok j, ?_, ⟨gone, cells, k + j, by simpa only [hflat] using hnext⟩, rfl,
    fun hn => h.all_handed_iff.mpr (hnil hn)⟩
  have hlast : (cursor cells (k + j)).isNone = decide (b.handed ++ vec.flatten = b.produced) := by
    rw [hflat, Bool.eq_iff_iff, decide_eq_true_iff]
    refine Iff.trans ?_ hend.symm
    simp only [cursor, Option.isNone_map, Option.isNone_iff_eq_none, List.getElem?_eq_none_iff]
    omega
  rw [h3SessionReadData, if_neg (by omega), hc, if_neg (by simp), hread, Option.map_some, readAnswer]
  by_cases hv0 : vec = []
  · have hall : b.handed = b.produced := h.all_handed_iff.mpr (hnil hv0)
    cases r.responseComplete <;> simp [hv0, hall]
  · simp only [hv0, ne_eq, not_false_eq_true, if_true, false_and, if_false, hlast]

/-- What one iteration of the append loop can do: wait, refuse because the stream or the
session is gone, cancel the stream, or queue the next bytes of the caller's data. -/
inductive AppendSpec (st : SessionFlags) (data : Bytes) (offset : ℕ) (r : Queue)
    (b : Transfer UInt8) : AppendStep × Queue → Prop
  | waits (h : appendWaits st r.toResponseCtl = true) : AppendSpec st data offset r b (.waits, r)
  | refused (h : r.responseCancelled = true ∨ st.gone = true) :
      AppendSpec st data offset r b (.returns .econnaborted, r)
  | cancels (rv : AprStatus) :
      AppendSpec st data offset r b (.returns rv, h3StreamResponseCancelLocked r)
  | queued (n : ℕ) (r' : Queue) (hc : r.responseCancelled = false) (hg : st.gone = false)
      (hn : 0 < n) (hlen : n = appendChunkLen r.toResponseCtl (data.length - offset))
      (himp : Implements r' (b.produce ((data.drop offset).take n)))
      (hctl : r'.toResponseCtl = { r.toResponseCtl with
        responseBuffered := r.responseBuffered + n
        responseLen := r.responseLen + n }) :
      AppendSpec st data offset r b (.queued n r.responseSubmitted, r')

theorem append_implements {r : Queue} {b : Transfer UInt8} (h : Implements r b) (sizeMax : ℕ)
    (st : SessionFlags) (data : Bytes) (offset : ℕ) {malloc : Option Addr}
    (hm : ∀ a, malloc = some a → r.chunks.mem a = none) :
    ∃ x, h3StreamResponseAppend sizeMax st data offset malloc r = some x ∧
      AppendSpec st data offset r b x := by
  unfold h3StreamResponseAppend
  split_ifs with hwait hgone
  · exact ⟨_, rfl, .waits hwait⟩
  · exact ⟨_, rfl, .refused (by simpa using hgone)⟩
  simp only
  split_ifs with hzero
  · exact ⟨_, rfl, .cancels _⟩
  cases malloc with
  | none => exact ⟨_, rfl, .cancels _⟩
  | some a =>
    obtain ⟨gone, cells, k, h⟩ := h
    have hbound := h.bounded
    simp only [not_or, not_lt] at hzero
    simp only [Bool.or_eq_true, not_or, Bool.not_eq_true] at hgone
    set n := appendChunkLen r.toResponseCtl (data.length - offset) with hn
    have hpos : 0 < n := Nat.pos_of_ne_zero hzero.1
    have hroom : r.responseBuffered + n ≤ r.responseBufferLimit ∧ n ≤ data.length - offset := by
      rw [hn]
      unfold appendChunkLen
      omega
    have hlen : ((data.drop offset).take n).length = n := by
      rw [List.length_take, List.length_drop]
      omega
    have hne : (data.drop offset).take n ≠ [] := by
      rw [← List.length_pos_iff]
      omega
    obtain ⟨r', hr', href, hctl⟩ := queueChunk_refines h hne (hm a rfl) (by omega)
    rw [hlen] at hctl
    exact ⟨_, by simp only [hr', Option.map_some],
      .queued n r' hgone.1 hgone.2 hpos hn ⟨_, _, _, href⟩ hctl⟩

theorem implements_cancel {r : Queue} {b : Transfer UInt8} (h : Implements r b) :
    Implements (h3StreamResponseCancelLocked r) b := by
  obtain ⟨gone, cells, k, h⟩ := h
  exact ⟨gone, cells, k, h.of_ctl rfl rfl rfl rfl rfl rfl⟩

theorem implements_complete {r : Queue} {b : Transfer UInt8} (h : Implements r b)
    (st : SessionFlags) : Implements (h3StreamResponseComplete st r).1 b := by
  obtain ⟨gone, cells, k, h⟩ := h
  exact ⟨gone, cells, k, h.of_ctl rfl rfl rfl rfl rfl rfl⟩

end ModHttp3.Response
