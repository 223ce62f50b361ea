import ModHttp3.Quic.Datagram
import Mathlib.Data.List.Perm.Subperm

/-! The datagram filter run over everything the next BIO returns, and what one call of
the handler does to the queue it keeps. -/
namespace ModHttp3.Quic
open Lib LinkedQueue

/-- A datagram as the next BIO receives it. -/
structure Arrival where
  data : Bytes
  peer : BioAddr
  localAddr : BioAddr
  deriving DecidableEq, Repr

def Arrival.write (d : Arrival) (slot : BioMsg) : BioMsg where
  data := slot.data.map fun _ => d.data
  dataLen := d.data.length
  peer := slot.peer.map fun _ => d.peer
  localAddr := slot.localAddr.map fun _ => d.localAddr

/-- `none`: nothing to read, status 0 with a non-fatal error queued. -/
def bioRecvmmsg (msgs : List BioMsg) : Option (List Arrival) → Bool × List BioMsg
  | none => (false, [])
  | some batch => (true, List.zipWith Arrival.write batch msgs)

/-- The engine and the answers the next BIO will give. -/
structure Rx where
  engine : Engine
  socket : List (Option (List Arrival))

def Rx.start (socket : List (Option (List Arrival))) : Rx := ⟨.new, socket⟩

/-- Does this call reach the next BIO? -/
def Rx.asks (rx : Rx) (msgs : List BioMsg) : Bool :=
  rx.engine.peerRx.head.isNone && !msgs.isEmpty

def Rx.batch (rx : Rx) (msgs : List BioMsg) : Option (List Arrival) :=
  if rx.asks msgs then rx.socket.head?.join else none

/-- A call's result, whether the next BIO was asked and had nothing, and what it returned. -/
structure Out where
  result : RecvResult
  blocked : Bool
  taken : List Bytes

def Rx.recv (alloc : ℕ → Bool) (rx : Rx) (msgs : List BioMsg) : Option (Out × Rx) :=
  (h3qPeerAddrBioRecvmmsg alloc rx.engine msgs (bioRecvmmsg msgs (rx.batch msgs))).map fun p =>
    (⟨p.1, rx.asks msgs && (rx.batch msgs).isNone, ((rx.batch msgs).getD []).map Arrival.data⟩,
      ⟨p.2, if rx.asks msgs then rx.socket.tail else rx.socket⟩)

def Rx.recvAll (alloc : ℕ → Bool) : Rx → List (List BioMsg) → Option (List Out × Rx)
  | rx, [] => some ([], rx)
  | rx, msgs :: calls => (rx.recv alloc msgs).bind fun p =>
      (recvAll alloc p.2 calls).map fun q => (p.1 :: q.1, q.2)

/-- The datagram a call hands to its caller. -/
def RecvResult.datagram (r : RecvResult) : Option Bytes :=
  if r.rv && r.processed == some 1 then r.msg.bind BioMsg.data else none

def delivered (outs : List Out) : List Bytes := outs.filterMap fun o => o.result.datagram

/-- The copy that is queued for a message. -/
def BioMsg.datagram (m : BioMsg) : Option Datagram :=
  m.data.map fun bytes => ⟨bytes.take m.dataLen, m.peer, m.localAddr⟩

/-- A message that takes back its own copy is left as it was. -/
theorem BioMsg.load_self {m : BioMsg} {bytes : Bytes} (hdata : m.data = some bytes)
    (hlen : m.dataLen = bytes.length) : m.load ⟨bytes.take m.dataLen, m.peer, m.localAddr⟩ = m := by
  obtain ⟨data, dataLen, peer, localAddr⟩ := m
  subst hdata hlen
  simp [BioMsg.load]

/-- `e` holds the datagrams `l`, each at an address already counted. -/
structure Holds (e : Engine) (l : List (Addr × Datagram)) : Prop where
  rep : Rep e.peerRx l
  counted : ∀ a ∈ l.map Prod.fst, a < e.serial

section
variable {e : Engine} {l : List (Addr × Datagram)} {alloc : ℕ → Bool}

theorem holds_new : Holds .new [] := ⟨rep_empty, by simp⟩

theorem Holds.fresh (h : Holds e l) : e.peerRx.mem e.serial = none := by
  by_contra hne
  exact Nat.lt_irrefl _ (h.counted _ (h.rep.alloc _ hne))

theorem Holds.length_le (h : Holds e l) : l.length ≤ e.serial := by
  have hsub : l.map Prod.fst ⊆ List.range e.serial :=
    fun a ha => List.mem_range.mpr (h.counted a ha)
  simpa using (h.rep.nodup.subperm hsub).length_le

theorem Holds.clear (h : Holds e l) :
    ∃ e', h3qPeerAddrQueueClear e = some e' ∧ Holds e' [] ∧
      e'.currentPeerAddr = e.currentPeerAddr := by
  have hclear := h.rep.clear h.length_le
  exact ⟨{ e with peerRx := .empty }, by simp [h3qPeerAddrQueueClear, hclear],
    ⟨rep_empty, by simp⟩, rfl⟩

theorem Holds.push (h : Holds e l) (d : Datagram) :
    ∃ q, e.peerRx.push e.serial d = some q ∧
      Holds { e with peerRx := q, serial := e.serial + 1 } (l ++ [(e.serial, d)]) := by
  obtain ⟨q, hq, hrep⟩ := h.rep.push h.fresh d
  refine ⟨q, hq, hrep, fun a ha => ?_⟩
  rw [List.map_append, List.mem_append] at ha
  rcases ha with ha | ha
  · have hlt := h.counted a ha
    exact Nat.lt_succ_of_lt hlt
  · obtain rfl : a = e.serial := by simpa using ha
    exact Nat.lt_succ_self _

theorem Holds.dropHead {a : Addr} {d : Datagram} (h : Holds e ((a, d) :: l)) :
    ∃ q, e.peerRx.dropHead = some q ∧ Holds { e with peerRx := q } l := by
  obtain ⟨q, hq, hrep, -⟩ := h.rep.dropHead
  exact ⟨q, hq, hrep, fun b hb => h.counted b (by simp [hb])⟩

/-- A batch is queued whole, behind what was there, or the queue is emptied. With memory available
the latter is for an empty datagram only. -/
private theorem fill_spec (alloc : ℕ → Bool) (msgs : List BioMsg) (hdata : ∀ m ∈ msgs, m.data.isSome)
    (h : Holds e l) :
    ∃ ok e' l', h3qQueueFill alloc msgs e = some (ok, e') ∧ Holds e' l' ∧
      e'.currentPeerAddr = e.currentPeerAddr ∧
      l'.map Prod.snd = (if ok then l.map Prod.snd ++ msgs.filterMap BioMsg.datagram else []) ∧
      ((∀ n, alloc n = true) → ok = msgs.all (fun m => m.dataLen != 0)) := by
  induction msgs generalizing e l with
  | nil => exact ⟨true, e, l, rfl, h, rfl, by simp, fun _ => rfl⟩
  | cons m msgs ih =>
    obtain ⟨bytes, hbytes⟩ := Option.isSome_iff_exists.mp (hdata m (by simp))
    unfold h3qQueueFill
    rw [hbytes]
    by_cases hbad : alloc e.serial = false ∨ m.dataLen = 0
    · obtain ⟨e', hclear, hholds, haddr⟩ := h.clear
      refine ⟨false, e', [], by simp [hbad, hclear], hholds, haddr, rfl, fun halloc => ?_⟩
      have hzero : m.dataLen = 0 := by
        rcases hbad with hfail | hzero
        · rw [halloc] at hfail
          cases hfail
        · exact hzero
      simp [hzero]
    · obtain ⟨q, hpush, hholds⟩ := h.push ⟨bytes.take m.dataLen, m.peer, m.localAddr⟩
      obtain ⟨ok, e', l', hfill, hl', haddr, hmap, hok⟩ :=
        ih (fun m' hm' => hdata m' (List.mem_cons_of_mem _ hm')) hholds
      have hlen : m.dataLen ≠ 0 := fun hzero => hbad (.inr hzero)
      refine ⟨ok, e', l', by simp [hbad, hpush, hfill], hl', haddr, ?_, ?_⟩
      · rw [hmap]
        simp [BioMsg.datagram, hbytes]
      · intro halloc
        simp [hok halloc, hlen]

private theorem pop_holds {a : Addr} {d : Datagram} (h : Holds e ((a, d) :: l)) {msg : BioMsg}
    (hmsg : msg.data.isSome) :
    ∃ e', Holds e' l ∧ e'.currentPeerAddr = e.currentPeerAddr ∧ h3qQueuePop e msg =
      some (if msg.dataLen < d.data.length then (false, msg, e') else (true, msg.load d, e')) := by
  have hhead : e.peerRx.head = some a := h.rep.head_eq
  have hload := h.rep.load (k := 0) (a := a) (v := d) rfl
  obtain ⟨q, hdrop, hholds⟩ := h.dropHead
  have hnone : msg.data.isNone = false := by simpa using hmsg
  refine ⟨{ e with peerRx := q }, hholds, rfl, ?_⟩
  simp [h3qQueuePop, hhead, hload, hdrop, hnone]

theorem recvPop_holds {a : Addr} {d : Datagram} (h : Holds e ((a, d) :: l)) {msg : BioMsg}
    (hmsg : msg.data.isSome) :
    ∃ e', Holds e' l ∧
      e'.currentPeerAddr = (if msg.dataLen < d.data.length then e.currentPeerAddr
        else (msg.load d).peer.getD e.currentPeerAddr) ∧
      recvPop e msg = some (if msg.dataLen < d.data.length then ⟨false, some 0, some msg⟩
        else ⟨true, some 1, some (msg.load d)⟩, e') := by
  obtain ⟨e', hholds, haddr, hpop⟩ := pop_holds h hmsg
  unfold recvPop
  rw [hpop]
  split_ifs with hlen
  · exact ⟨e', hholds, haddr, rfl⟩
  · refine ⟨{ e' with currentPeerAddr := (msg.load d).peer.getD e'.currentPeerAddr },
      ⟨hholds.rep, hholds.counted⟩, ?_, rfl⟩
    rw [haddr]

/-- The caller's messages as `BIO_recvmmsg` fills them. -/
theorem written_spec {batch : List Arrival} {msgs : List BioMsg}
    (hdata : ∀ m ∈ msgs, m.data.isSome) (hlen : batch.length ≤ msgs.length) :
    (∀ m ∈ List.zipWith Arrival.write batch msgs,
        ∃ bytes, m.data = some bytes ∧ m.dataLen = bytes.length) ∧
      ((List.zipWith Arrival.write batch msgs).filterMap BioMsg.datagram).map Datagram.data =
        batch.map Arrival.data ∧
      (List.zipWith Arrival.write batch msgs).all (fun m => m.dataLen != 0) =
        batch.all (fun d => !d.data.isEmpty) := by
  induction batch generalizing msgs with
  | nil => simp
  | cons d batch ih =>
    cases msgs with
    | nil => simp at hlen
    | cons m msgs =>
      obtain ⟨old, hold⟩ := Option.isSome_iff_exists.mp (hdata m (by simp))
      obtain ⟨hall, hmap, hempty⟩ :=
        ih (fun m' hm' => hdata m' (List.mem_cons_of_mem _ hm')) (by simpa using hlen)
      have hwrite : (d.write m).data = some d.data := by simp [Arrival.write, hold]
      have hzero : ((d.write m).dataLen != 0) = !d.data.isEmpty := by
        cases hd : d.data <;> simp [Arrival.write, hd]
      have hcopy : (d.write m).datagram.map Datagram.data = some d.data := by
        simp [BioMsg.datagram, Arrival.write, hold]
      obtain ⟨copy, hsome, hcopy⟩ := Option.map_eq_some_iff.mp hcopy
      refine ⟨?_, by simp [hsome, hcopy, hmap], by simp [hzero, hempty]⟩
      intro m' hm'
      rw [List.zipWith_cons_cons, List.mem_cons] at hm'
      rcases hm' with rfl | hm'
      · exact ⟨d.data, hwrite, rfl⟩
      · exact hall m' hm'

theorem recvmmsg_queued (alloc : ℕ → Bool) {a : Addr} {d : Datagram}
    (h : Holds e ((a, d) :: l)) {msg : BioMsg} (hmsg : msg.data.isSome) (more : List BioMsg) (answer : Bool × List BioMsg) :
    ∃ e', Holds e' l ∧
      e'.currentPeerAddr = (if msg.dataLen < d.data.length then none else (msg.load d).peer.getD none) ∧
      h3qPeerAddrBioRecvmmsg alloc e (msg :: more) answer =
        some (if msg.dataLen < d.data.length then ⟨false, some 0, some msg⟩
          else ⟨true, some 1, some (msg.load d)⟩, e') := by
  have hhead : e.peerRx.head = some a := h.rep.head_eq
  have h' : Holds { e with currentPeerAddr := none } ((a, d) :: l) := ⟨h.rep, h.counted⟩
  obtain ⟨e', hholds, haddr, hpop⟩ := recvPop_holds h' hmsg
  exact ⟨e', hholds, haddr, by simpa [h3qPeerAddrBioRecvmmsg, hhead] using hpop⟩

theorem recvmmsg_blocked (alloc : ℕ → Bool) (h : Holds e []) (msg : BioMsg) (more : List BioMsg) :
    ∃ e', Holds e' [] ∧ e'.currentPeerAddr = none ∧
      h3qPeerAddrBioRecvmmsg alloc e (msg :: more) (bioRecvmmsg (msg :: more) none) =
        some (⟨false, some 0, some msg⟩, e') := by
  have hhead : e.peerRx.head = none := h.rep.head_eq
  exact ⟨{ e with currentPeerAddr := none }, ⟨h.rep, h.counted⟩, rfl,
    by simp [h3qPeerAddrBioRecvmmsg, hhead, bioRecvmmsg]⟩

/-- The next BIO has filled some messages: the first is handed over as it stands and the others are
queued, or all are dropped. -/
theorem recvmmsg_filled (alloc : ℕ → Bool) (h : Holds e []) (msg : BioMsg) (more : List BioMsg)
    {first : BioMsg} {rest : List BioMsg}
    (hdata : ∀ m ∈ first :: rest, ∃ bytes, m.data = some bytes ∧ m.dataLen = bytes.length) :
    ∃ ok e' l', h3qPeerAddrBioRecvmmsg alloc e (msg :: more) (true, first :: rest) =
        some (if ok then ⟨true, some 1, some first⟩ else ⟨false, some 0, some first⟩, e') ∧
      Holds e' l' ∧ l'.map Prod.snd = (if ok then rest.filterMap BioMsg.datagram else []) ∧
      e'.currentPeerAddr = (if ok then first.peer.getD none else none) ∧
      ((∀ n, alloc n = true) → ok = (first :: rest).all (fun m => m.dataLen != 0)) := by
  have hhead : e.peerRx.head = none := h.rep.head_eq
  have h' : Holds { e with currentPeerAddr := none } [] := ⟨h.rep, h.counted⟩
  have hsome : ∀ m ∈ first :: rest, m.data.isSome := by
    intro m hm
    obtain ⟨bytes, hbytes, -⟩ := hdata m hm
    simp [hbytes]
  obtain ⟨ok, e₁, l₁, hfill, hl₁, haddr, hmap, hok⟩ := fill_spec alloc _ hsome h'
  simp only [h3qPeerAddrBioRecvmmsg, hhead, Option.isSome_none, Bool.false_eq_true, if_false, hfill,
    Option.bind_some]
  cases ok with
  | false => exact ⟨false, e₁, l₁, rfl, hl₁, hmap, haddr, hok⟩
  | true =>
    obtain ⟨bytes, hbytes, hlen⟩ := hdata first (by simp)
    cases l₁ with
    | nil => simp [BioMsg.datagram, hbytes] at hmap
    | cons c l₂ =>
      obtain ⟨a, item⟩ := c
      obtain ⟨rfl, hrest⟩ : item = ⟨bytes.take first.dataLen, first.peer, first.localAddr⟩ ∧
          l₂.map Prod.snd = rest.filterMap BioMsg.datagram := by
        simpa [BioMsg.datagram, hbytes] using hmap
      obtain ⟨e₂, hl₂, haddr₂, hpop⟩ := recvPop_holds hl₁ (hsome first (by simp))
      have hfits : ¬ first.dataLen < (bytes.take first.dataLen).length := by
        simp [hlen]
      rw [if_neg hfits, BioMsg.load_self hbytes hlen] at hpop haddr₂
      refine ⟨true, e₂, l₂, hpop, hl₂, hrest, ?_, hok⟩
      rw [haddr₂, haddr, if_pos rfl]

theorem recvmmsg_batch (halloc : ∀ n, alloc n = true) (h : Holds e []) {msgs : List BioMsg}
    (hne : msgs ≠ []) (hdata : ∀ m ∈ msgs, m.data.isSome) {batch : List Arrival}
    (hlen : batch.length ≤ msgs.length) :
    ∃ r e' l', h3qPeerAddrBioRecvmmsg alloc e msgs (bioRecvmmsg msgs (some batch)) = some (r, e') ∧
      Holds e' l' ∧ (r.rv, r.datagram, l'.map fun c => c.2.data) =
        if batch.all fun d => !d.data.isEmpty then
          (true, (batch.map Arrival.data).head?, (batch.map Arrival.data).tail)
        else (false, none, []) := by
  obtain ⟨msg, more, rfl⟩ := List.exists_cons_of_ne_nil hne
  obtain ⟨hwritten, -, hempty⟩ := written_spec hdata hlen
  cases batch with
  | nil =>
    have hhead : e.peerRx.head = none := h.rep.head_eq
    exact ⟨⟨true, some 0, some msg⟩, { e with currentPeerAddr := none }, [],
      by simp [h3qPeerAddrBioRecvmmsg, hhead, bioRecvmmsg], ⟨h.rep, h.counted⟩, rfl⟩
  | cons d batch =>
    rw [List.zipWith_cons_cons] at hwritten hempty
    obtain ⟨ok, e', l', hcall, hl', hmap, -, hok⟩ := recvmmsg_filled alloc h msg more hwritten
    rw [hok halloc, hempty] at hcall hmap
    refine ⟨_, e', l', hcall, hl', ?_⟩
    have hqueue : l'.map (fun c => c.2.data) = (l'.map Prod.snd).map Datagram.data := by simp
    rw [hqueue, hmap]
    split_ifs
    · obtain ⟨old, hold⟩ := Option.isSome_iff_exists.mp (hdata msg (by simp))
      obtain ⟨-, hrest, -⟩ := written_spec (fun m hm => hdata m (List.mem_cons_of_mem _ hm))
        (Nat.le_of_succ_le_succ hlen)
      simp [RecvResult.datagram, Arrival.write, hold, hrest]
    · rfl

end

end ModHttp3.Quic
