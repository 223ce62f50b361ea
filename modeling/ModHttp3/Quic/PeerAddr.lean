import ModHttp3.Lib.Run
import ModHttp3.Quic.Isolation

/-! Datagrams and the peers they came from: the filter and OpenSSL above it, which processes what
a call returns, and creates connections for it, before the next call. -/
namespace ModHttp3.Quic
open Lib LinkedQueue

/-- `h3q_new_pending_conn_cb`: its status, and the address it stores for the connection. `dup` and
`kept` tell whether `BIO_ADDR_dup` and `SSL_set_ex_data` succeed. -/
def h3qNewPendingConnCb (engine : Option Engine) (peerAddrExIndex : ℤ) (dup kept : Bool) :
    Bool × Option BioAddr :=
  match engine with
  | none => (true, none)
  | some e =>
    if peerAddrExIndex < 0 ∨ e.currentPeerAddr = none then (true, none)
    else if dup && kept then (true, some e.currentPeerAddr)
    else (false, none)

/-- The datagram in the message a call leaves to its caller. -/
def RecvResult.arrival (r : RecvResult) : Option Arrival :=
  if r.rv && r.processed == some 1 then
    r.msg.bind fun m => m.data.map fun bytes =>
      ⟨bytes.take m.dataLen, m.peer.getD none, m.localAddr.getD none⟩
  else none

/-- The filter with what happened around it: the datagrams that came from the next BIO, the results
of the calls, the datagram OpenSSL is processing, and for each connection the datagram that created
it and the address stored for it. -/
structure Reader where
  rx : Rx
  arrived : List Arrival
  results : List RecvResult
  processing : Option Arrival
  conns : List (Arrival × Option BioAddr)

inductive ReadAct
  | recv (msgs : List BioMsg)
  | newConn (dup kept : Bool)

def Reader.start (socket : List (Option (List Arrival))) : Reader := ⟨.start socket, [], [], none, []⟩

/-- A call without messages is refused before it does anything, so processing goes on. -/
def Reader.afterCall (w : Reader) (msgs : List BioMsg) (o : Out) (rx : Rx) : Reader where
  rx := rx
  arrived := w.arrived ++ (w.rx.batch msgs).getD []
  results := w.results ++ [o.result]
  processing := if msgs.isEmpty then w.processing else o.result.arrival
  conns := w.conns

def Reader.step (alloc : ℕ → Bool) (exIndex : ℤ) (w : Reader) : ReadAct → Option Reader
  | .recv msgs => (w.rx.recv alloc msgs).map fun p => w.afterCall msgs p.1 p.2
  | .newConn dup kept => w.processing.map fun d =>
      { w with
        conns := w.conns ++ [(d, (h3qNewPendingConnCb (some w.rx.engine) exIndex dup kept).2)] }

/-- The datagrams returned so far, in order. -/
def Reader.returned (w : Reader) : List Arrival := w.results.filterMap RecvResult.arrival

/-- The caller supplies every message with a buffer and slots for both addresses; the head of the
queue fits the first; and the next BIO fills at most these messages, with non-empty datagrams. -/
def Reader.fits (w : Reader) : ReadAct → Bool
  | .recv msgs =>
    msgs.all (fun m => m.data.isSome && m.peer.isSome && m.localAddr.isSome) &&
      (msgs.isEmpty || (w.rx.engine.peerRx.head.bind w.rx.engine.peerRx.mem).all
        fun node => node.val.data.length ≤ firstLen msgs) &&
      ((w.rx.batch msgs).getD []).all (fun d => !d.data.isEmpty) &&
      decide (((w.rx.batch msgs).getD []).length ≤ msgs.length)
  | .newConn _ _ => true

/-- The queued copy of a datagram that came with both addresses. -/
def Arrival.queued (d : Arrival) : Datagram := ⟨d.data, some d.peer, some d.localAddr⟩

/-- The engine's queue holds the datagrams `q`. -/
def Keeps (e : Engine) (q : List Arrival) : Prop :=
  ∃ l, Holds e l ∧ l.map Prod.snd = q.map Arrival.queued

structure Slots (m : BioMsg) : Prop where
  data : m.data.isSome
  peer : m.peer.isSome
  localAddr : m.localAddr.isSome

section
variable {alloc : ℕ → Bool} {e : Engine} {q : List Arrival} {msg : BioMsg} {msgs : List BioMsg}

theorem Slots.load (h : Slots msg) (d : Arrival) :
    (⟨true, some 1, some (msg.load d.queued)⟩ : RecvResult).arrival = some d := by
  simp [RecvResult.arrival, BioMsg.load, Arrival.queued, h.peer, h.localAddr]

theorem Slots.write (h : Slots msg) (d : Arrival) : d.write msg = ⟨some d.data, d.data.length, some d.peer, some d.localAddr⟩ := by
  obtain ⟨data, hdata⟩ := Option.isSome_iff_exists.mp h.data
  obtain ⟨peer, hpeer⟩ := Option.isSome_iff_exists.mp h.peer
  obtain ⟨localAddr, hlocal⟩ := Option.isSome_iff_exists.mp h.localAddr
  simp [Arrival.write, hdata, hpeer, hlocal]

private theorem written_datagrams (hslots : ∀ m ∈ msgs, Slots m) {batch : List Arrival}
    (hlen : batch.length ≤ msgs.length) :
    (List.zipWith Arrival.write batch msgs).filterMap BioMsg.datagram = batch.map Arrival.queued := by
  induction batch generalizing msgs with
  | nil => simp
  | cons d batch ih =>
    cases msgs with
    | nil => simp at hlen
    | cons m msgs =>
      have hrest := ih (fun m' hm' => hslots m' (List.mem_cons_of_mem _ hm'))
        (Nat.le_of_succ_le_succ hlen)
      have hcopy : (d.write m).datagram = some d.queued := by
        simp [(hslots m (by simp)).write, BioMsg.datagram, Arrival.queued]
      rw [List.zipWith_cons_cons, List.filterMap_cons_some hcopy, hrest, List.map_cons]

/-- What a call does to a queue that holds `q`, when the next BIO has `batch` for it. -/
structure Served (alloc : ℕ → Bool) (q batch : List Arrival) (r : RecvResult) (e' : Engine)
    (q' : List Arrival) : Prop where
  keeps : Keeps e' q'
  peer : e'.currentPeerAddr = r.arrival.bind Arrival.peer
  single : r.rv = true → r.processed ≠ some 0 → r.processed = some 1 ∧ r.arrival.isSome
  order : (r.arrival.toList ++ q').Sublist (q ++ batch)
  whole : (∀ n, alloc n = true) → (∀ d ∈ batch, d.data ≠ []) → r.arrival.toList ++ q' = q ++ batch

private theorem served_queued (alloc : ℕ → Bool) {d : Arrival} (h : Keeps e (d :: q)) (hslots : Slots msg)
    (hfits : d.data.length ≤ msg.dataLen) (more : List BioMsg) (answer : Bool × List BioMsg) :
    ∃ r e', h3qPeerAddrBioRecvmmsg alloc e (msg :: more) answer = some (r, e') ∧
      Served alloc (d :: q) [] r e' q := by
  obtain ⟨l, hl, hq⟩ := h
  cases l with
  | nil => cases hq
  | cons c l =>
    obtain ⟨a, item⟩ := c
    obtain ⟨rfl, hrest⟩ : item = d.queued ∧ l.map Prod.snd = q.map Arrival.queued := by simpa using hq
    obtain ⟨e', hl', haddr, hcall⟩ := recvmmsg_queued alloc hl hslots.data more answer
    have hroom : ¬ msg.dataLen < d.queued.data.length := Nat.not_lt.mpr hfits
    rw [if_neg hroom] at hcall haddr
    have harr := hslots.load d
    refine ⟨_, e', hcall, ⟨l, hl', hrest⟩, ?_, fun _ _ => ⟨rfl, by rw [harr]; rfl⟩, ?_, fun _ _ => ?_⟩
    · rw [haddr, harr]
      simp [BioMsg.load, Arrival.queued, hslots.peer]
    · rw [harr]
      simp
    · rw [harr]
      simp

private theorem served_blocked (alloc : ℕ → Bool) (h : Keeps e []) (msg : BioMsg) (more : List BioMsg) :
    ∃ r e', h3qPeerAddrBioRecvmmsg alloc e (msg :: more) (bioRecvmmsg (msg :: more) none) = some (r, e') ∧
      Served alloc [] [] r e' [] := by
  obtain ⟨l, hl, hq⟩ := h
  obtain rfl : l = [] := by simpa using hq
  obtain ⟨e', hl', haddr, hcall⟩ := recvmmsg_blocked alloc hl msg more
  exact ⟨_, e', hcall, ⟨[], hl', rfl⟩, haddr, nofun, .refl _, fun _ _ => rfl⟩

private theorem served_batch (alloc : ℕ → Bool) (h : Keeps e []) (hslots : ∀ m ∈ msg :: msgs, Slots m)
    {batch : List Arrival} (hlen : batch.length ≤ (msg :: msgs).length) :
    ∃ r e' q', h3qPeerAddrBioRecvmmsg alloc e (msg :: msgs) (bioRecvmmsg (msg :: msgs) (some batch)) =
        some (r, e') ∧ Served alloc [] batch r e' q' := by
  obtain ⟨l, hl, hq⟩ := h
  obtain rfl : l = [] := by simpa using hq
  cases batch with
  | nil =>
    have hhead : e.peerRx.head = none := hl.rep.head_eq
    refine ⟨⟨true, some 0, some msg⟩, { e with currentPeerAddr := none }, [],
      by simp [h3qPeerAddrBioRecvmmsg, hhead, bioRecvmmsg], ⟨[], ⟨hl.rep, hl.counted⟩, rfl⟩, rfl,
      fun _ hne => absurd rfl hne, .refl _, fun _ _ => rfl⟩
  | cons d batch =>
    obtain ⟨hwritten, -, hempty⟩ := written_spec (fun m hm => (hslots m hm).data) hlen
    have hqueue := written_datagrams (fun m hm => hslots m (List.mem_cons_of_mem _ hm))
      (Nat.le_of_succ_le_succ hlen)
    have hfirst := (hslots msg (by simp)).write d
    rw [List.zipWith_cons_cons] at hwritten hempty
    obtain ⟨ok, e', l', hcall, hl', hmap, haddr, hok⟩ := recvmmsg_filled alloc hl msg msgs hwritten
    rw [hqueue] at hmap
    rw [hfirst] at hcall haddr
    have hbio : bioRecvmmsg (msg :: msgs) (some (d :: batch)) =
        (true, d.write msg :: List.zipWith Arrival.write batch msgs) := rfl
    rw [hbio, hfirst]
    cases ok with
    | false =>
      refine ⟨_, e', [], hcall, ⟨l', hl', hmap⟩, haddr, fun hrv => absurd hrv Bool.false_ne_true,
        List.nil_sublist _, ?_⟩
      intro halloc hne
      have hall : ((d :: batch).all fun d => !d.data.isEmpty) = true := by simpa using hne
      rw [hempty, hall] at hok
      cases hok halloc
    | true =>
      have harr : (⟨true, some 1, some ⟨some d.data, d.data.length, some d.peer, some d.localAddr⟩⟩ :
          RecvResult).arrival = some d := by simp [RecvResult.arrival]
      refine ⟨_, e', batch, hcall, ⟨l', hl', hmap⟩, ?_, fun _ _ => ⟨rfl, ?_⟩, ?_, fun _ _ => ?_⟩
      · rw [haddr, if_pos rfl, if_pos rfl, harr]
        rfl
      · rw [if_pos rfl, harr]
        rfl
      · rw [if_pos rfl, harr]
        exact .refl _
      · rw [if_pos rfl, harr]
        rfl

theorem Keeps.asks {rx : Rx} (h : Keeps rx.engine q) (hne : msgs ≠ []) : rx.asks msgs = q.isEmpty := by
  obtain ⟨l, hl, hq⟩ := h
  have hempty : l.isEmpty = q.isEmpty := by
    have hlen := congrArg List.length hq
    rw [List.length_map, List.length_map] at hlen
    rw [Bool.eq_iff_iff, List.isEmpty_iff_length_eq_zero, List.isEmpty_iff_length_eq_zero, hlen]
  have hhead : rx.engine.peerRx.head.isNone = l.isEmpty := by
    rw [hl.rep.head_eq]
    cases l <;> rfl
  simp [Rx.asks, hne, hhead, hempty]

theorem Keeps.head_node {d : Arrival} (h : Keeps e (d :: q)) :
    ∃ node, e.peerRx.head.bind e.peerRx.mem = some node ∧ node.val = d.queued := by
  obtain ⟨l, hl, hq⟩ := h
  cases l with
  | nil => cases hq
  | cons c l =>
    have hhead : e.peerRx.head = some c.1 := hl.rep.head_eq
    have hload := hl.rep.load (k := 0) (a := c.1) (v := c.2) rfl
    refine ⟨_, by rw [hhead, Option.bind_some, hload], ?_⟩
    exact (List.cons.inj hq).1

variable {w w' : Reader} {exIndex : ℤ}

/-- Every call that has a message, in a run in which all datagrams fit. -/
private theorem recv_served (alloc : ℕ → Bool) (h : Keeps w.rx.engine q) (hne : msgs ≠ [])
    (hfits : w.fits (.recv msgs)) :
    ∃ r e' q', h3qPeerAddrBioRecvmmsg alloc w.rx.engine msgs (bioRecvmmsg msgs (w.rx.batch msgs)) =
        some (r, e') ∧ Served alloc q ((w.rx.batch msgs).getD []) r e' q' := by
  have hasks := h.asks hne
  obtain ⟨msg, more, rfl⟩ := List.exists_cons_of_ne_nil hne
  simp only [Reader.fits, Bool.and_eq_true, List.all_eq_true, Bool.or_eq_true, List.isEmpty_cons,
    Bool.false_eq_true, false_or, decide_eq_true_eq] at hfits
  obtain ⟨⟨⟨hall, hhead⟩, -⟩, hlen⟩ := hfits
  have hslots : ∀ m ∈ msg :: more, Slots m := fun m hm => ⟨(hall m hm).1.1, (hall m hm).1.2, (hall m hm).2⟩
  cases q with
  | cons d q =>
    have hbatch : w.rx.batch (msg :: more) = none := by simp [Rx.batch, hasks]
    obtain ⟨node, hnode, hval⟩ := h.head_node
    have hroom : d.data.length ≤ msg.dataLen := by
      rw [hnode] at hhead
      simpa [firstLen, hval, Arrival.queued] using hhead
    rw [hbatch]
    obtain ⟨r, e', hcall, hserved⟩ := served_queued alloc h (hslots msg (by simp)) hroom more
      (bioRecvmmsg (msg :: more) none)
    exact ⟨r, e', q, hcall, hserved⟩
  | nil =>
    cases hbatch : w.rx.batch (msg :: more) with
    | none =>
      obtain ⟨r, e', hcall, hserved⟩ := served_blocked alloc h msg more
      exact ⟨r, e', [], hcall, hserved⟩
    | some batch =>
      rw [hbatch] at hlen
      exact served_batch alloc h hslots hlen

/-- What holds of the filter along a run. -/
structure Attributed (alloc : ℕ → Bool) (w : Reader) : Prop where
  queue : ∃ q, Keeps w.rx.engine q ∧ (w.returned ++ q).Sublist w.arrived ∧
    ((∀ n, alloc n = true) → w.returned ++ q = w.arrived)
  single : ∀ r ∈ w.results, r.rv = true → r.processed ≠ some 0 →
    r.processed = some 1 ∧ r.arrival.isSome
  latest : ∀ d, w.processing = some d → w.returned.getLast? = some d
  peer : w.rx.engine.currentPeerAddr = w.processing.bind Arrival.peer
  conns : ∀ c ∈ w.conns, ∀ addr, c.2 = some addr → addr = c.1.peer

private theorem attributed_start (alloc : ℕ → Bool) (socket : List (Option (List Arrival))) :
    Attributed alloc (.start socket) where
  queue := ⟨[], ⟨[], holds_new, rfl⟩, .refl _, fun _ => rfl⟩
  single := fun _ hr => absurd hr List.not_mem_nil
  latest := nofun
  peer := rfl
  conns := fun _ hc => absurd hc List.not_mem_nil

/-- Nothing happens in a call without messages. -/
private theorem recv_nil (alloc : ℕ → Bool) (rx : Rx) :
    rx.recv alloc [] = some (⟨⟨false, none, none⟩, false, []⟩, rx) := by
  simp [Rx.recv, h3qPeerAddrBioRecvmmsg, Rx.asks, Rx.batch]

private theorem recv_of_call {rx : Rx} {r : RecvResult} {e' : Engine}
    (h : h3qPeerAddrBioRecvmmsg alloc rx.engine msgs (bioRecvmmsg msgs (rx.batch msgs)) = some (r, e')) :
    ∃ o rx', rx.recv alloc msgs = some (o, rx') ∧ o.result = r ∧ rx'.engine = e' := by
  refine ⟨_, _, by rw [Rx.recv, h, Option.map_some], rfl, rfl⟩

theorem returned_afterCall (w : Reader) (msgs : List BioMsg) (o : Out) (rx : Rx) :
    (w.afterCall msgs o rx).returned = w.returned ++ o.result.arrival.toList := by
  unfold Reader.returned Reader.afterCall
  rw [List.filterMap_append]
  cases hr : o.result.arrival <;> simp [hr]

/-- The queue and the results after a call, whatever it did to the current peer. -/
theorem Attributed.afterCall {o : Out} {rx : Rx} {q q' : List Arrival} (h : Attributed alloc w)
    (hq : (w.returned ++ q).Sublist w.arrived)
    (hwhole : (∀ n, alloc n = true) → w.returned ++ q = w.arrived)
    (hserved : Served alloc q ((w.rx.batch msgs).getD []) o.result rx.engine q')
    (hdata : ∀ d ∈ (w.rx.batch msgs).getD [], d.data ≠ []) (hne : msgs ≠ []) :
    Attributed alloc (w.afterCall msgs o rx) := by
  have hsome : msgs.isEmpty = false := by simpa using hne
  have hprocessing : (w.afterCall msgs o rx).processing = o.result.arrival := by
    simp [Reader.afterCall, hsome]
  refine ⟨⟨q', hserved.keeps, ?_, fun halloc => ?_⟩, ?_, ?_, ?_, h.conns⟩
  · rw [returned_afterCall, List.append_assoc]
    have hcall := hserved.order.append_left w.returned
    rw [← List.append_assoc w.returned q] at hcall
    exact hcall.trans (hq.append_right _)
  · rw [returned_afterCall, List.append_assoc, hserved.whole halloc hdata, ← List.append_assoc,
      hwhole halloc]
    rfl
  · intro r hr
    rcases List.mem_append.mp hr with hr | hr
    · exact h.single r hr
    · obtain rfl := List.mem_singleton.mp hr
      exact hserved.single
  · intro d hd
    rw [hprocessing] at hd
    rw [returned_afterCall, hd, Option.toList_some, List.getLast?_concat]
  · rw [hprocessing]
    exact hserved.peer

theorem Attributed.recv (exIndex : ℤ) (h : Attributed alloc w) (hfits : w.fits (.recv msgs)) :
    ∃ w', w.step alloc exIndex (.recv msgs) = some w' ∧ Attributed alloc w' := by
  obtain ⟨q, hkeeps, horder, hwhole⟩ := h.queue
  by_cases hne : msgs = []
  · subst hne
    have hbatch : w.rx.batch [] = none := by simp [Rx.batch, Rx.asks]
    have hreturned : (w.afterCall [] ⟨⟨false, none, none⟩, false, []⟩ w.rx).returned = w.returned := by
      rw [returned_afterCall]
      exact List.append_nil _
    refine ⟨w.afterCall [] ⟨⟨false, none, none⟩, false, []⟩ w.rx, by rw [Reader.step, recv_nil]; rfl,
      ⟨q, hkeeps, ?_, fun halloc => ?_⟩, ?_, ?_, h.peer, h.conns⟩
    · rw [hreturned]
      exact horder.trans (List.sublist_append_left _ _)
    · rw [hreturned, hwhole halloc, Reader.afterCall, hbatch]
      exact (List.append_nil _).symm
    · intro r hr
      rcases List.mem_append.mp hr with hr | hr
      · exact h.single r hr
      · obtain rfl := List.mem_singleton.mp hr
        exact fun hrv => absurd hrv Bool.false_ne_true
    · rw [hreturned]
      exact h.latest
  · obtain ⟨r, e', q', hcall, hserved⟩ := recv_served alloc hkeeps hne hfits
    obtain ⟨o, rx', hrecv, rfl, rfl⟩ := recv_of_call hcall
    have hdata : ∀ d ∈ (w.rx.batch msgs).getD [], d.data ≠ [] := by
      simp only [Reader.fits, Bool.and_eq_true] at hfits
      simpa using hfits.1.2
    exact ⟨_, by rw [Reader.step, hrecv, Option.map_some], h.afterCall horder hwhole hserved hdata hne⟩

/-- The address stored while a datagram is processed is its source. -/
theorem Attributed.newConn {dup kept : Bool} (h : Attributed alloc w)
    (hs : w.step alloc exIndex (.newConn dup kept) = some w') : Attributed alloc w' := by
  obtain ⟨d, hd, rfl⟩ := Option.map_eq_some_iff.mp hs
  refine ⟨h.queue, h.single, h.latest, h.peer, ?_⟩
  intro c hc addr haddr
  rcases List.mem_append.mp hc with hc | hc
  · exact h.conns c hc addr haddr
  · obtain rfl := List.mem_singleton.mp hc
    have hpeer : w.rx.engine.currentPeerAddr = d.peer := by rw [h.peer, hd, Option.bind_some]
    simp only [h3qNewPendingConnCb] at haddr
    split_ifs at haddr
    cases haddr
    exact hpeer

theorem Attributed.step {act : ReadAct} (h : Attributed alloc w) (hfits : w.fits act)
    (hs : w.step alloc exIndex act = some w') : Attributed alloc w' := by
  cases act with
  | recv msgs =>
    obtain ⟨u, hu, hA⟩ := h.recv exIndex hfits
    obtain rfl := Option.some.inj (hu.symm.trans hs)
    exact hA
  | newConn dup kept => exact h.newConn hs

end

section
variable {alloc : ℕ → Bool} {exIndex : ℤ} {socket : List (Option (List Arrival))} {w : Reader}

/-- In a run whose datagrams fit, calls return the datagrams one by one in the order in which they
arrived, with their addresses; the current peer is that of the datagram returned last while it is
processed, and is cleared by a call that returns none; connections get the source of the datagram that created
them; the queue is a list from its head to its tail; and no call is stuck. -/
theorem datagrams_keep_peer
    (h : Reach (Reader.step alloc exIndex) (fun w act => w.fits act) (.start socket) w) :
    (∃ l q, Rep w.rx.engine.peerRx l ∧ l.map Prod.snd = q.map Arrival.queued ∧
      (w.returned ++ q).Sublist w.arrived ∧
      ((∀ n, alloc n = true) → w.returned ++ q = w.arrived)) ∧
    (w.rx.engine.peerRx.head = none ↔ w.rx.engine.peerRx.tail = none) ∧
    (∀ r ∈ w.results, r.rv = true → r.processed ≠ some 0 →
      r.processed = some 1 ∧ r.arrival.isSome) ∧
    w.rx.engine.currentPeerAddr = w.processing.bind Arrival.peer ∧
    (∀ d, w.processing = some d → w.returned.getLast? = some d) ∧
    (∀ c ∈ w.conns, ∀ addr, c.2 = some addr → addr = c.1.peer) ∧
    ∀ msgs, w.fits (.recv msgs) → ∃ w', w.step alloc exIndex (.recv msgs) = some w' := by
  have hA : Attributed alloc w :=
    h.invariant (attributed_start alloc socket) fun _ _ _ hA hok hs => hA.step hok hs
  obtain ⟨q, ⟨l, hl, hq⟩, horder, hwhole⟩ := hA.queue
  refine ⟨⟨l, q, hl.rep, hq, horder, hwhole⟩, ?_, hA.single, hA.peer, hA.latest, hA.conns, ?_⟩
  · rw [hl.rep.head_eq, hl.rep.tail]
    cases l <;> simp [cursor]
  · intro msgs hfits
    obtain ⟨w', hw', -⟩ := hA.recv exIndex hfits
    exact ⟨w', hw'⟩

end

/-- Two peers' datagrams in one batch, read by two calls; the second creates a connection. -/
def twoPeers : List ReadAct := [.recv (callerMsgs 2), .recv (callerMsgs 2), .newConn true true]

theorem datagrams_keep_peer_twoPeers :
    ∃ w, Reach (Reader.step (fun _ => true) 0) (fun w act => w.fits act)
        (.start [some [⟨[1], some 7, none⟩, ⟨[2, 3], some 8, some 1⟩]]) w ∧
      w.conns = [(⟨[2, 3], some 8, some 1⟩, some (some 8))] ∧
      w.rx.engine.currentPeerAddr = w.processing.bind Arrival.peer := by
  have hrun : (runChecked (Reader.step (fun _ => true) 0) (fun w act => w.fits act)
      (.start [some [⟨[1], some 7, none⟩, ⟨[2, 3], some 8, some 1⟩]]) twoPeers).map Reader.conns =
        some [(⟨[2, 3], some 8, some 1⟩, some (some 8))] := by
    decide +kernel
  obtain ⟨w, hw, he⟩ := Option.map_eq_some_iff.mp hrun
  have hr := Reach.of_runChecked _ hw
  exact ⟨w, hr, he, (datagrams_keep_peer hr).2.2.2.1⟩

/-- A call that finds nothing to read clears the peer of the datagram returned before it. -/
theorem peer_cleared_by_empty_call :
    ∃ w, Reach (Reader.step (fun _ => true) 0) (fun w act => w.fits act)
        (.start [some [⟨[1], some 7, none⟩], none]) w ∧
      w.returned.getLast? = some ⟨[1], some 7, none⟩ ∧ w.rx.engine.currentPeerAddr = none := by
  have hrun : (runChecked (Reader.step (fun _ => true) 0) (fun w act => w.fits act)
      (.start [some [⟨[1], some 7, none⟩], none]) [.recv (callerMsgs 2), .recv (callerMsgs 2)]).map
        (fun w => (w.returned.getLast?, w.rx.engine.currentPeerAddr)) =
      some (some ⟨[1], some 7, none⟩, none) := by
    decide +kernel
  obtain ⟨w, hw, he⟩ := Option.map_eq_some_iff.mp hrun
  simp only [Prod.mk.injEq] at he
  exact ⟨w, Reach.of_runChecked _ hw, he⟩

end ModHttp3.Quic
