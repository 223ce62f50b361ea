import ModHttp3.Quic.Delivery

/-! When datagrams of one peer leave those of the others alone. The linked queue shows a
FIFO of byte strings (`View`); failed calls, delivery and the effect of empty datagrams
are settled there, and carried back to runs of the handler. -/
namespace ModHttp3.Quic
open Lib LinkedQueue

/-- The filter as its callers see it: a FIFO in front of the next BIO. -/
structure View where
  queue : List Bytes
  socket : List (Option (List Arrival))

def View.recv (v : View) (cap : ℕ) : (Bool × Option Bytes) × View :=
  match v.queue with
  | d :: q =>
    if cap < d.length then ((false, none), ⟨q, v.socket⟩) else ((true, some d), ⟨q, v.socket⟩)
  | [] => match v.socket.head?.join with
    | none => ((false, none), ⟨[], v.socket.tail⟩)
    | some batch =>
      if batch.all fun d => !d.data.isEmpty then
        ((true, (batch.map Arrival.data).head?), ⟨(batch.map Arrival.data).tail, v.socket.tail⟩)
      else ((false, none), ⟨[], v.socket.tail⟩)

/-- The batch a call takes from the next BIO. -/
def View.batch (v : View) : Option (List Arrival) :=
  if v.queue.isEmpty then v.socket.head?.join else none

def View.blocked (v : View) : Bool := v.queue.isEmpty && v.batch.isNone

/-- The head fits the caller's message, and a batch that is read has no empty datagram. -/
def View.Harmless (v : View) (cap : ℕ) : Prop :=
  (∀ d, v.queue.head? = some d → d.length ≤ cap) ∧
    ∀ batch, v.batch = some batch → ∀ d ∈ batch, d.data ≠ []

theorem View.failed_only_blocked_iff (v : View) (cap : ℕ) :
    ((v.recv cap).1.1 = false → v.blocked = true) ↔ v.Harmless cap := by
  obtain ⟨queue, socket⟩ := v
  cases queue with
  | cons d q =>
    by_cases hd : cap < d.length
    · have hlong : ¬ d.length ≤ cap := Nat.not_le.mpr hd
      simp [View.recv, View.blocked, View.Harmless, hd, hlong]
    · simp [View.recv, View.blocked, View.Harmless, View.batch, hd, Nat.le_of_not_lt hd]
  | nil =>
    cases hsock : socket.head?.join with
    | none => simp [View.recv, View.blocked, View.Harmless, View.batch, hsock]
    | some batch =>
      cases hall : batch.all fun d => !d.data.isEmpty with
      | true =>
        have hne : ∀ d ∈ batch, d.data ≠ [] := by simpa using hall
        simpa [View.recv, View.blocked, View.Harmless, View.batch, hsock, hall] using hne
      | false =>
        have hsome : ∃ d ∈ batch, d.data = [] := by simpa using hall
        simpa [View.recv, View.blocked, View.Harmless, View.batch, hsock, hall] using hsome

/-- A harmless call loses nothing: what it hands over was at the front. -/
theorem View.recv_conserves {v : View} {cap : ℕ} (h : v.Harmless cap) :
    (v.recv cap).1.2.toList ++ (v.recv cap).2.queue =
      v.queue ++ ((v.batch.getD []).map Arrival.data).filter (· ≠ []) := by
  obtain ⟨queue, socket⟩ := v
  cases queue with
  | cons d q =>
    have hd : ¬ cap < d.length := Nat.not_lt.mpr (h.1 d rfl)
    simp [View.recv, View.batch, hd]
  | nil =>
    cases hsock : socket.head?.join with
    | none => simp [View.recv, View.batch, hsock]
    | some batch =>
      have hne : ∀ d ∈ batch, d.data ≠ [] := h.2 batch (by simp [View.batch, hsock])
      have hall : (batch.all fun d => !d.data.isEmpty) = true := by simpa using hne
      have hkeep : (batch.map Arrival.data).filter (· ≠ []) = batch.map Arrival.data := by
        simpa using hne
      simp only [View.recv, View.batch, hsock, hall, if_true, List.isEmpty_nil, Option.getD_some,
        hkeep, List.nil_append]
      cases batch <;> rfl

/-- The same answers with the empty datagrams taken out. -/
def withoutEmpty (socket : List (Option (List Arrival))) : List (Option (List Arrival)) :=
  socket.map (Option.map (List.filter fun d => !d.data.isEmpty))

theorem withoutEmpty_tail (socket : List (Option (List Arrival))) :
    (withoutEmpty socket).tail = withoutEmpty socket.tail := by
  cases socket <;> rfl

theorem withoutEmpty_join (socket : List (Option (List Arrival))) :
    (withoutEmpty socket).head?.join =
      socket.head?.join.map (List.filter fun d => !d.data.isEmpty) := by
  cases socket <;> rfl

theorem View.recv_withoutEmpty {v : View} {cap : ℕ} (h : v.Harmless cap) :
    (⟨v.queue, withoutEmpty v.socket⟩ : View).recv cap =
      ((v.recv cap).1, ⟨(v.recv cap).2.queue, withoutEmpty (v.recv cap).2.socket⟩) := by
  obtain ⟨queue, socket⟩ := v
  cases queue with
  | cons d q =>
    have hd : ¬ cap < d.length := Nat.not_lt.mpr (h.1 d rfl)
    simp [View.recv, hd]
  | nil =>
    cases hsock : socket.head?.join with
    | none => simp [View.recv, withoutEmpty_join, withoutEmpty_tail, hsock]
    | some batch =>
      have hne : ∀ d ∈ batch, d.data ≠ [] := h.2 batch (by simp [View.batch, hsock])
      have hall : (batch.all fun d => !d.data.isEmpty) = true := by simpa using hne
      have hkeep : (batch.filter fun d => !d.data.isEmpty) = batch := by simpa using hne
      simp [View.recv, withoutEmpty_join, withoutEmpty_tail, hsock, hkeep, hall]

/-- What one call shows of itself. -/
structure Seen where
  rv : Bool
  datagram : Option Bytes
  blocked : Bool
  taken : List Bytes

def View.seen (v : View) (cap : ℕ) : Seen :=
  ⟨(v.recv cap).1.1, (v.recv cap).1.2, v.blocked, (v.batch.getD []).map Arrival.data⟩

def View.recvAll : View → List ℕ → List Seen × View
  | v, [] => ([], v)
  | v, cap :: caps =>
    let r := recvAll (v.recv cap).2 caps
    (v.seen cap :: r.1, r.2)

def View.HarmlessRun : View → List ℕ → Prop
  | _, [] => True
  | v, cap :: caps => v.Harmless cap ∧ HarmlessRun (v.recv cap).2 caps

theorem View.run_failed_only_blocked_iff (v : View) (caps : List ℕ) :
    (∀ o ∈ (v.recvAll caps).1, o.rv = false → o.blocked = true) ↔ v.HarmlessRun caps := by
  induction caps generalizing v with
  | nil => simp [View.recvAll, View.HarmlessRun]
  | cons cap caps ih =>
    simp only [View.recvAll, List.forall_mem_cons, View.HarmlessRun, ih]
    exact and_congr_left fun _ => v.failed_only_blocked_iff cap

theorem View.run_conserves {v : View} {caps : List ℕ} (h : v.HarmlessRun caps) :
    (v.recvAll caps).1.filterMap Seen.datagram ++ (v.recvAll caps).2.queue =
      v.queue ++ ((v.recvAll caps).1.flatMap Seen.taken).filter (· ≠ []) := by
  induction caps generalizing v with
  | nil => simp [View.recvAll]
  | cons cap caps ih =>
    have hstep := View.recv_conserves h.1
    have hrest := ih h.2
    have hhead : (v.recvAll (cap :: caps)).1.filterMap Seen.datagram =
        (v.recv cap).1.2.toList ++ (((v.recv cap).2.recvAll caps).1.filterMap Seen.datagram) := by
      simp only [View.recvAll, View.seen, List.filterMap_cons]
      cases (v.recv cap).1.2 <;> rfl
    rw [hhead, List.append_assoc]
    simp only [View.recvAll, List.flatMap_cons, List.filter_append]
    rw [hrest, ← List.append_assoc, hstep, List.append_assoc]
    rfl

theorem View.run_withoutEmpty {v : View} {caps : List ℕ} (h : v.HarmlessRun caps) :
    ((⟨v.queue, withoutEmpty v.socket⟩ : View).recvAll caps).1.filterMap Seen.datagram =
      (v.recvAll caps).1.filterMap Seen.datagram := by
  induction caps generalizing v with
  | nil => rfl
  | cons cap caps ih =>
    have hstep := View.recv_withoutEmpty h.1
    have hrest := ih h.2
    simp only [View.recvAll, List.filterMap_cons, View.seen, hstep, hrest]

/-- The engine's linked queue holds the view's datagrams. -/
structure Shows (rx : Rx) (v : View) : Prop where
  holds : ∃ l, Holds rx.engine l ∧ l.map (fun c => c.2.data) = v.queue
  socket : rx.socket = v.socket

/-- The messages a caller passes: at least one, each with a buffer, and enough of them
for any batch the next BIO returns. -/
structure Usable (msgs : List BioMsg) (socket : List (Option (List Arrival))) : Prop where
  ne_nil : msgs ≠ []
  data : ∀ m ∈ msgs, m.data.isSome
  enough : ∀ batch, some batch ∈ socket → batch.length ≤ msgs.length

/-- The room in the caller's first message. -/
def firstLen (msgs : List BioMsg) : ℕ := (msgs.head?.map BioMsg.dataLen).getD 0

def Out.seen (o : Out) : Seen := ⟨o.result.rv, o.result.datagram, o.blocked, o.taken⟩

section
variable {alloc : ℕ → Bool} {rx : Rx} {v : View} {msgs : List BioMsg}

theorem Usable.tail (h : Usable msgs rx.socket) : Usable msgs rx.socket.tail :=
  ⟨h.ne_nil, h.data, fun batch hb => h.enough batch (List.mem_of_mem_tail hb)⟩

theorem Shows.head_isNone (h : Shows rx v) : rx.engine.peerRx.head.isNone = v.queue.isEmpty := by
  obtain ⟨l, hl, hq⟩ := h.holds
  rw [hl.rep.head_eq, ← hq]
  cases l <;> rfl

theorem Shows.asks (h : Shows rx v) (hne : msgs ≠ []) : rx.asks msgs = v.queue.isEmpty := by
  simp [Rx.asks, h.head_isNone, hne]

theorem Shows.batch (h : Shows rx v) (hne : msgs ≠ []) : rx.batch msgs = v.batch := by
  simp only [Rx.batch, View.batch, h.asks hne, h.socket]

theorem recv_shows (halloc : ∀ n, alloc n = true) (hmsgs : Usable msgs rx.socket)
    (h : Shows rx v) :
    ∃ o rx', rx.recv alloc msgs = some (o, rx') ∧ o.seen = v.seen (firstLen msgs) ∧
      Shows rx' (v.recv (firstLen msgs)).2 := by
  obtain ⟨l, hl, hq⟩ := h.holds
  obtain ⟨msg, more, rfl⟩ := List.exists_cons_of_ne_nil hmsgs.ne_nil
  have hmsg := hmsgs.data msg (by simp)
  have hasks := h.asks hmsgs.ne_nil
  have hbatch := h.batch hmsgs.ne_nil
  obtain ⟨queue, socket⟩ := v
  cases l with
  | cons c l =>
    obtain ⟨a, d⟩ := c
    obtain rfl : d.data :: l.map (fun c => c.2.data) = queue := hq
    obtain ⟨e', hl', -, hrecv⟩ := recvmmsg_queued alloc hl hmsg more
      (bioRecvmmsg (msg :: more) (rx.batch (msg :: more)))
    by_cases hlen : msg.dataLen < d.data.length
    · rw [if_pos hlen] at hrecv
      refine ⟨_, _, by rw [Rx.recv, hrecv]; rfl, ?_, ?_⟩
      · simp [Out.seen, View.seen, View.recv, View.blocked, firstLen, hlen, hasks, hbatch,
          RecvResult.datagram]
      · exact ⟨⟨l, hl', by simp [View.recv, firstLen, hlen]⟩,
          by simp [View.recv, firstLen, hlen, hasks, h.socket]⟩
    · rw [if_neg hlen] at hrecv
      refine ⟨_, _, by rw [Rx.recv, hrecv]; rfl, ?_, ?_⟩
      · simp [Out.seen, View.seen, View.recv, View.blocked, firstLen, hlen, hasks, hbatch,
          RecvResult.datagram, BioMsg.load]
      · exact ⟨⟨l, hl', by simp [View.recv, firstLen, hlen]⟩,
          by simp [View.recv, firstLen, hlen, hasks, h.socket]⟩
  | nil =>
    obtain rfl : [] = queue := hq
    have hsock : rx.socket = socket := h.socket
    cases hjoin : socket.head?.join with
    | none =>
      have hb : rx.batch (msg :: more) = none := by rw [hbatch]; simp [View.batch, hjoin]
      obtain ⟨e', hl', -, hrecv⟩ := recvmmsg_blocked alloc hl msg more
      refine ⟨_, _, by rw [Rx.recv, hb, hrecv]; rfl, ?_, ?_⟩
      · simp [Out.seen, View.seen, View.recv, View.blocked, View.batch, hjoin, hasks,
          RecvResult.datagram]
      · exact ⟨⟨[], hl', by simp [View.recv, hjoin]⟩, by simp [View.recv, hjoin, hasks, hsock]⟩
    | some batch =>
      have hb : rx.batch (msg :: more) = some batch := by rw [hbatch]; simp [View.batch, hjoin]
      have hmem : some batch ∈ rx.socket := by
        rw [hsock]
        exact List.mem_of_head? (Option.join_eq_some_iff.mp hjoin)
      obtain ⟨r, e', l', hrecv, hl', hr⟩ :=
        recvmmsg_batch halloc hl hmsgs.ne_nil hmsgs.data (hmsgs.enough batch hmem)
      have hview : (⟨[], socket⟩ : View).recv (firstLen (msg :: more)) =
          ((r.rv, r.datagram), ⟨l'.map (fun c => c.2.data), socket.tail⟩) := by
        simp only [View.recv, hjoin]
        split_ifs at hr ⊢ with hall
        · simp only [Prod.mk.injEq] at hr
          rw [hr.1, hr.2.1, hr.2.2]
        · simp only [Prod.mk.injEq] at hr
          rw [hr.1, hr.2.1, hr.2.2]
      refine ⟨_, _, by rw [Rx.recv, hb, hrecv]; rfl, ?_, ?_⟩
      · simp [Out.seen, View.seen, View.blocked, hview, View.batch, hjoin]
      · rw [hview]
        exact ⟨⟨l', hl', rfl⟩, by simp [hasks, hsock]⟩

private theorem recv_socket {o : Out} {rx' : Rx} (h : rx.recv alloc msgs = some (o, rx')) :
    rx'.socket = rx.socket ∨ rx'.socket = rx.socket.tail := by
  obtain ⟨p, -, hp⟩ := Option.map_eq_some_iff.mp h
  obtain rfl : _ = rx' := congrArg Prod.snd hp
  by_cases hasks : rx.asks msgs = true
  · exact .inr (if_pos hasks)
  · exact .inl (if_neg hasks)

/-- Calls stay usable along the run: the next BIO only has fewer answers left. -/
theorem Usable.recv {o : Out} {rx' : Rx} {msgs' : List BioMsg} (hu : Usable msgs' rx.socket)
    (h : rx.recv alloc msgs = some (o, rx')) : Usable msgs' rx'.socket := by
  rcases recv_socket h with hs | hs
  · rwa [hs]
  · rw [hs]
    exact hu.tail

theorem recvAll_shows (halloc : ∀ n, alloc n = true) {calls : List (List BioMsg)}
    (hcalls : ∀ msgs ∈ calls, Usable msgs rx.socket) (h : Shows rx v) :
    ∃ outs rx', rx.recvAll alloc calls = some (outs, rx') ∧
      outs.map Out.seen = (v.recvAll (calls.map firstLen)).1 ∧
      Shows rx' (v.recvAll (calls.map firstLen)).2 := by
  induction calls generalizing rx v with
  | nil => exact ⟨[], rx, rfl, rfl, h⟩
  | cons msgs calls ih =>
    obtain ⟨o, rx₁, hrecv, hseen, hshows⟩ := recv_shows halloc (hcalls msgs (by simp)) h
    have husable : ∀ msgs' ∈ calls, Usable msgs' rx₁.socket :=
      fun msgs' hm => (hcalls msgs' (List.mem_cons_of_mem _ hm)).recv hrecv
    obtain ⟨outs, rx₂, hall, hseens, hend⟩ := ih husable hshows
    exact ⟨o :: outs, rx₂, by simp [Rx.recvAll, hrecv, hall],
      by simp [View.recvAll, hseen, hseens], hend⟩

end

/-- No sender's datagram lengths disturb the others in this run: a call fails only when
the next BIO had nothing, every non-empty datagram returned by the next BIO was handed
over or is still queued, in order, and leaving the empty ones out changes nothing. A
datagram too long for its caller's message counts as a failed call. -/
def Isolated (alloc : ℕ → Bool) (calls : List (List BioMsg))
    (socket : List (Option (List Arrival))) : Prop :=
  ∃ outs rx, (Rx.start socket).recvAll alloc calls = some (outs, rx) ∧
    (∀ o ∈ outs, o.result.rv = false → o.blocked = true) ∧
    (∃ l, Rep rx.engine.peerRx l ∧ delivered outs ++ l.map (fun c => c.2.data) =
      (outs.flatMap Out.taken).filter (· ≠ [])) ∧
    ∃ outs' rx', (Rx.start (withoutEmpty socket)).recvAll alloc calls = some (outs', rx') ∧
      delivered outs' = delivered outs

/-- At this call the queued head fits the first message, and the batch the next BIO is
about to return has no empty datagram. -/
def Rx.Harmless (rx : Rx) (msgs : List BioMsg) : Prop :=
  (∀ a node, rx.engine.peerRx.head = some a → rx.engine.peerRx.mem a = some node →
      node.val.data.length ≤ firstLen msgs) ∧
    ∀ batch, rx.batch msgs = some batch → ∀ d ∈ batch, d.data ≠ []

def Rx.HarmlessRun (alloc : ℕ → Bool) : Rx → List (List BioMsg) → Prop
  | _, [] => True
  | rx, msgs :: calls => rx.Harmless msgs ∧
      ∀ o rx', rx.recv alloc msgs = some (o, rx') → HarmlessRun alloc rx' calls

section
variable {alloc : ℕ → Bool} {rx : Rx} {v : View}

theorem Shows.harmless_iff (h : Shows rx v) {msgs : List BioMsg} (hne : msgs ≠ []) :
    rx.Harmless msgs ↔ v.Harmless (firstLen msgs) := by
  unfold Rx.Harmless View.Harmless
  rw [h.batch hne]
  apply and_congr_left'
  obtain ⟨l, hl, hq⟩ := h.holds
  rw [hl.rep.head_eq, ← hq]
  cases l with
  | nil => simp [cursor]
  | cons c l =>
    have hload := hl.rep.load (k := 0) (a := c.1) (v := c.2) rfl
    constructor
    · intro hfits d hd
      obtain rfl : c.2.data = d := by simpa using hd
      exact hfits c.1 _ rfl hload
    · rintro hfits a node ha hnode
      obtain rfl : c.1 = a := by simpa [cursor] using ha
      obtain rfl := Option.some.inj (hload.symm.trans hnode)
      exact hfits c.2.data rfl

theorem harmlessRun_iff (halloc : ∀ n, alloc n = true) {calls : List (List BioMsg)}
    (hcalls : ∀ msgs ∈ calls, Usable msgs rx.socket) (h : Shows rx v) :
    rx.HarmlessRun alloc calls ↔ v.HarmlessRun (calls.map firstLen) := by
  induction calls generalizing rx v with
  | nil => simp [Rx.HarmlessRun, View.HarmlessRun]
  | cons msgs calls ih =>
    have hmsgs := hcalls msgs (by simp)
    obtain ⟨o, rx₁, hrecv, -, hshows⟩ := recv_shows halloc hmsgs h
    have husable : ∀ msgs' ∈ calls, Usable msgs' rx₁.socket :=
      fun msgs' hm => (hcalls msgs' (List.mem_cons_of_mem _ hm)).recv hrecv
    simp only [Rx.HarmlessRun, List.map_cons, View.HarmlessRun, hrecv, Option.some.injEq,
      Prod.mk.injEq, h.harmless_iff hmsgs.ne_nil]
    apply and_congr_right'
    rw [← ih husable hshows]
    constructor
    · intro hall
      exact hall o rx₁ ⟨rfl, rfl⟩
    · rintro hrun _ _ ⟨rfl, rfl⟩
      exact hrun

theorem delivered_eq (outs : List Out) :
    delivered outs = (outs.map Out.seen).filterMap Seen.datagram := by
  rw [List.filterMap_map]
  rfl

end

theorem shows_start (socket : List (Option (List Arrival))) :
    Shows (.start socket) ⟨[], socket⟩ :=
  ⟨⟨[], holds_new, rfl⟩, rfl⟩

theorem Usable.withoutEmpty {msgs : List BioMsg} {socket : List (Option (List Arrival))}
    (h : Usable msgs socket) : Usable msgs (withoutEmpty socket) := by
  refine ⟨h.ne_nil, h.data, fun batch hb => ?_⟩
  obtain ⟨answer, hmem, hanswer⟩ := List.mem_map.mp hb
  obtain ⟨whole, rfl, rfl⟩ := Option.map_eq_some_iff.mp hanswer
  exact Nat.le_trans (List.length_filter_le _ _) (h.enough whole hmem)

/-- With memory available and callers passing usable messages, the datagrams of a run leave
each other alone exactly when every call meets only harmless ones. -/
theorem datagrams_isolated_iff (alloc : ℕ → Bool) (halloc : ∀ n, alloc n = true)
    (calls : List (List BioMsg)) (socket : List (Option (List Arrival)))
    (hcalls : ∀ msgs ∈ calls, Usable msgs socket) :
    Isolated alloc calls socket ↔ (Rx.start socket).HarmlessRun alloc calls := by
  have hstart := shows_start socket
  obtain ⟨outs, rx, hrun, hseen, hend⟩ := recvAll_shows halloc hcalls hstart
  rw [harmlessRun_iff halloc hcalls hstart]
  have hfailed : (∀ o ∈ outs, o.result.rv = false → o.blocked = true) ↔
      (⟨[], socket⟩ : View).HarmlessRun (calls.map firstLen) := by
    rw [← View.run_failed_only_blocked_iff, ← hseen, List.forall_mem_map]
    rfl
  constructor
  · rintro ⟨outs', rx', hrun', hblocked, -⟩
    obtain ⟨rfl, rfl⟩ : outs = outs' ∧ rx = rx' := by simpa [hrun] using hrun'
    exact hfailed.mp hblocked
  · intro hharmless
    obtain ⟨l, hl, hq⟩ := hend.holds
    have hkept := View.run_conserves hharmless
    have hsame := View.run_withoutEmpty hharmless
    obtain ⟨outs', rx', hrun', hseen', -⟩ := recvAll_shows halloc
      (fun msgs hm => (hcalls msgs hm).withoutEmpty) (shows_start (withoutEmpty socket))
    refine ⟨outs, rx, hrun, hfailed.mpr hharmless, ⟨l, hl.rep, ?_⟩, outs', rx', hrun', ?_⟩
    · rw [delivered_eq, hq, hseen, hkept, ← hseen, List.flatMap_map]
      rfl
    · rw [delivered_eq, delivered_eq, hseen, hseen', hsame]

/-- Messages of an ordinary caller: room for four bytes each, addresses wanted. -/
def callerMsgs (n : ℕ) : List BioMsg := List.replicate n ⟨some [], 4, some none, some none⟩

/-- Two peers' datagrams arrive in one batch and are read by two calls. -/
theorem datagrams_isolated_two_peers :
    Isolated (fun _ => true) [callerMsgs 2, callerMsgs 2]
      [some [⟨[1], some 7, none⟩, ⟨[2, 3], some 8, none⟩]] := by
  have husable : ∀ msgs ∈ [callerMsgs 2, callerMsgs 2],
      Usable msgs [some [⟨[1], some 7, none⟩, ⟨[2, 3], some 8, none⟩]] := by
    intro msgs hmsgs
    obtain rfl : msgs = callerMsgs 2 := by simpa using hmsgs
    exact ⟨by decide, by decide, by simp [callerMsgs]⟩
  refine (datagrams_isolated_iff _ (fun _ => rfl) _ _ husable).mpr ?_
  rw [harmlessRun_iff (fun _ => rfl) husable (shows_start _)]
  simp [View.HarmlessRun, View.Harmless, View.recv, View.batch, firstLen, callerMsgs]

/-- An empty datagram between two others: the first call already fails, with both lost. -/
theorem empty_datagram_not_isolated :
    ¬ Isolated (fun _ => true) [callerMsgs 3]
      [some [⟨[1], some 7, none⟩, ⟨[], some 9, none⟩, ⟨[2], some 8, none⟩]] := by
  rintro ⟨outs, rx, hrun, hblocked, -⟩
  have hout : ((Rx.start [some [⟨[1], some 7, none⟩, ⟨[], some 9, none⟩, ⟨[2], some 8, none⟩]]).recvAll
      (fun _ => true) [callerMsgs 3]).map
        (fun p => p.1.map fun o => (o.result.rv, o.blocked)) = some [(false, false)] := by
    decide +kernel
  rw [hrun, Option.map_some, Option.some.injEq] at hout
  obtain ⟨o, rfl, ho⟩ := List.map_eq_singleton_iff.mp hout
  have hrv := hblocked o (by simp) (congrArg Prod.fst ho)
  rw [show o.blocked = false from congrArg Prod.snd ho] at hrv
  cases hrv

end ModHttp3.Quic
