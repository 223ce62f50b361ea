import ModHttp3.Session.Wire

/-! The bytes on the wire follow nghttp3's output, stream by stream. -/
namespace ModHttp3.Session
open Lib Quic

/-- A round reports the bytes accepted, or all bytes offered if they are lost. -/
structure Attempt.Sound (a : Attempt) : Prop where
  first : a.accepted <+: a.offered
  equal : a.ackOffset = a.writeOffset
  counted : a.writeOffset = if a.lost then a.offered.length else a.accepted.length
  whole : a.concluded → a.lost = false ∧ a.accepted = a.offered

/-- What was accepted of a stream that is not severed is its output up to the write offset. -/
structure InOrder (o : Output) (sid : ℤ) (log : List (ℤ × Attempt)) : Prop where
  accepted : acceptedBytes sid log = o.bytes.take o.written
  final : finalAccepted sid o.written log

/-- When a stream was concluded it was marked, the buffers reached the end of its output, and nothing of it
was left unless severed. -/
def Concludes (out : ℤ → Output) (e : ℤ × Attempt) (earlier : List (ℤ × Attempt)) : Prop :=
  e.2.concluded → (out e.1).fin ∧ e.2.start + e.2.offered.length = (out e.1).bytes.length ∧
    (severed e.1 earlier = false → acceptedBytes e.1 (e :: earlier) = (out e.1).bytes ∧
      finalAccepted e.1 (out e.1).bytes.length (e :: earlier))

structure Follows (w : Wire) : Prop where
  equal : ∀ sid, (w.out sid).acked = (w.out sid).written
  within : ∀ sid, (w.out sid).written ≤ (w.out sid).bytes.length
  sound : ∀ e ∈ w.log, e.2.Sound
  inOrder : ∀ sid, severed sid w.log = false → InOrder (w.out sid) sid w.log
  offered : ∀ sid, w.pc = .write sid → (w.out sid).offers w.vec w.fin
  concludes : Justified (Concludes w.out) w.log

section
variable {o : Output} {sid : ℤ} {log : List (ℤ × Attempt)} {a : Attempt} {vec : List Bytes} {fin : Bool}

theorem Output.offers_iff : o.offers vec fin ↔
    vec.length ≤ 16 ∧ vec.flatten <+: o.pending ∧ (fin → o.fin ∧ vec.flatten = o.pending) := by
  unfold Output.offers
  cases fin <;> simp [and_assoc]

private theorem acceptedBytes_self (sid : ℤ) (a : Attempt) (log : List (ℤ × Attempt)) :
    acceptedBytes sid ((sid, a) :: log) = acceptedBytes sid log ++ a.accepted := by
  rw [acceptedBytes, if_pos rfl]

private theorem acceptedBytes_ne {x : ℤ} (hx : x ≠ sid) : acceptedBytes sid ((x, a) :: log) = acceptedBytes sid log := by
  rw [acceptedBytes, if_neg hx, List.append_nil]

private theorem severed_self (sid : ℤ) (a : Attempt) (log : List (ℤ × Attempt)) :
    severed sid ((sid, a) :: log) = (a.lost || severed sid log) := by
  simp [severed]

private theorem severed_ne {x : ℤ} (hx : x ≠ sid) : severed sid ((x, a) :: log) = severed sid log := by
  simp [severed, hx]

theorem finalAccepted.mono {n : ℕ} {log' : List (ℤ × Attempt)} (h : finalAccepted sid n log)
    (hsub : log ⊆ log') : finalAccepted sid n log' :=
  h.imp id fun ⟨a, ha, hne, hend⟩ => ⟨a, hsub ha, hne, hend⟩

theorem InOrder.ne {x : ℤ} (h : InOrder o sid log) (hx : x ≠ sid) : InOrder o sid ((x, a) :: log) :=
  ⟨(acceptedBytes_ne hx).trans h.accepted, h.final.mono (List.subset_cons_self _ _)⟩

/-- More output does not change what was sent of it. -/
theorem InOrder.grow (h : InOrder o sid log) (hwithin : o.written ≤ o.bytes.length) (data : Bytes) :
    InOrder { o with bytes := o.bytes ++ data } sid log := by
  refine ⟨?_, h.final⟩
  rw [h.accepted]
  exact (List.take_append_of_le_length hwithin).symm

theorem Attempt.Sound.writeOffset_le (ha : a.Sound) (hoff : a.offered <+: o.pending) :
    a.writeOffset ≤ o.bytes.length - o.written := by
  have hfirst := ha.first.length_le
  have hlen := hoff.length_le
  rw [Output.pending, List.length_drop] at hlen
  rw [ha.counted]
  split_ifs <;> omega

/-- A round that loses nothing sends the next bytes of the output. -/
theorem InOrder.attempt (h : InOrder o sid log) (ha : a.Sound) (hlost : a.lost = false)
    (hstart : a.start = o.written) (hoff : a.offered <+: o.pending) :
    InOrder ((o.addWriteOffset a.writeOffset).addAckOffset a.ackOffset) sid ((sid, a) :: log) := by
  have hcount : a.writeOffset = a.accepted.length := by
    rw [ha.counted, hlost]
    rfl
  obtain ⟨rest, hrest⟩ := ha.first.trans hoff
  have hnext : (o.bytes.drop o.written).take a.accepted.length = a.accepted := by
    change o.pending.take _ = _
    rw [← hrest]
    exact List.take_left
  refine ⟨?_, ?_⟩
  · change acceptedBytes sid ((sid, a) :: log) = o.bytes.take (o.written + a.writeOffset)
    rw [acceptedBytes_self, h.accepted, hcount, List.take_add, hnext]
  · change finalAccepted sid (o.written + a.writeOffset) ((sid, a) :: log)
    by_cases hnil : a.accepted = []
    · rw [hcount, hnil, List.length_nil, Nat.add_zero]
      exact h.final.mono (List.subset_cons_self _ _)
    · refine .inr ⟨a, List.mem_cons_self, hnil, ?_⟩
      rw [hstart, hcount]

end

section
variable {w : Wire} {sid : ℤ} {a : Attempt}

private theorem follows_start (s : H3Session) : Follows (.start s) := by
  constructor
  · exact fun _ => rfl
  · exact fun _ => Nat.le_refl _
  · nofun
  · exact fun _ _ => ⟨rfl, .inl rfl⟩
  · nofun
  · exact justified_nil

/-- A step that writes nothing: each stream's output stays, or the stream is open and grows. -/
theorem Follows.next (hF : Follows w) {w' : Wire} (hlog : w'.log = w.log)
    (hout : ∀ sid, w'.out sid = w.out sid ∨
      ((w.out sid).fin = false ∧ ∃ data, w'.out sid = { w.out sid with bytes := (w.out sid).bytes ++ data }) ∨
      w'.out sid = { w.out sid with fin := true })
    (hoff : ∀ sid, w'.pc = .write sid → (w'.out sid).offers w'.vec w'.fin) : Follows w' := by
  have hsame : ∀ sid, (w'.out sid).acked = (w.out sid).acked ∧ (w'.out sid).written = (w.out sid).written := by
    intro sid
    rcases hout sid with he | ⟨-, data, he⟩ | he <;> rw [he] <;> exact ⟨rfl, rfl⟩
  constructor
  · intro sid
    rw [(hsame sid).1, (hsame sid).2]
    exact hF.equal sid
  · intro sid
    have hold := hF.within sid
    rcases hout sid with he | ⟨-, data, he⟩ | he
    · rw [he]
      exact hold
    · rw [he]
      simp only [List.length_append]
      omega
    · rw [he]
      exact hold
  · rw [hlog]
    exact hF.sound
  · rw [hlog]
    intro sid hs
    have hold := hF.inOrder sid hs
    rcases hout sid with he | ⟨-, data, he⟩ | he
    · rw [he]
      exact hold
    · rw [he]
      exact hold.grow (hF.within sid) data
    · rw [he]
      exact ⟨hold.accepted, hold.final⟩
  · exact hoff
  · rw [hlog]
    intro later e earlier hl hc
    obtain ⟨hfin, hall⟩ := hF.concludes later e earlier hl hc
    rcases hout e.1 with he | ⟨hopen, -⟩ | he
    · rw [he]
      exact ⟨hfin, hall⟩
    · rw [hfin] at hopen
      cases hopen
    · rw [he]
      exact ⟨rfl, hall⟩

/-- One round of the loop. -/
theorem Follows.attempt (hF : Follows w) (ha : a.Sound) (hstart : a.start = (w.out sid).written)
    (hoff : a.offered <+: (w.out sid).pending)
    (hfin : a.concluded → (w.out sid).fin ∧ a.offered = (w.out sid).pending)
    (hpc : ∀ x, w.pc ≠ .write x) : Follows (w.attempt sid a) := by
  have hself : (w.attempt sid a).out sid =
      ((w.out sid).addWriteOffset a.writeOffset).addAckOffset a.ackOffset := Function.update_self ..
  have hne : ∀ {x}, x ≠ sid → (w.attempt sid a).out x = w.out x := fun hx =>
    Function.update_of_ne hx ..
  have hbytes : ∀ x, ((w.attempt sid a).out x).bytes = (w.out x).bytes ∧
      ((w.attempt sid a).out x).fin = (w.out x).fin := by
    intro x
    by_cases hx : x = sid
    · subst hx
      rw [hself]
      exact ⟨rfl, rfl⟩
    · rw [hne hx]
      exact ⟨rfl, rfl⟩
  have hconcl : Concludes (w.attempt sid a).out (sid, a) w.log := by
    intro hc
    obtain ⟨hf, hall⟩ := hfin hc
    obtain ⟨hlost, hacc⟩ := ha.whole hc
    rw [(hbytes sid).1, (hbytes sid).2]
    have hreach : (w.out sid).written + a.offered.length = (w.out sid).bytes.length := by
      have hwithin := hF.within sid
      have hlen := congrArg List.length hall
      rw [Output.pending, List.length_drop] at hlen
      omega
    refine ⟨hf, (congrArg (· + a.offered.length) hstart).trans hreach, fun hs => ?_⟩
    have hnew := (hF.inOrder sid hs).attempt ha hlost hstart hoff
    have hend : (w.out sid).written + a.writeOffset = (w.out sid).bytes.length := by
      rw [ha.counted, hlost, if_neg Bool.false_ne_true, hacc]
      exact hreach
    constructor
    · refine hnew.accepted.trans ?_
      change (w.out sid).bytes.take ((w.out sid).written + a.writeOffset) = _
      rw [hend, List.take_length]
    · have hfinal := hnew.final
      change finalAccepted sid ((w.out sid).written + a.writeOffset) _ at hfinal
      rwa [hend] at hfinal
  constructor
  · intro x
    by_cases hx : x = sid
    · subst hx
      rw [hself]
      change (w.out x).acked + a.ackOffset = (w.out x).written + a.writeOffset
      rw [hF.equal, ha.equal]
    · rw [hne hx]
      exact hF.equal x
  · intro x
    by_cases hx : x = sid
    · subst hx
      rw [hself]
      have hold := hF.within x
      have hle := ha.writeOffset_le hoff
      change (w.out x).written + a.writeOffset ≤ (w.out x).bytes.length
      omega
    · rw [hne hx]
      exact hF.within x
  · intro e he
    rcases List.mem_cons.mp he with rfl | he
    · exact ha
    · exact hF.sound e he
  · intro x hs
    change severed x ((sid, a) :: w.log) = false at hs
    by_cases hx : x = sid
    · subst hx
      rw [severed_self, Bool.or_eq_false_iff] at hs
      rw [hself]
      exact (hF.inOrder x hs.2).attempt ha hs.1 hstart hoff
    · rw [severed_ne (Ne.symm hx)] at hs
      rw [hne hx]
      exact (hF.inOrder x hs).ne (Ne.symm hx)
  · exact fun x he => absurd he (hpc x)
  · refine Justified.cons ?_ hconcl
    intro later e earlier hl hc
    rw [(hbytes e.1).1, (hbytes e.1).2]
    exact hF.concludes later e earlier hl hc

/-- Offered bytes stay on offer while the output grows or is marked as ended. -/
private theorem offers_produce {o : Output} {vec : List Bytes} {fin : Bool} (h : o.offers vec fin)
    (hopen : o.fin = false) (hwithin : o.written ≤ o.bytes.length) (data : Bytes) :
    ({ o with bytes := o.bytes ++ data } : Output).offers vec fin := by
  rw [Output.offers_iff] at h ⊢
  refine ⟨h.1, h.2.1.trans ?_, fun hf => ?_⟩
  · change o.bytes.drop o.written <+: (o.bytes ++ data).drop o.written
    rw [List.drop_append_of_le_length hwithin]
    exact List.prefix_append _ _
  · rw [(h.2.2 hf).1] at hopen
    cases hopen

private theorem offers_finish {o : Output} {vec : List Bytes} {fin : Bool} (h : o.offers vec fin) :
    ({ o with fin := true } : Output).offers vec fin := by
  rw [Output.offers_iff] at h ⊢
  exact ⟨h.1, h.2.1, fun hf => ⟨rfl, (h.2.2 hf).2⟩⟩

end

section
variable {conf : SessionConf} {w w' : Wire}

/-- Where a flush can be after a step without bytes: not in the middle of a write. -/
private theorem flushStep_not_write {s s' : H3Session} {pc pc' : FlushPc} {a : Answer}
    (hm : a.movesBytes = false) (h : flushStep conf s pc a = some (s', pc')) : ∀ sid, pc' ≠ .write sid := by
  unfold flushStep at h
  split at h
  · cases h
    nofun
  · obtain ⟨s₁, -, he⟩ := Option.map_eq_some_iff.mp h
    cases he
    nofun
  · cases h
    nofun
  · cases h
    nofun
  · cases h
    nofun
  · cases hm
  · cases hm
  · cases h
    nofun
  · cases h
    nofun
  · cases h

private theorem flushStart_not_write (s : H3Session) (sid : ℤ) : s.flushStart ≠ .write sid := by
  unfold H3Session.flushStart
  split_ifs <;> nofun

theorem Follows.writev (hF : Follows w) {sid : ℤ} {vec : List Bytes} {fin : Bool} {s : H3Session}
    {pc : FlushPc} (hoff : (w.out sid).offers vec fin) (hpc : pc = .write sid ∨ pc = .offsets none) :
    Follows (if pc = .write sid then { w with session := s, pc := pc, vec := vec, fin := fin }
      else ({ w with session := s, pc := pc } : Wire).swallow sid vec) := by
  split_ifs with hw
  · refine hF.next rfl (fun _ => .inl rfl) fun x hx => ?_
    cases hw.symm.trans hx
    exact hoff
  · have hne : ∀ x, pc ≠ .write x := by
      rintro x rfl
      rcases hpc with hpc | hpc
      · exact hw hpc
      · cases hpc
    have hF' : Follows ({ w with session := s, pc := pc } : Wire) :=
      hF.next rfl (fun _ => .inl rfl) fun x hx => absurd hx (hne x)
    rw [Output.offers_iff] at hoff
    refine hF'.attempt ⟨List.nil_prefix, rfl, ?_, nofun⟩ rfl hoff.2.1 nofun hne
    exact List.length_flatten.symm

theorem Follows.wrote (hF : Follows w) {sid : ℤ} {r : Written} {answers : List SslWrite}
    {s : H3Session} {pc : FlushPc} (hw : w.pc = .write sid)
    (hr : h3qStreamWrite w.vec w.fin answers = some r) (hpc : ∀ x, pc ≠ .write x) :
    Follows (({ w with session := s, pc := pc } : Wire).wrote sid r) := by
  obtain ⟨hs, hc⟩ := h3qStreamWrite_spec hr
  have hoff := hF.offered sid hw
  rw [Output.offers_iff] at hoff
  have hF' : Follows ({ w with session := s, pc := pc } : Wire) :=
    hF.next rfl (fun _ => .inl rfl) fun x hx => absurd hx (hpc x)
  refine hF'.attempt ⟨hs.first, rfl, ?_, ?_⟩ rfl hoff.2.1 ?_ hpc
  · dsimp only
    rw [hs.counted, List.length_flatten]
  · intro hconc
    obtain ⟨-, hblocked, hbroken⟩ := hc.mp hconc
    exact ⟨hbroken, hs.whole hblocked hbroken⟩
  · exact fun hconc => hoff.2.2 (hc.mp hconc).1

/-- Setting the output of one stream, which grows or is marked as ended. -/
theorem Follows.setOut (hF : Follows w) {sid : ℤ} {o : Output}
    (ho : ((w.out sid).fin = false ∧ ∃ data, o = { w.out sid with bytes := (w.out sid).bytes ++ data }) ∨
      o = { w.out sid with fin := true }) : Follows (w.setOut sid o) := by
  have hself : (w.setOut sid o).out sid = o := Function.update_self ..
  have hne : ∀ {x}, x ≠ sid → (w.setOut sid o).out x = w.out x := fun hx => Function.update_of_ne hx ..
  refine hF.next rfl (fun x => ?_) fun x hx => ?_
  · by_cases hx : x = sid
    · subst hx
      rw [hself]
      exact .inr ho
    · exact .inl (hne hx)
  · have hoff := hF.offered x hx
    by_cases hx' : x = sid
    · subst hx'
      rw [hself]
      rcases ho with ⟨hopen, data, rfl⟩ | rfl
      · exact offers_produce hoff hopen (hF.within x) data
      · exact offers_finish hoff
    · rw [hne hx']
      exact hoff

theorem Follows.step (hF : Follows w) {act : WireAct} (h : w.step conf act = some w') : Follows w' := by
  cases act with
  | produce sid data =>
    dsimp only [Wire.step] at h
    split_ifs at h with hfin
    cases h
    exact hF.setOut (.inl ⟨Bool.not_eq_true _ ▸ hfin, data, rfl⟩)
  | finish sid =>
    cases h
    exact hF.setOut (.inr rfl)
  | other s =>
    dsimp only [Wire.step] at h
    split_ifs at h with hpc
    cases h
    exact hF.next rfl (fun _ => .inl rfl) hF.offered
  | begin =>
    dsimp only [Wire.step] at h
    split_ifs at h with hpc
    cases h
    exact hF.next rfl (fun _ => .inl rfl) fun x hx => absurd hx (flushStart_not_write _ x)
  | flush a =>
    dsimp only [Wire.step] at h
    split_ifs at h with hm
    obtain ⟨⟨s, pc⟩, hf, rfl⟩ := Option.map_eq_some_iff.mp h
    exact hF.next rfl (fun _ => .inl rfl) fun x hx =>
      absurd hx (flushStep_not_write (Bool.not_eq_true _ ▸ hm) hf x)
  | writev sid vec fin =>
    dsimp only [Wire.step] at h
    split_ifs at h with hok
    obtain ⟨hpc, -, hoff⟩ := hok
    rw [hpc] at h
    obtain ⟨⟨s, pc⟩, hf, rfl⟩ := Option.map_eq_some_iff.mp h
    apply hF.writev hoff
    cases hf
    split_ifs
    · exact .inl rfl
    · exact .inr rfl
  | write answers =>
    dsimp only [Wire.step] at h
    split at h
    · rename_i sid hpc
      obtain ⟨r, hr, h⟩ := Option.bind_eq_some_iff.mp h
      obtain ⟨⟨s, pc⟩, hf, h⟩ := Option.bind_eq_some_iff.mp h
      cases h
      refine hF.wrote hpc hr ?_
      rw [hpc] at hf
      cases hf
      nofun
    · cases h

/-- Over any number of flushes, with any answers of OpenSSL: what a QUIC stream has accepted is
nghttp3's output for it up to the write offset, until the stream is reported broken or found
without a handle. Write and ack offsets are equal, and each round adds to both what was
accepted, or all of the buffers if they are lost. A stream is concluded only when it is marked
as ended, in a round whose buffers reach the end of its output and are accepted; unless it was severed
before, all of it has then been accepted. -/
theorem wire_follows_output {s : H3Session} (h : Reach (Wire.step conf) anyStep (.start s) w) (sid : ℤ) :
    (severed sid w.log = false →
      acceptedBytes sid w.log <+: (w.out sid).bytes ∧
      (w.out sid).written = (acceptedBytes sid w.log).length) ∧
    (w.out sid).acked = (w.out sid).written ∧
    (∀ a, (sid, a) ∈ w.log → a.accepted <+: a.offered ∧ a.ackOffset = a.writeOffset ∧
      a.writeOffset = if a.lost then a.offered.length else a.accepted.length) ∧
    (∀ later a earlier, w.log = later ++ (sid, a) :: earlier → a.concluded →
      (w.out sid).fin ∧ a.start + a.offered.length = (w.out sid).bytes.length ∧ a.accepted = a.offered ∧
      (severed sid earlier = false →
        acceptedBytes sid ((sid, a) :: earlier) = (w.out sid).bytes ∧
        finalAccepted sid (w.out sid).bytes.length ((sid, a) :: earlier))) := by
  have hF := h.invariant (follows_start s) fun _ _ _ hF _ hs => hF.step hs
  refine ⟨fun hs => ?_, hF.equal sid, fun a ha => ?_, fun later a earlier hlog hc => ?_⟩
  · have ho := hF.inOrder sid hs
    rw [ho.accepted, List.length_take_of_le (hF.within sid)]
    exact ⟨List.take_prefix _ _, rfl⟩
  · have hsound := hF.sound _ ha
    exact ⟨hsound.first, hsound.equal, hsound.counted⟩
  · obtain ⟨hfin, hreach, hall⟩ := hF.concludes later (sid, a) earlier hlog hc
    have hin : (sid, a) ∈ w.log := by
      rw [hlog]
      exact List.mem_append_right _ List.mem_cons_self
    exact ⟨hfin, hreach, ((hF.sound _ hin).whole hc).2, hall⟩

/-- A session with one request stream. -/
def oneStream : H3Session := H3Session.new.addStream 0 20

def wireConf : SessionConf := ⟨100, 8190, 1024, 8, 512⟩

/-- Two bytes are cut by a full send buffer, and the rest follows with the fin. -/
theorem wire_follows_output_cut :
    ∃ w, Reach (Wire.step wireConf) anyStep (.start oneStream) w ∧ acceptedBytes 0 w.log = [1, 2, 3] ∧
      acceptedBytes 0 w.log <+: (w.out 0).bytes ∧ (w.out 0).acked = (w.out 0).written := by
  have hrun : (runActions (Wire.step wireConf) (.start oneStream)
      [.produce 0 [1, 2, 3], .finish 0, .begin, .writev 0 [[1, 2], [3]] true, .write [.took 1],
        .flush (.returned none), .flush .writevEmpty, .begin, .flush (.flag false), .flush .go,
        .writev 0 [[2], [3]] true, .write [.took 1, .took 1], .flush (.returned none),
        .flush .writevEmpty]).map (fun w => (acceptedBytes 0 w.log, severed 0 w.log)) =
      some ([1, 2, 3], false) := by
    decide +kernel
  obtain ⟨w, hw, he⟩ := Option.map_eq_some_iff.mp hrun
  simp only [Prod.mk.injEq] at he
  have hreach := Reach.of_runActions _ hw
  obtain ⟨hpre, heq, -, -⟩ := wire_follows_output hreach 0
  exact ⟨w, hreach, he.1, (hpre he.2).1, heq⟩

/-- A write breaks and its bytes are dropped; then nghttp3 ends the stream with a fin alone, and
the stream is concluded although none of its bytes was accepted. -/
theorem concluded_without_final_byte :
    ¬ ∀ w, Reach (Wire.step wireConf) anyStep (.start oneStream) w →
      ∀ later sid a earlier, w.log = later ++ (sid, a) :: earlier → a.concluded →
        finalAccepted sid (w.out sid).bytes.length ((sid, a) :: earlier) := by
  intro hall
  have hrun : (runActions (Wire.step wireConf) (.start oneStream)
      [.produce 0 [1, 2], .begin, .writev 0 [[1, 2]] false, .write [.failed], .flush (.returned none),
        .flush .writevEmpty, .finish 0, .begin, .writev 0 [] true, .write []]).map
      (fun w => (w.log, (w.out 0).bytes)) =
      some ([(0, ⟨2, [], [], false, true, 0, 0⟩), (0, ⟨0, [1, 2], [], true, false, 2, 2⟩)], [1, 2]) := by
    decide +kernel
  obtain ⟨w, hw, he⟩ := Option.map_eq_some_iff.mp hrun
  simp only [Prod.mk.injEq] at he
  obtain ⟨hlog, hbytes⟩ := he
  have hfinal := hall w (Reach.of_runActions _ hw) [] 0 _ _ hlog rfl
  rw [hbytes] at hfinal
  rcases hfinal with hzero | ⟨a, ha, hne, -⟩
  · cases hzero
  · simp only [List.mem_cons, Prod.mk.injEq, true_and, List.not_mem_nil, or_false] at ha
    rcases ha with rfl | rfl <;> exact hne rfl

end

end ModHttp3.Session
