import ModHttp3.Quic.Write
import ModHttp3.Session.Wire
import ModHttp3.System.Blocked

/-! The session with what nghttp3 has left to send: a list of streams, each with finite output, from
which the loop of `flush_nghttp3` takes. -/
namespace ModHttp3.System
open Session Lib Quic

/-- What nghttp3 has left to send on a stream. -/
structure Unsent where
  bytes : Bytes
  fin : Bool
  deriving DecidableEq, Repr

namespace Unsent

/-- What `nghttp3_conn_writev_stream` may return for a stream: up to 16 buffers with the first bytes
left, the fin only with the last of them, and never neither bytes nor fin. -/
def offers (u : Unsent) (vec : List Bytes) (fin : Bool) : Bool :=
  decide (vec.length ≤ 16) && vec.flatten.isPrefixOf u.bytes && (!vec.flatten.isEmpty || fin) &&
    (!fin || u.fin && vec.flatten == u.bytes)

/-- `nghttp3_conn_add_write_offset`; a fin that was offered goes with the last bytes. -/
def addWriteOffset (u : Unsent) (n : ℕ) (fin : Bool) : Unsent :=
  ⟨u.bytes.drop n, u.fin && !(fin && decide (u.bytes.length ≤ n))⟩

def add (u : Unsent) (data : Bytes) (fin : Bool) : Unsent := ⟨u.bytes ++ data, u.fin || fin⟩

def weight (u : Unsent) : ℕ := u.bytes.length + u.fin.toNat

end Unsent

/-- A round of the loop: the stream that nghttp3 returned, how many bytes of its output and whether
its fin are gone afterwards, and whether it was moved into nghttp3's set of blocked streams. -/
structure Round where
  sid : ℤ
  taken : ℕ
  fin : Bool
  blocks : Bool
  deriving DecidableEq, Repr

/-- The session with nghttp3's streams and their output. `vec` and `fin` are variables of the loop;
`round` is the round in progress, `log` has the rounds of the latest flush, the last one first, and
`load` is what the flush found. -/
structure Flushing where
  blocking : Blocking
  ids : List ℤ
  unsent : ℤ → Unsent
  vec : List Bytes
  fin : Bool
  round : Round
  log : List Round
  load : ℕ

/-- nghttp3 gets more to send, `writev` and `write` are the answers in a flush that move bytes, and
`step` is any other step of the session. -/
inductive FlushAct
  | queue (sid : ℤ) (data : Bytes) (fin : Bool)
  | step (act : Action)
  | writev (sid : ℤ) (vec : List Bytes) (fin : Bool)
  | write (answers : List SslWrite)

def EventPc.inFlush : EventPc → Bool
  | .flush _ _ => true
  | _ => false

def Action.movesBytes : Action → Bool
  | .event a => a.movesBytes
  | .worker _ _ => false

/-- A step of the flush itself: no worker's step, and no callback. -/
def FlushAct.ofFlush : FlushAct → Bool
  | .queue _ _ _ | .step (.worker _ _) | .step (.event (.callback _)) => false
  | _ => true

namespace Flushing

def start : Flushing := ⟨.start, [], fun _ => ⟨[], false⟩, [], false, ⟨0, 0, false, false⟩, [], 0⟩

def pc (w : Flushing) : EventPc := w.blocking.sys.pc

def session (w : Flushing) : H3Session := w.blocking.sys.session

/-- The output of a stream, and one if it may yet be blocked. -/
def share (w : Flushing) (sid : ℤ) : ℕ := (w.unsent sid).weight + (!w.blocking.held sid).toNat

def potential (w : Flushing) : ℕ := (w.ids.map w.share).sum

/-- All output, and one for each stream. -/
def total (w : Flushing) : ℕ := (w.ids.map fun sid => (w.unsent sid).weight + 1).sum

/-- The write offset of a stream is reported. -/
def consume (w : Flushing) (sid : ℤ) (n : ℕ) : Flushing :=
  let old := w.unsent sid
  let new := old.addWriteOffset n w.fin
  { w with
    unsent := Function.update w.unsent sid new
    round := ⟨sid, old.bytes.length - new.bytes.length, old.fin && !new.fin, false⟩ }

def endRound (w : Flushing) (b : Blocking) : Flushing :=
  { w with
    blocking := b
    log := { w.round with blocks := !w.blocking.held w.round.sid && b.held w.round.sid } :: w.log }

/-- After a step of the session that moves no bytes: a flush may have begun, or a round ended. -/
def after (w : Flushing) (b : Blocking) : Flushing :=
  match w.pc with
  | .flush _ (.offsets _) => match b.sys.pc with
    | .flush _ .writev => w.endRound b
    | _ => { w with blocking := b }
  | .flush _ _ => { w with blocking := b }
  | _ =>
    if b.sys.pc.inFlush then { w with blocking := b, log := [], load := w.total }
    else { w with blocking := b }

/-- No output is added while a flush holds the session lock. -/
def step (conf : SessionConf) (w : Flushing) : FlushAct → Option Flushing
  | .queue sid data fin =>
    if w.pc.inFlush then none
    else some
      { w with
        ids := if sid ∈ w.ids then w.ids else sid :: w.ids
        unsent := Function.update w.unsent sid ((w.unsent sid).add data fin) }
  | .step act =>
    if act.movesBytes then none else (w.blocking.step conf act).map w.after
  | .writev sid vec fin => match w.pc with
    | .flush _ .writev =>
      -- nghttp3 returns a stream that is not blocked and has something to send
      if 0 ≤ sid ∧ sid ∈ w.ids ∧ w.blocking.held sid = false ∧ (w.unsent sid).offers vec fin then
        (w.blocking.step conf (.event (.writevData sid))).map fun b =>
          let w := { w with blocking := b, vec := vec, fin := fin }
          match b.sys.pc with
          | .flush _ (.write _) => w
          | _ => w.consume sid (vec.map List.length).sum
      else none
    | _ => none
  | .write answers => match w.pc with
    | .flush _ (.write sid) => do
      let r ← h3qStreamWrite w.vec w.fin answers
      let b ← w.blocking.step conf (.event (.wrote r.result.blocked r.result.broken))
      let n := if r.result.broken then (w.vec.map List.length).sum else r.result.accepted
      some (({ w with blocking := b } : Flushing).consume sid n)
    | _ => none

end Flushing

namespace Flushing

/-- What a step does to a flush. -/
inductive Move (w : Flushing) : FlushAct → Flushing → Prop
  | queued {sid : ℤ} {data : Bytes} {fin : Bool} {w' : Flushing} (hpc : w.pc.inFlush = false)
      (hblocking : w'.blocking = w.blocking) (hlog : w'.log = w.log) : Move w (.queue sid data fin) w'
  /-- a worker's step, or a callback of nghttp3 -/
  | aside {act : Action} {b : Blocking} (hpc : b.sys.pc = w.pc) (hheld : b.held = w.blocking.held)
      (hact : (FlushAct.step act).ofFlush = false) : Move w (.step act) { w with blocking := b }
  | outside {act : Action} {b : Blocking} (hpc : b.sys.pc.inFlush = false)
      (hfrom : ∀ origin pc, w.pc = .flush origin pc → pc = .returned) : Move w (.step act) { w with blocking := b }
  | entered {act : Action} {b : Blocking} {origin : FlushFrom} (hout : w.pc.inFlush = false)
      (hpc : b.sys.pc = .flush origin w.session.flushStart) :
      Move w (.step act) { w with blocking := b, log := [], load := w.total }
  | unblocked {a : Answer} {b : Blocking} {origin : FlushFrom} {sid : ℤ} {rest : List ℤ}
      (hact : (FlushAct.step (.event a)).ofFlush) (hpc : w.pc = .flush origin (.unblock (sid :: rest))) (hpc' : b.sys.pc = .flush origin (.unblock rest)) :
      Move w (.step (.event a)) { w with blocking := b }
  | looping {a : Answer} {b : Blocking} {origin : FlushFrom}
      (hact : (FlushAct.step (.event a)).ofFlush) (hpc : w.pc = .flush origin (.unblock []))
      (hpc' : b.sys.pc = .flush origin .writev) (hheld : b.held = w.blocking.held) :
      Move w (.step (.event a)) { w with blocking := b }
  | returned {a : Answer} {b : Blocking} {origin : FlushFrom}
      (hact : (FlushAct.step (.event a)).ofFlush) (hpc : w.pc = .flush origin .writev)
      (hpc' : b.sys.pc = .flush origin .returned) (hheld : b.held = w.blocking.held) :
      Move w (.step (.event a)) { w with blocking := b }
  | offered {b : Blocking} {origin : FlushFrom} {sid : ℤ} {vec : List Bytes} {fin : Bool}
      (hpc : w.pc = .flush origin .writev) (hpc' : b.sys.pc = .flush origin (.write sid))
      (hheld : b.held = w.blocking.held) (hsid : sid ∈ w.ids) (hfree : w.blocking.held sid = false)
      (hoffers : (w.unsent sid).offers vec fin) :
      Move w (.writev sid vec fin) { w with blocking := b, vec := vec, fin := fin }
  | swallowed {b : Blocking} {origin : FlushFrom} {sid : ℤ} {vec : List Bytes} {fin : Bool}
      (hpc : w.pc = .flush origin .writev) (hpc' : b.sys.pc = .flush origin (.offsets none))
      (hheld : b.held = w.blocking.held) (hsid : sid ∈ w.ids) (hoffers : (w.unsent sid).offers vec fin) :
      Move w (.writev sid vec fin)
        (({ w with blocking := b, vec := vec, fin := fin } : Flushing).consume sid (vec.map List.length).sum)
  | wrote {b : Blocking} {origin : FlushFrom} {sid : ℤ} {blocked : Option ℤ} {answers : List SslWrite} {n : ℕ}
      (hpc : w.pc = .flush origin (.write sid)) (hpc' : b.sys.pc = .flush origin (.offsets blocked))
      (hheld : b.held = w.blocking.held)
      (hcase : blocked = some sid ∨ blocked = none ∧ n = w.vec.flatten.length) :
      Move w (.write answers) (({ w with blocking := b } : Flushing).consume sid n)
  | ended {a : Answer} {b : Blocking} {origin : FlushFrom} {blocked : Option ℤ}
      (hact : (FlushAct.step (.event a)).ofFlush) (hpc : w.pc = .flush origin (.offsets blocked)) (hpc' : b.sys.pc = .flush origin .writev)
      (hheld : b.held = heldByFlush w.session w.blocking.held (.offsets blocked) (.returned none)) :
      Move w (.step (.event a)) (w.endRound b)

section
variable {conf : SessionConf} {w w' : Flushing}

/-- `flush_nghttp3` itself takes none of these answers once it has returned. -/
private theorem flushed_leaves {σ σ' : State} {origin : FlushFrom} {a : Answer} (h : σ.flushed origin a = some σ') :
    σ'.pc.inFlush = false := by
  unfold State.flushed at h
  split at h
  case h_4 =>
    split_ifs at h
    cases h
    rfl
  all_goals
    cases h
    try rfl

theorem after_inside {b : Blocking} {origin : FlushFrom} {pc : FlushPc} (hpc : w.pc = .flush origin pc)
    (hb : ∀ o, b.sys.pc = .flush o .writev → ∀ blocked, pc ≠ .offsets blocked) :
    w.after b = { w with blocking := b } := by
  unfold after
  rw [hpc]
  cases pc with
  | offsets blocked =>
    dsimp only
    split
    · rename_i o hwritev
      exact absurd rfl (hb o hwritev blocked)
    · rfl
  | _ => rfl

private theorem after_ended {b : Blocking} {origin o : FlushFrom} {blocked : Option ℤ}
    (hpc : w.pc = .flush origin (.offsets blocked)) (hb : b.sys.pc = .flush o .writev) :
    w.after b = w.endRound b := by
  unfold after
  rw [hpc, hb]

theorem after_outside {b : Blocking} (hpc : w.pc.inFlush = false) :
    w.after b =
      if b.sys.pc.inFlush then { w with blocking := b, log := [], load := w.total }
      else { w with blocking := b } := by
  unfold after
  cases h : w.pc with
  | flush origin pc =>
    rw [h] at hpc
    cases hpc
  | _ => rfl

/-- Workers leave the event thread where it is. -/
private theorem after_same {b : Blocking} (hpc : b.sys.pc = w.pc) : w.after b = { w with blocking := b } := by
  cases h : w.pc with
  | flush origin pc =>
    refine after_inside h fun o hb blocked he => ?_
    rw [hpc, h, he] at hb
    cases hb
  | _ =>
    have hout : b.sys.pc.inFlush = false := by
      rw [hpc, h]
      rfl
    rw [after_outside (hpc ▸ hout), hout]
    rfl

theorem inFlush_iff {pc : EventPc} : pc.inFlush = true ↔ ∃ origin p, pc = .flush origin p := by
  cases pc with
  | flush origin p => exact ⟨fun _ => ⟨origin, p, rfl⟩, fun _ => rfl⟩
  | _ => exact ⟨nofun, nofun⟩

/-- `unblock_writable_streams` does not call into nghttp3 for its answers. -/
theorem ofFlush_of_unblockStep {s s' : H3Session} {sid : ℤ} {a : Answer} (h : s.unblockStep sid a = some s') :
    (FlushAct.step (.event a)).ofFlush := by
  cases a with
  | callback cb =>
    unfold H3Session.unblockStep at h
    split_ifs at h <;> contradiction
  | _ => rfl

private theorem after_blocking (w : Flushing) (b : Blocking) : (w.after b).blocking = b := by
  unfold after
  split
  · split <;> rfl
  · rfl
  · split_ifs <;> rfl

theorem step_blocking {act : FlushAct} (h : w.step conf act = some w') :
    w'.blocking = w.blocking ∨ ∃ a, w.blocking.step conf a = some w'.blocking := by
  cases act with
  | queue sid data fin =>
    unfold step at h
    split_ifs at h
    cases h
    exact .inl rfl
  | step act =>
    simp only [step] at h
    split_ifs at h
    obtain ⟨b, hb, rfl⟩ := Option.map_eq_some_iff.mp h
    rw [after_blocking]
    exact .inr ⟨act, hb⟩
  | writev sid vec fin =>
    simp only [step] at h
    split at h
    · split_ifs at h
      obtain ⟨b, hb, rfl⟩ := Option.map_eq_some_iff.mp h
      split <;> exact .inr ⟨_, hb⟩
    · cases h
  | write answers =>
    simp only [step] at h
    split at h
    · obtain ⟨r, -, h⟩ := Option.bind_eq_some_iff.mp h
      obtain ⟨b, hb, h⟩ := Option.bind_eq_some_iff.mp h
      cases h
      exact .inr ⟨_, hb⟩
    · cases h

/-- A step of `flush_nghttp3` that moves no bytes. -/
private theorem move_flushStep {a : Answer} {origin : FlushFrom} {pc pc' : FlushPc} {s : H3Session}
    (hpc : w.pc = .flush origin pc) (hm : a.movesBytes = false)
    (hf : flushStep conf w.session pc a = some (s, pc')) :
    w.Move (.step (.event a))
      (w.after ⟨⟨s, .flush origin pc', w.blocking.sys.tasks⟩, heldByFlush w.session w.blocking.held pc a⟩) := by
  unfold flushStep at hf
  split at hf
  · cases hf
    rw [after_inside hpc nofun]
    exact .looping rfl hpc rfl rfl
  · obtain ⟨s₁, hs₁, he⟩ := Option.map_eq_some_iff.mp hf
    cases he
    rw [after_inside hpc nofun]
    exact .unblocked (ofFlush_of_unblockStep hs₁) hpc rfl
  · cases hf
    rw [after_inside hpc nofun]
    exact .aside hpc.symm rfl rfl
  · cases hf
    rw [after_inside hpc nofun]
    exact .returned rfl hpc rfl rfl
  · cases hf
    rw [after_inside hpc nofun]
    exact .returned rfl hpc rfl rfl
  · cases hm
  · cases hm
  · rename_i blocked cb
    cases hf
    rw [after_inside hpc fun o hb => by cases hb]
    refine .aside hpc.symm ?_ rfl
    cases blocked <;> rfl
  · rename_i blocked err
    cases hf
    rw [after_ended hpc rfl]
    refine .ended rfl hpc rfl ?_
    cases blocked <;> rfl
  · cases hf

private theorem move_writev {sid : ℤ} {vec : List Bytes} {fin : Bool} (h : w.step conf (.writev sid vec fin) = some w') :
    w.Move (.writev sid vec fin) w' := by
  simp only [step] at h
  split at h
  · rename_i origin hpc
    split_ifs at h with hok
    obtain ⟨-, hsid, hfree, hoffers⟩ := hok
    obtain ⟨b, hb, rfl⟩ := Option.map_eq_some_iff.mp h
    obtain ⟨σ', hσ, rfl⟩ := Option.map_eq_some_iff.mp hb
    obtain ⟨s, pc', hf, rfl⟩ := eventStep_flush hpc nofun hσ
    have hheld : w.blocking.heldAfter (.event (.writevData sid)) = w.blocking.held := by
      unfold Blocking.heldAfter
      rw [show w.blocking.sys.pc = _ from hpc]
      rfl
    cases hf
    split_ifs
    · exact .offered hpc rfl hheld hsid hfree hoffers
    · exact .swallowed hpc rfl hheld hsid hoffers
  · cases h

private theorem move_write {answers : List SslWrite} (h : w.step conf (.write answers) = some w') :
    w.Move (.write answers) w' := by
  simp only [step] at h
  split at h
  · rename_i origin sid hpc
    obtain ⟨r, hr, h⟩ := Option.bind_eq_some_iff.mp h
    obtain ⟨b, hb, h⟩ := Option.bind_eq_some_iff.mp h
    cases h
    obtain ⟨σ', hσ, rfl⟩ := Option.map_eq_some_iff.mp hb
    obtain ⟨s, pc', hf, rfl⟩ := eventStep_flush hpc nofun hσ
    have hheld : w.blocking.heldAfter (.event (.wrote r.result.blocked r.result.broken)) = w.blocking.held := by
      unfold Blocking.heldAfter
      rw [show w.blocking.sys.pc = _ from hpc]
      rfl
    cases hf
    have hspec := (h3qStreamWrite_spec hr).1
    refine .wrote hpc rfl hheld ?_
    cases hbroken : r.result.broken with
    | true =>
      rw [Bool.not_true, Bool.false_and]
      exact .inr ⟨rfl, List.length_flatten.symm⟩
    | false =>
      cases hblocked : r.result.blocked with
      | true => exact .inl rfl
      | false =>
        have hall : r.result.accepted = w.vec.flatten.length := by
          rw [hspec.counted, hspec.whole hblocked hbroken]
        exact .inr ⟨rfl, hall⟩
  · cases h

theorem step_moves {act : FlushAct} (h : w.step conf act = some w') : w.Move act w' := by
  cases act with
  | queue sid data fin =>
    unfold step at h
    split_ifs at h with hpc
    cases h
    exact .queued (Bool.not_eq_true _ ▸ hpc) rfl rfl
  | step act =>
    simp only [step] at h
    split_ifs at h with hm
    rw [Bool.not_eq_true] at hm
    obtain ⟨b, hb, rfl⟩ := Option.map_eq_some_iff.mp h
    obtain ⟨σ', hσ, rfl⟩ := Option.map_eq_some_iff.mp hb
    cases act with
    | worker i a =>
      have hsame : σ'.pc = w.pc := by
        obtain ⟨_, -, hσ⟩ := Option.bind_eq_some_iff.mp hσ
        obtain ⟨_, -, hσ⟩ := Option.bind_eq_some_iff.mp hσ
        cases hσ
        rfl
      rw [after_same (b := ⟨σ', _⟩) hsame]
      exact .aside hsame rfl rfl
    | event a =>
      change w.blocking.sys.eventStep conf a = some σ' at hσ
      cases hpc : w.pc with
      | flush origin pc =>
        by_cases hne : pc = .returned
        · subst hne
          have hleft : σ'.pc.inFlush = false := by
            unfold State.eventStep at hσ
            rw [show w.blocking.sys.pc = _ from hpc] at hσ
            exact flushed_leaves hσ
          rw [after_inside hpc fun o _ blocked => nofun]
          refine .outside hleft fun o p hp => ?_
          cases hpc.symm.trans hp
          rfl
        · obtain ⟨s, pc', hf, rfl⟩ := eventStep_flush hpc hne hσ
          have hheld : w.blocking.heldAfter (.event a) = heldByFlush w.session w.blocking.held pc a := by
            unfold Blocking.heldAfter
            rw [show w.blocking.sys.pc = _ from hpc]
            rfl
          rw [hheld]
          exact move_flushStep hpc hm hf
      | _ =>
        have hout : w.pc.inFlush = false := by
          rw [hpc]
          rfl
        rw [after_outside hout]
        split_ifs with hin
        · obtain ⟨origin, p, hp⟩ := inFlush_iff.mp hin
          rcases eventStep_in_flush hσ hp with ⟨q, hq, -⟩ | ⟨rfl, -⟩
          · cases hpc.symm.trans hq
          · exact .entered hout hp
        · refine .outside (Bool.not_eq_true _ ▸ hin) fun o p hp => ?_
          cases hpc.symm.trans hp
  | writev sid vec fin => exact move_writev h
  | write answers => exact move_write h

end

end Flushing

end ModHttp3.System
