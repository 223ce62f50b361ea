import Mathlib.Algebra.GroupWithZero.Nat
import ModHttp3.Lib.Run
import ModHttp3.Quic.Isolation

/-! `h3q_engine_pump` and `h3q_engine_want`: the rounds of `SSL_handle_events` in which OpenSSL takes what the filter
BIO has queued, and what the event thread then waits for. -/
namespace ModHttp3.Quic
open Lib LinkedQueue

/-- Where `h3q_engine_pump` is: inside `SSL_handle_events`, before or in its `while` loop, and whether OpenSSL has
asked the filter BIO since; `returned none` is the result `-1`. -/
inductive PumpPc
  | handling (inLoop asked : Bool)
  | returned (result : Option Bool)
  deriving DecidableEq, Repr

/-- The engine, what the next BIO will answer, and the calls of `SSL_handle_events` that have returned. -/
structure Pump where
  rx : Rx
  pc : PumpPc
  rounds : ℕ

/-- A call of the filter BIO by OpenSSL, or the return of `SSL_handle_events`. -/
inductive PumpAct
  | recv (msgs : List BioMsg)
  | handled (ok : Bool)

namespace Pump

def start (rx : Rx) : Pump := ⟨rx, .handling false false, 0⟩

def step (alloc : ℕ → Bool) (w : Pump) (act : PumpAct) : Option Pump :=
  match w.pc, act with
  | .handling inLoop _, .recv msgs =>
    (w.rx.recv alloc msgs).map fun p => { w with rx := p.2, pc := .handling inLoop true }
  | .handling inLoop _, .handled ok =>
    some { w with
      rounds := w.rounds + 1
      pc := if !ok then .returned none
        else if w.rx.engine.peerRx.head.isSome then .handling true false
        else .returned (some inLoop) }
  | .returned _, _ => none

/-- OpenSSL passes messages that can be filled, enough of them for the next batch, and it asks the BIO before it
reports success. -/
def asksFirst (w : Pump) : PumpAct → Bool
  | .recv msgs =>
    !msgs.isEmpty && msgs.all (·.data.isSome) &&
      (w.rx.socket.take 1).all fun b => decide ((b.getD []).length ≤ msgs.length)
  | .handled ok => !ok || w.pc == .handling true true || w.pc == .handling false true

private theorem usable_of_asksFirst {w : Pump} {msgs : List BioMsg} (h : w.asksFirst (.recv msgs)) :
    Usable msgs (w.rx.socket.take 1) := by
  simp only [asksFirst, Bool.and_eq_true, Bool.not_eq_true', List.all_eq_true, decide_eq_true_eq] at h
  obtain ⟨⟨hne, hdata⟩, hroom⟩ := h
  refine ⟨fun he => ?_, hdata, fun batch hb => hroom _ hb⟩
  rw [he] at hne
  cases hne

end Pump

/-- The datagrams that the next BIO will return. -/
def arriving (socket : List (Option (List Arrival))) : ℕ := (socket.map fun b => (b.getD []).length).sum

section
variable {rx : Rx} {msgs : List BioMsg} {n : ℕ}

private theorem arriving_tail (socket : List (Option (List Arrival))) :
    arriving socket = (socket.head?.join.getD []).length + arriving socket.tail := by
  cases socket with
  | nil => rfl
  | cons b socket =>
    cases b <;> simp [arriving]

/-- What is queued, and what the next BIO will return. -/
def Left (rx : Rx) (n : ℕ) : Prop := ∃ l, Holds rx.engine l ∧ l.length + arriving rx.socket = n

theorem Left.pos (h : Left rx n) (hhead : rx.engine.peerRx.head.isSome) : 0 < n := by
  obtain ⟨l, hl, rfl⟩ := h
  rw [hl.rep.head_eq] at hhead
  cases l with
  | nil => cases hhead
  | cons c l =>
    rw [List.length_cons]
    omega

/-- A call that finds something queued takes the first datagram, whether it fits or not. -/
private theorem recv_queued (alloc : ℕ → Bool) (hu : Usable msgs (rx.socket.take 1)) (h : Left rx n)
    (hhead : rx.engine.peerRx.head.isSome) :
    ∃ rx', (rx.recv alloc msgs).map Prod.snd = some rx' ∧ rx'.socket = rx.socket ∧ Left rx' (n - 1) := by
  obtain ⟨msg, more, rfl⟩ := List.exists_cons_of_ne_nil hu.ne_nil
  obtain ⟨l, hl, rfl⟩ := h
  have hasks : rx.asks (msg :: more) = false := by
    unfold Rx.asks
    rw [← Option.not_isSome, hhead]
    rfl
  cases l with
  | nil =>
    rw [hl.rep.head_eq] at hhead
    cases hhead
  | cons c l =>
    obtain ⟨e', hholds, -, hcall⟩ := recvmmsg_queued alloc hl (hu.data msg List.mem_cons_self) more
      (bioRecvmmsg (msg :: more) (rx.batch (msg :: more)))
    refine ⟨⟨e', rx.socket⟩, ?_, rfl, ⟨l, hholds, ?_⟩⟩
    · unfold Rx.recv
      rw [hcall, hasks]
      rfl
    · rw [List.length_cons]
      dsimp only
      omega

/-- A call that finds nothing queued fetches a batch; one datagram of it goes to the caller, or all are lost. -/
private theorem recv_fetches (alloc : ℕ → Bool) (hu : Usable msgs (rx.socket.take 1)) (h : Left rx n)
    (hhead : rx.engine.peerRx.head.isSome = false) :
    ∃ rx' n', (rx.recv alloc msgs).map Prod.snd = some rx' ∧ rx'.socket = rx.socket.tail ∧ Left rx' n' ∧
      n' ≤ n := by
  obtain ⟨msg, more, rfl⟩ := List.exists_cons_of_ne_nil hu.ne_nil
  obtain ⟨l, hl, rfl⟩ := h
  have hasks : rx.asks (msg :: more) = true := by
    unfold Rx.asks
    rw [← Option.not_isSome, hhead]
    rfl
  have hbatch : rx.batch (msg :: more) = rx.socket.head?.join := by
    unfold Rx.batch
    rw [if_pos hasks]
  have hnil : l = [] := by
    rw [hl.rep.head_eq] at hhead
    cases l with
    | nil => rfl
    | cons c l => cases hhead
  subst hnil
  have harrive := arriving_tail rx.socket
  -- the engine after the call, and how much it has queued
  have hcall : ∃ r e' l', h3qPeerAddrBioRecvmmsg alloc rx.engine (msg :: more)
      (bioRecvmmsg (msg :: more) rx.socket.head?.join) = some (r, e') ∧ Holds e' l' ∧
        l'.length ≤ (rx.socket.head?.join.getD []).length := by
    cases hsocket : rx.socket.head?.join with
    | none =>
      obtain ⟨e', hholds, -, hcall⟩ := recvmmsg_blocked alloc hl msg more
      exact ⟨_, e', [], hcall, hholds, Nat.zero_le _⟩
    | some batch =>
      cases batch with
      | nil =>
        have hnone : rx.engine.peerRx.head.isSome = false := hhead
        refine ⟨⟨true, some 0, some msg⟩, { rx.engine with currentPeerAddr := none }, [], ?_,
          ⟨hl.rep, hl.counted⟩, Nat.zero_le _⟩
        unfold h3qPeerAddrBioRecvmmsg
        dsimp only
        rw [hnone]
        rfl
      | cons d batch =>
        have hnext : rx.socket.head? = some (some (d :: batch)) := Option.join_eq_some_iff.mp hsocket
        have hlen := hu.enough (d :: batch) (by
          rw [List.take_one, hnext]
          exact List.mem_singleton.mpr rfl)
        obtain ⟨hwritten, -, -⟩ := written_spec hu.data hlen
        obtain ⟨ok, e', l', hcall, hl', hmap, -, -⟩ := recvmmsg_filled alloc hl msg more hwritten
        refine ⟨_, e', l', hcall, hl', ?_⟩
        have hlen' : l'.length = (l'.map Prod.snd).length := (List.length_map _).symm
        rw [hlen', hmap, Option.getD_some, List.length_cons]
        split_ifs
        · refine (List.length_filterMap_le _ _).trans ?_
          rw [List.length_zipWith]
          omega
        · exact Nat.zero_le _
  obtain ⟨r, e', l', hcall, hholds, hle⟩ := hcall
  refine ⟨⟨e', rx.socket.tail⟩, _, ?_, rfl, ⟨l', hholds, rfl⟩, ?_⟩
  · unfold Rx.recv
    rw [hbatch, hcall, hasks]
    rfl
  · rw [List.length_nil]
    dsimp only
    omega

/-- A call of the filter BIO adds nothing to what is left, and takes from what is queued. -/
theorem recv_left (alloc : ℕ → Bool) (hu : Usable msgs (rx.socket.take 1)) (h : Left rx n) :
    ∃ rx' n', (rx.recv alloc msgs).map Prod.snd = some rx' ∧ Left rx' n' ∧ n' ≤ n ∧
      (rx.engine.peerRx.head.isSome → n' < n) := by
  cases hhead : rx.engine.peerRx.head.isSome with
  | true =>
    have hpos := h.pos hhead
    obtain ⟨rx', hr, -, hleft⟩ := recv_queued alloc hu h hhead
    exact ⟨rx', n - 1, hr, hleft, Nat.sub_le n 1, fun _ => Nat.sub_lt hpos Nat.one_pos⟩
  | false =>
    obtain ⟨rx', n', hr, -, hleft, hle⟩ := recv_fetches alloc hu h hhead
    exact ⟨rx', n', hr, hleft, hle, fun he => absurd he Bool.false_ne_true⟩

/-- The rounds that have been made, against the datagrams that were there at the start. -/
structure Pump.Paced (n : ℕ) (w : Pump) : Prop where
  left : ∃ m, Left w.rx m ∧ match w.pc with
    | .handling false _ => w.rounds = 0 ∧ m ≤ n
    | .handling true false => w.rx.engine.peerRx.head.isSome ∧ w.rounds + m ≤ n + 1
    | .handling true true => w.rounds + m ≤ n
    | .returned _ => w.rounds ≤ n + 1
  empty : ∀ work, w.pc = .returned (some work) → w.rx.engine.peerRx.head = none

theorem Pump.paced_start (h : Left rx n) : (Pump.start rx).Paced n :=
  ⟨⟨n, h, rfl, Nat.le_refl n⟩, fun _ he => by cases he⟩

theorem Pump.Paced.rounds_handling {w : Pump} (hP : w.Paced n) {inLoop asked : Bool}
    (hpc : w.pc = .handling inLoop asked) : w.rounds ≤ n := by
  obtain ⟨m, hleft, hpace⟩ := hP.left
  rw [hpc] at hpace
  cases inLoop with
  | false => exact hpace.1 ▸ Nat.zero_le n
  | true =>
    cases asked with
    | false =>
      have hpos := hleft.pos hpace.1
      have hle := hpace.2
      omega
    | true => exact (Nat.le_add_right _ _).trans hpace

theorem Pump.Paced.step {alloc : ℕ → Bool} {w w' : Pump} {act : PumpAct} (hP : w.Paced n) (hok : w.asksFirst act)
    (h : w.step alloc act = some w') : w'.Paced n := by
  obtain ⟨m, hleft, hpace⟩ := hP.left
  unfold Pump.step at h
  split at h
  · rename_i inLoop asked msgs hpc
    rw [hpc] at hpace
    obtain ⟨rx', m', hr, hleft', hle, hlt⟩ := recv_left alloc (Pump.usable_of_asksFirst hok) hleft
    obtain ⟨p, hp, rfl⟩ := Option.map_eq_some_iff.mp hr
    rw [hp] at h
    cases h
    refine ⟨⟨m', hleft', ?_⟩, fun _ he => by cases he⟩
    cases inLoop with
    | false => exact ⟨hpace.1, hle.trans hpace.2⟩
    | true =>
      cases asked with
      | false =>
        have hlt := hlt hpace.1
        have hle := hpace.2
        change w.rounds + m' ≤ n
        omega
      | true =>
        change w.rounds + m' ≤ n
        change w.rounds + m ≤ n at hpace
        omega
  · rename_i inLoop asked ok hpc
    have hrounds := hP.rounds_handling hpc
    cases h
    cases ok with
    | false => exact ⟨⟨m, hleft, Nat.succ_le_succ hrounds⟩, fun _ he => by cases he⟩
    | true =>
      have hasked : asked = true := by
        unfold Pump.asksFirst at hok
        rw [hpc] at hok
        cases asked with
        | true => rfl
        | false => cases inLoop <;> cases hok
      subst hasked
      rw [hpc] at hpace
      have hle : w.rounds + m ≤ n := by
        cases inLoop with
        | false =>
          rw [hpace.1, Nat.zero_add]
          exact hpace.2
        | true => exact hpace
      cases hhead : w.rx.engine.peerRx.head with
      | some a =>
        refine ⟨⟨m, hleft, ?_, ?_⟩, fun _ he => by cases he⟩
        · dsimp only
          rw [hhead]
          rfl
        · dsimp only
          omega
      | none => exact ⟨⟨m, hleft, Nat.succ_le_succ hrounds⟩, fun _ _ => hhead⟩
  · cases h

/-- `h3q_engine_pump` does not spin: each round of its loop takes a datagram, so that it makes one round more than
there are datagrams at most. When it returns without an error, nothing is queued, and until then OpenSSL can go
on. -/
theorem pump_drains {alloc : ℕ → Bool} {w : Pump} (hleft : Left rx n)
    (h : Reach (Pump.step alloc) (fun w act => w.asksFirst act) (.start rx) w) :
    w.rounds ≤ n + 1 ∧ (∀ work, w.pc = .returned (some work) → w.rx.engine.peerRx.head = none) ∧
    ∀ inLoop asked, w.pc = .handling inLoop asked →
      ∀ msgs, Usable msgs (w.rx.socket.take 1) → (w.step alloc (.recv msgs)).isSome := by
  have hP : w.Paced n := h.invariant (Pump.paced_start hleft) fun _ _ _ hP hok hs => hP.step hok hs
  obtain ⟨m, hm, hpace⟩ := hP.left
  refine ⟨?_, hP.empty, fun inLoop asked hpc msgs hu => ?_⟩
  · cases hpc : w.pc with
    | handling inLoop asked => exact Nat.le_succ_of_le (hP.rounds_handling hpc)
    | returned result =>
      rw [hpc] at hpace
      exact hpace
  · obtain ⟨rx', -, hr, -⟩ := recv_left alloc hu hm
    obtain ⟨p, hp, -⟩ := Option.map_eq_some_iff.mp hr
    unfold Pump.step
    rw [hpc]
    dsimp only
    rw [hp]
    rfl

end

/-- Two batches, of which the second has a datagram that is longer than the caller's buffer. -/
def twoBatches : Rx :=
  .start [some [⟨[1], some 1, none⟩, ⟨[2], some 2, none⟩], some [⟨[3], some 3, none⟩, ⟨[4, 4, 4, 4, 4], some 4, none⟩]]

def twoBatchesPumped : List PumpAct :=
  [.recv (callerMsgs 2), .handled true, .recv (callerMsgs 2), .recv (callerMsgs 2), .handled true,
    .recv (callerMsgs 2), .handled true]

theorem pump_drains_twoBatches :
    ∃ w, Reach (Pump.step fun _ => true) (fun w act => w.asksFirst act) (.start twoBatches) w ∧
      w.pc = .returned (some true) ∧ w.rounds = 3 ∧ w.rounds ≤ 4 + 1 ∧ w.rx.engine.peerRx.head = none := by
  have hleft : Left twoBatches 4 := ⟨[], holds_new, rfl⟩
  have hrun : (runChecked (Pump.step fun _ => true) (fun w act => w.asksFirst act) (.start twoBatches)
      twoBatchesPumped).map (fun w => (w.pc, w.rounds)) = some (.returned (some true), 3) := by decide +kernel
  obtain ⟨w, hw, he⟩ := Option.map_eq_some_iff.mp hrun
  obtain ⟨hpc, hrounds⟩ := Prod.mk.inj he
  have hr := Reach.of_runChecked _ hw
  obtain ⟨hle, hempty, -⟩ := pump_drains hleft hr
  exact ⟨w, hr, hpc, hrounds, hle, hempty true hpc⟩

end ModHttp3.Quic
