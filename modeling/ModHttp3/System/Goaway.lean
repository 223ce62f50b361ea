import ModHttp3.System.Closing

/-! The graceful end of a session in `service_session_pass`: the GOAWAY notice, the grace period once the
thread is stopped, and the final shutdown of nghttp3. -/
namespace ModHttp3.System
open Session Lib

def h3GoawayGraceSecs : ℤ := 3

def aprTimeFromSec (secs : ℤ) : ℤ := secs * 1000000

/-- The calls `nghttp3_conn_submit_shutdown_notice` and `nghttp3_conn_shutdown`, the latter with what the pass
knows then. -/
inductive GoawayCall
  | notice
  | shutdown (drained : Bool) (now : ℤ)
  deriving DecidableEq, Repr

/-- `drained` is the variable of the pass. `stoppedAt` is the time when `thread_running` was cleared, and the
calls have the last one first. -/
structure Goaway where
  sys : State
  now : ℤ
  stoppedAt : Option ℤ
  draining : Bool
  drained : Bool
  goawayDeadline : ℤ
  calls : List GoawayCall

/-- `drained` tells what nghttp3 answers, should the step ask it. -/
inductive GoawayAct
  | tick (d : ℕ)
  | stop
  | drain
  | step (act : Action) (drained : Bool)

namespace Goaway

def start (now : ℤ) : Goaway := ⟨.start, now, none, false, false, 0, []⟩

/-- The test at the start of a pass. -/
def stopping (w : Goaway) : Bool := w.draining || w.stoppedAt.isSome

/-- The test for the end of the grace period. -/
def finishes (w : Goaway) : Bool :=
  w.drained || w.goawayDeadline != 0 && decide (w.goawayDeadline ≤ w.now)

/-- The answers that the two tests give. -/
def admits (w : Goaway) (act : Action) : Bool :=
  match w.sys.pc, act with
  | .passStart, .event (.flag stopping) => w.sys.session.aborted || stopping == w.stopping
  | .goawaySent, .event (.flag finish) => finish == w.finishes
  | _, _ => true

def after (w : Goaway) (act : Action) (drained : Bool) (σ : State) : Goaway :=
  match w.sys.pc, act with
  | .passStart, .event _ =>
    { w with
      sys := σ
      calls := if σ.pc.flushes && !w.sys.session.goawaySent then .notice :: w.calls else w.calls }
  | .flush .goaway .returned, .event _ =>
    { w with
      sys := σ
      drained := drained
      goawayDeadline :=
        if w.stoppedAt.isSome && w.goawayDeadline == 0 then w.now + aprTimeFromSec h3GoawayGraceSecs
        else w.goawayDeadline }
  | .goawaySent, .event (.flag true) =>
    { w with sys := σ, calls := .shutdown w.drained w.now :: w.calls }
  | _, _ => { w with sys := σ }

def step (conf : SessionConf) (w : Goaway) : GoawayAct → Option Goaway
  | .tick d => some { w with now := w.now + d }
  | .stop => some { w with stoppedAt := some (w.stoppedAt.getD w.now) }
  | .drain => some { w with draining := true }
  | .step act drained =>
    if w.admits act then (w.sys.step conf act).map (w.after act drained) else none

end Goaway

section
variable {conf : SessionConf} {σ σ' : State} {act : Action}

/-- What a step does to the flags of the session: a pass sets `goaway_sent` after its GOAWAY flush, and
`aborted` when it ends. -/
inductive CourseMove (σ σ' : State) : Prop
  | keeps (hc : σ'.session.course = σ.session.course)
  | noticed (hpc : σ.pc = .flush .goaway .returned) (hpc' : σ'.pc = .goawaySent)
      (hc : σ'.session.course = { σ.session.course with goawaySent := true })
  | aborts (hpc' : σ'.pc = .passEnd) (hc : σ'.session.course = { σ.session.course with aborted := true })

private theorem flushed_course {origin : FlushFrom} {a : Answer} (hpc : σ.pc = .flush origin .returned)
    (h : σ.flushed origin a = some σ') : CourseMove σ σ' := by
  unfold State.flushed at h
  split at h
  · cases h
    exact .noticed hpc rfl rfl
  · cases h
    exact .aborts rfl rfl
  · cases h
    exact .keeps rfl
  · split_ifs at h
    cases h
    exact .keeps (abandon_course _ _)
  · cases h

theorem eventStep_course {a : Answer} (h : σ.eventStep conf a = some σ') : CourseMove σ σ' := by
  unfold State.eventStep at h
  split at h
  case h_1 =>
    dsimp only at h
    split_ifs at h with hans <;> cases h
    · exact .keeps (createControlStreams_course _ hans)
    · exact .keeps ((destroy_course _).trans (createControlStreams_course _ hans))
  case h_2 =>
    split_ifs at h <;> cases h
    · exact .keeps rfl
    · exact .keeps (destroy_course _)
  case h_3 => split_ifs at h <;> cases h <;> exact .keeps rfl
  case h_4 hpc => exact flushed_course hpc h
  case h_5 =>
    obtain ⟨⟨s, pc⟩, hf, rfl⟩ := Option.map_eq_some_iff.mp h
    exact .keeps (flushStep_course hf)
  case h_6 => split_ifs at h <;> cases h <;> exact .keeps rfl
  case h_7 =>
    split_ifs at h <;> cases h
    · exact .aborts rfl rfl
    · exact .keeps rfl
  case h_8 =>
    cases h
    exact .keeps rfl
  case h_9 =>
    split_ifs at h with hans
    cases h
    exact .keeps (acceptStream_course _ _ hans)
  case h_10 =>
    split_ifs at h
    cases h
    exact .keeps rfl
  case h_11 =>
    cases h
    exact .keeps rfl
  case h_12 =>
    obtain ⟨⟨s, d, pc⟩, hd, rfl⟩ := Option.map_eq_some_iff.mp h
    exact .keeps (drainStep_course hd)
  case h_13 =>
    split_ifs at h <;> cases h
    · exact .aborts rfl rfl
    · exact .keeps rfl
  case h_14 =>
    cases h
    unfold State.reserve
    split_ifs <;> exact .keeps rfl
  case h_15 =>
    cases h
    exact .keeps rfl
  case h_16 =>
    obtain ⟨t, ht, h⟩ := Option.bind_eq_some_iff.mp h
    obtain ⟨⟨s, p, back⟩, hp, h⟩ := Option.bind_eq_some_iff.mp h
    cases h
    refine .keeps ?_
    cases pushStep_push hp <;> rfl
  case h_17 =>
    split_ifs at h <;> cases h
    · exact .aborts rfl rfl
    · exact .keeps rfl
  case h_18 =>
    split_ifs at h <;> cases h
    · exact .keeps (destroy_course _)
    · exact .keeps rfl
  case h_19 => cases h

private theorem workerStep_course {s s' : H3Session} {free : Bool} {t : Task} {w : WorkerAct} {p : Phase}
    (h : workerStep s free t w = some (s', p)) : s'.course = s.course := by
  cases workerStep_work h <;> rfl

end

/-- What a step can be. `other` is any event of the thread but the three that belong to the GOAWAY branch; it
leaves `passStart` and `goawaySent` when their tests fail. -/
inductive GoawayMove (conf : SessionConf) (w : Goaway) : GoawayAct → Goaway → Prop
  | tick (d : ℕ) : GoawayMove conf w (.tick d) { w with now := w.now + d }
  | stop : GoawayMove conf w .stop { w with stoppedAt := some (w.stoppedAt.getD w.now) }
  | drain : GoawayMove conf w .drain { w with draining := true }
  | worker {i : ℕ} {act : WorkerAct} {drained : Bool} {σ : State}
      (h : w.sys.step conf (.worker i act) = some σ) :
      GoawayMove conf w (.step (.worker i act) drained) { w with sys := σ }
  | start {a : Answer} {drained : Bool} (hpc : w.sys.pc = .passStart) (hs : w.stopping)
      (ha : w.sys.session.aborted = false) :
      GoawayMove conf w (.step (.event a) drained)
        { w with
          sys := { w.sys with pc := .flush .goaway w.sys.session.flushStart }
          calls := if w.sys.session.goawaySent then w.calls else .notice :: w.calls }
  | flushed {a : Answer} {drained : Bool} (hpc : w.sys.pc = .flush .goaway .returned) :
      GoawayMove conf w (.step (.event a) drained)
        { w with
          sys := { w.sys with session := { w.sys.session with goawaySent := true }, pc := .goawaySent }
          drained := drained
          goawayDeadline :=
            if w.stoppedAt.isSome && w.goawayDeadline == 0 then w.now + aprTimeFromSec h3GoawayGraceSecs
            else w.goawayDeadline }
  | finish {a : Answer} {drained : Bool} (hpc : w.sys.pc = .goawaySent) (hf : w.finishes) :
      GoawayMove conf w (.step (.event a) drained)
        { w with
          sys := { w.sys with pc := .flush .shutdown w.sys.session.flushStart }
          calls := .shutdown w.drained w.now :: w.calls }
  | other {a : Answer} {drained : Bool} {σ : State} (h : w.sys.eventStep conf a = some σ)
      (hstart : w.sys.pc = .passStart → σ.pc = .passEnd ∧ w.sys.session.aborted ∨ σ.pc = .connCheck ∧ w.stopping = false)
      (hflushed : w.sys.pc ≠ .flush .goaway .returned)
      (hsent : w.sys.pc = .goawaySent → σ.pc = .connCheck ∧ w.finishes = false) :
      GoawayMove conf w (.step (.event a) drained) { w with sys := σ }

section
variable {conf : SessionConf} {w w' : Goaway} {act : GoawayAct}

private theorem passStart_move {a : Answer} {drained : Bool} {σ : State} (hpc : w.sys.pc = .passStart)
    (hadm : w.admits (.event a)) (h : w.sys.eventStep conf a = some σ) :
    GoawayMove conf w (.step (.event a) drained) (w.after (.event a) drained σ) := by
  have hafter : w.after (.event a) drained σ = { w with
      sys := σ
      calls := if σ.pc.flushes && !w.sys.session.goawaySent then .notice :: w.calls else w.calls } := by
    unfold Goaway.after
    rw [hpc]
  rw [hafter]
  have hret : w.sys.pc ≠ .flush .goaway .returned := by
    rw [hpc]
    exact fun hne => by cases hne
  have hsent : w.sys.pc = .goawaySent → σ.pc = .connCheck ∧ w.finishes = false := by
    rw [hpc]
    exact fun hne => by cases hne
  have hev := h
  unfold State.eventStep at h
  rw [hpc] at h
  unfold Goaway.admits at hadm
  rw [hpc] at hadm
  cases a with
  | flag stopping =>
    dsimp only at h hadm
    split_ifs at h with haborted hstop
    · cases h
      exact .other hev (fun _ => .inl ⟨rfl, haborted⟩) hret hsent
    · cases h
      have halive : w.sys.session.aborted = false := Bool.not_eq_true _ ▸ haborted
      simp only [halive, hstop, Bool.false_or, beq_iff_eq] at hadm
      have hmove : GoawayMove conf w (.step (.event (.flag stopping)) drained) _ := .start hpc hadm.symm halive
      cases hsentFlag : w.sys.session.goawaySent <;> rw [hsentFlag] at hmove <;> exact hmove
    · cases h
      have halive : w.sys.session.aborted = false := Bool.not_eq_true _ ▸ haborted
      have hrun : stopping = false := Bool.not_eq_true _ ▸ hstop
      simp only [halive, hrun, Bool.false_or, beq_iff_eq] at hadm
      exact .other hev (fun _ => .inr ⟨rfl, hadm.symm⟩) hret hsent
  | _ => cases h

private theorem goawaySent_move {a : Answer} {drained : Bool} {σ : State} (hpc : w.sys.pc = .goawaySent)
    (hadm : w.admits (.event a)) (h : w.sys.eventStep conf a = some σ) :
    GoawayMove conf w (.step (.event a) drained) (w.after (.event a) drained σ) := by
  have hev := h
  unfold State.eventStep at h
  rw [hpc] at h
  unfold Goaway.admits at hadm
  rw [hpc] at hadm
  unfold Goaway.after
  rw [hpc]
  cases a with
  | flag finish =>
    cases finish with
    | true =>
      cases h
      exact .finish hpc (beq_iff_eq.mp hadm).symm
    | false =>
      cases h
      refine .other hev ?_ ?_ fun _ => ⟨rfl, (beq_iff_eq.mp hadm).symm⟩
      · rw [hpc]
        exact fun hne => by cases hne
      · rw [hpc]
        exact fun hne => by cases hne
  | _ => cases h

private theorem goawayFlushed_move {a : Answer} {drained : Bool} {σ : State} (hpc : w.sys.pc = .flush .goaway .returned)
    (h : w.sys.eventStep conf a = some σ) :
    GoawayMove conf w (.step (.event a) drained) (w.after (.event a) drained σ) := by
  unfold State.eventStep at h
  rw [hpc] at h
  unfold Goaway.after
  rw [hpc]
  cases a with
  | go =>
    cases h
    exact .flushed hpc
  | _ => cases h

theorem Goaway.step_move (h : w.step conf act = some w') : GoawayMove conf w act w' := by
  unfold Goaway.step at h
  split at h
  · cases h
    exact .tick _
  · cases h
    exact .stop
  · cases h
    exact .drain
  · rename_i act drained
    split_ifs at h with hadm
    obtain ⟨σ, hσ, rfl⟩ := Option.map_eq_some_iff.mp h
    cases act with
    | event a =>
      by_cases hstart : w.sys.pc = .passStart
      · exact passStart_move hstart hadm hσ
      by_cases hsent : w.sys.pc = .goawaySent
      · exact goawaySent_move hsent hadm hσ
      by_cases hflushed : w.sys.pc = .flush .goaway .returned
      · exact goawayFlushed_move hflushed hσ
      have hafter : w.after (.event a) drained σ = { w with sys := σ } := by
        unfold Goaway.after
        split
        · exact absurd ‹_› hstart
        · exact absurd ‹_› hflushed
        · exact absurd ‹_› hsent
        · rfl
      rw [hafter]
      exact .other hσ (fun hpc => absurd hpc hstart) hflushed fun hpc => absurd hpc hsent
    | worker i act =>
      have hafter : w.after (.worker i act) drained σ = { w with sys := σ } := by
        unfold Goaway.after
        split
        · cases ‹Action.worker i act = _›
        · cases ‹Action.worker i act = _›
        · cases ‹Action.worker i act = _›
        · rfl
      rw [hafter]
      exact .worker hσ

end

/-- The places of a pass between the notice and the end of the grace period. -/
def EventPc.inGoaway : EventPc → Bool
  | .flush .goaway _ | .flush .shutdown _ | .goawaySent => true
  | _ => false

/-- How far the session has come: nothing sent, the notice sent, or nghttp3 shut down as well. -/
inductive Parted (w : Goaway) : Prop
  | before (hc : w.calls = []) (hs : w.sys.session.goawaySent = false) (hpc : w.sys.pc.inGoaway = false)
  | noticed (hc : w.calls = [.notice])
      (hs : w.sys.session.goawaySent ∨ ∃ pc, w.sys.pc = .flush .goaway pc)
      (hpc : ∀ pc, w.sys.pc ≠ .flush .shutdown pc)
  | finished (drained : Bool) (now : ℤ) (hc : w.calls = [.shutdown drained now, .notice])
      (hend : (∃ pc, w.sys.pc = .flush .shutdown pc) ∨ w.sys.ended)

section
variable {conf : SessionConf} {w w' : Goaway} {act : GoawayAct}

theorem goawaySent_of_course {s s' : H3Session} (h : s'.course = s.course) : s'.goawaySent = s.goawaySent :=
  congrArg Course.goawaySent h

/-- The steps that are not of the GOAWAY branch do not enter it. -/
private theorem other_inGoaway {σ σ' : State} {a : Answer} (h : σ.eventStep conf a = some σ') (hpc : σ.pc.inGoaway = false)
    (hstart : σ.pc = .passStart → σ'.pc = .passEnd ∨ σ'.pc = .connCheck) : σ'.pc.inGoaway = false := by
  have hl := eventStep_leads h
  generalize hp : σ.pc = pc at hl hpc hstart
  generalize hp' : σ'.pc = pc' at hl hstart ⊢
  cases hl with
  | stopping =>
    rcases hstart rfl with he | he <;> cases he
  | @inFlush origin =>
    cases origin <;> first | rfl | cases hpc
  | goawayFlushed => cases hpc
  | finishing => cases hpc
  | _ => rfl

/-- A flush goes on until it has returned. -/
theorem flush_leads {σ σ' : State} {a : Answer} {origin : FlushFrom} {pc : FlushPc}
    (h : σ.eventStep conf a = some σ') (hpc : σ.pc = .flush origin pc) :
    (∃ pc', σ'.pc = .flush origin pc') ∨ pc = .returned := by
  have hl := eventStep_leads h
  rw [hpc] at hl
  generalize σ'.pc = pc' at hl ⊢
  cases hl with
  | inFlush => exact .inl ⟨_, rfl⟩
  | _ => exact .inr rfl

theorem State.ended.event {σ σ' : State} {a : Answer} (hE : σ.ended) (h : σ.eventStep conf a = some σ') : σ'.ended :=
  (hE.step (show σ.step conf (.event a) = some σ' from h)).1

theorem shutdown_ended {σ σ' : State} {a : Answer} (h : σ.eventStep conf a = some σ')
    (hpc : σ.pc = .flush .shutdown .returned) : σ'.ended := by
  unfold State.eventStep at h
  rw [hpc] at h
  cases a with
  | go =>
    cases h
    exact ⟨rfl, .inr (.inl rfl)⟩
  | _ => cases h

theorem Parted.other (hP : Parted w) {σ : State} {a : Answer} (h : w.sys.eventStep conf a = some σ)
    (hstart : w.sys.pc = .passStart → σ.pc = .passEnd ∧ w.sys.session.aborted ∨ σ.pc = .connCheck ∧ w.stopping = false)
    (hflushed : w.sys.pc ≠ .flush .goaway .returned)
    (hsent : w.sys.pc = .goawaySent → σ.pc = .connCheck ∧ w.finishes = false) : Parted { w with sys := σ } := by
  cases hP with
  | before hc hs hpc =>
    have hpc' := other_inGoaway h hpc fun he => (hstart he).imp And.left And.left
    refine .before hc ?_ hpc'
    cases eventStep_course h with
    | keeps hk => exact (goawaySent_of_course hk).trans hs
    | noticed he => exact absurd he hflushed
    | aborts _ hk => exact (congrArg Course.goawaySent hk).trans hs
  | noticed hc hs hpc =>
    refine .noticed hc ?_ fun pc he => ?_
    · rcases hs with hs | ⟨pc, he⟩
      · refine .inl ?_
        cases eventStep_course h with
        | keeps hk => exact (goawaySent_of_course hk).trans hs
        | noticed he => exact absurd he hflushed
        | aborts _ hk => exact (congrArg Course.goawaySent hk).trans hs
      · rcases flush_leads h he with ⟨pc', he'⟩ | rfl
        · exact .inr ⟨pc', he'⟩
        · exact absurd he hflushed
    · have hl := eventStep_leads h
      dsimp only at he
      rw [he] at hl
      generalize hp : w.sys.pc = pc₀ at hl
      cases hl with
      | inFlush => exact hpc _ hp
      | finishing =>
        rw [(hsent hp).1] at he
        cases he
  | finished drained now hc hend =>
    refine .finished drained now hc ?_
    rcases hend with ⟨pc, he⟩ | hended
    · rcases flush_leads h he with ⟨pc', he'⟩ | rfl
      · exact .inl ⟨pc', he'⟩
      · exact .inr (shutdown_ended h he)
    · exact .inr (hended.event h)

/-- What is left of a pass after the final shutdown. -/
theorem finished_pc {σ : State} (h : (∃ pc, σ.pc = .flush .shutdown pc) ∨ σ.ended) :
    σ.pc ≠ .goawaySent ∧ ∀ pc, σ.pc ≠ .flush .goaway pc := by
  rcases h with ⟨pc, he⟩ | ⟨-, he | he | he⟩ <;> rw [he] <;>
    exact ⟨(fun hne => by cases hne), fun pc hne => by cases hne⟩

theorem Parted.keep (hP : Parted w) (hc : w'.calls = w.calls)
    (hk : w'.sys.session.course = w.sys.session.course) (hpc : w'.sys.pc = w.sys.pc) : Parted w' := by
  have hs := goawaySent_of_course hk
  have ha : w'.sys.session.aborted = w.sys.session.aborted := congrArg Course.aborted hk
  cases hP with
  | before hc' hs' hpc' => exact .before (hc.trans hc') (hs.trans hs') (hpc ▸ hpc')
  | noticed hc' hs' hpc' =>
    refine .noticed (hc.trans hc') ?_ ?_
    · rw [hs, hpc]
      exact hs'
    · rw [hpc]
      exact hpc'
  | finished drained now hc' hend =>
    refine .finished drained now (hc.trans hc') ?_
    unfold State.ended at hend ⊢
    rw [ha, hpc]
    exact hend

theorem worker_course {σ σ' : State} {i : ℕ} {wa : WorkerAct} (h : σ.step conf (.worker i wa) = some σ') :
    σ'.session.course = σ.session.course ∧ σ'.pc = σ.pc := by
  obtain ⟨t, -, h⟩ := Option.bind_eq_some_iff.mp h
  obtain ⟨⟨s, p⟩, hw, h⟩ := Option.bind_eq_some_iff.mp h
  cases h
  exact ⟨workerStep_course hw, rfl⟩

theorem Parted.step (hP : Parted w) (h : w.step conf act = some w') : Parted w' := by
  cases Goaway.step_move h with
  | tick d => exact hP.keep rfl rfl rfl
  | stop => exact hP.keep rfl rfl rfl
  | drain => exact hP.keep rfl rfl rfl
  | worker hσ =>
    obtain ⟨hc, hpc⟩ := worker_course hσ
    exact hP.keep rfl hc hpc
  | start hpc hs ha =>
    cases hP with
    | before hc hsent hin =>
      dsimp only
      rw [hsent]
      exact .noticed (congrArg _ hc) (.inr ⟨_, rfl⟩) fun pc he => by cases he
    | noticed hc hsent hin =>
      have hflag : w.sys.session.goawaySent := by
        rcases hsent with hsent | ⟨pc, he⟩
        · exact hsent
        · rw [hpc] at he
          cases he
      rw [hflag]
      exact .noticed hc (.inr ⟨_, rfl⟩) fun pc he => by cases he
    | finished drained now hc hend =>
      rcases hend with ⟨pc, he⟩ | hended
      · rw [hpc] at he
        cases he
      · rw [hended.1] at ha
        cases ha
  | flushed hpc =>
    cases hP with
    | before hc hsent hin =>
      rw [hpc] at hin
      cases hin
    | noticed hc hsent hin => exact .noticed hc (.inl rfl) fun pc he => by cases he
    | finished drained now hc hend => exact absurd hpc ((finished_pc hend).2 _)
  | finish hpc hf =>
    cases hP with
    | before hc hsent hin =>
      rw [hpc] at hin
      cases hin
    | noticed hc hsent hin => exact .finished _ _ (congrArg _ hc) (.inl ⟨_, rfl⟩)
    | finished drained now hc hend => exact absurd hpc (finished_pc hend).1
  | other hσ hstart hflushed hsent => exact hP.other hσ hstart hflushed hsent

/-- The times: a deadline leaves the grace period after the stop, and so does a shutdown that cuts streams. -/
structure Timely (w : Goaway) : Prop where
  now : 0 < w.now
  stopped : ∀ t, w.stoppedAt = some t → t ≤ w.now
  deadline : w.goawayDeadline ≠ 0 → ∃ t, w.stoppedAt = some t ∧ t + aprTimeFromSec h3GoawayGraceSecs ≤ w.goawayDeadline
  cut : ∀ t, .shutdown false t ∈ w.calls →
    ∃ t₀, w.stoppedAt = some t₀ ∧ t₀ + aprTimeFromSec h3GoawayGraceSecs ≤ t
  called : w.calls ≠ [] → w.stopping

private theorem timely_start {now : ℤ} (hnow : 0 < now) : Timely (.start now) where
  now := hnow
  stopped t h := by cases h
  deadline h := absurd rfl h
  cut t h := by cases h
  called h := absurd rfl h

/-- Only the session and the place in its pass have changed. -/
theorem Timely.sys (hT : Timely w) (σ : State) : Timely { w with sys := σ } :=
  ⟨hT.now, hT.stopped, hT.deadline, hT.cut, hT.called⟩

theorem Timely.step (hT : Timely w) (hP : Parted w) (h : w.step conf act = some w') : Timely w' := by
  cases Goaway.step_move h with
  | tick d =>
    have hnow := hT.now
    refine ⟨?_, fun t ht => ?_, hT.deadline, hT.cut, hT.called⟩
    · dsimp only
      omega
    · have := hT.stopped t ht
      dsimp only
      omega
  | stop =>
    have hsome : ∀ t, w.stoppedAt = some t → some (w.stoppedAt.getD w.now) = some t := by
      intro t ht
      rw [ht]
      rfl
    refine ⟨hT.now, fun t ht => ?_, fun hd => ?_, fun t ht => ?_, fun _ => Bool.or_true _⟩
    · cases hs : w.stoppedAt with
      | none =>
        rw [hs] at ht
        cases ht
        exact Int.le_refl _
      | some t' =>
        rw [hs] at ht
        cases ht
        exact hT.stopped _ hs
    · obtain ⟨t, ht, hle⟩ := hT.deadline hd
      exact ⟨t, hsome t ht, hle⟩
    · obtain ⟨t₀, ht₀, hle⟩ := hT.cut t ht
      exact ⟨t₀, hsome t₀ ht₀, hle⟩
  | drain => exact ⟨hT.now, hT.stopped, hT.deadline, hT.cut, fun _ => rfl⟩
  | worker hσ => exact hT.sys _
  | start hpc hs ha =>
    refine ⟨hT.now, hT.stopped, hT.deadline, fun t ht => hT.cut t ?_, fun _ => hs⟩
    dsimp only at ht
    split_ifs at ht
    · exact ht
    · exact (List.mem_cons.mp ht).resolve_left fun he => by cases he
  | flushed hpc =>
    refine ⟨hT.now, hT.stopped, fun hd => ?_, hT.cut, hT.called⟩
    dsimp only at hd ⊢
    split_ifs at hd ⊢ with hset
    · simp only [Bool.and_eq_true, beq_iff_eq] at hset
      obtain ⟨t, ht⟩ := Option.isSome_iff_exists.mp hset.1
      refine ⟨t, ht, ?_⟩
      have := hT.stopped t ht
      omega
    · exact hT.deadline hd
  | finish hpc hf =>
    have hstop : w.stopping := by
      refine hT.called fun hnil => ?_
      cases hP with
      | before hc hs hin =>
        rw [hpc] at hin
        cases hin
      | noticed hc => cases hc.symm.trans hnil
      | finished drained now hc => cases hc.symm.trans hnil
    refine ⟨hT.now, hT.stopped, hT.deadline, fun t ht => ?_, fun _ => hstop⟩
    rcases List.mem_cons.mp ht with he | ht
    · obtain ⟨hdrained, rfl⟩ := GoawayCall.shutdown.inj he
      simp only [Goaway.finishes, ← hdrained, Bool.false_or, Bool.and_eq_true, bne_iff_ne, decide_eq_true_eq] at hf
      obtain ⟨t₀, ht₀, hle⟩ := hT.deadline hf.1
      exact ⟨t₀, ht₀, hle.trans hf.2⟩
    · exact hT.cut t ht
  | other hσ hstart hflushed hsent => exact hT.sys _

theorem parted_reach {now : ℤ} (hnow : 0 < now) (h : Reach (Goaway.step conf) anyStep (.start now) w) :
    Parted w ∧ Timely w :=
  h.invariant (I := fun w => Parted w ∧ Timely w) ⟨.before rfl rfl rfl, timely_start hnow⟩
    fun _ _ _ hw _ hs => ⟨hw.1.step hs, hw.2.step hw.1 hs⟩

/-- A session is told to go away once, before nghttp3 is shut down, and only when the child drains or stops.
Streams in flight are cut only after the grace period that follows the stop. -/
theorem goaway_orderly {now : ℤ} (hnow : 0 < now) (h : Reach (Goaway.step conf) anyStep (.start now) w) :
    (w.calls = [] ∨ w.calls = [.notice] ∨ ∃ drained t, w.calls = [.shutdown drained t, .notice]) ∧
    (w.calls ≠ [] → w.draining ∨ w.stoppedAt.isSome) ∧
    ∀ t, .shutdown false t ∈ w.calls →
      ∃ t₀, w.stoppedAt = some t₀ ∧ t₀ + aprTimeFromSec h3GoawayGraceSecs ≤ t := by
  obtain ⟨hP, hT⟩ := parted_reach hnow h
  refine ⟨?_, fun hne => Bool.or_eq_true_iff.mp (hT.called hne), hT.cut⟩
  cases hP with
  | before hc => exact .inl hc
  | noticed hc => exact .inr (.inl hc)
  | finished drained t hc => exact .inr (.inr ⟨drained, t, hc⟩)

end

/-- The session is asked to stop in the middle of its service, keeps on for a pass, and is cut when its grace
period is over. -/
def cutAfterGrace : List GoawayAct :=
  [.step (.event (.control [some (3, 10), some (7, 11), some (11, 12)] true [true, true, true])) false,
    .step (.event (.flag true)) false, .stop, .step (.event (.flag true)) false,
    .step (.event .writevEmpty) false, .step (.event .go) false, .step (.event (.flag false)) false,
    .step (.event (.flag false)) false, .step (.event (.noMore [3, 7, 11])) false,
    .step (.event .go) false, .step (.event .go) false, .step (.event .go) false, .step (.event .go) false,
    .step (.event .go) false] ++
  endPass.map (.step · false) ++ [.tick 3000000]

def cutSession : List GoawayAct :=
  [.step (.event (.flag true)) false, .step (.event .writevEmpty) false, .step (.event .go) false,
    .step (.event (.flag true)) false, .step (.event .writevEmpty) false, .step (.event .go) false]

theorem goaway_orderly_cut :
    ∃ w, Reach (Goaway.step sampleConf) anyStep (.start 1) w ∧ w.calls = [.shutdown false 3000001, .notice] ∧
      (w.draining ∨ w.stoppedAt.isSome) ∧
      ∃ t₀, w.stoppedAt = some t₀ ∧ t₀ + aprTimeFromSec h3GoawayGraceSecs ≤ 3000001 := by
  have hrun : (runActions (Goaway.step sampleConf) (.start 1) (cutAfterGrace ++ cutSession)).map (·.calls) =
      some [.shutdown false 3000001, .notice] := by decide +kernel
  obtain ⟨w, hw, hcalls⟩ := Option.map_eq_some_iff.mp hrun
  have hr := Reach.of_runActions _ hw
  obtain ⟨-, hcalled, hcut⟩ := goaway_orderly (by decide) hr
  rw [hcalls] at hcalled hcut
  exact ⟨w, hr, hcalls, hcalled (List.cons_ne_nil _ _), hcut _ List.mem_cons_self⟩

/-- The places of a pass before the test for the end of the grace period, and after it if it was over. -/
def EventPc.windsUp : EventPc → Bool
  | .passStart | .flush .goaway _ | .goawaySent | .flush .shutdown _ => true
  | _ => false

/-- The thread is stopped, and where a pass tests for the end of the grace period, its end is known. -/
structure Stopped (w : Goaway) : Prop where
  stopped : w.stoppedAt.isSome
  known : w.sys.pc = .goawaySent → w.goawayDeadline ≠ 0

/-- The grace period is over, and the pass has not gone past the test for that, or the session has ended. -/
structure Overdue (deadline : ℤ) (w : Goaway) : Prop where
  stopped : w.stoppedAt.isSome
  set : w.goawayDeadline = deadline
  late : deadline ≤ w.now
  place : w.sys.pc.windsUp ∨ w.sys.ended

section
variable {conf : SessionConf} {w w' : Goaway} {act : GoawayAct}

theorem Stopped.step (hS : Stopped w) (hT : Timely w) (h : w.step conf act = some w') : Stopped w' := by
  obtain ⟨hstop, hknown⟩ := hS
  cases Goaway.step_move h with
  | tick d => exact ⟨hstop, hknown⟩
  | stop => exact ⟨rfl, hknown⟩
  | drain => exact ⟨hstop, hknown⟩
  | worker hσ =>
    refine ⟨hstop, ?_⟩
    dsimp only
    rw [(worker_course hσ).2]
    exact hknown
  | start hpc hs ha => exact ⟨hstop, fun he => by cases he⟩
  | flushed hpc =>
    refine ⟨hstop, fun _ => ?_⟩
    have hnow := hT.now
    dsimp only
    split_ifs with hset
    · unfold aprTimeFromSec h3GoawayGraceSecs
      omega
    · rw [hstop, Bool.true_and, beq_iff_eq] at hset
      exact hset
  | finish hpc hf => exact ⟨hstop, fun he => by cases he⟩
  | other hσ hstart hflushed hsent =>
    refine ⟨hstop, fun he => ?_⟩
    have hl := eventStep_leads hσ
    dsimp only at he
    rw [he] at hl
    generalize hp : w.sys.pc = pc at hl
    cases hl
    exact absurd hp hflushed

theorem Overdue.other {deadline : ℤ} (hO : Overdue deadline w) (hne : deadline ≠ 0) {σ : State} {a : Answer}
    (h : w.sys.eventStep conf a = some σ)
    (hstart : w.sys.pc = .passStart → σ.pc = .passEnd ∧ w.sys.session.aborted ∨ σ.pc = .connCheck ∧ w.stopping = false)
    (hflushed : w.sys.pc ≠ .flush .goaway .returned)
    (hsent : w.sys.pc = .goawaySent → σ.pc = .connCheck ∧ w.finishes = false) : Overdue deadline { w with sys := σ } := by
  have hstopping : w.stopping := (congrArg _ hO.stopped).trans (Bool.or_true _)
  have hfinishes : w.finishes := by
    simp [Goaway.finishes, hO.set, hO.late, hne]
  refine ⟨hO.stopped, hO.set, hO.late, ?_⟩
  rcases hO.place with hwinds | hended
  · cases hp : w.sys.pc with
    | passStart =>
      rcases hstart hp with ⟨he, haborted⟩ | ⟨-, hnot⟩
      · have hended : w.sys.ended := ⟨haborted, .inl hp⟩
        exact .inr (hended.event h)
      · rw [hstopping] at hnot
        cases hnot
    | goawaySent =>
      rw [hfinishes] at hsent
      cases (hsent hp).2
    | flush origin pc =>
      rcases flush_leads h hp with ⟨pc', he⟩ | rfl
      · refine .inl ?_
        rw [hp] at hwinds
        dsimp only
        rw [he]
        cases origin <;> first | rfl | cases hwinds
      · cases origin with
        | goaway => exact absurd hp hflushed
        | shutdown => exact .inr (shutdown_ended h hp)
        | drained completed =>
          rw [hp] at hwinds
          cases hwinds
        | passEnd =>
          rw [hp] at hwinds
          cases hwinds
    | _ =>
      rw [hp] at hwinds
      cases hwinds
  · exact .inr (hended.event h)

theorem Overdue.step {deadline : ℤ} (hO : Overdue deadline w) (hne : deadline ≠ 0)
    (h : w.step conf act = some w') : Overdue deadline w' := by
  cases Goaway.step_move h with
  | tick d =>
    have hlate := hO.late
    refine ⟨hO.stopped, hO.set, ?_, hO.place⟩
    dsimp only
    omega
  | stop => exact ⟨rfl, hO.set, hO.late, hO.place⟩
  | drain => exact ⟨hO.stopped, hO.set, hO.late, hO.place⟩
  | worker hσ =>
    obtain ⟨hc, hpc⟩ := worker_course hσ
    refine ⟨hO.stopped, hO.set, hO.late, ?_⟩
    have ha := congrArg Course.aborted hc
    dsimp only [H3Session.course] at ha
    unfold State.ended
    dsimp only
    rw [hpc, ha]
    exact hO.place
  | start hpc hs ha => exact ⟨hO.stopped, hO.set, hO.late, .inl rfl⟩
  | flushed hpc =>
    refine ⟨hO.stopped, ?_, hO.late, .inl rfl⟩
    have hzero : (w.goawayDeadline == 0) = false := by
      rw [hO.set]
      exact beq_eq_false_iff_ne.mpr hne
    dsimp only
    rw [hzero, Bool.and_false, if_neg Bool.false_ne_true]
    exact hO.set
  | finish hpc hf => exact ⟨hO.stopped, hO.set, hO.late, .inl rfl⟩
  | other hσ hstart hflushed hsent => exact hO.other hne hσ hstart hflushed hsent

/-- Once the thread is stopped, the grace period of a session has an end from its next pass on, and a pass
that begins later than that does nothing but end the session. -/
theorem stopped_session_ends {now : ℤ} (hnow : 0 < now) (h : Reach (Goaway.step conf) anyStep (.start now) w)
    (hpc : w.sys.pc = .passStart) (hstop : w.stoppedAt.isSome) (h' : Reach (Goaway.step conf) anyStep w w') :
    (w'.sys.pc = .goawaySent → w'.goawayDeadline ≠ 0) ∧
    (w.goawayDeadline ≠ 0 → w.goawayDeadline ≤ w.now →
      w'.goawayDeadline = w.goawayDeadline ∧ (w'.sys.pc.windsUp ∨ w'.sys.ended)) := by
  obtain ⟨hP, hT⟩ := parted_reach hnow h
  constructor
  · have hstopped : Stopped w := by
      refine ⟨hstop, ?_⟩
      rw [hpc]
      exact fun he => by cases he
    have hI := h'.invariant (I := fun w => Stopped w ∧ Parted w ∧ Timely w) ⟨hstopped, hP, hT⟩
      fun _ _ _ hw _ hs => ⟨hw.1.step hw.2.2 hs, hw.2.1.step hs, hw.2.2.step hw.2.1 hs⟩
    exact hI.1.known
  · intro hne hlate
    have hwinds : w.sys.pc.windsUp := by
      rw [hpc]
      rfl
    have hO := h'.invariant (I := Overdue w.goawayDeadline) ⟨hstop, rfl, hlate, .inl hwinds⟩
      fun _ _ _ hw _ hs => hw.step hne hs
    exact ⟨hO.set, hO.place⟩

end

theorem stopped_session_ends_cut :
    ∃ w w', Reach (Goaway.step sampleConf) anyStep (.start 1) w ∧ Reach (Goaway.step sampleConf) anyStep w w' ∧
      w.goawayDeadline = 3000001 ∧ w'.sys.pc = .passEnd ∧ (w'.sys.pc.windsUp ∨ w'.sys.ended) := by
  have hrun : (runActions (Goaway.step sampleConf) (.start 1) cutAfterGrace).bind (fun w =>
      (runActions (Goaway.step sampleConf) w cutSession).map fun w' =>
        (w.sys.pc, w.stoppedAt, w.goawayDeadline, w.now, w'.sys.pc)) =
        some (.passStart, some 1, 3000001, 3000001, .passEnd) := by decide +kernel
  obtain ⟨w, hw, hrun⟩ := Option.bind_eq_some_iff.mp hrun
  obtain ⟨w', hw', heq⟩ := Option.map_eq_some_iff.mp hrun
  simp only [Prod.mk.injEq] at heq
  obtain ⟨hpc, hstop, hdeadline, hnow, hend⟩ := heq
  have hr := Reach.of_runActions _ hw
  have hr' := Reach.of_runActions _ hw'
  have hends := (stopped_session_ends (by decide) hr hpc (Option.isSome_iff_exists.mpr ⟨1, hstop⟩) hr').2
  rw [hdeadline, hnow] at hends
  exact ⟨w, w', hr, hr', hdeadline, hend, (hends (by decide) (by decide)).2⟩

end ModHttp3.System
