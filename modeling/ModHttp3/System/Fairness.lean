import ModHttp3.Lib.Rotation
import ModHttp3.Session.Budget
import ModHttp3.System.Blocked

/-! The passes of `drain_ready_streams` over the life of a session: what each of them reads, and
which streams get their turn when several passes see the same snapshot. -/
namespace ModHttp3.System
open Session Lib

/-- A finished call of `drain_ready_streams`: its snapshot and where it began, how many places of
the rotation it looked at, whether its budget was spent, the streams whose visit began with budget
left, and the sizes of its successful reads. -/
structure Pass where
  snapshot : List ℤ
  start : ℕ
  count : ℕ
  spent : Bool
  visits : List ℤ
  reads : List ℕ
  deriving DecidableEq, Repr

/-- The session with a record of its passes; `visits` and `reads` are those of the latest one. -/
structure Served where
  sys : State
  visits : List ℤ
  reads : List ℕ
  passes : List Pass

namespace Served

def start : Served := ⟨.start, [], [], []⟩

def visitsAfter (w : Served) (σ : State) : List ℤ :=
  match w.sys.pc, σ.pc with
  | .accepting, .drain _ _ => []
  | .drain d .scan, .drain _ (.visit sid .enter) => if d.exhausted then w.visits else w.visits ++ [sid]
  | _, _ => w.visits

def readsAfter (w : Served) (act : Action) (σ : State) : List ℕ :=
  match w.sys.pc, act, σ.pc with
  | .accepting, _, .drain _ _ => []
  | .drain _ (.visit _ .loop), .event (.data n), _ => w.reads ++ [n]
  | _, _, _ => w.reads

/-- The pass that ends with the local variables `d`. -/
def pass (w : Served) (d : Drain) : Pass where
  snapshot := d.snapshot
  start := d.start
  count := if d.exhausted then d.offset + 1 else d.offset
  spent := d.exhausted
  visits := w.visits
  reads := w.reads

def passesAfter (w : Served) (σ : State) : List Pass :=
  match w.sys.pc, σ.pc with
  | .drain _ .returned, _ => w.passes
  | .drain _ _, .drain d .returned => w.passes ++ [w.pass d]
  | _, _ => w.passes

def step (conf : SessionConf) (w : Served) (act : Action) : Option Served :=
  (w.sys.step conf act).map fun σ => ⟨σ, w.visitsAfter σ, w.readsAfter act σ, w.passesAfter σ⟩

end Served

/-- A call of `drain_ready_streams` has not returned. -/
def EventPc.draining : EventPc → Bool
  | .drain _ pc => pc != .returned
  | _ => false

def EventPc.isDrain : EventPc → Bool
  | .drain _ _ => true
  | _ => false

/-- What a step is to the passes: the start of one, a step of one, or something else, done by a
worker or between the passes. -/
inductive Course (σ : State) : Action → State → Prop
  | starts {order : List ℤ} (hpc : σ.pc = .accepting) (horder : order.Perm σ.session.streams) :
      Course σ (.event (.noMore order)) { σ with pc := .drain (.new order σ.session.streamDrainCursor) .scan }
  | turn {a : Answer} {d d' : Drain} {pc pc' : DrainPc} {s : H3Session} (hpc : σ.pc = .drain d pc)
      (hd : Turn σ.session d pc a s d' pc') : Course σ (.event a) ⟨s, .drain d' pc', σ.tasks⟩
  | worker {i : ℕ} {w : WorkerAct} {σ' : State} (hs : Onward σ.session σ'.session) (hpc : σ'.pc = σ.pc) :
      Course σ (.worker i w) σ'
  | apart {a : Answer} {σ' : State} (hs : Onward σ.session σ'.session) (hpc : σ.pc.draining = false)
      (hpc' : σ'.pc.isDrain = false) : Course σ (.event a) σ'

section
variable {conf : SessionConf} {σ σ' : State} {act : Action}

private theorem onward_pushStep {s s' : H3Session} {t : Task} {a : Answer} {p : Phase} {back : Bool}
    (h : pushStep s t a = some (s', p, back)) : Onward s s' := by
  cases pushStep_push h <;> exact ⟨rfl, id⟩

private theorem onward_workerStep {s s' : H3Session} {free : Bool} {t : Task} {w : WorkerAct} {p : Phase}
    (h : workerStep s free t w = some (s', p)) : Onward s s' := by
  cases workerStep_work h <;> exact ⟨rfl, id⟩

private theorem draining_of_between {pc : EventPc} (h : pc.between) : pc.draining = false := by
  cases pc with
  | drain d pc =>
    simp only [EventPc.between, beq_iff_eq] at h
    simp [EventPc.draining, h]
  | _ => rfl

private theorem isDrain_of_afterTurn {pc : EventPc} (h : pc.afterTurn) : pc.isDrain = false := by
  cases pc with
  | drain d pc => cases h
  | _ => rfl

private theorem step_course (h : σ.step conf act = some σ') : Course σ act σ' := by
  have hapart : ∀ pc, σ.pc = pc → pc.draining = false → σ.pc.draining = false := fun _ he hd => he ▸ hd
  cases step_move h with
  | opened hpc hans hall => exact .apart (onward_createControlStreams hans) (hapart _ hpc rfl) rfl
  | openFailed hpc hans hall =>
    exact .apart ((onward_createControlStreams hans).trans (onward_destroy _)) (hapart _ hpc rfl) rfl
  | destroyed hpc =>
    refine .apart (onward_destroy _) ?_ rfl
    rcases hpc with hpc | ⟨hpc, -⟩ <;> exact hapart _ hpc rfl
  | turn hpc hpc' hs hc =>
    refine .apart ?_ (draining_of_between hpc) (isDrain_of_afterTurn hpc')
    rcases hs with rfl | rfl | rfl <;> exact ⟨rfl, id⟩
  | accepted hpc hans =>
    exact .apart (onward_acceptStream _ hans) (hapart _ hpc rfl) (by rw [hpc]; rfl)
  | drainStart hpc horder => exact .starts hpc horder
  | drain hpc hd => exact .turn hpc (drainStep_turn hd)
  | flush hpc hf => exact .apart (onward_flushStep hf) (hapart _ hpc rfl) rfl
  | abandon hpc => exact .apart (onward_modifyAll _ _ _) (hapart _ hpc rfl) rfl
  | reserved hpc hfree => exact .apart ⟨rfl, id⟩ (hapart _ hpc rfl) rfl
  | @push a i rest t s p back hpc ht hp =>
    refine .apart (onward_pushStep hp) (hapart _ hpc rfl) ?_
    cases back <;> rfl
  | worker ht hw => exact .worker (onward_workerStep hw) rfl

/-- Every stream in the table has its object. -/
private theorem streams_known (h : Reach (State.step conf) anyStep .start σ) :
    ∀ sid ∈ σ.session.streams, (σ.session.obj sid).isSome := by
  have hlift : ∃ w : Blocking, w.sys = σ ∧ Reach (Blocking.step conf) anyStep .start w := by
    induction h with
    | start => exact ⟨.start, rfl, .start⟩
    | @next σ₁ σ₂ act _ _ hs ih =>
      obtain ⟨w, rfl, hw⟩ := ih
      exact ⟨⟨σ₂, w.heldAfter act⟩, rfl, .next hw trivial (by rw [Blocking.step, hs]; rfl)⟩
  obtain ⟨w, rfl, hw⟩ := hlift
  exact (exact_reach hw).marked.balanced.tracked

end

/-- A client's stream that no later scan will stop at, or a server's. -/
def Gone (s : H3Session) (sid : ℤ) : Prop :=
  h3SidIsServer sid = true ∨ ∃ o, s.obj sid = some o ∧ (o.done = true ∨ o.qstream = none)

/-- The place `j` of a rotation, counted from its start. -/
def ringPlace (snapshot : List ℤ) (start j : ℕ) : ℤ := snapshot.getD ((start + j) % snapshot.length) 0

/-- The first `count` places of the rotation have been looked at. -/
def Looked (s : H3Session) (visits snapshot : List ℤ) (start count : ℕ) : Prop :=
  ∀ j < count, ringPlace snapshot start j ∈ visits ∨ Gone s (ringPlace snapshot start j)

/-- A finished pass kept to its budget. If nghttp3 lives, it looked at all places or it looked at one
at least and spent the budget. -/
structure Pass.Sound (s : H3Session) (p : Pass) : Prop where
  reads : p.reads.length ≤ h3StreamDrainReadBudget
  bytes : p.reads.sum ≤ h3StreamDrainByteBudget
  looked : Looked s p.visits p.snapshot p.start p.count
  whole : s.ngh3Dead = true ∨ p.count = p.snapshot.length ∨ p.spent = true ∧ 0 < p.count

/-- A pass over the same snapshot begins where the one before it spent its budget. -/
def Pass.Follows (p q : Pass) : Prop :=
  p.spent = true → q.snapshot = p.snapshot → 0 < p.snapshot.length →
    Continues Pass.start Pass.count p.snapshot.length p q

/-- The pass that is running, with the local variables `d`. -/
structure Served.Running (w : Served) (d : Drain) (pc : DrainPc) : Prop where
  reads : w.reads.length + d.readsRemaining = h3StreamDrainReadBudget
  bytes : w.reads.sum + d.bytesRemaining = h3StreamDrainByteBudget
  known : ∀ sid ∈ d.snapshot, (w.sys.session.obj sid).isSome
  looked : Looked w.sys.session w.visits d.snapshot d.start d.offset
  inside : d.offset ≤ d.snapshot.length
  scanning : pc = .scan → d.exhausted = false
  visiting : ∀ sid v, pc = .visit sid v →
    d.offset < d.snapshot.length ∧ sid = ringPlace d.snapshot d.start d.offset ∧ sid ∈ w.visits
  begun : pc ≠ .returned → 0 < d.snapshot.length →
    d.start = w.sys.session.streamDrainCursor % d.snapshot.length

structure Served.Fair (conf : SessionConf) (w : Served) : Prop where
  reach : Reach (State.step conf) anyStep .start w.sys
  running : ∀ d pc, w.sys.pc = .drain d pc → w.Running d pc
  sound : ∀ p ∈ w.passes, p.Sound w.sys.session
  chain : w.passes.IsChain Pass.Follows
  cursor : ∀ p ∈ w.passes.getLast?, p.spent = true →
    w.sys.session.streamDrainCursor = (p.start + p.count) % p.snapshot.length

section
variable {conf : SessionConf} {s s' : H3Session} {sid : ℤ}

/-- Objects stay, and nothing is taken back from them. -/
def Lasting (s s' : H3Session) : Prop :=
  ∀ sid o, s.obj sid = some o → ∃ o', s'.obj sid = some o' ∧ Later o o'

theorem Gone.lasting (h : Gone s sid) (hl : Lasting s s') : Gone s' sid := by
  rcases h with hserver | ⟨o, ho, hgone⟩
  · exact .inl hserver
  · obtain ⟨o', ho', hlater⟩ := hl sid o ho
    exact .inr ⟨o', ho', hgone.imp hlater.done hlater.qstream⟩

theorem Looked.lasting {visits snapshot : List ℤ} {start count : ℕ}
    (h : Looked s visits snapshot start count) (hl : Lasting s s') : Looked s' visits snapshot start count :=
  fun j hj => (h j hj).imp_right fun hg => hg.lasting hl

theorem Looked.mono {visits visits' snapshot : List ℤ} {start count : ℕ} (hsub : visits ⊆ visits')
    (h : Looked s visits snapshot start count) : Looked s visits' snapshot start count :=
  fun j hj => (h j hj).imp_left fun hv => hsub hv

theorem Looked.succ {visits snapshot : List ℤ} {start count : ℕ} (h : Looked s visits snapshot start count)
    (hnext : ringPlace snapshot start count ∈ visits ∨ Gone s (ringPlace snapshot start count)) :
    Looked s visits snapshot start (count + 1) := by
  intro j hj
  rcases Nat.lt_succ_iff_lt_or_eq.mp hj with hlt | rfl
  · exact h j hlt
  · exact hnext

theorem Pass.Sound.lasting {p : Pass} (h : p.Sound s) (hl : Lasting s s')
    (hdead : s.ngh3Dead → s'.ngh3Dead) : p.Sound s' :=
  ⟨h.reads, h.bytes, h.looked.lasting hl, h.whole.imp_left hdead⟩

private theorem place_mem {snapshot : List ℤ} (start : ℕ) {j : ℕ} (h : 0 < snapshot.length) :
    ringPlace snapshot start j ∈ snapshot := by
  have hlt : (start + j) % snapshot.length < snapshot.length := Nat.mod_lt _ h
  unfold ringPlace
  rw [List.getD_eq_getElem?_getD, List.getElem?_eq_getElem hlt, Option.getD_some]
  exact List.getElem_mem hlt

/-- A stream with an object that the scan passes over is gone for good. -/
private theorem gone_of_passesOver (hknown : (s.obj sid).isSome) (hover : s.passesOver sid = true) : Gone s sid := by
  obtain ⟨o, ho⟩ := Option.isSome_iff_exists.mp hknown
  simp only [H3Session.passesOver, H3Session.has, H3Session.qstream, ho, Option.any_some, Option.bind_some,
    Bool.or_eq_true, Option.isNone_iff_eq_none] at hover
  rcases hover with hgone | hserver
  · exact .inr ⟨o, ho, hgone⟩
  · exact .inl hserver

end

section
variable {conf : SessionConf} {w : Served} {σ : State} {act : Action} {visits : List ℤ} {reads : List ℕ}

theorem lasting_of_step (hs : w.sys.step conf act = some σ) : Lasting w.sys.session σ.session :=
  fun _ _ ho => step_later hs ho

/-- A step that ends no pass. -/
theorem Served.Fair.keep (h : w.Fair conf) (hs : w.sys.step conf act = some σ)
    (hon : Onward w.sys.session σ.session)
    (hrun : ∀ d pc, σ.pc = .drain d pc → Served.Running ⟨σ, visits, reads, w.passes⟩ d pc) :
    Served.Fair conf ⟨σ, visits, reads, w.passes⟩ where
  reach := h.reach.next trivial hs
  running := hrun
  sound p hp := (h.sound p hp).lasting (lasting_of_step hs) hon.dead
  chain := h.chain
  cursor p hp hspent := hon.cursor.trans (h.cursor p hp hspent)

/-- A step that ends the pass `p`. -/
theorem Served.Fair.add (h : w.Fair conf) (hs : w.sys.step conf act = some σ)
    (hdead : w.sys.session.ngh3Dead → σ.session.ngh3Dead) {p : Pass}
    (hrun : ∀ d pc, σ.pc = .drain d pc → Served.Running ⟨σ, visits, reads, w.passes ++ [p]⟩ d pc)
    (hsound : p.Sound σ.session)
    (hstart : 0 < p.snapshot.length → p.start = w.sys.session.streamDrainCursor % p.snapshot.length)
    (hcursor : p.spent = true → σ.session.streamDrainCursor = (p.start + p.count) % p.snapshot.length) :
    Served.Fair conf ⟨σ, visits, reads, w.passes ++ [p]⟩ where
  reach := h.reach.next trivial hs
  running := hrun
  sound q hq := by
    rcases List.mem_append.mp hq with hold | hnew
    · exact (h.sound q hold).lasting (lasting_of_step hs) hdead
    · rw [List.mem_singleton.mp hnew]
      exact hsound
  chain := by
    refine h.chain.append (List.isChain_singleton p) fun q hq x hx => ?_
    obtain rfl : p = x := by simpa using hx
    intro hspent hsame hpos
    unfold Continues
    rw [hsame] at hstart
    rw [hstart hpos, h.cursor q hq hspent, Nat.mod_mod, Nat.mod_mod]
  cursor q hq := by
    obtain rfl : p = q := by simpa using hq
    exact hcursor

theorem Served.Running.known_later {d : Drain} {pc : DrainPc} (h : w.Running d pc)
    (hl : Lasting w.sys.session σ.session) : ∀ sid ∈ d.snapshot, (σ.session.obj sid).isSome := by
  intro sid hsid
  obtain ⟨o, ho⟩ := Option.isSome_iff_exists.mp (h.known sid hsid)
  obtain ⟨o', ho', -⟩ := hl sid o ho
  rw [ho']
  rfl

/-- The local variables of a pass stay while a worker does something. -/
theorem Served.Running.aside {d : Drain} {pc : DrainPc} (h : w.Running d pc)
    (hl : Lasting w.sys.session σ.session) (hon : Onward w.sys.session σ.session) {passes : List Pass} :
    Served.Running ⟨σ, w.visits, w.reads, passes⟩ d pc where
  reads := h.reads
  bytes := h.bytes
  known := h.known_later hl
  looked := h.looked.lasting hl
  inside := h.inside
  scanning := h.scanning
  visiting := h.visiting
  begun hpc hpos := (h.begun hpc hpos).trans (congrArg (· % _) hon.cursor.symm)

/-- A pass that has returned. -/
theorem Served.Running.returned {d : Drain} {pc : DrainPc} (h : w.Running d pc) (completed : List ℤ)
    (hl : Lasting w.sys.session σ.session) {passes : List Pass} :
    Served.Running ⟨σ, w.visits, w.reads, passes⟩ { d with completed := completed } .returned where
  reads := h.reads
  bytes := h.bytes
  known := h.known_later hl
  looked := h.looked.lasting hl
  inside := h.inside
  scanning := nofun
  visiting := nofun
  begun hpc := absurd rfl hpc

theorem Served.Running.goesPast {d : Drain} (h : w.Running d .scan) (hin : d.offset < d.snapshot.length)
    (hover : w.sys.session.passesOver (d.snapshot.getD d.index 0) = true) :
    w.Running { d with offset := d.offset + 1 } .scan where
  reads := h.reads
  bytes := h.bytes
  known := h.known
  looked := h.looked.succ (.inr (gone_of_passesOver (h.known _ (place_mem d.start (by omega))) hover))
  inside := hin
  scanning := h.scanning
  visiting := nofun
  begun := h.begun

theorem Served.Running.begin {d : Drain} (h : w.Running d .scan) (hin : d.offset < d.snapshot.length) :
    Served.Running ⟨w.sys, w.visits ++ [d.snapshot.getD d.index 0], w.reads, w.passes⟩ d
      (.visit (d.snapshot.getD d.index 0) .enter) where
  reads := h.reads
  bytes := h.bytes
  known := h.known
  looked := h.looked.mono (List.subset_append_left _ _)
  inside := h.inside
  scanning := nofun
  visiting sid v he := by
    cases he
    exact ⟨hin, rfl, List.mem_append_right _ (List.mem_singleton.mpr rfl)⟩
  begun := fun _ => h.begun nofun

/-- A step of a visit takes no more from the budget than is left. -/
theorem Served.Running.visit {d d' : Drain} {sid : ℤ} {v v' : VisitPc} {a : Answer}
    (h : w.Running d (.visit sid v)) (hl : Lasting w.sys.session σ.session)
    (hon : Onward w.sys.session σ.session) (hd : Spends d v a d') (hpc : w.sys.pc = .drain d (.visit sid v)) :
    Served.Running ⟨σ, w.visits, w.readsAfter (.event a) σ, w.passes⟩ d' (.visit sid v') := by
  have hbegun : 0 < d.snapshot.length → d.start = σ.session.streamDrainCursor % d.snapshot.length :=
    fun hpos => (h.begun nofun hpos).trans (congrArg (· % _) hon.cursor.symm)
  have hvisit : ∀ x u, DrainPc.visit sid v' = .visit x u →
      d.offset < d.snapshot.length ∧ x = ringPlace d.snapshot d.start d.offset ∧ x ∈ w.visits := by
    intro x u he
    cases he
    exact h.visiting sid v rfl
  cases hd with
  | nothing hread =>
    have hreads : w.readsAfter (.event a) σ = w.reads := by
      unfold Served.readsAfter
      rw [hpc]
      cases v with
      | loop =>
        cases a with
        | data n => exact absurd rfl (hread n rfl)
        | _ => rfl
      | _ => rfl
    rw [hreads]
    exact ⟨h.reads, h.bytes, h.known_later hl, h.looked.lasting hl, h.inside, nofun, hvisit, fun _ => hbegun⟩
  | @read n hpos hbytes =>
    have hreads : w.readsAfter (.event (.data n)) σ = w.reads ++ [n] := by
      unfold Served.readsAfter
      rw [hpc]
    have hr := h.reads
    have hb := h.bytes
    rw [hreads]
    refine ⟨?_, ?_, h.known_later hl, h.looked.lasting hl, h.inside, nofun, hvisit, fun _ => hbegun⟩
    · change (w.reads ++ [n]).length + (d.readsRemaining - 1) = _
      rw [List.length_append, List.length_singleton]
      omega
    · change (w.reads ++ [n]).sum + (d.bytesRemaining - n) = _
      rw [List.sum_append, List.sum_singleton]
      omega

theorem Served.Running.next {d : Drain} {sid : ℤ} {rejected : Bool} (h : w.Running d (.visit sid (.leave rejected)))
    (completed : List ℤ) (hex : d.exhausted = false) (hl : Lasting w.sys.session σ.session)
    (hon : Onward w.sys.session σ.session) :
    Served.Running ⟨σ, w.visits, w.reads, w.passes⟩
      { d with completed := completed, offset := d.offset + 1 } .scan := by
  obtain ⟨hin, hsid, hmem⟩ := h.visiting sid _ rfl
  refine ⟨h.reads, h.bytes, h.known_later hl, ?_, hin, fun _ => hex, nofun, fun _ hpos => ?_⟩
  · exact (h.looked.succ (.inl (hsid ▸ hmem))).lasting hl
  · exact (h.begun nofun hpos).trans (congrArg (· % _) hon.cursor.symm)

theorem Served.fair_start : Served.Fair conf .start :=
  ⟨.start, nofun, nofun, List.isChain_nil, nofun⟩

/-- The end of a pass that kept to its budget. -/
theorem Served.Running.sound {d d' : Drain} {pc : DrainPc} (h : w.Running d pc) (hd : w.pass d' = w.pass d)
    (hlooked : Looked σ.session w.visits d.snapshot d.start (w.pass d).count)
    (hwhole : σ.session.ngh3Dead = true ∨ (w.pass d).count = d.snapshot.length ∨
      d.exhausted = true ∧ 0 < (w.pass d).count) : (w.pass d').Sound σ.session := by
  have hr := h.reads
  have hb := h.bytes
  rw [hd]
  exact ⟨by change w.reads.length ≤ _; omega, by change w.reads.sum ≤ _; omega, hlooked, hwhole⟩

/-- Only a step in the read loop reads. -/
theorem Served.readsAfter_of {d : Drain} {pc : DrainPc} (hpc : w.sys.pc = .drain d pc)
    (hloop : ∀ sid, pc ≠ .visit sid .loop) : w.readsAfter act σ = w.reads := by
  unfold Served.readsAfter
  rw [hpc]
  cases pc with
  | visit sid v =>
    cases v with
    | loop => exact absurd rfl (hloop sid)
    | _ => rfl
  | _ => rfl

theorem Served.Fair.turn (h : w.Fair conf) {a : Answer} {d d' : Drain} {pc pc' : DrainPc} {s : H3Session}
    (hpc : w.sys.pc = .drain d pc) (hd : Turn w.sys.session d pc a s d' pc')
    (hs : w.sys.step conf (.event a) = some ⟨s, .drain d' pc', w.sys.tasks⟩) :
    Served.Fair conf ⟨⟨s, .drain d' pc', w.sys.tasks⟩, w.visitsAfter ⟨s, .drain d' pc', w.sys.tasks⟩,
      w.readsAfter (.event a) ⟨s, .drain d' pc', w.sys.tasks⟩, w.passesAfter ⟨s, .drain d' pc', w.sys.tasks⟩⟩ := by
  have hrun := h.running d pc hpc
  have hl := lasting_of_step hs
  have honly : ∀ {v : Served} {e : Drain} {q : DrainPc}, v.Running e q →
      ∀ x y, EventPc.drain e q = .drain x y → v.Running x y := by
    intro v e q hv x y he
    cases he
    exact hv
  unfold Served.visitsAfter Served.passesAfter
  rw [hpc]
  cases hd with
  | ends hend hon =>
    have hex : d.exhausted = false := hrun.scanning rfl
    have hcount : (w.pass d).count = d.offset := by simp [Served.pass, hex]
    rw [Served.readsAfter_of hpc nofun]
    refine h.add hs hon.dead (honly (hrun.returned d.completed hl)) ?_ (hrun.begun nofun) ?_
    · refine hrun.sound rfl ?_ ?_
      · rw [hcount]
        exact hrun.looked.lasting hl
      · rw [hcount]
        have hin := hrun.inside
        exact hend.imp hon.dead fun hle => .inl (by omega)
    · intro hspent
      rw [show (w.pass d).spent = false from hex] at hspent
      cases hspent
  | goesPast hin hover =>
    rw [Served.readsAfter_of hpc nofun]
    have hnext := hrun.goesPast hin hover
    exact h.keep hs (.refl _) (honly
      ⟨hnext.reads, hnext.bytes, hnext.known, hnext.looked, hnext.inside, hnext.scanning, nofun, hnext.begun⟩)
  | begin hin =>
    have hex : d.exhausted = false := hrun.scanning rfl
    have hnext := hrun.begin hin
    rw [Served.readsAfter_of hpc nofun]
    dsimp only
    rw [hex, if_neg Bool.false_ne_true]
    exact h.keep hs (.refl _) (honly ⟨hnext.reads, hnext.bytes, hnext.known, hnext.looked, hnext.inside, nofun,
      hnext.visiting, hnext.begun⟩)
  | visit hon hspends => exact h.keep hs hon (honly (hrun.visit hl hon hspends hpc))
  | @spent sid rejected _ completed hex hcursor hdead =>
    obtain ⟨hin, hsid, hmem⟩ := hrun.visiting sid _ rfl
    have hcount : (w.pass d).count = d.offset + 1 := by simp [Served.pass, hex]
    rw [Served.readsAfter_of hpc nofun]
    refine h.add hs hdead (honly (hrun.returned completed hl)) ?_ (hrun.begun nofun) fun _ => ?_
    · refine hrun.sound rfl ?_ (.inr (.inr ⟨hex, by omega⟩))
      rw [hcount]
      exact (hrun.looked.succ (.inl (hsid ▸ hmem))).lasting hl
    · change s.streamDrainCursor = (d.start + (w.pass d).count) % d.snapshot.length
      rw [hcount, hcursor, Drain.index, Nat.mod_add_mod]
      rfl
  | @next sid rejected _ completed hex hon =>
    rw [Served.readsAfter_of hpc nofun]
    exact h.keep hs hon (honly (hrun.next completed hex hl hon))

theorem Served.Fair.step {w' : Served} (h : w.Fair conf) (hs : w.step conf act = some w') : w'.Fair conf := by
  obtain ⟨σ, hσ, rfl⟩ := Option.map_eq_some_iff.mp hs
  have hl := lasting_of_step hσ
  cases step_course hσ with
  | @starts order hpc horder =>
    have hvisits : w.visitsAfter { w.sys with pc := .drain (.new order w.sys.session.streamDrainCursor) .scan } =
        [] := by
      unfold Served.visitsAfter
      rw [hpc]
    have hreads : w.readsAfter (.event (.noMore order))
        { w.sys with pc := .drain (.new order w.sys.session.streamDrainCursor) .scan } = [] := by
      unfold Served.readsAfter
      rw [hpc]
    have hpasses : w.passesAfter { w.sys with pc := .drain (.new order w.sys.session.streamDrainCursor) .scan } =
        w.passes := by
      unfold Served.passesAfter
      rw [hpc]
    rw [hvisits, hreads, hpasses]
    refine h.keep hσ (.refl _) fun d pc he => ?_
    cases he
    refine ⟨Nat.zero_add _, Nat.zero_add _, fun sid hsid => ?_, ?_, Nat.zero_le _, fun _ => rfl, nofun,
      fun _ hpos => if_pos hpos⟩
    · exact streams_known h.reach sid (horder.subset hsid)
    · exact fun j hj => absurd hj (Nat.not_lt_zero j)
  | turn hpc hd => exact h.turn hpc hd hσ
  | @worker i wa _ hon hpc =>
    have hsame : w.visitsAfter σ = w.visits ∧ w.readsAfter (.worker i wa) σ = w.reads ∧ w.passesAfter σ = w.passes := by
      unfold Served.visitsAfter Served.readsAfter Served.passesAfter
      rw [hpc]
      cases w.sys.pc with
      | drain d pc =>
        cases pc with
        | visit sid v => cases v <;> exact ⟨rfl, rfl, rfl⟩
        | _ => exact ⟨rfl, rfl, rfl⟩
      | _ => exact ⟨rfl, rfl, rfl⟩
    rw [hsame.1, hsame.2.1, hsame.2.2]
    exact h.keep hσ hon fun d pc he => (h.running d pc (hpc.symm.trans he)).aside hl hon
  | @apart a _ hon hpc hpc' =>
    have hsame : w.visitsAfter σ = w.visits ∧ w.readsAfter (.event a) σ = w.reads ∧ w.passesAfter σ = w.passes := by
      unfold Served.visitsAfter Served.readsAfter Served.passesAfter
      cases hold : w.sys.pc with
      | drain d pc =>
        cases pc with
        | returned =>
          cases hnew : σ.pc with
          | drain d' pc' =>
            rw [hnew] at hpc'
            cases hpc'
          | _ => exact ⟨rfl, rfl, rfl⟩
        | _ =>
          rw [hold] at hpc
          cases hpc
      | accepting =>
        cases hnew : σ.pc with
        | drain d' pc' =>
          rw [hnew] at hpc'
          cases hpc'
        | _ => exact ⟨rfl, rfl, rfl⟩
      | _ => exact ⟨rfl, rfl, rfl⟩
    rw [hsame.1, hsame.2.1, hsame.2.2]
    refine h.keep hσ hon fun d pc he => ?_
    rw [he] at hpc'
    cases hpc'

theorem Served.fair_reach (h : Reach (Served.step conf) anyStep .start w) : w.Fair conf :=
  h.invariant Served.fair_start fun _ _ _ hw _ hs => hw.step hs

/-- If as many passes in a row as a snapshot has places saw that snapshot, every place of it was
looked at in one of them. -/
private theorem exists_pass_looking {s : H3Session} {window : List Pass} {snapshot : List ℤ}
    (hsound : ∀ p ∈ window, p.Sound s) (hchain : window.IsChain Pass.Follows)
    (hsame : ∀ p ∈ window, p.snapshot = snapshot) (hcount : window.length = snapshot.length)
    (hlive : s.ngh3Dead = false) {i : ℕ} (hi : i < snapshot.length) :
    ∃ p ∈ window, ∃ j < p.count, (p.start + j) % snapshot.length = i := by
  by_cases hall : ∃ p ∈ window, p.count = snapshot.length
  · obtain ⟨p, hp, hfull⟩ := hall
    obtain ⟨j, hj, he⟩ := exists_offset p.start hi
    exact ⟨p, hp, j, by omega, he⟩
  · -- No pass got around, so all of them spent their budget and each went on where the last stopped.
    have hspent : ∀ p ∈ window, p.spent = true ∧ 0 < p.count := by
      intro p hp
      rcases (hsound p hp).whole with hdead | hfull | hspent
      · rw [hlive] at hdead
        cases hdead
      · exact absurd ⟨p, hp, hfull.trans (congrArg List.length (hsame p hp))⟩ hall
      · exact hspent
    have hcontinues : window.IsChain (Continues Pass.start Pass.count snapshot.length) := by
      refine hchain.imp_of_mem_imp fun p q hp hq hfollows => ?_
      have hnext := hfollows (hspent p hp).1 ((hsame q hq).trans (hsame p hp).symm)
      rw [hsame p hp] at hnext
      exact hnext (by omega)
    exact exists_arc hcontinues (fun p hp => (hspent p hp).2) (by omega) hi

end

/-- In every pass the reads and bytes so far and what is left of each budget add up to the budget, so
no pass exceeds it. If as many passes in a row as the snapshot has streams saw that snapshot, and the
session is alive, each client stream in it that is not done and has a handle was visited, with
budget left, in one of these passes. -/
theorem drain_bounded_and_fair {conf : SessionConf} {w : Served}
    (h : Reach (Served.step conf) anyStep .start w) :
    (∀ d pc, w.sys.pc = .drain d pc → w.reads.length + d.readsRemaining = h3StreamDrainReadBudget ∧
      w.reads.sum + d.bytesRemaining = h3StreamDrainByteBudget) ∧
    (∀ p ∈ w.passes, p.reads.length ≤ h3StreamDrainReadBudget ∧ p.reads.sum ≤ h3StreamDrainByteBudget) ∧
    ∀ before window after snapshot, w.passes = before ++ window ++ after →
      window.length = snapshot.length → (∀ p ∈ window, p.snapshot = snapshot) →
      w.sys.session.ngh3Dead = false → ∀ sid ∈ snapshot, h3SidIsServer sid = false →
      w.sys.session.has sid (fun o => !o.done && o.qstream.isSome) = true → ∃ p ∈ window, sid ∈ p.visits := by
  have hfair := Served.fair_reach h
  refine ⟨fun d pc hpc => ?_, fun p hp => ?_, ?_⟩
  · exact ⟨(hfair.running d pc hpc).reads, (hfair.running d pc hpc).bytes⟩
  · exact ⟨(hfair.sound p hp).reads, (hfair.sound p hp).bytes⟩
  · intro before window after snapshot hpasses hcount hsame hlive sid hsid hclient hopen
    have hwithin : window ⊆ w.passes := by
      rw [hpasses]
      simp
    have hchain := hfair.chain
    rw [hpasses] at hchain
    obtain ⟨i, hi, hat⟩ := List.mem_iff_getElem.mp hsid
    obtain ⟨p, hp, j, hj, he⟩ := exists_pass_looking (fun p hp => hfair.sound p (hwithin hp))
      hchain.left_of_append.right_of_append hsame hcount hlive hi
    have hplace : ringPlace p.snapshot p.start j = sid := by
      rw [ringPlace, hsame p hp, he, List.getD_eq_getElem?_getD, List.getElem?_eq_getElem hi, Option.getD_some, hat]
    refine ⟨p, hp, ?_⟩
    have hlooked := (hfair.sound p (hwithin hp)).looked j hj
    rw [hplace] at hlooked
    refine hlooked.resolve_right fun hgone => ?_
    obtain ⟨o, ho, hopen⟩ := H3Session.has_iff.mp hopen
    simp only [Bool.and_eq_true, Bool.not_eq_true'] at hopen
    rcases hgone with hserver | ⟨o', ho', hdone | hnone⟩
    · rw [hclient] at hserver
      cases hserver
    · rw [ho] at ho'
      cases ho'
      rw [hopen.1] at hdone
      cases hdone
    · rw [ho] at ho'
      cases ho'
      rw [hnone] at hopen
      cases hopen.2

/-! Five passes over five streams, of which stream 0 spends the whole budget in every pass. -/
section

def greedyConf : SessionConf := { sampleConf with streamBufferSize := 1024 * 1024 }

def greedyVisit : List Action :=
  [.event .go, .event (.state .ok .ok), .event (.data (1024 * 1024)), .event (.returned none), .event .go,
    .event .go]

def nextPass : List Action :=
  [.event .go] ++ endPass ++ [.event (.flag false), .event (.flag false), .event (.noMore [0, 4, 3, 7, 11])]

/-- The visit of stream 4 and the way round to stream 0. -/
def patientVisit : List Action :=
  [.event .go, .event (.state .ok .ok), .event .nothing, .event .go, .event .go, .event .go, .event .go]

def greedyRun : List Action :=
  openSession ++ [.event (.accepted 20 0 true), .event (.accepted 21 4 true), .event (.noMore [0, 4, 3, 7, 11])] ++
    greedyVisit ++ (List.replicate 4 (nextPass ++ patientVisit ++ greedyVisit)).flatten

theorem drain_bounded_and_fair_greedy :
    ∃ w, runActions (Served.step greedyConf) .start greedyRun = some w ∧ w.passes.length = 5 ∧
      ∃ p ∈ w.passes, 4 ∈ p.visits := by
  have hrun : (runActions (Served.step greedyConf) .start greedyRun).map (fun w =>
      (w.passes.map Pass.snapshot, w.sys.session.ngh3Dead,
        w.sys.session.has 4 fun o => !o.done && o.qstream.isSome)) =
        some (List.replicate 5 [0, 4, 3, 7, 11], false, true) := by
    decide +kernel
  obtain ⟨w, hw, he⟩ := Option.map_eq_some_iff.mp hrun
  simp only [Prod.mk.injEq] at he
  obtain ⟨hsnapshots, hlive, hopen⟩ := he
  have hcount : w.passes.length = 5 := by
    rw [← List.length_map Pass.snapshot, hsnapshots]
    rfl
  have hsame : ∀ p ∈ w.passes, p.snapshot = [0, 4, 3, 7, 11] := by
    intro p hp
    have hmem := List.mem_map_of_mem (f := Pass.snapshot) hp
    rw [hsnapshots] at hmem
    exact List.eq_of_mem_replicate hmem
  obtain ⟨-, -, hfair⟩ := drain_bounded_and_fair (Reach.of_runActions greedyRun hw)
  exact ⟨w, hw, hcount, hfair [] w.passes [] [0, 4, 3, 7, 11] (by simp) hcount hsame hlive 4 (by decide) rfl hopen⟩

end

end ModHttp3.System
