import ModHttp3.Session.Balance
import ModHttp3.System.Alter
import ModHttp3.System.Aside

/-! Write-blocked streams: the module's count and flags, and the streams that nghttp3 holds blocked
because it was told so. -/
namespace ModHttp3.System
open Session Lib

/-- Does `unblock_writable_streams` unblock the stream, given the transport's answer? -/
def unblocks (s : H3Session) (sid : ℤ) (a : Answer) : Bool :=
  s.writeBlocks sid && ((s.qstream sid).isNone || decide (a = .flag false))

/-- The streams that nghttp3 holds blocked after a step of `flush_nghttp3`. -/
def heldByFlush (s : H3Session) (held : ℤ → Bool) : FlushPc → Answer → ℤ → Bool
  | .unblock (sid :: _), a => if unblocks s sid a then Function.update held sid false else held
  | .offsets (some sid), .returned _ =>
    if s.writeBlocks sid then held else Function.update held sid true
  | _, _ => held

/-- The session, and the streams that `nghttp3_conn_block_stream` was called for without a later
`nghttp3_conn_unblock_stream`. nghttp3 may drop some of them when it closes a stream. -/
structure Blocking where
  sys : State
  held : ℤ → Bool

def Blocking.start : Blocking := ⟨.start, fun _ => false⟩

def Blocking.heldAfter (w : Blocking) : Action → ℤ → Bool
  | .event a => match w.sys.pc with
    | .flush _ pc => heldByFlush w.sys.session w.held pc a
    | _ => w.held
  | .worker _ _ => w.held

def Blocking.step (conf : SessionConf) (w : Blocking) (act : Action) : Option Blocking :=
  (w.sys.step conf act).map fun σ => ⟨σ, w.heldAfter act⟩

/-- The stream that `flush_nghttp3` is writing to, and may block. -/
def writesTo : EventPc → Option ℤ
  | .flush _ (.write sid) => some sid
  | .flush _ (.offsets (some sid)) => some sid
  | _ => none

section
variable {conf : SessionConf} {s s' : H3Session} {held : ℤ → Bool}

/-- Where the module finds no write block, or finds it still needed, nothing changes but the log. -/
private theorem unblockStep_cases {sid : ℤ} {a : Answer} (hs : s.unblockStep sid a = some s') :
    ∃ t, Alters conf (fun _ => True) (fun _ _ => False) s t ∧
      if unblocks s sid a then t.writeBlocks sid ∧ s' = t.unblockStream sid else s' = t := by
  have hasked : Alters conf (fun _ => True) (fun _ _ => False) s (s.logOp .isWriteBlocked (s.qstream sid)) :=
    alters_logOp s _ _
  unfold H3Session.unblockStep at hs
  change (if !s.writeBlocks sid then _ else _) = some s' at hs
  unfold unblocks
  cases hb : s.writeBlocks sid with
  | false =>
    rw [hb, Bool.not_false, if_pos rfl] at hs
    split_ifs at hs
    cases hs
    exact ⟨s, .refl s, rfl⟩
  | true =>
    rw [hb, Bool.not_true, if_neg Bool.false_ne_true] at hs
    split_ifs at hs with hq
    · cases hs
      rw [hq]
      exact ⟨s, .refl s, hb, rfl⟩
    · rw [Bool.not_eq_true] at hq
      rw [hq]
      split at hs
      · rename_i full
        cases hs
        refine ⟨_, hasked, ?_⟩
        cases full with
        | true => rfl
        | false =>
          refine ⟨?_, rfl⟩
          unfold H3Session.writeBlocks H3Session.has
          rw [H3Session.logOp_obj]
          exact hb
      · cases hs

variable {act : Action} {w w' : Blocking}

/-- What a step does to the write blocks, those of the session and those of nghttp3. -/
inductive Reblocks (conf : SessionConf) (w w' : Blocking) : Prop
  | kept (hs : Alters conf (fun _ => True) (fun _ _ => False) w.sys.session w'.sys.session)
      (hheld : w'.held = w.held)
  | lifted {t : H3Session} {sid : ℤ} (ht : Alters conf (fun _ => True) (fun _ _ => False) w.sys.session t)
      (hb : t.writeBlocks sid) (hs : w'.sys.session = t.unblockStream sid)
      (hheld : w'.held = Function.update w.held sid false)
  | set {sid : ℤ} (hsid : writesTo w.sys.pc = some sid) (hs : w'.sys.session = w.sys.session.blockStream sid)
      (hheld : w'.held = if w.sys.session.writeBlocks sid then w.held else Function.update w.held sid true)

/-- Inside `flush_nghttp3` the event thread makes one of its steps. -/
theorem eventStep_flush {σ σ' : State} {origin : FlushFrom} {pc : FlushPc} {a : Answer}
    (hpc : σ.pc = .flush origin pc) (hne : pc ≠ .returned) (h : σ.eventStep conf a = some σ') :
    ∃ s pc', flushStep conf σ.session pc a = some (s, pc') ∧ σ' = ⟨s, .flush origin pc', σ.tasks⟩ := by
  unfold State.eventStep at h
  rw [hpc] at h
  cases pc with
  | returned => exact absurd rfl hne
  | _ =>
    obtain ⟨⟨s, pc'⟩, hf, rfl⟩ := Option.map_eq_some_iff.mp h
    exact ⟨s, pc', hf, rfl⟩

theorem step_reblocks (hs : w.step conf act = some w') : Reblocks conf w w' := by
  obtain ⟨σ', hσ, rfl⟩ := Option.map_eq_some_iff.mp hs
  have hother : act.setsBlock w.sys.pc = none → w.heldAfter act = w.held → Reblocks conf w ⟨σ', w.heldAfter act⟩ := by
    intro hnone hheld
    refine .kept (step_alters (fun _ _ => trivial) ?_ hσ) hheld
    intro x hx
    rw [hnone] at hx
    cases hx
  cases act with
  | worker i a => exact hother rfl rfl
  | event a =>
    change w.sys.eventStep conf a = some σ' at hσ
    obtain ⟨⟨s, pc, tasks⟩, held⟩ := w
    cases pc with
    | flush origin pc =>
      cases pc with
      | unblock rest =>
        cases rest with
        | nil => exact hother rfl rfl
        | cons sid rest =>
          have hpc : (⟨s, .flush origin (.unblock (sid :: rest)), tasks⟩ : State).pc = _ := rfl
          obtain ⟨s', pc', hf, rfl⟩ := eventStep_flush hpc nofun hσ
          obtain ⟨s₁, hs₁, he⟩ := Option.map_eq_some_iff.mp hf
          cases he
          obtain ⟨t, ht, hcase⟩ := @unblockStep_cases conf _ _ _ _ hs₁
          have hheld : Blocking.heldAfter ⟨⟨s, .flush origin (.unblock (sid :: rest)), tasks⟩, held⟩ (.event a) =
              if unblocks s sid a then Function.update held sid false else held := rfl
          split_ifs at hcase hheld with hu
          · exact .lifted ht hcase.1 hcase.2 hheld
          · subst hcase
            exact .kept ht hheld
      | offsets blocked =>
        cases blocked with
        | none => exact hother rfl rfl
        | some sid =>
          have hpc : (⟨s, .flush origin (.offsets (some sid)), tasks⟩ : State).pc = _ := rfl
          obtain ⟨s', pc', hf, rfl⟩ := eventStep_flush hpc nofun hσ
          cases a with
          | returned err =>
            cases hf
            exact .set rfl rfl rfl
          | callback cb =>
            cases hf
            exact .kept (Alter.callback s cb trivial).alters rfl
          | _ => cases hf
      | _ => exact hother rfl rfl
    | _ => exact hother rfl rfl

variable {σ σ' : State}

private theorem writesTo_flushStep {origin : FlushFrom} {pc pc' : FlushPc} {a : Answer}
    (hw : ∀ sid, writesTo (.flush origin pc) = some sid → sid ∈ s.streams)
    (hs : flushStep conf s pc a = some (s', pc')) (sid : ℤ)
    (hsid : writesTo (.flush origin pc') = some sid) : sid ∈ s'.streams := by
  unfold flushStep at hs
  split at hs
  · cases hs
    cases hsid
  · obtain ⟨s₁, -, he⟩ := Option.map_eq_some_iff.mp hs
    cases he
    cases hsid
  · cases hs
    cases hsid
  · cases hs
    cases hsid
  · cases hs
    cases hsid
  · cases hs
    split_ifs at hsid with hin
    · cases hsid
      exact hin.1
    · cases hsid
  · rename_i sid' blocked broken
    cases hs
    have hlog : (s.logOp .write (s.qstream sid')).streams = s.streams := by
      cases s.qstream sid' <;> rfl
    rw [hlog]
    split_ifs at hsid
    · cases hsid
      exact hw _ rfl
    · cases hsid
  · rename_i blocked cb
    cases hs
    unfold H3Session.callback
    split_ifs
    · rw [(deliver_table conf s cb).1]
      exact hw sid hsid
    · exact hw sid hsid
  · cases hs
    cases hsid
  · cases hs

private theorem flushStart_writesTo (s : H3Session) (origin : FlushFrom) :
    writesTo (.flush origin s.flushStart) = none := by
  unfold H3Session.flushStart
  split_ifs <;> rfl

private theorem writesTo_step (hw : ∀ sid, writesTo σ.pc = some sid → sid ∈ σ.session.streams)
    (h : σ.step conf act = some σ') (sid : ℤ) (hsid : writesTo σ'.pc = some sid) :
    sid ∈ σ'.session.streams := by
  cases act with
  | worker i w =>
    obtain ⟨t, -, h⟩ := Option.bind_eq_some_iff.mp h
    obtain ⟨⟨s, p⟩, hw', h⟩ := Option.bind_eq_some_iff.mp h
    cases h
    have hstreams : s.streams = σ.session.streams := (aside_workerStep hw').streams
    rw [hstreams]
    exact hw sid hsid
  | event a =>
    cases hpc' : σ'.pc with
    | flush origin pc' =>
      rw [hpc'] at hsid
      rcases eventStep_in_flush h hpc' with ⟨pc, hpc, hf⟩ | ⟨rfl, -⟩
      · rw [hpc] at hw
        exact writesTo_flushStep hw hf sid hsid
      · rw [flushStart_writesTo] at hsid
        cases hsid
    | _ =>
      rw [hpc'] at hsid
      cases hsid

/-- The bookkeeping of write blocks is right, and a stream that is being written to is tracked. -/
structure Blocking.Exact (w : Blocking) : Prop where
  marked : w.sys.session.Marked w.held
  writing : ∀ sid, writesTo w.sys.pc = some sid → sid ∈ w.sys.session.streams

theorem Blocking.Exact.step (h : w.Exact) (hs : w.step conf act = some w') : w'.Exact := by
  have hwriting : ∀ sid, writesTo w'.sys.pc = some sid → sid ∈ w'.sys.session.streams := by
    obtain ⟨σ', hσ, rfl⟩ := Option.map_eq_some_iff.mp hs
    exact writesTo_step h.writing hσ
  refine ⟨?_, hwriting⟩
  cases step_reblocks hs with
  | kept hs hheld =>
    rw [hheld]
    exact hs.marked h.marked
  | lifted ht hb hs hheld =>
    rw [hs, hheld]
    exact (ht.marked h.marked).unblockStream hb
  | set hsid hs hheld =>
    rw [hs, hheld]
    exact h.marked.blockStream (h.writing _ hsid)

theorem exact_reach {w : Blocking} (h : Reach (Blocking.step conf) anyStep .start w) : w.Exact :=
  h.invariant ⟨⟨H3Session.balanced_new, nofun, nofun⟩, nofun⟩ fun _ _ _ hw _ hs => hw.step hs

/-- In every state, `blocked_streams` is the number of tracked streams that are write-blocked, and
every tracked stream that nghttp3 holds blocked is one of them; so when the counter is not positive
there is none to unblock. -/
theorem write_blocks_exact {w : Blocking} (h : Reach (Blocking.step conf) anyStep .start w) :
    w.sys.session.streams.Nodup ∧
      w.sys.session.blockedStreams =
        w.sys.session.streams.countP (fun sid => w.sys.session.has sid (·.writeBlocked)) ∧
      0 ≤ w.sys.session.blockedStreams ∧
      (∀ sid ∈ w.sys.session.streams, w.held sid → w.sys.session.has sid (·.writeBlocked)) ∧
      (w.sys.session.blockedStreams ≤ 0 → ∀ sid ∈ w.sys.session.streams,
        w.sys.session.has sid (·.writeBlocked) = false ∧ w.held sid = false) := by
  have hexact := exact_reach h
  have htally := hexact.marked.balanced.tally
  refine ⟨htally.nodup, htally.count, htally.nonneg, hexact.marked.blocked, ?_⟩
  intro hzero sid hsid
  have hunset := htally.unset_of_nonpos hzero sid
  refine ⟨hunset, ?_⟩
  by_contra hheld
  have hset := hexact.marked.blocked sid hsid (by simpa using hheld)
  rw [hunset] at hset
  cases hset

end

/-- Two control streams are blocked in one flush; in the next one the transport has room for the
first again. -/
def twoBlocked : List Action :=
  openSession ++
    ([.event (.noMore [3, 7, 11]), .event .go, .event .go, .event .go, .event .go, .event .go,
      .event (.writevData 3), .event (.wrote true false), .event (.returned none),
      .event (.writevData 7), .event (.wrote true false), .event (.returned none), .event .writevEmpty,
      .event .go, .event .go, .event .go, .event (.flag false), .event (.flag true), .event .go] : List Action)

theorem write_blocks_exact_twoBlocked :
    ∃ w, Reach (Blocking.step sampleConf) anyStep .start w ∧ w.sys.session.blockedStreams = 1 ∧
      w.held 3 = false ∧ w.held 7 = true ∧ w.sys.session.has 7 (·.writeBlocked) := by
  have hrun : (runActions (Blocking.step sampleConf) .start twoBlocked).map
      (fun w => (w.sys.session.blockedStreams, w.held 3, w.held 7, w.sys.session.streams)) =
        some (1, false, true, [3, 7, 11]) := by
    decide +kernel
  obtain ⟨w, hw, he⟩ := Option.map_eq_some_iff.mp hrun
  simp only [Prod.mk.injEq] at he
  obtain ⟨hcount, h3, h7, hstreams⟩ := he
  have hr := Reach.of_runActions _ hw
  refine ⟨w, hr, hcount, h3, h7, (write_blocks_exact hr).2.2.2.1 7 ?_ h7⟩
  rw [hstreams]
  decide

end ModHttp3.System
