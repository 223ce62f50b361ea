import ModHttp3.Session.Faults
import ModHttp3.System.Alter

/-! How rejected streams are counted against `h3_max_stream_errors`. -/
namespace ModHttp3.System
open Session Lib

/-- The stream that the event thread is reading or rejecting. -/
def EventPc.reads : EventPc → Option ℤ
  | .drain _ pc => pc.reads
  | _ => none

/-- The event thread is inside a visit or a flush that it would not have begun on a dead session. -/
def EventPc.live : EventPc → Bool
  | .drain _ pc => pc.reads.isSome
  | .flush _ pc => pc != .returned
  | _ => false

/-- The stream whose rejection this step counts. -/
def EventPc.rejects : EventPc → Action → Option ℤ
  | .drain _ pc, .event a => pc.rejects a
  | _, _ => none

/-- The system with the streams that were rejected, the last one first. -/
structure Rejecting where
  sys : State
  rejected : List ℤ

namespace Rejecting

def start : Rejecting := ⟨.start, []⟩

def step (conf : SessionConf) (w : Rejecting) (act : Action) : Option Rejecting :=
  (w.sys.step conf act).map fun σ => ⟨σ, (w.sys.pc.rejects act).toList ++ w.rejected⟩

end Rejecting

/-- What a step does to the faults of the session. -/
inductive Fault (conf : SessionConf) (σ : State) (act : Action) (σ' : State) : Prop
  | same (hr : σ.pc.rejects act = none) (hf : σ'.session.faults = σ.session.faults)
      (hlive : σ'.pc.live → σ.pc.live ∨ σ.session.ngh3Dead = false)
      (hreads : ∀ sid, σ'.pc.reads = some sid → σ.pc.reads = some sid ∨
        ∃ o, σ.session.obj sid = some o ∧ o.done = false)
  | died (err : LibErr) (hr : σ.pc.rejects act = none) (hlive : σ.pc.live)
      (hf : σ'.session.faults = σ.session.faults.die err) (hlive' : σ'.pc.live = false)
      (hreads' : σ'.pc.reads = none)
  | counted (sid : ℤ) (hr : σ.pc.rejects act = some sid) (hreads : σ.pc.reads = some sid)
      (hf : σ'.session.faults = σ.session.faults.count conf) (hlive' : σ'.pc.live = false)
      (hreads' : σ'.pc.reads = none)
      (hdone : ∀ o, σ.session.obj sid = some o → ∃ o', σ'.session.obj sid = some o' ∧ o'.done)

section
variable {conf : SessionConf} {σ σ' : State} {act : Action}

private theorem rejects_of_between {pc : EventPc} (h : pc.between) (act : Action) : pc.rejects act = none := by
  cases pc with
  | drain d pc =>
    cases beq_iff_eq.mp h
    cases act <;> rfl
  | _ => rfl

private theorem flushStart_live (s : H3Session) (h : s.flushStart ≠ .returned) : s.ngh3Dead = false := by
  unfold H3Session.flushStart at h
  split_ifs at h with hdead
  · exact absurd rfl h
  · exact Bool.not_eq_true _ ▸ hdead
  · exact Bool.not_eq_true _ ▸ hdead

theorem live_flush {origin : FlushFrom} {pc : FlushPc} : (EventPc.flush origin pc).live ↔ pc ≠ .returned := by
  unfold EventPc.live
  simp

private theorem flushStep_fault {origin : FlushFrom} {pc pc' : FlushPc} {a : Answer} {s : H3Session}
    (hpc : σ.pc = .flush origin pc) (hf : flushStep conf σ.session pc a = some (s, pc')) :
    Fault conf σ (.event a) ⟨s, .flush origin pc', σ.tasks⟩ := by
  obtain ⟨hne, hsame | ⟨rfl, err, hdie⟩⟩ := flushStep_faults hf
  · refine .same ?_ hsame (fun _ => .inl ?_) nofun
    · rw [hpc]
      rfl
    · rw [hpc]
      exact live_flush.mpr hne
  · refine .died err ?_ ?_ hdie rfl rfl
    · rw [hpc]
      rfl
    · rw [hpc]
      exact live_flush.mpr hne

private theorem drain_fault {d d' : Drain} {pc pc' : DrainPc} {a : Answer} {s : H3Session} (hpc : σ.pc = .drain d pc)
    (hd : drainStep conf σ.session d pc a = some (s, d', pc')) :
    Fault conf σ (.event a) ⟨s, .drain d' pc', σ.tasks⟩ := by
  have hreads : σ.pc.reads = pc.reads := by
    rw [hpc]
    rfl
  have hrejects : σ.pc.rejects (.event a) = pc.rejects a := by
    rw [hpc]
    rfl
  have hlive : σ.pc.live = pc.reads.isSome := by
    rw [hpc]
    rfl
  have hquiet : pc'.reads = none → (EventPc.drain d' pc').live = false := by
    intro hnone
    change pc'.reads.isSome = false
    rw [hnone]
    rfl
  cases drainStep_fault hd with
  | same hr hf hpc' =>
    refine .same (hrejects.trans hr) hf (fun h => ?_) fun x hx => ?_
    · obtain ⟨x, hx⟩ := Option.isSome_iff_exists.mp h
      rcases hpc' x hx with hx | ⟨halive, -⟩
      · rw [hlive, hx]
        exact .inl rfl
      · exact .inr halive
    · rcases hpc' x hx with hx | ⟨-, hx⟩
      · exact .inl (hreads.trans hx)
      · exact .inr hx
  | died err hr hlive' hf hpc' => exact .died err (hrejects.trans hr) (hlive.trans hlive') hf (hquiet hpc') hpc'
  | counted x hr hx hf hpc' hdone =>
    exact .counted x (hrejects.trans hr) (hreads.trans hx) hf (hquiet hpc') hpc' hdone

/-- A step outside drains and flushes that leaves the faults alone. -/
theorem Fault.quiet (hr : σ.pc.rejects act = none) (hf : σ'.session.faults = σ.session.faults)
    (hlive : σ'.pc.live = false) (hreads : σ'.pc.reads = none) : Fault conf σ act σ' := by
  refine .same hr hf (fun h => ?_) fun x hx => ?_
  · rw [hlive] at h
    cases h
  · rw [hreads] at hx
    cases hx

theorem setsFlags_faults {s s' : H3Session} (h : SetsFlags s s') : s'.faults = s.faults := by
  rcases h with rfl | rfl | rfl <;> rfl

private theorem pushStep_faults {s s' : H3Session} {t : Task} {a : Answer} {p : Phase} {back : Bool}
    (h : pushStep s t a = some (s', p, back)) : s'.faults = s.faults := by
  cases pushStep_push h <;> rfl

theorem workerStep_faults {s s' : H3Session} {free : Bool} {t : Task} {w : WorkerAct} {p : Phase}
    (h : workerStep s free t w = some (s', p)) : s'.faults = s.faults := by
  cases workerStep_work h <;> rfl

/-- A turn of the event thread reads no stream, and enters a flush only if nghttp3 is alive. -/
private theorem turn_fault {a : Answer} {s : H3Session} {pc : EventPc} (h : σ.step conf (.event a) = some ⟨s, pc, σ.tasks⟩)
    (hpc : σ.pc.between) (hpc' : pc.afterTurn) (hs : SetsFlags σ.session s) :
    Fault conf σ (.event a) ⟨s, pc, σ.tasks⟩ := by
  have hr := rejects_of_between hpc (.event a)
  cases pc with
  | flush origin pc' =>
    refine .same hr (setsFlags_faults hs) (fun hlive => ?_) nofun
    rcases eventStep_in_flush h rfl with ⟨pc, hflush, hf⟩ | ⟨rfl, -⟩
    · rw [hflush] at hpc
      exact absurd (beq_iff_eq.mp hpc) (flushStep_faults hf).1
    · exact .inr (flushStart_live _ (live_flush.mp hlive))
  | drain d pc' => cases hpc'
  | _ => exact .quiet hr (setsFlags_faults hs) rfl rfl

theorem step_fault (h : σ.step conf act = some σ') : Fault conf σ act σ' := by
  cases step_move h with
  | opened hpc hans hall =>
    refine .quiet ?_ (createControlStreams_faults _ hans) rfl rfl
    rw [hpc]
    rfl
  | openFailed hpc hans hall =>
    refine .quiet ?_ ((destroy_faults _).trans (createControlStreams_faults _ hans)) rfl rfl
    rw [hpc]
    rfl
  | destroyed hpc =>
    refine .quiet ?_ (destroy_faults _) rfl rfl
    rcases hpc with hpc | ⟨hpc, -⟩ <;> rw [hpc] <;> rfl
  | turn hpc hpc' hs hc => exact turn_fault h hpc hpc' hs
  | accepted hpc hans =>
    refine .quiet ?_ (acceptStream_faults _ _ hans) ?_ ?_
    · rw [hpc]
      rfl
    · change σ.pc.live = false
      rw [hpc]
      rfl
    · change σ.pc.reads = none
      rw [hpc]
      rfl
  | drainStart hpc horder =>
    refine .quiet ?_ rfl rfl rfl
    rw [hpc]
    rfl
  | drain hpc hd => exact drain_fault hpc hd
  | flush hpc hf => exact flushStep_fault hpc hf
  | abandon hpc =>
    refine .quiet ?_ (abandon_faults _ _) rfl rfl
    rw [hpc]
    rfl
  | reserved hpc hfree =>
    refine .quiet ?_ rfl rfl rfl
    rw [hpc]
    rfl
  | @push a i rest t s p back hpc ht hp =>
    refine .quiet ?_ (pushStep_faults hp) ?_ ?_
    · rw [hpc]
      rfl
    · cases back <;> rfl
    · cases back <;> rfl
  | worker ht hw =>
    refine .same ?_ (workerStep_faults hw) .inl fun x hx => .inl hx
    unfold EventPc.rejects
    split <;> trivial

end

section
variable {conf : SessionConf} {w w' : Rejecting} {act : Action}

/-- The invariant. A stream that is read has not been rejected, and once nghttp3 is dead nothing
is read or written any more. -/
structure Charged (conf : SessionConf) (w : Rejecting) : Prop where
  count : w.sys.session.streamErrors = w.rejected.length
  nodup : w.rejected.Nodup
  done : ∀ sid ∈ w.rejected, ∃ o, w.sys.session.obj sid = some o ∧ o.done
  reads : ∀ sid, w.sys.pc.reads = some sid → sid ∉ w.rejected ∧ (w.sys.session.obj sid).isSome
  live : w.sys.pc.live → w.sys.session.ngh3Dead = false
  alive : w.sys.session.ngh3Dead = false → w.rejected.length ≤ conf.maxStreamErrors ∧
    w.sys.session.abortCause = none
  dead : conf.maxStreamErrors < w.rejected.length ↔ w.sys.session.abortCause = some .excessiveLoad
  most : w.rejected.length ≤ conf.maxStreamErrors + 1

private theorem charged_start (conf : SessionConf) : Charged conf .start where
  count := rfl
  nodup := List.nodup_nil
  done _ hsid := absurd hsid List.not_mem_nil
  reads := nofun
  live := nofun
  alive _ := ⟨Nat.zero_le _, rfl⟩
  dead := ⟨fun h => absurd h (Nat.not_lt_zero _), nofun⟩
  most := Nat.zero_le _

theorem Charged.step_done (hC : Charged conf w) {σ : State} (h : w.sys.step conf act = some σ) :
    ∀ sid ∈ w.rejected, ∃ o, σ.session.obj sid = some o ∧ o.done := by
  intro sid hsid
  obtain ⟨o, ho, hd⟩ := hC.done sid hsid
  obtain ⟨o', ho', hlater⟩ := step_later h ho
  exact ⟨o', ho', hlater.done hd⟩

theorem Charged.same (hC : Charged conf w) {σ : State} (h : w.sys.step conf act = some σ)
    (hf : σ.session.faults = w.sys.session.faults)
    (hlive : σ.pc.live → w.sys.pc.live ∨ w.sys.session.ngh3Dead = false)
    (hreads : ∀ sid, σ.pc.reads = some sid → w.sys.pc.reads = some sid ∨
      ∃ o, w.sys.session.obj sid = some o ∧ o.done = false) : Charged conf ⟨σ, w.rejected⟩ := by
  obtain ⟨herrors, hdead, hcause⟩ := Faults.mk.inj hf
  refine ⟨herrors.trans hC.count, hC.nodup, hC.step_done h, fun sid hsid => ?_, fun hl => ?_, ?_, ?_, hC.most⟩
  · have hobj : sid ∉ w.rejected ∧ ∃ o, w.sys.session.obj sid = some o := by
      rcases hreads sid hsid with hold | ⟨o, ho, hnot⟩
      · exact ⟨(hC.reads sid hold).1, Option.isSome_iff_exists.mp (hC.reads sid hold).2⟩
      · refine ⟨fun hmem => ?_, o, ho⟩
        obtain ⟨o', ho', hd⟩ := hC.done sid hmem
        rw [ho, Option.some.injEq] at ho'
        rw [ho', hd] at hnot
        cases hnot
    obtain ⟨hfresh, o, ho⟩ := hobj
    obtain ⟨o', ho', -⟩ := step_later h ho
    exact ⟨hfresh, Option.isSome_iff_exists.mpr ⟨o', ho'⟩⟩
  · exact hdead.trans ((hlive hl).elim hC.live id)
  · rw [hdead, hcause]
    exact hC.alive
  · rw [hcause]
    exact hC.dead

theorem Charged.died (hC : Charged conf w) {σ : State} {err : LibErr} (h : w.sys.step conf act = some σ)
    (hlive : w.sys.pc.live) (hf : σ.session.faults = w.sys.session.faults.die err)
    (hlive' : σ.pc.live = false) (hreads' : σ.pc.reads = none) : Charged conf ⟨σ, w.rejected⟩ := by
  obtain ⟨herrors, hdead, hcause⟩ := Faults.mk.inj hf
  have hfew := (hC.alive (hC.live hlive)).1
  refine ⟨herrors.trans hC.count, hC.nodup, hC.step_done h, ?_, ?_, ?_, ?_, hC.most⟩
  · rw [hreads']
    nofun
  · rw [hlive']
    nofun
  · rw [hdead]
    nofun
  · rw [hcause]
    exact ⟨fun hmany => absurd hfew (Nat.not_le.mpr hmany), nofun⟩

theorem Charged.counted (hC : Charged conf w) {σ : State} {sid : ℤ} (h : w.sys.step conf act = some σ)
    (hreads : w.sys.pc.reads = some sid) (hlive : w.sys.pc.live)
    (hf : σ.session.faults = w.sys.session.faults.count conf) (hlive' : σ.pc.live = false)
    (hreads' : σ.pc.reads = none)
    (hdone : ∀ o, w.sys.session.obj sid = some o → ∃ o', σ.session.obj sid = some o' ∧ o'.done) :
    Charged conf ⟨σ, sid :: w.rejected⟩ := by
  obtain ⟨hfresh, hobj⟩ := hC.reads sid hreads
  obtain ⟨o, ho⟩ := Option.isSome_iff_exists.mp hobj
  have halive := hC.live hlive
  obtain ⟨hfew, hnone⟩ := hC.alive halive
  have hlen : (sid :: w.rejected).length = w.rejected.length + 1 := rfl
  have herr : w.sys.session.faults.streamErrors = w.rejected.length := hC.count
  have hall : ∀ x ∈ sid :: w.rejected, ∃ o, σ.session.obj x = some o ∧ o.done := by
    intro x hx
    rcases List.mem_cons.mp hx with rfl | hx
    · exact hdone o ho
    · exact hC.step_done h x hx
  unfold Faults.count at hf
  rw [herr] at hf
  split_ifs at hf with hlimit
  · obtain ⟨herrors, hdead, hcause⟩ := Faults.mk.inj hf
    refine ⟨herrors, List.nodup_cons.mpr ⟨hfresh, hC.nodup⟩, hall, ?_, ?_, ?_, ?_, ?_⟩
    · rw [hreads']
      nofun
    · rw [hlive']
      nofun
    · rw [hdead]
      nofun
    · rw [hcause]
      exact ⟨fun _ => rfl, fun _ => hlimit⟩
    · dsimp only
      omega
  · obtain ⟨herrors, hdead, hcause⟩ := Faults.mk.inj hf
    refine ⟨herrors, List.nodup_cons.mpr ⟨hfresh, hC.nodup⟩, hall, ?_, ?_, fun _ => ⟨?_, ?_⟩, ?_, ?_⟩
    · rw [hreads']
      nofun
    · rw [hlive']
      nofun
    · exact Nat.not_lt.mp hlimit
    · exact hcause.trans hnone
    · have hcause' : σ.session.abortCause = none := hcause.trans hnone
      rw [hcause']
      exact ⟨fun hmany => absurd hmany hlimit, nofun⟩
    · dsimp only
      omega

theorem live_of_reads {pc : EventPc} {sid : ℤ} (h : pc.reads = some sid) : pc.live := by
  cases pc with
  | drain d pc => exact Option.isSome_iff_exists.mpr ⟨sid, h⟩
  | _ => cases h

theorem Charged.step (hC : Charged conf w) (h : w.step conf act = some w') : Charged conf w' := by
  obtain ⟨σ, hσ, rfl⟩ := Option.map_eq_some_iff.mp h
  cases step_fault hσ with
  | same hr hf hlive hreads =>
    rw [hr]
    exact hC.same hσ hf hlive hreads
  | died err hr hlive hf hlive' hreads' =>
    rw [hr]
    exact hC.died hσ hlive hf hlive' hreads'
  | counted sid hr hreads hf hlive' hreads' hdone =>
    rw [hr]
    exact hC.counted hσ hreads (live_of_reads hreads) hf hlive' hreads' hdone

private theorem charged_reach (h : Reach (Rejecting.step conf) anyStep .start w) : Charged conf w :=
  h.invariant (charged_start conf) fun _ _ _ hC _ hs => hC.step hs

/-- No stream is counted twice, and the connection is closed for stream errors, with that code to the
end, when one more has been rejected than the limit allows. -/
theorem stream_errors_exact (h : Reach (Rejecting.step conf) anyStep .start w) :
    w.rejected.Nodup ∧ w.sys.session.streamErrors = w.rejected.length ∧
    (w.rejected.length ≤ conf.maxStreamErrors → w.sys.session.abortCause ≠ some .excessiveLoad) ∧
    (conf.maxStreamErrors < w.rejected.length →
      w.sys.session.ngh3Dead ∧ w.sys.session.abortCause = some .excessiveLoad) := by
  have hC := charged_reach h
  refine ⟨hC.nodup, hC.count, fun hfew hcause => ?_, fun hmany => ⟨?_, hC.dead.mp hmany⟩⟩
  · have hmany := hC.dead.mpr hcause
    omega
  · by_contra halive
    have hfew := (hC.alive (Bool.not_eq_true _ ▸ halive)).1
    omega

end

/-- The request on stream 0 is malformed for nghttp3, the one on stream 4 for the module. -/
def twoMalformed : List Action :=
  openSession ++
    ([.event (.accepted 20 0 true), .event (.accepted 21 4 true), .event (.noMore [0, 4, 3, 7, 11]),
      .event .go, .event (.state .ok .ok), .event (.data 10), .event (.returned (some .malformedHttpHeader)),
      .event (.returned none), .event (.returned none), .event .go,
      .event .go, .event (.state .ok .ok), .event (.data 10), .event (.callback (.beginHeaders 4)),
      .event (.callback (.recvHeader 4 ⟨.path, [58], []⟩)), .event (.returned none), .event (.returned none),
      .event (.returned none), .event .go] : List Action)

theorem stream_errors_exact_twoMalformed :
    ∃ w, Reach (Rejecting.step { sampleConf with maxStreamErrors := 1 }) anyStep .start w ∧
      w.rejected = [4, 0] ∧ w.sys.session.streamErrors = 2 ∧
      w.sys.session.ngh3Dead ∧ w.sys.session.abortCause = some .excessiveLoad := by
  have hrun : (runActions (Rejecting.step { sampleConf with maxStreamErrors := 1 }) .start twoMalformed).map
      (·.rejected) = some [4, 0] := by decide +kernel
  obtain ⟨w, hw, hrejected⟩ := Option.map_eq_some_iff.mp hrun
  have hr := Reach.of_runActions _ hw
  obtain ⟨-, hcount, -, hdead⟩ := stream_errors_exact hr
  rw [hrejected] at hcount hdead
  exact ⟨w, hr, hrejected, hcount, hdead (by decide)⟩

end ModHttp3.System
