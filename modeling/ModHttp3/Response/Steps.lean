import ModHttp3.Response.Filter

/-! What a step of a request does, with what must hold for it. -/
namespace ModHttp3.Response
open Lib

namespace Request

inductive Move (conf : RequestConf) (σ : Request) : RequestAction → Request → Prop
  | passed {mainRequest : Bool} {bb : List Bucket} (hw : σ.worker = .handler) :
      Move conf σ (.pass mainRequest bb)
        { σ with
          worker := if mainRequest then .filter bb else .handler
          passed := σ.passed ++ brigadeBytes bb }
  | bucket {accepted headerOnly : Bool} {b : Bucket} {bb : List Bucket} (hw : σ.worker = .filter (b :: bb)) :
      Move conf σ (.bucket accepted headerOnly) (σ.filterBucket conf accepted headerOnly b bb)
  | filtered {accepted headerOnly : Bool} (hw : σ.worker = .filter []) :
      Move conf σ (.bucket accepted headerOnly) σ.filterReturns
  | append {malloc : Option Addr} {data : Bytes} {offset : ℕ} {x : AppendStep × Queue}
      (hp : σ.core.producer = some (data, offset)) (hm : ∀ a, malloc = some a → σ.core.queue.chunks.mem a = none)
      (hx : h3StreamResponseAppend conf.sizeMax σ.core.flags data offset malloc σ.core.queue = some x) :
      Move conf σ (.append malloc) (σ.afterAppend data offset x)
  | waitFails {p : Bytes × ℕ} (hp : σ.core.producer = some p)
      (hwait : appendWaits σ.core.flags σ.core.queue.toResponseCtl) :
      Move conf σ .waitFails
        { σ with core := { σ.core with producer := none }, worker := appendReturns false σ.worker }
  | endOfStream {bb : List Bucket} (hw : σ.worker = .ending bb) :
      Move conf σ .endOfStream (σ.completed.filterNext bb)
  | endHandler (hw : σ.worker = .handler) : Move conf σ .endHandler { σ with worker := .finishing }
  | respond {accepted : Bool} (hw : σ.worker = .finishing) : Move conf σ (.respond accepted) (σ.finish accepted)
  | complete (hw : σ.worker = .completing) : Move conf σ .complete { σ.completed with worker := .finished }
  | read {veccnt : ℕ} {x : ReadData × Queue} (hs : σ.serving) (hsub : σ.core.queue.responseSubmitted)
      (hv : 1 ≤ veccnt) (hx : h3SessionReadData veccnt σ.core.queue = some x) :
      Move conf σ (.read veccnt) (σ.afterRead x)
  | ack {now : ℤ} {datalen : ℕ} {q : Queue} (hn : σ.core.acked + datalen ≤ σ.core.handed.length)
      (hq : h3StreamResponseAckLocked now datalen σ.core.queue = some q) :
      Move conf σ (.ack now datalen) { σ with core := { σ.core with queue := q, acked := σ.core.acked + datalen } }
  | abandoned {stallTimeout now : ℤ} (hs : responseStalled stallTimeout now σ.core.queue.toResponseCtl) :
      Move conf σ (.abandon stallTimeout now) σ.cancel
  | waited {stallTimeout now : ℤ} (hs : ¬ responseStalled stallTimeout now σ.core.queue.toResponseCtl) :
      Move conf σ (.abandon stallTimeout now) σ
  | stopSending (ho : σ.isOpen) : Move conf σ .stopSending σ.cancel
  | resetStream (ho : σ.isOpen) : Move conf σ .resetStream σ.cancel
  | streamClose (ho : σ.isOpen) : Move conf σ .streamClose { σ.cancel with isOpen := false }
  | abort :
      Move conf σ .abort { σ with core := { σ.core with flags := { σ.core.flags with aborted := true } } }
  | dead :
      Move conf σ .dead { σ with core := { σ.core with flags := { σ.core.flags with ngh3Dead := true } } }

theorem step_move {conf : RequestConf} {σ σ' : Request} {a : RequestAction} (h : σ.step conf a = some σ') :
    Move conf σ a σ' := by
  unfold step at h
  split_ifs at h with hen
  cases a with
  | pass mainRequest bb =>
    cases h
    exact .passed (beq_iff_eq.mp hen)
  | bucket accepted headerOnly =>
    cases hw : σ.worker with
    | filter bb =>
      simp only [exec, hw] at h
      cases bb with
      | nil =>
        cases h
        exact .filtered hw
      | cons b bb =>
        cases h
        exact .bucket hw
    | _ =>
      simp only [enabled, hw] at hen
      cases hen
  | append malloc =>
    simp only [enabled, Bool.and_eq_true, Option.all_eq_true, Option.isNone_iff_eq_none] at hen
    obtain ⟨⟨data, offset⟩, hp⟩ := Option.isSome_iff_exists.mp hen.1
    simp only [exec, hp] at h
    obtain ⟨x, hx, rfl⟩ := Option.map_eq_some_iff.mp h
    exact .append hp hen.2 hx
  | waitFails =>
    obtain ⟨hp, hwait⟩ := Bool.and_eq_true_iff.mp hen
    obtain ⟨p, hp⟩ := Option.isSome_iff_exists.mp hp
    cases h
    exact .waitFails hp hwait
  | endOfStream =>
    cases hw : σ.worker with
    | ending bb =>
      simp only [exec, hw] at h
      cases h
      exact .endOfStream hw
    | _ =>
      simp only [enabled, hw] at hen
      cases hen
  | endHandler =>
    cases h
    exact .endHandler (beq_iff_eq.mp hen)
  | respond accepted =>
    cases h
    exact .respond (beq_iff_eq.mp hen)
  | complete =>
    cases h
    exact .complete (beq_iff_eq.mp hen)
  | read veccnt =>
    simp only [enabled, Bool.and_eq_true, decide_eq_true_eq] at hen
    obtain ⟨x, hx, rfl⟩ := Option.map_eq_some_iff.mp h
    exact .read hen.1.1 hen.1.2 hen.2 hx
  | ack now datalen =>
    obtain ⟨q, hq, rfl⟩ := Option.map_eq_some_iff.mp h
    exact .ack (of_decide_eq_true hen) hq
  | abandon stallTimeout now =>
    cases h
    split_ifs with hs
    · exact .abandoned hs
    · exact .waited hs
  | stopSending =>
    cases h
    exact .stopSending hen
  | resetStream =>
    cases h
    exact .resetStream hen
  | streamClose =>
    cases h
    exact .streamClose hen
  | abort =>
    cases h
    exact .abort
  | dead =>
    cases h
    exact .dead

end Request

end ModHttp3.Response
