import Mathlib.Order.Monotone.Basic
import Mathlib.Tactic.Common

/-! Runs of a labelled transition system. `ok` restricts the steps a run may take;
an invariant of every run takes it to be trivial. -/
namespace ModHttp3.Lib

/-- The states reached from `init` by steps that `ok` admits. -/
inductive Reach {σ α : Type*} (step : σ → α → Option σ) (ok : σ → α → Prop) (init : σ) : σ → Prop
  | start : Reach step ok init init
  | next {s t : σ} {a : α} (hr : Reach step ok init s) (hok : ok s a) (hs : step s a = some t) :
      Reach step ok init t

/-- Every action is admitted. -/
def anyStep {σ α : Type*} : σ → α → Prop := fun _ _ => True

/-- Execute a list of actions, failing at the first one that is not enabled. -/
def runActions {σ α : Type*} (step : σ → α → Option σ) : σ → List α → Option σ
  | s, [] => some s
  | s, a :: as => (step s a).bind fun t => runActions step t as

/-- Execute a list of actions, failing also at the first one that `ok` does not admit. -/
def runChecked {σ α : Type*} (step : σ → α → Option σ) (ok : σ → α → Prop)
    [∀ s a, Decidable (ok s a)] : σ → List α → Option σ
  | s, [] => some s
  | s, a :: as => if ok s a then (step s a).bind fun t => runChecked step ok t as else none

/-- An infinite run by the actions `acts`, which need only be enabled as long as `inside` holds. -/
structure RunsWhile {σ α : Type*} (step : σ → α → Option σ) (inside : σ → Prop) (init : σ)
    (run : ℕ → σ) (acts : ℕ → α) : Prop where
  begins : run 0 = init
  goes : ∀ n, inside (run n) → step (run n) (acts n) = some (run (n + 1))

section
variable {σ α : Type*} {step : σ → α → Option σ} {ok ok' : σ → α → Prop} {init : σ}

/-- A property of the initial state that admitted steps preserve holds along every run. -/
theorem Reach.invariant {I : σ → Prop} (h0 : I init)
    (hstep : ∀ s a t, I s → ok s a → step s a = some t → I t)
    {s : σ} (h : Reach step ok init s) : I s := by
  induction h with
  | start => exact h0
  | next _ hok hs ih => exact hstep _ _ _ ih hok hs

theorem Reach.mono (hle : ∀ s a, ok s a → ok' s a) {s : σ} (h : Reach step ok init s) :
    Reach step ok' init s := by
  induction h with
  | start => exact .start
  | next _ hok hs ih => exact .next ih (hle _ _ hok) hs

theorem Reach.trans {s t : σ} (h : Reach step ok init s) (h' : Reach step ok s t) :
    Reach step ok init t := by
  induction h' with
  | start => exact h
  | next _ hok hs ih => exact .next ih hok hs

theorem Reach.of_runActions (as : List α) {s t : σ} (h : runActions step s as = some t) :
    Reach step anyStep s t := by
  induction as generalizing s with
  | nil =>
    cases h
    exact .start
  | cons a as ih =>
    obtain ⟨u, hu, ht⟩ := Option.bind_eq_some_iff.mp h
    exact (Reach.next .start trivial hu).trans (ih ht)

theorem Reach.of_runChecked [∀ s a, Decidable (ok s a)] (as : List α) {s t : σ}
    (h : runChecked step ok s as = some t) : Reach step ok s t := by
  induction as generalizing s with
  | nil =>
    cases h
    exact .start
  | cons a as ih =>
    unfold runChecked at h
    split at h
    · rename_i hok
      obtain ⟨u, hu, ht⟩ := Option.bind_eq_some_iff.mp h
      exact (Reach.next .start hok hu).trans (ih ht)
    · cases h

/-- A run takes no more steps of one kind than a measure allows that they bring down. -/
theorem runChecked_bound [∀ s a, Decidable (ok s a)] {I : σ → Prop} (left : σ → ℕ) (own : α → Bool)
    (hstep : ∀ s a t, I s → ok s a → step s a = some t → I t ∧ left t + (if own a then 1 else 0) ≤ left s)
    (as : List α) {s t : σ} (h : runChecked step ok s as = some t) (hI : I s) :
    I t ∧ left t + as.countP own ≤ left s := by
  induction as generalizing s with
  | nil =>
    cases h
    exact ⟨hI, Nat.le_refl _⟩
  | cons a as ih =>
    unfold runChecked at h
    split at h
    · rename_i hok
      obtain ⟨u, hu, ht⟩ := Option.bind_eq_some_iff.mp h
      obtain ⟨hIu, hleft⟩ := hstep _ _ _ hI hok hu
      obtain ⟨hIt, hrest⟩ := ih ht hIu
      refine ⟨hIt, ?_⟩
      rw [List.countP_cons]
      omega
    · cases h

end

section
variable {σ α : Type*} {step : σ → α → Option σ} {inside : σ → Prop} {init : σ} {run : ℕ → σ} {acts : ℕ → α}

theorem RunsWhile.reach (h : RunsWhile step inside init run acts) {n : ℕ} (hin : ∀ m < n, inside (run m)) :
    Reach step (fun s _ => inside s) init (run n) := by
  induction n with
  | zero =>
    rw [h.begins]
    exact .start
  | succ n ih =>
    have hn := hin n n.lt_succ_self
    exact (ih fun m hm => hin m (hm.trans n.lt_succ_self)).next hn (h.goes n hn)

/-- A run that has left the loop may rest. -/
theorem RunsWhile.of_runChecked [DecidablePred inside] (a : α) (as : List α) {s t : σ}
    (h : runChecked step (fun s _ => inside s) s as = some t) (hout : ¬inside t) :
    ∃ run acts, RunsWhile step inside s run acts ∧ ∀ n, as.length ≤ n → run n = t := by
  induction as generalizing s with
  | nil =>
    cases h
    exact ⟨fun _ => t, fun _ => a, ⟨rfl, fun n hin => absurd hin hout⟩, fun n _ => rfl⟩
  | cons b as ih =>
    unfold runChecked at h
    split at h
    · obtain ⟨u, hu, ht⟩ := Option.bind_eq_some_iff.mp h
      obtain ⟨run, acts, hrun, hend⟩ := ih ht
      refine ⟨fun n => n.casesOn s run, fun n => n.casesOn b acts, ⟨rfl, fun n hin => ?_⟩, fun n hn => ?_⟩
      · cases n with
        | zero => exact hu.trans (congrArg some hrun.begins.symm)
        | succ n => exact hrun.goes n hin
      · cases n with
        | zero => cases hn
        | succ n => exact hend n (Nat.le_of_succ_le_succ hn)
    · cases h

/-- A loop is left at last, if again and again a step is taken that brings its end nearer, and the others do
not move it. -/
theorem RunsWhile.leaves (h : RunsWhile step inside init run acts) (left : σ → ℕ) (own : σ → α → Bool)
    (hnear : ∀ s a t, Reach step (fun s _ => inside s) init s → inside s → step s a = some t →
      if own s a then left t < left s else left t = left s)
    (hagain : ∀ n, ∃ m, n ≤ m ∧ (inside (run m) → own (run m) (acts m))) :
    ∃ n, Reach step (fun s _ => inside s) init (run n) ∧ ¬inside (run n) := by
  by_contra hnever
  have hin : ∀ n, inside (run n) := by
    intro n
    induction n using Nat.strongRecOn with
    | ind n ih => exact not_not.mp fun hout => hnever ⟨n, h.reach ih, hout⟩
  have hstep : ∀ n, if own (run n) (acts n) then left (run (n + 1)) < left (run n)
      else left (run (n + 1)) = left (run n) :=
    fun n => hnear _ _ _ (h.reach fun m _ => hin m) (hin n) (h.goes n (hin n))
  have hanti : Antitone fun n => left (run n) := by
    refine antitone_nat_of_succ_le fun n => ?_
    have hn := hstep n
    split_ifs at hn
    · exact hn.le
    · exact hn.le
  -- the steps of the loop's own would take the measure below every number
  have hbelow : ∀ k n, k ≤ left (run n) := by
    intro k
    induction k with
    | zero => exact fun n => Nat.zero_le _
    | succ k ih =>
      intro n
      obtain ⟨m, hnm, hown⟩ := hagain n
      have hm := hstep m
      rw [if_pos (hown (hin m))] at hm
      exact (Nat.succ_le_of_lt ((ih (m + 1)).trans_lt hm)).trans (hanti hnm)
  exact absurd (hbelow (left (run 0) + 1) 0) (Nat.not_succ_le_self _)

end

end ModHttp3.Lib
