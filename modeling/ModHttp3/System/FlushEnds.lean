import Mathlib.Algebra.Order.BigOperators.Group.List
import Mathlib.Algebra.Order.Group.Nat
import ModHttp3.System.Flushing

/-! `flush_nghttp3` ends: every round of its loop takes something from the output of nghttp3 or blocks
a stream. -/
namespace ModHttp3.System
open Session Lib Quic

namespace Unsent

private theorem weight_addWriteOffset (u : Unsent) (n : ℕ) (fin : Bool) :
    (u.addWriteOffset n fin).weight + (u.bytes.length - (u.addWriteOffset n fin).bytes.length) +
      (u.fin && !(u.addWriteOffset n fin).fin).toNat = u.weight := by
  have hlen : (u.bytes.drop n).length ≤ u.bytes.length := by
    rw [List.length_drop]
    omega
  unfold weight addWriteOffset
  dsimp only
  cases u.fin with
  | false =>
    simp only [Bool.false_and, Bool.toNat_false]
    omega
  | true =>
    cases fin && decide (u.bytes.length ≤ n) with
    | false =>
      simp only [Bool.not_false, Bool.and_self, Bool.not_true, Bool.and_false, Bool.toNat_true, Bool.toNat_false]
      omega
    | true =>
      simp only [Bool.not_true, Bool.and_false, Bool.not_false, Bool.and_self, Bool.toNat_true, Bool.toNat_false]
      omega

/-- Once all that was offered is reported as written, bytes or the fin are gone. -/
private theorem offers_taken {u : Unsent} {vec : List Bytes} {fin : Bool} (h : u.offers vec fin) {n : ℕ}
    (hn : n = vec.flatten.length) :
    0 < u.bytes.length - (u.addWriteOffset n fin).bytes.length ∨
      (u.fin && !(u.addWriteOffset n fin).fin) = true := by
  unfold offers at h
  simp only [Bool.and_eq_true, Bool.or_eq_true, Bool.not_eq_true', decide_eq_true_eq, beq_iff_eq,
    List.isPrefixOf_iff_prefix] at h
  obtain ⟨⟨⟨-, hpre⟩, hsome⟩, hfin⟩ := h
  have hle : vec.flatten.length ≤ u.bytes.length := hpre.length_le
  by_cases hzero : vec.flatten.length = 0
  · right
    have hempty : vec.flatten = [] := List.eq_nil_of_length_eq_zero hzero
    have hf : fin = true := by
      rcases hsome with hs | hs
      · rw [hempty] at hs
        cases hs
      · exact hs
    subst hf
    obtain ⟨hu, hall⟩ := hfin.resolve_left nofun
    have hdone : u.bytes.length ≤ n := by
      rw [hn, hall]
    unfold addWriteOffset
    simp [hu, hdone]
  · left
    unfold addWriteOffset
    rw [List.length_drop]
    omega

end Unsent

section
variable {conf : SessionConf} {b b' : Blocking} {act : Action}

/-- A stream that the module flags as write-blocked is one that nghttp3 holds blocked. -/
def Blocking.Flagged (b : Blocking) : Prop := ∀ sid, b.sys.session.writeBlocks sid → b.held sid

theorem Blocking.Flagged.step (h : b.Flagged) (hs : b.step conf act = some b') : b'.Flagged := by
  intro x hx
  cases step_reblocks hs with
  | kept hs hheld =>
    rw [hheld]
    exact h x (hs.writeBlocks hx)
  | @lifted t sid ht hb hs hheld =>
    rw [hs, (H3Session.reblocked_unblockStream t sid).writeBlocks] at hx
    rw [hheld]
    by_cases hxs : x = sid
    · rw [hxs, Function.update_self] at hx
      cases hx
    · rw [Function.update_of_ne hxs] at hx ⊢
      exact h x (ht.writeBlocks hx)
  | @set sid hsid hs hheld =>
    rw [hs] at hx
    rw [hheld]
    cases hb : b.sys.session.writeBlocks sid with
    | true =>
      rw [H3Session.blockStream_of_blocked hb] at hx
      exact h x hx
    | false =>
      by_cases hxs : x = sid
      · rw [if_neg Bool.false_ne_true, hxs, Function.update_self]
      · rw [if_neg Bool.false_ne_true, Function.update_of_ne hxs]
        exact h x (H3Session.writeBlocks_blockStream_ne hxs hx)

end

namespace Flushing

/-- The rounds that a flush may still begin or has to account for. -/
def due (w : Flushing) : ℕ :=
  match w.pc with
  | .flush _ (.unblock _) => w.total
  | .flush _ (.offsets none) => w.potential + 1
  | _ => w.potential

/-- A bound on the steps that a flush still makes. -/
def stepsLeft (w : Flushing) : ℕ :=
  match w.pc with
  | .flush _ (.unblock rest) => 3 * w.due + rest.length + 3
  | .flush _ .writev => 3 * w.due + 2
  | .flush _ (.write _) => 3 * w.due + 1
  | .flush _ (.offsets _) => 3 * w.due
  | _ => 0

/-- What holds throughout a run. -/
structure Sound (w : Flushing) : Prop where
  flagged : w.blocking.Flagged
  writing : ∀ sid, writesTo w.pc = some sid → sid ∈ w.ids ∧ w.blocking.held sid = false
  offered : ∀ origin sid, w.pc = .flush origin (.write sid) → (w.unsent sid).offers w.vec w.fin
  blocking : ∀ origin sid, w.pc = .flush origin (.offsets (some sid)) → w.round.sid = sid
  taking : ∀ origin, w.pc = .flush origin (.offsets none) → w.round.taken ≠ 0 ∨ w.round.fin
  rounds : ∀ r ∈ w.log, r.taken ≠ 0 ∨ r.fin ∨ r.blocks
  bounded : w.pc.inFlush → w.log.length + w.due ≤ w.load

section
variable {conf : SessionConf} {w w' : Flushing}

theorem potential_le_total (w : Flushing) : w.potential ≤ w.total := by
  refine List.sum_le_sum fun sid _ => ?_
  have hle : (!w.blocking.held sid).toNat ≤ 1 := Bool.toNat_le _
  unfold share
  omega

theorem potential_congr (hunsent : w'.unsent = w.unsent) (hids : w'.ids = w.ids)
    (hheld : w'.blocking.held = w.blocking.held) : w'.potential = w.potential := by
  unfold potential share
  rw [hunsent, hids, hheld]

/-- Written output counts no more. -/
private theorem potential_consume {sid : ℤ} (hsid : sid ∈ w.ids) (n : ℕ) :
    (w.consume sid n).potential ≤ w.potential ∧
      ((w.consume sid n).round.taken ≠ 0 ∨ (w.consume sid n).round.fin →
        (w.consume sid n).potential < w.potential) := by
  have hweight := (w.unsent sid).weight_addWriteOffset n w.fin
  have hself : (w.consume sid n).share sid + (w.consume sid n).round.taken +
      (w.consume sid n).round.fin.toNat = w.share sid := by
    unfold share consume
    dsimp only
    rw [Function.update_self]
    omega
  have hle : ∀ x ∈ w.ids, (w.consume sid n).share x ≤ w.share x := by
    intro x _
    by_cases hx : x = sid
    · subst hx
      omega
    · unfold share consume
      dsimp only
      rw [Function.update_of_ne hx]
  refine ⟨List.sum_le_sum hle, fun hprog => List.sum_lt_sum _ _ hle ⟨sid, hsid, ?_⟩⟩
  rcases hprog with htaken | hfin
  · omega
  · rw [hfin, Bool.toNat_true] at hself
    omega

/-- What nghttp3 offered is gone once it is all reported as written. -/
theorem consume_taken {sid : ℤ} {vec : List Bytes} (hoffers : (w.unsent sid).offers vec w.fin) {n : ℕ}
    (hn : n = vec.flatten.length) : (w.consume sid n).round.taken ≠ 0 ∨ (w.consume sid n).round.fin := by
  rcases Unsent.offers_taken hoffers hn with htaken | hfin
  · exact .inl (Nat.ne_of_gt htaken)
  · exact .inr hfin

/-- A stream that is blocked may not be blocked again. -/
private theorem potential_block {sid : ℤ} (hsid : sid ∈ w.ids) (hfree : w.blocking.held sid = false)
    (hunsent : w'.unsent = w.unsent) (hids : w'.ids = w.ids)
    (hheld : w'.blocking.held = Function.update w.blocking.held sid true) : w'.potential < w.potential := by
  have hself : w'.share sid < w.share sid := by
    unfold share
    rw [hunsent, hheld, hfree, Function.update_self]
    exact Nat.lt_succ_self _
  have hle : ∀ x ∈ w.ids, w'.share x ≤ w.share x := by
    intro x _
    by_cases hx : x = sid
    · subst hx
      exact hself.le
    · unfold share
      rw [hunsent, hheld, Function.update_of_ne hx]
  unfold potential
  rw [hids]
  exact List.sum_lt_sum _ _ hle ⟨sid, hsid, hself⟩

/-- Every step of the flush brings its end nearer: it goes on within the round, or ends the round
and owes one less. -/
structure Nearer (w w' : Flushing) : Prop where
  load : w'.load = w.load
  due : w'.log.length + w'.due ≤ w.log.length + w.due
  steps : w'.stepsLeft < w.stepsLeft

theorem Nearer.of_eq {d d' n n' : ℕ} (hload : w'.load = w.load) (hdue : w.due = d) (hdue' : w'.due = d')
    (hsteps : w.stepsLeft = n) (hsteps' : w'.stepsLeft = n') (hd : w'.log.length + d' ≤ w.log.length + d)
    (hn : n' < n) : w.Nearer w' :=
  ⟨hload, by rw [hdue, hdue']; exact hd, by rw [hsteps, hsteps']; exact hn⟩

section
variable {origin : FlushFrom}

theorem due_unblock {rest : List ℤ} (hpc : w.pc = .flush origin (.unblock rest)) :
    w.due = w.total ∧ w.stepsLeft = 3 * w.total + rest.length + 3 := by
  have hdue : w.due = w.total := by simp only [due, hpc]
  exact ⟨hdue, by simp only [stepsLeft, hpc, hdue]⟩

theorem due_writev (hpc : w.pc = .flush origin .writev) :
    w.due = w.potential ∧ w.stepsLeft = 3 * w.potential + 2 := by
  have hdue : w.due = w.potential := by simp only [due, hpc]
  exact ⟨hdue, by simp only [stepsLeft, hpc, hdue]⟩

theorem due_write {sid : ℤ} (hpc : w.pc = .flush origin (.write sid)) :
    w.due = w.potential ∧ w.stepsLeft = 3 * w.potential + 1 := by
  have hdue : w.due = w.potential := by simp only [due, hpc]
  exact ⟨hdue, by simp only [stepsLeft, hpc, hdue]⟩

theorem due_offsets {blocked : Option ℤ} (hpc : w.pc = .flush origin (.offsets blocked)) :
    w.due = w.potential + blocked.isNone.toNat ∧ w.stepsLeft = 3 * w.due := by
  cases blocked with
  | none => exact ⟨by simp [due, hpc], by simp only [stepsLeft, hpc]⟩
  | some sid => exact ⟨by simp [due, hpc], by simp only [stepsLeft, hpc]⟩

/-- Written output is off the account, or the stream is about to be blocked. -/
theorem due_consume {sid : ℤ} {blocked : Option ℤ} {n : ℕ} (hpc : w.pc = .flush origin (.offsets blocked))
    (hsid : sid ∈ w.ids)
    (htaken : blocked = none → (w.consume sid n).round.taken ≠ 0 ∨ (w.consume sid n).round.fin) :
    (w.consume sid n).due ≤ w.potential ∧ (w.consume sid n).stepsLeft = 3 * (w.consume sid n).due := by
  obtain ⟨hle, hlt⟩ := potential_consume hsid n
  obtain ⟨hdue, hsteps⟩ := @due_offsets (w.consume sid n) _ _ hpc
  refine ⟨?_, hsteps⟩
  rw [hdue]
  cases blocked with
  | none => exact hlt (htaken rfl)
  | some x => exact hle

theorem due_returned (hpc : w.pc = .flush origin .returned) : w.due = w.potential ∧ w.stepsLeft = 0 :=
  ⟨by simp only [due, hpc], by simp only [stepsLeft, hpc]⟩

private theorem due_flushStart {s : H3Session} (hpc : w.pc = .flush origin s.flushStart) : w.due ≤ w.total := by
  unfold H3Session.flushStart at hpc
  split_ifs at hpc
  · rw [(due_returned hpc).1]
    exact w.potential_le_total
  · rw [(due_writev hpc).1]
    exact w.potential_le_total
  · exact (due_unblock hpc).1.le

end

/-- The stream that a flush writes to is not flagged as write-blocked. -/
theorem Sound.unflagged (h : w.Sound) {sid : ℤ} (hsid : writesTo w.pc = some sid) :
    w.session.writeBlocks sid = false := by
  have hfree := (h.writing sid hsid).2
  by_contra hset
  rw [Bool.not_eq_false] at hset
  have hblocked := h.flagged sid hset
  rw [hfree] at hblocked
  cases hblocked

/-- What the last round did: a stream that could not be written to is now blocked. -/
theorem Sound.ended (h : w.Sound) {origin : FlushFrom} {blocked : Option ℤ}
    (hpc : w.pc = .flush origin (.offsets blocked)) {b : Blocking}
    (hheld : b.held = heldByFlush w.session w.blocking.held (.offsets blocked) (.returned none)) :
    (w.round.taken ≠ 0 ∨ w.round.fin ∨ (!w.blocking.held w.round.sid && b.held w.round.sid)) ∧
      (w.endRound b).potential + blocked.isSome.toNat ≤ w.potential := by
  cases blocked with
  | none =>
    have hsame : b.held = w.blocking.held := hheld
    refine ⟨?_, (@potential_congr w (w.endRound b) rfl rfl hsame).le⟩
    rcases h.taking origin hpc with htaken | hfin
    · exact .inl htaken
    · exact .inr (.inl hfin)
  | some sid =>
    have hsid : writesTo w.pc = some sid := by
      rw [hpc]
      rfl
    obtain ⟨hin, hfree⟩ := h.writing sid hsid
    have hblock : b.held = Function.update w.blocking.held sid true := by
      rw [hheld]
      exact if_neg (Bool.eq_false_iff.mp (h.unflagged hsid))
    refine ⟨.inr (.inr ?_), potential_block hin hfree rfl rfl hblock⟩
    rw [h.blocking origin sid hpc, hfree, hblock, Function.update_self]
    rfl

theorem Sound.nearer (h : w.Sound) {origin : FlushFrom} {pc : FlushPc} (hpc : w.pc = .flush origin pc)
    (hne : pc ≠ .returned) {act : FlushAct} (hm : w.Move act w') (hact : act.ofFlush) : w.Nearer w' := by
  have hin : w.pc.inFlush = true := by
    rw [hpc]
    rfl
  cases hm with
  | queued hout =>
    rw [hin] at hout
    cases hout
  | aside _ _ hno =>
    rw [hno] at hact
    cases hact
  | outside _ hfrom => exact absurd (hfrom _ _ hpc) hne
  | entered hout =>
    rw [hin] at hout
    cases hout
  | @unblocked _ b _ sid rest _ hp hp' =>
    obtain ⟨hd, hs⟩ := due_unblock hp
    obtain ⟨hd', hs'⟩ := @due_unblock { w with blocking := b } _ _ hp'
    have htotal : ({ w with blocking := b } : Flushing).total = w.total := rfl
    refine .of_eq rfl hd hd' hs hs' ?_ ?_
    · exact Nat.le_refl _
    · rw [htotal, List.length_cons]
      omega
  | @looping _ b _ _ hp hp' hheld =>
    obtain ⟨hd, hs⟩ := due_unblock hp
    obtain ⟨hd', hs'⟩ := @due_writev { w with blocking := b } _ hp'
    have hle := potential_le_total { w with blocking := b }
    have htotal : ({ w with blocking := b } : Flushing).total = w.total := rfl
    refine .of_eq rfl hd hd' hs hs' ?_ ?_
    · dsimp only
      omega
    · rw [List.length_nil]
      omega
  | @returned _ b _ _ hp hp' hheld =>
    obtain ⟨hd, hs⟩ := due_writev hp
    obtain ⟨hd', hs'⟩ := @due_returned { w with blocking := b } _ hp'
    have hsame := @potential_congr w { w with blocking := b } rfl rfl hheld
    refine .of_eq rfl hd hd' hs hs' ?_ ?_
    · exact Nat.add_le_add_left hsame.le _
    · omega
  | @offered b _ sid vec fin hp hp' hheld hsid hfree hoffers =>
    obtain ⟨hd, hs⟩ := due_writev hp
    obtain ⟨hd', hs'⟩ := @due_write { w with blocking := b, vec := vec, fin := fin } _ _ hp'
    have hsame := @potential_congr w { w with blocking := b, vec := vec, fin := fin } rfl rfl hheld
    refine .of_eq rfl hd hd' hs hs' ?_ ?_
    · exact Nat.add_le_add_left hsame.le _
    · omega
  | @swallowed b _ sid vec fin hp hp' hheld hsid hoffers =>
    obtain ⟨hd, hs⟩ := due_writev hp
    have hsame := @potential_congr w { w with blocking := b, vec := vec, fin := fin } rfl rfl hheld
    obtain ⟨hdue, hs'⟩ := due_consume (w := { w with blocking := b, vec := vec, fin := fin }) hp' hsid
      fun _ => consume_taken hoffers List.length_flatten.symm
    rw [hsame] at hdue
    refine .of_eq rfl hd rfl hs hs' (Nat.add_le_add_left hdue _) ?_
    omega
  | @wrote b _ sid blocked _ n hp hp' hheld hcase =>
    obtain ⟨hd, hs⟩ := due_write hp
    have hwrites : writesTo w.pc = some sid := by
      rw [hp]
      rfl
    have hsame := @potential_congr w { w with blocking := b } rfl rfl hheld
    have htaken : blocked = none → n = w.vec.flatten.length := by
      rintro rfl
      exact (hcase.resolve_left nofun).2
    obtain ⟨hdue, hs'⟩ := due_consume (w := { w with blocking := b }) hp' (h.writing sid hwrites).1
      fun hnone => consume_taken (h.offered _ _ hp) (htaken hnone)
    rw [hsame] at hdue
    refine .of_eq rfl hd rfl hs hs' (Nat.add_le_add_left hdue _) ?_
    omega
  | @ended _ b _ blocked _ hp hp' hheld =>
    obtain ⟨hd, hs⟩ := due_offsets hp
    obtain ⟨hd', hs'⟩ := @due_writev (w.endRound b) _ hp'
    have hended := (h.ended hp hheld).2
    have hless : (w.endRound b).potential + 1 ≤ w.due := by
      rw [hd]
      cases blocked with
      | none => exact Nat.add_le_add_right hended 1
      | some sid => exact hended
    have hlog : (w.endRound b).log.length = w.log.length + 1 := rfl
    refine .of_eq rfl rfl hd' hs hs' ?_ ?_ <;> omega

/-- Away from `h3q_stream_write`, a state is sound if its rounds and its account are. -/
theorem Sound.of_idle (hflagged : w'.blocking.Flagged)
    (hpc : ∀ origin pc, w'.pc = .flush origin pc → pc = .returned ∨ pc = .writev ∨ ∃ rest, pc = .unblock rest)
    (hrounds : ∀ r ∈ w'.log, r.taken ≠ 0 ∨ r.fin ∨ r.blocks)
    (hbounded : w'.pc.inFlush → w'.log.length + w'.due ≤ w'.load) : w'.Sound where
  flagged := hflagged
  writing := by
    intro sid hsid
    unfold writesTo at hsid
    split at hsid
    · rename_i hp
      rcases hpc _ _ hp with h | h | ⟨_, h⟩ <;> cases h
    · rename_i hp
      rcases hpc _ _ hp with h | h | ⟨_, h⟩ <;> cases h
    · cases hsid
  offered := fun origin sid hp => by rcases hpc _ _ hp with h | h | ⟨_, h⟩ <;> cases h
  blocking := fun origin sid hp => by rcases hpc _ _ hp with h | h | ⟨_, h⟩ <;> cases h
  taking := fun origin hp => by rcases hpc _ _ hp with h | h | ⟨_, h⟩ <;> cases h
  rounds := hrounds
  bounded := hbounded

theorem Sound.of_outside (hflagged : w.blocking.Flagged) (hout : w.pc.inFlush = false)
    (hrounds : ∀ r ∈ w.log, r.taken ≠ 0 ∨ r.fin ∨ r.blocks) : w.Sound := by
  refine .of_idle hflagged ?_ hrounds ?_
  · intro origin pc hpc
    rw [hpc] at hout
    cases hout
  · intro hin
    rw [hout] at hin
    cases hin

theorem Sound.of_write (hflagged : w.blocking.Flagged) {origin : FlushFrom} {sid : ℤ}
    (hpc : w.pc = .flush origin (.write sid)) (hwriting : sid ∈ w.ids ∧ w.blocking.held sid = false)
    (hoffers : (w.unsent sid).offers w.vec w.fin) (hrounds : ∀ r ∈ w.log, r.taken ≠ 0 ∨ r.fin ∨ r.blocks)
    (hbounded : w.log.length + w.due ≤ w.load) : w.Sound where
  flagged := hflagged
  writing := by
    intro x hx
    rw [hpc] at hx
    cases hx
    exact hwriting
  offered := by
    intro o x hx
    cases hpc.symm.trans hx
    exact hoffers
  blocking := fun o x hx => by cases hpc.symm.trans hx
  taking := fun o hx => by cases hpc.symm.trans hx
  rounds := hrounds
  bounded := fun _ => hbounded

theorem Sound.of_offsets (hflagged : w.blocking.Flagged) {origin : FlushFrom} {blocked : Option ℤ}
    (hpc : w.pc = .flush origin (.offsets blocked))
    (hwriting : ∀ sid, blocked = some sid → w.round.sid = sid ∧ sid ∈ w.ids ∧ w.blocking.held sid = false)
    (htaking : blocked = none → w.round.taken ≠ 0 ∨ w.round.fin)
    (hrounds : ∀ r ∈ w.log, r.taken ≠ 0 ∨ r.fin ∨ r.blocks)
    (hbounded : w.log.length + w.due ≤ w.load) : w.Sound where
  flagged := hflagged
  writing := by
    intro x hx
    rw [hpc] at hx
    cases blocked with
    | none => cases hx
    | some sid =>
      cases hx
      exact (hwriting x rfl).2
  offered := fun o x hx => by cases hpc.symm.trans hx
  blocking := by
    intro o x hx
    cases hpc.symm.trans hx
    exact (hwriting x rfl).1
  taking := by
    intro o hx
    cases hpc.symm.trans hx
    exact htaking rfl
  rounds := hrounds
  bounded := fun _ => hbounded

/-- A worker's step or a callback leaves the flush as it is. -/
theorem due_aside {b : Blocking} (hpc : b.sys.pc = w.pc) (hheld : b.held = w.blocking.held) :
    ({ w with blocking := b } : Flushing).due = w.due ∧
      ({ w with blocking := b } : Flushing).stepsLeft = w.stepsLeft := by
  have hp : ({ w with blocking := b } : Flushing).pc = w.pc := hpc
  have hpotential := @potential_congr w { w with blocking := b } rfl rfl hheld
  have htotal : ({ w with blocking := b } : Flushing).total = w.total := rfl
  have hdue : ({ w with blocking := b } : Flushing).due = w.due := by
    unfold due
    rw [hp, hpotential, htotal]
  refine ⟨hdue, ?_⟩
  unfold stepsLeft
  rw [hp, hdue]

theorem Sound.aside (h : w.Sound) {b : Blocking} (hflagged : b.Flagged) (hpc : b.sys.pc = w.pc)
    (hheld : b.held = w.blocking.held) : ({ w with blocking := b } : Flushing).Sound where
  flagged := hflagged
  writing := by
    intro sid hsid
    have hold := h.writing sid (hpc ▸ hsid)
    rw [← hheld] at hold
    exact hold
  offered := fun origin sid hp => h.offered origin sid (hpc ▸ hp)
  blocking := fun origin sid hp => h.blocking origin sid (hpc ▸ hp)
  taking := fun origin hp => h.taking origin (hpc ▸ hp)
  rounds := h.rounds
  bounded := by
    intro hin
    rw [(due_aside hpc hheld).1]
    exact h.bounded (hpc ▸ hin)

theorem Sound.step (h : w.Sound) {act : FlushAct} (hs : w.step conf act = some w') : w'.Sound := by
  have hflagged : w'.blocking.Flagged := by
    rcases step_blocking hs with hsame | ⟨a, ha⟩
    · rw [hsame]
      exact h.flagged
    · exact h.flagged.step ha
  have hm := step_moves hs
  -- in a flush, the account is kept by every step of it
  have hbounded : ∀ {origin pc}, w.pc = .flush origin pc → pc ≠ .returned → act.ofFlush →
      w'.log.length + w'.due ≤ w'.load := by
    intro origin pc hpc hne hact
    have hnear := h.nearer hpc hne hm hact
    have hold := h.bounded (inFlush_iff.mpr ⟨origin, pc, hpc⟩)
    rw [hnear.load]
    exact hnear.due.trans hold
  cases hm with
  | queued hout hblocking hlog =>
    have hpc : w'.pc = w.pc := congrArg (fun b => b.sys.pc) hblocking
    rw [← hpc] at hout
    exact .of_outside hflagged hout (hlog ▸ h.rounds)
  | aside hpc hheld _ => exact h.aside hflagged hpc hheld
  | outside hout => exact .of_outside hflagged hout h.rounds
  | @entered _ b origin hout hpc =>
    refine .of_idle hflagged ?_ nofun fun _ => ?_
    · intro o p hp
      cases hpc.symm.trans hp
      unfold H3Session.flushStart
      split_ifs
      · exact .inl rfl
      · exact .inr (.inl rfl)
      · exact .inr (.inr ⟨_, rfl⟩)
    · rw [List.length_nil, Nat.zero_add]
      exact due_flushStart hpc
  | unblocked hact hp hp' =>
    refine .of_idle hflagged ?_ h.rounds fun _ => hbounded hp nofun hact
    intro o p hq
    cases hp'.symm.trans hq
    exact .inr (.inr ⟨_, rfl⟩)
  | looping hact hp hp' hheld =>
    refine .of_idle hflagged ?_ h.rounds fun _ => hbounded hp nofun hact
    intro o p hq
    cases hp'.symm.trans hq
    exact .inr (.inl rfl)
  | returned hact hp hp' hheld =>
    refine .of_idle hflagged ?_ h.rounds fun _ => hbounded hp nofun hact
    intro o p hq
    cases hp'.symm.trans hq
    exact .inl rfl
  | offered hp hp' hheld hsid hfree hoffers =>
    rw [← hheld] at hfree
    exact .of_write hflagged hp' ⟨hsid, hfree⟩ hoffers h.rounds (hbounded hp nofun rfl)
  | swallowed hp hp' hheld hsid hoffers =>
    exact .of_offsets hflagged hp' nofun (fun _ => consume_taken hoffers List.length_flatten.symm) h.rounds
      (hbounded hp nofun rfl)
  | @wrote b _ sid blocked _ n hp hp' hheld hcase =>
    obtain ⟨hsid, hfree⟩ := h.writing sid (by rw [hp]; rfl)
    rw [← hheld] at hfree
    refine .of_offsets hflagged hp' ?_ ?_ h.rounds (hbounded hp nofun rfl)
    · rintro x rfl
      rcases hcase with heq | ⟨hnone, -⟩
      · cases heq
        exact ⟨rfl, hsid, hfree⟩
      · cases hnone
    · rintro rfl
      exact consume_taken (h.offered _ _ hp) (hcase.resolve_left nofun).2
  | ended hact hp hp' hheld =>
    refine .of_idle hflagged ?_ ?_ fun _ => hbounded hp nofun hact
    · intro o p hq
      cases hp'.symm.trans hq
      exact .inr (.inl rfl)
    · intro r hr
      rcases List.mem_cons.mp hr with rfl | hr
      · exact (h.ended hp hheld).1
      · exact h.rounds r hr

theorem sound_reach (h : Reach (step conf) anyStep .start w) : w.Sound :=
  h.invariant (.of_outside nofun rfl nofun) fun _ _ _ hw _ hs => hw.step hs

/-- Inside `flush_nghttp3` a step of it is one of the event thread. -/
theorem isSome_blocking {a : Answer} {origin : FlushFrom} {pc : FlushPc} (hpc : w.pc = .flush origin pc)
    (hne : pc ≠ .returned) (hf : (flushStep conf w.session pc a).isSome) :
    (w.blocking.step conf (.event a)).isSome := by
  have hp : w.blocking.sys.pc = .flush origin pc := hpc
  change ((w.blocking.sys.eventStep conf a).map _).isSome
  rw [Option.isSome_map]
  unfold State.eventStep
  rw [hp]
  cases pc with
  | returned => exact absurd rfl hne
  | _ =>
    dsimp only
    rw [Option.isSome_map]
    exact hf

theorem isSome_step {a : Answer} {origin : FlushFrom} {pc : FlushPc} (hpc : w.pc = .flush origin pc)
    (hne : pc ≠ .returned) (hm : a.movesBytes = false) (hf : (flushStep conf w.session pc a).isSome) :
    (w.step conf (.step (.event a))).isSome := by
  have hb := isSome_blocking hpc hne hf
  change (if a.movesBytes then none else (w.blocking.step conf (.event a)).map w.after).isSome
  rw [hm, if_neg Bool.false_ne_true, Option.isSome_map]
  exact hb

private theorem exists_unblockStep (s : H3Session) (sid : ℤ) :
    ∃ a s', a.movesBytes = false ∧ s.unblockStep sid a = some s' := by
  cases hb : s.has sid (·.writeBlocked) with
  | false => exact ⟨.go, s, rfl, by simp [H3Session.unblockStep, hb]⟩
  | true =>
    cases hq : (s.qstream sid).isNone with
    | true => exact ⟨.go, s.unblockStream sid, rfl, by simp [H3Session.unblockStep, hb, hq]⟩
    | false => exact ⟨.flag true, s.logOp .isWriteBlocked (s.qstream sid), rfl, by simp [H3Session.unblockStep, hb, hq]⟩

/-- OpenSSL can answer any write. -/
private theorem exists_h3qStreamWrite (vec : List Bytes) (fin : Bool) : ∃ answers, (h3qStreamWrite vec fin answers).isSome := by
  cases vec with
  | nil => exact ⟨[], rfl⟩
  | cons v rest => exact ⟨[.wantWrite], rfl⟩

/-- A flush that has not returned is never stuck. -/
private theorem exists_step {origin : FlushFrom} {pc : FlushPc} (hpc : w.pc = .flush origin pc) (hne : pc ≠ .returned) :
    ∃ act, act.ofFlush ∧ (w.step conf act).isSome := by
  cases pc with
  | unblock rest =>
    cases rest with
    | nil => exact ⟨.step (.event .go), rfl, isSome_step hpc hne rfl rfl⟩
    | cons sid rest =>
      obtain ⟨a, s, hm, hs⟩ := exists_unblockStep w.session sid
      refine ⟨.step (.event a), ofFlush_of_unblockStep hs, isSome_step hpc hne hm ?_⟩
      change ((w.session.unblockStep sid a).map _).isSome
      rw [hs]
      rfl
  | writev => exact ⟨.step (.event .writevEmpty), rfl, isSome_step hpc hne rfl rfl⟩
  | write sid =>
    obtain ⟨answers, hr⟩ := exists_h3qStreamWrite w.vec w.fin
    obtain ⟨r, hr⟩ := Option.isSome_iff_exists.mp hr
    refine ⟨.write answers, rfl, ?_⟩
    have hb : (w.blocking.step conf (.event (.wrote r.result.blocked r.result.broken))).isSome :=
      isSome_blocking hpc hne rfl
    obtain ⟨b, hb⟩ := Option.isSome_iff_exists.mp hb
    simp only [step, hpc, hr, hb, Option.bind_eq_bind, Option.bind_some, Option.isSome_some]
  | offsets blocked => exact ⟨.step (.event (.returned none)), rfl, isSome_step hpc hne rfl rfl⟩
  | returned => exact absurd rfl hne

/-- What is not a step of the flush itself leaves it where it is. -/
private theorem stepsLeft_of_not_ofFlush {origin : FlushFrom} {pc : FlushPc} (hpc : w.pc = .flush origin pc)
    (hne : pc ≠ .returned) {act : FlushAct} (hm : w.Move act w') (hact : act.ofFlush = false) :
    w'.stepsLeft = w.stepsLeft := by
  have hin := inFlush_iff.mpr ⟨origin, pc, hpc⟩
  cases hm with
  | queued hout => exact absurd hin (Bool.eq_false_iff.mp hout)
  | aside hp hheld _ => exact (due_aside hp hheld).2
  | outside _ hfrom => exact absurd (hfrom _ _ hpc) hne
  | entered hout => exact absurd hin (Bool.eq_false_iff.mp hout)
  | unblocked hyes | looping hyes | returned hyes | ended hyes =>
    rw [hact] at hyes
    cases hyes
  | offered | swallowed | wrote => cases hact

/-- Whatever nghttp3 and the transport answer, `flush_nghttp3` comes to an end: it is never stuck, and
each of its steps uses up one of those left. There are no more rounds than nghttp3 had bytes, fins
and streams when the flush began; every round takes bytes or a fin from nghttp3, or blocks a stream,
and none writes to a stream that is flagged as write-blocked. -/
theorem flush_terminates (h : Reach (step conf) anyStep .start w) {origin : FlushFrom} {pc : FlushPc}
    (hpc : w.pc = .flush origin pc) :
    w.log.length ≤ w.load ∧
      (∀ r ∈ w.log, r.taken ≠ 0 ∨ r.fin ∨ r.blocks) ∧
      (∀ sid, writesTo w.pc = some sid → w.session.has sid (·.writeBlocked) = false) ∧
      (pc ≠ .returned →
        (∃ act, act.ofFlush ∧ (w.step conf act).isSome) ∧
          ∀ act w', w.step conf act = some w' →
            if act.ofFlush then w'.stepsLeft < w.stepsLeft else w'.stepsLeft = w.stepsLeft) := by
  have hsound := sound_reach h
  have hbounded := hsound.bounded (inFlush_iff.mpr ⟨origin, pc, hpc⟩)
  refine ⟨by omega, hsound.rounds, fun sid hsid => hsound.unflagged hsid, ?_⟩
  intro hne
  refine ⟨exists_step hpc hne, fun act w' hs => ?_⟩
  have hm := step_moves hs
  cases hact : act.ofFlush with
  | true => exact (hsound.nearer hpc hne hm hact).steps
  | false => exact stepsLeft_of_not_ofFlush hpc hne hm hact

end

/-- One of three bytes is left on the first stream, which is blocked; the second is written to its
end. -/
def shortWrite : List FlushAct :=
  openSession.map .step ++
    ([.queue 3 [1, 2, 3] false, .queue 7 [4] true, .step (.event (.noMore [3, 7, 11])), .step (.event .go),
      .step (.event .go), .step (.event .go), .step (.event .go), .step (.event .go),
      .writev 3 [[1, 2], [3]] false, .write [.took 2, .wantWrite], .step (.event (.returned none)),
      .writev 7 [[4]] true, .write [.took 1], .step (.event (.returned none))] : List FlushAct)

theorem flush_terminates_shortWrite :
    ∃ w, Reach (step sampleConf) anyStep .start w ∧ w.pc = .flush (.drained []) .writev ∧
      w.log = [⟨7, 1, true, false⟩, ⟨3, 2, false, true⟩] ∧ w.unsent 3 = ⟨[3], false⟩ ∧
      w.stepsLeft = 8 ∧ w.log.length ≤ w.load := by
  have hrun : (runActions (step sampleConf) .start shortWrite).map
      (fun w => (w.pc, w.log, w.unsent 3, w.stepsLeft)) =
        some (.flush (.drained []) .writev, [⟨7, 1, true, false⟩, ⟨3, 2, false, true⟩], ⟨[3], false⟩, 8) := by
    decide +kernel
  obtain ⟨w, hw, he⟩ := Option.map_eq_some_iff.mp hrun
  simp only [Prod.mk.injEq] at he
  obtain ⟨hpc, hlog, hunsent, hsteps⟩ := he
  have hr := Reach.of_runActions _ hw
  exact ⟨w, hr, hpc, hlog, hunsent, hsteps, (flush_terminates hr hpc).1⟩

end Flushing

end ModHttp3.System
