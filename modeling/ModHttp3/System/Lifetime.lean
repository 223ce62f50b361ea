import ModHttp3.System.Moves
import ModHttp3.System.Custody

/-! Lifetime of streams and of the session under the request tasks: a stream is held by at
most one task, and neither it nor the session goes away under a task. -/
namespace ModHttp3.System
open Session Lib

/-- What holds of the tasks of a session at any time. -/
structure Lifetime (σ : State) : Prop where
  counted : σ.session.activeTasks = σ.tasks.countP (·.phase.isCounted)
  order : ∀ (i j : ℕ) (t u : Task), i < j → σ.tasks[i]? = some t → σ.tasks[j]? = some u → t.sid = u.sid →
    t.phase.letGo
  holder : ∀ t ∈ σ.tasks, t.phase.holds → custody σ.session t.sid = some ⟨true, false, true⟩
  served : ∀ t ∈ σ.tasks, t.phase.served → ∃ p, custody σ.session t.sid = some ⟨true, true, p⟩
  sane : ∀ sid c, custody σ.session sid = some c →
    (c.workerDone → c.dispatched) ∧ (c.pool = false → c.workerDone)
  removed : ∀ sid c, custody σ.session sid = some c → sid ∉ σ.session.streams → c.pool = false
  pushing : ∀ (i : ℕ) (t : Task), σ.tasks[i]? = some t → t.phase.onEventThread → ∃ rest, σ.pc = .pushing i rest
  early : σ.pc = .opening ∨ σ.pc = .opened → σ.tasks = []
  ended : σ.pc = .destroyed → ∀ t ∈ σ.tasks, t.phase.touchesSession = false
  known : ∀ sid ∈ σ.pc.completed, (custody σ.session sid).isSome

theorem lifetime_start : Lifetime .start := by
  have hcustody : ∀ sid c, custody State.start.session sid ≠ some c := nofun
  have htasks : ∀ (i : ℕ) (t : Task), State.start.tasks[i]? ≠ some t := nofun
  constructor
  · rfl
  · exact fun i _ t _ _ ht => absurd ht (htasks i t)
  · nofun
  · nofun
  · exact fun sid c hc => absurd hc (hcustody sid c)
  · exact fun sid c hc => absurd hc (hcustody sid c)
  · exact fun i t ht => absurd ht (htasks i t)
  · exact fun _ => rfl
  · nofun
  · nofun

/-- Where the event thread may go while no task is being pushed. -/
structure Apart (σ : State) (pc : EventPc) : Prop where
  push : ∀ i rest, σ.pc ≠ .pushing i rest
  early : pc = .opening ∨ pc = .opened → σ.tasks = []
  ended : pc = .destroyed → ∀ t ∈ σ.tasks, t.phase.touchesSession = false
  known : ∀ sid ∈ pc.completed, (custody σ.session sid).isSome

/-- A change of the session that no task takes part in: streams with a finished worker may
have gone, and new ones may have come. -/
theorem Lifetime.session {σ : State} {s : H3Session} {pc : EventPc} (hL : Lifetime σ)
    (hpc : Apart σ pc) (hactive : s.activeTasks = σ.session.activeTasks)
    (hcustody : ∀ x, custody s x = custody σ.session x ∨
      (∃ p, custody σ.session x = some ⟨true, true, p⟩) ∧ custody s x = some ⟨true, true, false⟩ ∨
      custody σ.session x = none ∧ custody s x = some ⟨false, false, true⟩ ∧ x ∈ s.streams)
    (hgone : ∀ x ∈ σ.session.streams, x ∉ s.streams → custody s x = some ⟨true, true, false⟩) :
    Lifetime ⟨s, pc, σ.tasks⟩ := by
  constructor
  · exact hactive.trans hL.counted
  · exact hL.order
  · intro t ht hh
    have hold := hL.holder t ht hh
    rcases hcustody t.sid with hsame | ⟨⟨p, hp⟩, -⟩ | ⟨hnone, -⟩
    · exact hsame.trans hold
    · cases hold.symm.trans hp
    · cases hold.symm.trans hnone
  · intro t ht hs
    obtain ⟨p, hold⟩ := hL.served t ht hs
    rcases hcustody t.sid with hsame | ⟨-, hnew⟩ | ⟨hnone, -⟩
    · exact ⟨p, hsame.trans hold⟩
    · exact ⟨false, hnew⟩
    · cases hold.symm.trans hnone
  · intro sid c hc
    rcases hcustody sid with hsame | ⟨-, hnew⟩ | ⟨-, hnew, -⟩
    · exact hL.sane sid c (hsame.symm.trans hc)
    · cases hnew.symm.trans hc
      exact ⟨id, fun _ => rfl⟩
    · cases hnew.symm.trans hc
      exact ⟨id, nofun⟩
  · intro sid c hc hx
    by_cases hold : sid ∈ σ.session.streams
    · cases (hgone sid hold hx).symm.trans hc
      rfl
    · rcases hcustody sid with hsame | ⟨-, hnew⟩ | ⟨-, -, hin⟩
      · exact hL.removed sid c (hsame.symm.trans hc) hold
      · cases hnew.symm.trans hc
        rfl
      · exact absurd hin hx
  · intro i t ht he
    obtain ⟨rest, hp⟩ := hL.pushing i t ht he
    exact absurd hp (hpc.push i rest)
  · exact hpc.early
  · exact hpc.ended
  · intro sid hsid
    have hold := hpc.known sid hsid
    rcases hcustody sid with hsame | ⟨-, hnew⟩ | ⟨-, hnew, -⟩
    · exact hsame ▸ hold
    · exact hnew ▸ rfl
    · exact hnew ▸ rfl

theorem Lifetime.reclaims {σ : State} {s : H3Session} {pc : EventPc} (hL : Lifetime σ)
    (hpc : Apart σ pc) (hs : Reclaims σ.session s) : Lifetime ⟨s, pc, σ.tasks⟩ :=
  hL.session hpc hs.activeTasks (fun x => (hs.custody x).imp_right .inl) hs.removed

theorem Lifetime.adds {σ : State} {s : H3Session} {pc : EventPc} (hL : Lifetime σ)
    (hpc : Apart σ pc) (hs : Adds σ.session s) : Lifetime ⟨s, pc, σ.tasks⟩ :=
  hL.session hpc hs.activeTasks (fun x => (hs.custody x).imp_right .inr)
    fun _ hx hx' => absurd (hs.sub hx) hx'

/-- Of the tasks of one stream, those beside a task that has not let it go all have. -/
theorem Lifetime.sole {σ : State} (hL : Lifetime σ) {i j : ℕ} {t u : Task}
    (ht : σ.tasks[i]? = some t) (hu : σ.tasks[j]? = some u) (hne : i ≠ j) (hsid : t.sid = u.sid)
    (hkeep : t.phase.letGo = false) : u.phase.letGo := by
  rcases Nat.lt_or_gt_of_ne hne with hlt | hgt
  · have := hL.order i j t u hlt ht hu hsid
    rw [hkeep] at this
    cases this
  · exact hL.order j i u t hgt hu ht hsid.symm

/-- Where the event thread may be after task `i` moved to phase `p`: where it was, or still in
or just out of `h3_process_request` for this task. -/
structure Beside (pc : EventPc) (i : ℕ) (p : Phase) (pc' : EventPc) : Prop where
  push : p.onEventThread → ∃ rest, pc' = .pushing i rest
  pushed : ∀ j rest, j ≠ i → pc = .pushing j rest → pc' = .pushing j rest
  early : pc' = .opening ∨ pc' = .opened → pc = .opening ∨ pc = .opened
  ended : pc' = .destroyed → pc = .destroyed
  known : pc'.completed ⊆ pc.completed

/-- Task `i` moves on. Its stream's custody stays, or the task holds it and passes it on:
back to the event thread, or marked as done. -/
theorem Lifetime.advance {σ : State} {i : ℕ} {t : Task} {p : Phase} {s : H3Session} {pc : EventPc}
    (hL : Lifetime σ) (ht : σ.tasks[i]? = some t)
    (hcount : s.activeTasks + (if t.phase.isCounted then 1 else 0) =
      σ.session.activeTasks + if p.isCounted then 1 else 0)
    (hstreams : s.streams = σ.session.streams)
    (hother : ∀ x ≠ t.sid, custody s x = custody σ.session x)
    (hself : custody s t.sid = custody σ.session t.sid ∨
      t.phase.holds ∧ ∃ b, custody s t.sid = some ⟨b, b, true⟩)
    (hletGo : t.phase.letGo → p.letGo)
    (hholds : p.holds → t.phase.holds ∧ custody s t.sid = custody σ.session t.sid)
    (hserved : p.served → custody s t.sid = some ⟨true, true, true⟩ ∨
      t.phase.served ∧ custody s t.sid = custody σ.session t.sid)
    (htouch : t.phase.touchesSession)
    (hpc : Beside σ.pc i p pc) :
    Lifetime ⟨s, pc, σ.tasks.set i ⟨t.sid, p⟩⟩ := by
  have hi : i < σ.tasks.length := (List.getElem?_eq_some_iff.mp ht).1
  have hmem : t ∈ σ.tasks := List.mem_of_getElem? ht
  -- a task in the new list is the one that moved, or stands where it stood
  have hget : ∀ j (u : Task), (σ.tasks.set i ⟨t.sid, p⟩)[j]? = some u →
      j = i ∧ u = ⟨t.sid, p⟩ ∨ j ≠ i ∧ σ.tasks[j]? = some u := by
    intro j u hu
    by_cases hji : j = i
    · subst hji
      rw [List.getElem?_set_self hi] at hu
      exact .inl ⟨rfl, (Option.some.inj hu).symm⟩
    · rw [List.getElem?_set_ne (Ne.symm hji)] at hu
      exact .inr ⟨hji, hu⟩
  have hkept : ∀ j (u : Task), j ≠ i → σ.tasks[j]? = some u → u.phase.letGo = false →
      custody s u.sid = custody σ.session u.sid := by
    intro j u hji hu hkeep
    by_cases hsid : u.sid = t.sid
    · rcases hself with hsame | ⟨hh, -⟩
      · rw [hsid, hsame]
      · have := hL.sole ht hu (Ne.symm hji) hsid.symm (Phase.not_letGo_of_holds hh)
        rw [hkeep] at this
        cases this
    · exact hother u.sid hsid
  constructor
  · have hc := List.countP_set (p := fun u : Task => u.phase.isCounted) (a := ⟨t.sid, p⟩) hi
    have hpos : (if t.phase.isCounted then 1 else 0) ≤ σ.tasks.countP (·.phase.isCounted) := by
      split
      · rename_i hcounted
        exact List.countP_pos_iff.mpr ⟨t, hmem, hcounted⟩
      · exact Nat.zero_le _
    rw [(List.getElem?_eq_some_iff.mp ht).2] at hc
    have := hL.counted
    simp only at hc ⊢
    omega
  · intro j k u v hjk hu hv hsid
    rcases hget j u hu with ⟨rfl, rfl⟩ | ⟨-, hu'⟩
    · rcases hget k v hv with ⟨rfl, -⟩ | ⟨-, hv'⟩
      · omega
      · exact hletGo (hL.order j k t v hjk ht hv' hsid)
    · rcases hget k v hv with ⟨rfl, rfl⟩ | ⟨-, hv'⟩
      · exact hL.order j k u t hjk hu' ht hsid
      · exact hL.order j k u v hjk hu' hv' hsid
  · intro u hu hh
    obtain ⟨j, hj⟩ := List.mem_iff_getElem?.mp hu
    rcases hget j u hj with ⟨-, rfl⟩ | ⟨hji, hj⟩
    · obtain ⟨hth, hsame⟩ := hholds hh
      exact hsame.trans (hL.holder t hmem hth)
    · have hsame := hkept j u hji hj (Phase.not_letGo_of_holds hh)
      exact hsame.trans (hL.holder u (List.mem_of_getElem? hj) hh)
  · intro u hu hs
    obtain ⟨j, hj⟩ := List.mem_iff_getElem?.mp hu
    rcases hget j u hj with ⟨-, rfl⟩ | ⟨hji, hj⟩
    · rcases hserved hs with hnew | ⟨hts, hsame⟩
      · exact ⟨true, hnew⟩
      · obtain ⟨q, hq⟩ := hL.served t hmem hts
        exact ⟨q, hsame.trans hq⟩
    · have hsame := hkept j u hji hj (Phase.not_letGo_of_served hs)
      obtain ⟨q, hq⟩ := hL.served u (List.mem_of_getElem? hj) hs
      exact ⟨q, hsame.trans hq⟩
  · intro sid c hc
    by_cases hx : sid = t.sid
    · subst hx
      rcases hself with hsame | ⟨-, b, hb⟩
      · exact hL.sane _ c (hsame ▸ hc)
      · have he : (⟨b, b, true⟩ : Custody) = c := Option.some.inj (hb.symm.trans hc)
        subst he
        exact ⟨id, nofun⟩
    · exact hL.sane sid c (hother sid hx ▸ hc)
  · intro sid c hc hx
    have hx' : sid ∉ σ.session.streams := hstreams ▸ hx
    by_cases hsid : sid = t.sid
    · subst hsid
      rcases hself with hsame | ⟨hh, -⟩
      · exact hL.removed _ c (hsame ▸ hc) hx'
      · exact absurd (hL.removed _ _ (hL.holder t hmem hh) hx') nofun
    · exact hL.removed sid c (hother sid hsid ▸ hc) hx'
  · intro j u hu he
    rcases hget j u hu with ⟨rfl, rfl⟩ | ⟨hji, hu⟩
    · exact hpc.push he
    · obtain ⟨rest, hpc'⟩ := hL.pushing j u hu he
      exact ⟨rest, hpc.pushed j rest hji hpc'⟩
  · intro he
    have := hL.early (hpc.early he)
    rw [this] at hi
    cases hi
  · intro he
    have := hL.ended (hpc.ended he) t hmem
    rw [htouch] at this
    cases this
  · intro sid hsid
    have hold := hL.known sid (hpc.known hsid)
    by_cases hx : sid = t.sid
    · subst hx
      rcases hself with hsame | ⟨-, b, hb⟩
      · exact hsame ▸ hold
      · exact hb ▸ rfl
    · exact hother sid hx ▸ hold

section
variable {σ : State} {i : ℕ} {t : Task} {p q : Phase} {s : H3Session} {pc : EventPc}

/-- A step of a task that leaves its stream's custody alone. -/
theorem Lifetime.advance_quiet (hL : Lifetime σ) (ht : σ.tasks[i]? = some t) (hq : t.phase = q)
    (hs : SameCustody σ.session { s with activeTasks := σ.session.activeTasks })
    (hcount : s.activeTasks + (if q.isCounted then 1 else 0) =
      σ.session.activeTasks + if p.isCounted then 1 else 0)
    (hphase : q.letGo = p.letGo ∧ q.holds = p.holds ∧ q.served = p.served ∧ q.touchesSession)
    (hpc : Beside σ.pc i p pc) : Lifetime ⟨s, pc, σ.tasks.set i ⟨t.sid, p⟩⟩ := by
  subst hq
  obtain ⟨h1, h2, h3, h4⟩ := hphase
  have hsame := congrFun hs.custody
  refine hL.advance ht hcount hs.streams (fun x _ => hsame x) (.inl (hsame _)) ?_ ?_ ?_ h4 hpc
  · exact fun h => h1 ▸ h
  · exact fun h => ⟨h2 ▸ h, hsame _⟩
  · exact fun h => .inr ⟨h3 ▸ h, hsame _⟩

/-- The last step of a counted task. -/
theorem Lifetime.advance_decrement (hL : Lifetime σ) (ht : σ.tasks[i]? = some t) (hq : t.phase = q)
    (hcount : q.isCounted ∧ p.isCounted = false)
    (hphase : q.letGo = p.letGo ∧ q.holds = p.holds ∧ q.served = p.served ∧ q.touchesSession)
    (hpc : Beside σ.pc i p pc) :
    Lifetime ⟨{ σ.session with activeTasks := σ.session.activeTasks - 1 }, pc,
      σ.tasks.set i ⟨t.sid, p⟩⟩ := by
  have hpos : 0 < σ.tasks.countP (·.phase.isCounted) :=
    List.countP_pos_iff.mpr ⟨t, List.mem_of_getElem? ht, hq ▸ hcount.1⟩
  refine hL.advance_quiet ht hq ⟨rfl, rfl, rfl⟩ ?_ hphase hpc
  rw [if_pos hcount.1, hcount.2]
  have := hL.counted
  simp only [Bool.false_eq_true, if_false]
  omega

/-- The task that holds a stream gives up its reservation. -/
theorem Lifetime.advance_unreserve (hL : Lifetime σ) (ht : σ.tasks[i]? = some t) (hq : t.phase = q)
    (hh : q.holds) (hp : p.letGo) (hcount : q.isCounted = p.isCounted)
    (hpc : Beside σ.pc i p pc) :
    Lifetime ⟨σ.session.setStreamDispatched t.sid false, pc, σ.tasks.set i ⟨t.sid, p⟩⟩ := by
  subst hq
  have hnew : custody (σ.session.setStreamDispatched t.sid false) t.sid = some ⟨false, false, true⟩ := by
    unfold H3Session.setStreamDispatched
    rw [custody_modify_self (g := fun c => { c with dispatched := false }) fun _ => rfl,
      hL.holder t (List.mem_of_getElem? ht) hh]
    rfl
  refine hL.advance ht ?_ rfl (fun x hx => custody_modify_ne hx) (.inr ⟨hh, false, hnew⟩)
    (fun _ => hp) ?_ ?_ (Phase.touchesSession_of_holds hh) hpc
  · rw [hcount]
    rfl
  · intro hh'
    rw [Phase.not_letGo_of_holds hh'] at hp
    cases hp
  · intro hs
    rw [Phase.not_letGo_of_served hs] at hp
    cases hp

/-- The task that holds a stream marks it as served. -/
theorem Lifetime.advance_mark (hL : Lifetime σ) (ht : σ.tasks[i]? = some t) (hq : t.phase = .marking)
    (hpc : Beside σ.pc i .marked pc) :
    Lifetime ⟨σ.session.modify t.sid fun o => { o with workerDone := true }, pc,
      σ.tasks.set i ⟨t.sid, .marked⟩⟩ := by
  have hh : t.phase.holds := hq ▸ rfl
  have hnew : custody (σ.session.modify t.sid fun o => { o with workerDone := true }) t.sid =
      some ⟨true, true, true⟩ := by
    rw [custody_modify_self (g := fun c => { c with workerDone := true }) fun _ => rfl,
      hL.holder t (List.mem_of_getElem? ht) hh]
    rfl
  refine hL.advance ht ?_ rfl (fun x hx => custody_modify_ne hx) (.inr ⟨hh, true, hnew⟩) ?_ nofun
    (fun _ => .inl hnew) (Phase.touchesSession_of_holds hh) hpc
  · rw [hq]
    rfl
  · rw [hq]
    nofun

end

theorem Beside.pushing {pc : EventPc} {i : ℕ} {rest : List ℤ} {p : Phase} {back : Bool}
    (hpc : pc = .pushing i rest) (hp : p.onEventThread → back = false) :
    Beside pc i p (if back then .dispatch rest else .pushing i rest) := by
  subst hpc
  constructor
  · intro he
    rw [hp he]
    exact ⟨rest, rfl⟩
  · intro j rest' hj he
    cases he
    exact absurd rfl hj
  · cases back <;> rintro (h | h) <;> cases h
  · cases back <;> intro h <;> cases h
  · cases back <;> exact List.Subset.refl _

theorem Beside.same {pc : EventPc} {i : ℕ} {p : Phase} (hp : p.onEventThread = false) :
    Beside pc i p pc := by
  constructor
  · rw [hp]
    nofun
  · exact fun _ _ _ h => h
  · exact id
  · exact id
  · exact List.Subset.refl _

theorem Lifetime.push {σ : State} {a : Answer} {i : ℕ} {rest : List ℤ} {t : Task} {s : H3Session}
    {p : Phase} {back : Bool} (hL : Lifetime σ) (hpc : σ.pc = .pushing i rest)
    (ht : σ.tasks[i]? = some t) (hp : pushStep σ.session t a = some (s, p, back)) :
    Lifetime ⟨s, if back then .dispatch rest else .pushing i rest, σ.tasks.set i ⟨t.sid, p⟩⟩ := by
  cases pushStep_push hp with
  | count hq | noPool hq | noThread hq =>
    exact hL.advance_quiet ht hq ⟨rfl, rfl, rfl⟩ rfl ⟨rfl, rfl, rfl, rfl⟩ (.pushing hpc fun _ => rfl)
  | queue hq => exact hL.advance_quiet ht hq ⟨rfl, rfl, rfl⟩ rfl ⟨rfl, rfl, rfl, rfl⟩ (.pushing hpc nofun)
  | undo hq => exact hL.advance_unreserve ht hq rfl rfl rfl (.pushing hpc nofun)
  | unreserve hq => exact hL.advance_unreserve ht hq rfl rfl rfl (.pushing hpc fun _ => rfl)
  | uncount hq => exact hL.advance_decrement ht hq ⟨rfl, rfl⟩ ⟨rfl, rfl, rfl, rfl⟩ (.pushing hpc nofun)

private theorem respond_custody (gone : Bool) (call : RespondCall) (o : H3Stream) :
    (⟨(o.respond gone call).dispatched, (o.respond gone call).workerDone,
      (o.respond gone call).pool⟩ : Custody) = ⟨o.dispatched, o.workerDone, o.pool⟩ := by
  obtain ⟨_, _, _, he⟩ := respond_eq gone call o
  rw [he]

theorem Lifetime.worker {σ : State} {i : ℕ} {t : Task} {w : WorkerAct} {s : H3Session} {p : Phase}
    {free : Bool} (hL : Lifetime σ) (ht : σ.tasks[i]? = some t)
    (hw : workerStep σ.session free t w = some (s, p)) :
    Lifetime ⟨s, σ.pc, σ.tasks.set i ⟨t.sid, p⟩⟩ := by
  cases workerStep_work hw with
  | begin hq | answered hq =>
    exact hL.advance_quiet ht hq ⟨rfl, rfl, rfl⟩ rfl ⟨rfl, rfl, rfl, rfl⟩ (.same rfl)
  | created yes hq | built yes hq =>
    cases yes <;> exact hL.advance_quiet ht hq ⟨rfl, rfl, rfl⟩ rfl ⟨rfl, rfl, rfl, rfl⟩ (.same rfl)
  | respond call hq =>
    exact hL.advance_quiet ht hq (sameCustody_modify _ _ (respond_custody _ call)) rfl
      ⟨rfl, rfl, rfl, rfl⟩ (.same rfl)
  | unreserve hq => exact hL.advance_unreserve ht hq rfl rfl rfl (.same rfl)
  | mark hq => exact hL.advance_mark ht hq (.same rfl)
  | release hq | leave hq =>
    exact hL.advance_decrement ht hq ⟨rfl, rfl⟩ ⟨rfl, rfl, rfl, rfl⟩ (.same rfl)

/-- A known stream that is not dispatched is with the event thread. -/
theorem Lifetime.custody_of_free {σ : State} {sid : ℤ} (hL : Lifetime σ) (hknown : (custody σ.session sid).isSome)
    (hfree : σ.session.has sid (·.dispatched) = false) : custody σ.session sid = some ⟨false, false, true⟩ := by
  obtain ⟨⟨d, w, p⟩, hc⟩ := Option.isSome_iff_exists.mp hknown
  obtain ⟨hdone, hpool⟩ := hL.sane sid _ hc
  have hd : d = false := by
    obtain ⟨o, ho, he⟩ := Option.map_eq_some_iff.mp hc
    cases he
    rw [H3Session.has_of_obj ho] at hfree
    exact hfree
  subst hd
  have hw : w = false := Bool.eq_false_iff.mpr fun h => Bool.false_ne_true (hdone h)
  subst hw
  have hp : p = true := Bool.ne_false_iff.mp fun h => Bool.false_ne_true (hpool h)
  rw [hc, hp]

/-- No task of a stream that is with the event thread has it to itself. -/
theorem Lifetime.letGo_of_free {σ : State} {sid : ℤ} (hL : Lifetime σ)
    (hfree : custody σ.session sid = some ⟨false, false, true⟩) : ∀ t ∈ σ.tasks, t.sid = sid → t.phase.letGo := by
  intro t ht hsid
  apply Phase.letGo_of_not
  · refine Bool.eq_false_iff.mpr fun h => ?_
    cases (hsid ▸ hL.holder t ht h).symm.trans hfree
  · refine Bool.eq_false_iff.mpr fun h => ?_
    obtain ⟨p, hp⟩ := hL.served t ht h
    cases (hsid ▸ hp).symm.trans hfree

/-- The event thread reserves a stream that no task holds. -/
theorem Lifetime.reserve {σ : State} {sid : ℤ} {rest : List ℤ} (hL : Lifetime σ)
    (hpc : σ.pc = .dispatch (sid :: rest)) (hfree : σ.session.has sid (·.dispatched) = false) :
    Lifetime ⟨σ.session.setStreamDispatched sid true, .pushing σ.tasks.length rest,
      σ.tasks ++ [⟨sid, .reserved⟩]⟩ := by
  have hold := hL.custody_of_free (hL.known sid (hpc ▸ List.mem_cons_self)) hfree
  have hletGo := hL.letGo_of_free hold
  have hnew : custody (σ.session.setStreamDispatched sid true) sid = some ⟨true, false, true⟩ := by
    unfold H3Session.setStreamDispatched
    rw [custody_modify_self (g := fun c => { c with dispatched := true }) fun _ => rfl, hold]
    rfl
  have hother : ∀ x ≠ sid, custody (σ.session.setStreamDispatched sid true) x = custody σ.session x :=
    fun x hx => custody_modify_ne hx
  have hget : ∀ (j : ℕ) (u : Task), (σ.tasks ++ [⟨sid, .reserved⟩])[j]? = some u →
      σ.tasks[j]? = some u ∨ j = σ.tasks.length ∧ u = ⟨sid, .reserved⟩ := by
    intro j u hu
    rw [List.getElem?_append] at hu
    split at hu
    · exact .inl hu
    · rename_i hj
      obtain ⟨hlt, he⟩ := List.getElem?_eq_some_iff.mp hu
      have : j = σ.tasks.length := by
        simp only [List.length_cons, List.length_nil] at hlt
        omega
      subst this
      simp only [Nat.sub_self, List.getElem_cons_zero] at he
      exact .inr ⟨rfl, he.symm⟩
  have hmem : ∀ u ∈ σ.tasks ++ [(⟨sid, .reserved⟩ : Task)], u ∈ σ.tasks ∨ u = ⟨sid, .reserved⟩ := by
    intro u hu
    simpa using hu
  constructor
  · simp only [List.countP_append]
    exact hL.counted
  · intro i j t u hij ht hu hsid
    rcases hget i t ht with hti | ⟨rfl, rfl⟩
    · rcases hget j u hu with huj | ⟨rfl, rfl⟩
      · exact hL.order i j t u hij hti huj hsid
      · exact hletGo t (List.mem_of_getElem? hti) hsid
    · have := (List.getElem?_eq_some_iff.mp hu).1
      simp only [List.length_append, List.length_cons, List.length_nil] at this
      omega
  · intro t ht hh
    rcases hmem t ht with ht | rfl
    · have hsid : t.sid ≠ sid := fun he => by
        cases (he ▸ hL.holder t ht hh).symm.trans hold
      exact (hother _ hsid).trans (hL.holder t ht hh)
    · exact hnew
  · intro t ht hs
    rcases hmem t ht with ht | rfl
    · obtain ⟨p, hp⟩ := hL.served t ht hs
      have hsid : t.sid ≠ sid := fun he => by cases (he ▸ hp).symm.trans hold
      exact ⟨p, (hother _ hsid).trans hp⟩
    · cases hs
  · intro x c hc
    by_cases hx : x = sid
    · subst hx
      cases hnew.symm.trans hc
      exact ⟨nofun, nofun⟩
    · exact hL.sane x c ((hother x hx).symm.trans hc)
  · intro x c hc hin
    by_cases hx : x = sid
    · subst hx
      cases hL.removed x _ hold hin
    · exact hL.removed x c ((hother x hx).symm.trans hc) hin
  · intro i t ht he
    rcases hget i t ht with ht | ⟨rfl, -⟩
    · obtain ⟨rest', hp⟩ := hL.pushing i t ht he
      cases hpc.symm.trans hp
    · exact ⟨rest, rfl⟩
  · nofun
  · nofun
  · intro x hx
    have hsome := hL.known x (hpc ▸ List.mem_cons_of_mem _ hx)
    by_cases he : x = sid
    · subst he
      exact hnew ▸ rfl
    · exact hother x he ▸ hsome

end ModHttp3.System
