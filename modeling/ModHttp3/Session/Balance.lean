import ModHttp3.Lib.Tally
import ModHttp3.Session.Alter
import ModHttp3.Session.Change

/-! The counter of write-blocked streams, through every alteration of a session. -/
namespace ModHttp3.Session
open Lib

namespace H3Session

def writeBlocks (s : H3Session) (sid : ℤ) : Bool := s.has sid (·.writeBlocked)

/-- `blocked_streams` counts the tracked streams that are write-blocked; no other stream object is. -/
structure Balanced (s : H3Session) : Prop where
  tally : Tally s.streams s.writeBlocks s.blockedStreams
  tracked : ∀ sid ∈ s.streams, (s.obj sid).isSome

theorem balanced_new : Balanced .new := ⟨.empty, fun _ h => absurd h List.not_mem_nil⟩

section
variable {s s' : H3Session} {sid : ℤ}

theorem writeBlocks_modify (s : H3Session) (sid : ℤ) {f : H3Stream → H3Stream}
    (hf : ∀ o, (f o).writeBlocked = o.writeBlocked) : (s.modify sid f).writeBlocks = s.writeBlocks := by
  funext x
  unfold writeBlocks has
  by_cases hx : x = sid
  · subst hx
    rw [modify_obj_self, Option.any_map]
    exact congrArg (Option.any · _) (funext hf)
  · rw [modify_obj_ne s f hx]

/-- Setting the flag of a stream that exists, or clearing it. -/
private theorem writeBlocks_set (s : H3Session) {f : H3Stream → H3Stream} {b : Bool}
    (hf : ∀ o, (f o).writeBlocked = b) (hb : b = true → (s.obj sid).isSome) :
    (s.modify sid f).writeBlocks = Function.update s.writeBlocks sid b := by
  funext x
  by_cases hx : x = sid
  · subst hx
    rw [Function.update_self]
    unfold writeBlocks has
    rw [modify_obj_self]
    cases ho : s.obj x with
    | none =>
      cases b with
      | false => rfl
      | true =>
        rw [ho] at hb
        cases hb rfl
    | some o => exact hf o
  · rw [Function.update_of_ne hx]
    unfold writeBlocks has
    rw [modify_obj_ne s f hx]

theorem Balanced.of_same (h : Balanced s) (hblocks : s'.writeBlocks = s.writeBlocks)
    (hobj : ∀ x, (s'.obj x).isSome = (s.obj x).isSome) (hstreams : s'.streams = s.streams)
    (hcount : s'.blockedStreams = s.blockedStreams) : Balanced s' := by
  refine ⟨?_, ?_⟩
  · rw [hblocks, hstreams, hcount]
    exact h.tally
  · intro x hx
    rw [hobj]
    rw [hstreams] at hx
    exact h.tracked x hx

/-- A session in which a write block was set or lifted, and nothing else of the table changed. -/
structure Reblocked (s : H3Session) (sid : ℤ) (b : Bool) (s' : H3Session) : Prop where
  writeBlocks : s'.writeBlocks = Function.update s.writeBlocks sid b
  isSome : ∀ x, (s'.obj x).isSome = (s.obj x).isSome

theorem reblocked_modify (s : H3Session) {f : H3Stream → H3Stream} {b : Bool}
    (hf : ∀ o, (f o).writeBlocked = b) (hb : b = true → (s.obj sid).isSome)
    (hobj : s'.obj = (s.modify sid f).obj) : Reblocked s sid b s' := by
  refine ⟨?_, fun x => by rw [hobj, modify_obj_isSome]⟩
  rw [← writeBlocks_set s hf hb]
  unfold writeBlocks has
  rw [hobj]

theorem blockStream_of_blocked (hb : s.writeBlocks sid) : s.blockStream sid = s := if_pos hb

theorem blockStream_spec (hb : s.writeBlocks sid = false) (hsome : (s.obj sid).isSome) :
    Reblocked s sid true (s.blockStream sid) ∧ (s.blockStream sid).streams = s.streams ∧
      (s.blockStream sid).blockedStreams = s.blockedStreams + 1 := by
  have hb : ¬ s.has sid (·.writeBlocked) = true := Bool.not_eq_true _ ▸ hb
  unfold H3Session.blockStream
  rw [if_neg hb]
  exact ⟨reblocked_modify s (f := fun o => { o with writeBlocked := true }) (fun _ => rfl)
    (fun _ => hsome) rfl, rfl, rfl⟩

theorem writeBlocks_blockStream_ne {x : ℤ} (hx : x ≠ sid) (hb : (s.blockStream sid).writeBlocks x) :
    s.writeBlocks x := by
  unfold H3Session.blockStream at hb
  split_ifs at hb
  · exact hb
  · unfold writeBlocks has at hb ⊢
    rwa [modify_obj_ne s _ hx] at hb

theorem reblocked_unblockStream (s : H3Session) (sid : ℤ) : Reblocked s sid false (s.unblockStream sid) :=
  reblocked_modify s (f := fun o => { o with writeBlocked := false }) (fun _ => rfl) nofun rfl

theorem reclaimStream_spec (s : H3Session) (sid : ℤ) :
    s.reclaimStream sid = s ∨
      Reblocked s sid false (s.reclaimStream sid) ∧
        (s.reclaimStream sid).streams = s.streams.filter (· ≠ sid) ∧
        (s.reclaimStream sid).blockedStreams =
          if s.writeBlocks sid then s.blockedStreams - 1 else s.blockedStreams := by
  unfold H3Session.reclaimStream
  split
  · exact .inr ⟨reblocked_modify s (f := fun o => { o with writeBlocked := false, pool := false })
      (fun _ => rfl) nofun rfl, rfl, rfl⟩
  · exact .inl rfl

theorem Balanced.blockStream (h : Balanced s) (hsid : sid ∈ s.streams) : Balanced (s.blockStream sid) := by
  cases hb : s.writeBlocks sid with
  | true => rwa [blockStream_of_blocked hb]
  | false =>
    obtain ⟨hre, hstreams, hcount⟩ := blockStream_spec hb (h.tracked sid hsid)
    refine ⟨?_, ?_⟩
    · rw [hre.writeBlocks, hstreams, hcount]
      exact h.tally.set hsid hb
    · intro x hx
      rw [hstreams] at hx
      exact (hre.isSome x).trans (h.tracked x hx)

theorem Balanced.unblockStream (h : Balanced s) (hb : s.writeBlocks sid) :
    Balanced (s.unblockStream sid) := by
  have hre := reblocked_unblockStream s sid
  refine ⟨?_, fun x hx => (hre.isSome x).trans (h.tracked x hx)⟩
  rw [hre.writeBlocks]
  exact h.tally.clear hb

theorem Balanced.reclaimStream (h : Balanced s) (sid : ℤ) : Balanced (s.reclaimStream sid) := by
  rcases reclaimStream_spec s sid with he | ⟨hre, hstreams, hcount⟩
  · rwa [he]
  · refine ⟨?_, ?_⟩
    · rw [hre.writeBlocks, hstreams, hcount]
      exact h.tally.remove sid
    · intro x hx
      rw [hstreams] at hx
      exact (hre.isSome x).trans (h.tracked x (List.mem_filter.mp hx).1)

theorem Balanced.addStream (h : Balanced s) (g : Handle) (hnew : s.obj sid = none) :
    Balanced (s.addStream sid g) := by
  have hsid : sid ∉ s.streams := by
    intro hsid
    have hsome := h.tracked sid hsid
    rw [hnew] at hsome
    cases hsome
  have hflags : (s.addStream sid g).writeBlocks = s.writeBlocks := by
    funext x
    unfold writeBlocks has
    by_cases hx : x = sid
    · subst hx
      rw [addStream_obj_self, hnew]
      rfl
    · rw [addStream_obj_ne s g hx]
  refine ⟨?_, ?_⟩
  · rw [hflags]
    exact h.tally.add hsid
  · intro x hx
    by_cases hxs : x = sid
    · subst hxs
      rw [addStream_obj_self]
      rfl
    · rw [addStream_obj_ne s g hxs]
      rcases List.mem_append.mp hx with hx | hx
      · exact h.tracked x hx
      · exact absurd (List.mem_singleton.mp hx) hxs

end

/-- Some streams are marked: those among them that are tracked are write-blocked, and all exist. -/
structure Marked (held : ℤ → Bool) (s : H3Session) : Prop where
  balanced : Balanced s
  blocked : ∀ sid ∈ s.streams, held sid → s.writeBlocks sid
  known : ∀ sid, held sid → (s.obj sid).isSome

namespace Marked

variable {held : ℤ → Bool} {s s' : H3Session} {sid : ℤ}

theorem of_same (h : Marked held s) (hblocks : s'.writeBlocks = s.writeBlocks)
    (hobj : ∀ x, (s'.obj x).isSome = (s.obj x).isSome) (hstreams : s'.streams = s.streams)
    (hcount : s'.blockedStreams = s.blockedStreams) : Marked held s' where
  balanced := h.balanced.of_same hblocks hobj hstreams hcount
  blocked := by
    rw [hblocks, hstreams]
    exact h.blocked
  known := fun x hx => (hobj x).trans (h.known x hx)

theorem blockStream (h : Marked held s) (hsid : sid ∈ s.streams) :
    Marked (if s.writeBlocks sid then held else Function.update held sid true) (s.blockStream sid) := by
  have hbalanced := h.balanced.blockStream hsid
  cases hb : s.writeBlocks sid with
  | true =>
    rw [blockStream_of_blocked hb]
    exact h
  | false =>
    obtain ⟨hre, hstreams, -⟩ := blockStream_spec hb (h.balanced.tracked sid hsid)
    rw [if_neg Bool.false_ne_true]
    refine ⟨hbalanced, ?_, ?_⟩
    · intro x hx hheld
      rw [hstreams] at hx
      rw [hre.writeBlocks]
      by_cases hxs : x = sid
      · rw [hxs, Function.update_self]
      · rw [Function.update_of_ne hxs] at hheld ⊢
        exact h.blocked x hx hheld
    · intro x hheld
      rw [hre.isSome]
      by_cases hxs : x = sid
      · rw [hxs]
        exact h.balanced.tracked sid hsid
      · rw [Function.update_of_ne hxs] at hheld
        exact h.known x hheld

theorem unblockStream (h : Marked held s) (hb : s.writeBlocks sid) :
    Marked (Function.update held sid false) (s.unblockStream sid) := by
  have hre := reblocked_unblockStream s sid
  have hold : ∀ x, Function.update held sid false x = true → x ≠ sid ∧ held x = true := by
    intro x hx
    by_cases hxs : x = sid
    · rw [hxs, Function.update_self] at hx
      cases hx
    · rw [Function.update_of_ne hxs] at hx
      exact ⟨hxs, hx⟩
  refine ⟨h.balanced.unblockStream hb, ?_, ?_⟩
  · intro x hx hheld
    obtain ⟨hxs, hheld⟩ := hold x hheld
    rw [hre.writeBlocks, Function.update_of_ne hxs]
    exact h.blocked x hx hheld
  · intro x hheld
    rw [hre.isSome]
    exact h.known x (hold x hheld).2

theorem reclaimStream (h : Marked held s) (sid : ℤ) : Marked held (s.reclaimStream sid) := by
  have hbalanced := h.balanced.reclaimStream sid
  rcases reclaimStream_spec s sid with he | ⟨hre, hstreams, -⟩
  · rwa [he]
  · refine ⟨hbalanced, ?_, ?_⟩
    · intro x hx hheld
      rw [hstreams] at hx
      obtain ⟨hx, hne⟩ := List.mem_filter.mp hx
      rw [hre.writeBlocks, Function.update_of_ne (of_decide_eq_true hne)]
      exact h.blocked x hx hheld
    · intro x hheld
      rw [hre.isSome]
      exact h.known x hheld

theorem addStream (h : Marked held s) (g : Handle) (hnew : s.obj sid = none) :
    Marked held (s.addStream sid g) := by
  have hne : ∀ x, held x → x ≠ sid := by
    rintro x hheld rfl
    have hsome := h.known x hheld
    rw [hnew] at hsome
    cases hsome
  refine ⟨h.balanced.addStream g hnew, ?_, ?_⟩
  · intro x hx hheld
    have hxs := hne x hheld
    rcases List.mem_append.mp hx with hx | hx
    · unfold writeBlocks has
      rw [addStream_obj_ne s g hxs]
      exact h.blocked x hx hheld
    · exact absurd (List.mem_singleton.mp hx) hxs
  · intro x hheld
    rw [addStream_obj_ne s g (hne x hheld)]
    exact h.known x hheld

end Marked

end H3Session

section
variable {conf : SessionConf} {C : Callback → Prop} {held : ℤ → Bool} {s s' : H3Session}

theorem touch_writeBlocked {f : H3Stream → H3Stream} (hf : Touch f) (o : H3Stream) :
    (f o).writeBlocked = o.writeBlocked := by
  cases hf with
  | respond gone call =>
    obtain ⟨_, _, _, he⟩ := respond_eq gone call o
    rw [he]
  | _ => rfl

private theorem onStream_writeBlocked (conf : SessionConf) (cb : Callback) (o : H3Stream) :
    (cb.onStream conf o).writeBlocked = o.writeBlocked := by
  cases cb with
  | recvHeader sid field =>
    obtain ⟨_, _, _, _, _, _, _, _, -, he⟩ := onRecvHeader_eq conf field o
    have hsame := congrArg H3Stream.writeBlocked he
    exact hsame
  | endHeaders sid fin =>
    simp only [Callback.onStream, onEndHeaders]
    split_ifs <;> rfl
  | recvData sid data =>
    simp only [Callback.onStream, onRecvData]
    split_ifs <;> rfl
  | _ => rfl

theorem release_table (s : H3Session) (sid : ℤ) (f : H3Stream → H3Stream) :
    (s.release sid f).streams = s.streams ∧ (s.release sid f).blockedStreams = s.blockedStreams := by
  unfold H3Session.release
  cases s.qstream sid <;> exact ⟨rfl, rfl⟩

theorem deliver_table (conf : SessionConf) (s : H3Session) (cb : Callback) :
    (s.deliver conf cb).streams = s.streams ∧ (s.deliver conf cb).blockedStreams = s.blockedStreams := by
  cases cb with
  | stopSending sid => exact release_table s sid _
  | resetStream sid =>
    change (s.logOp .reset (s.qstream sid)).streams = _ ∧
      (s.logOp .reset (s.qstream sid)).blockedStreams = _
    cases s.qstream sid <;> exact ⟨rfl, rfl⟩
  | streamClose sid => exact release_table (s.log (.closed sid)) sid _
  | _ => exact ⟨rfl, rfl⟩

theorem callback_writeBlocks (s : H3Session) (cb : Callback) :
    (s.callback conf cb).writeBlocks = s.writeBlocks := by
  unfold H3Session.callback
  split_ifs
  · rw [← H3Session.writeBlocks_modify s cb.sid (onStream_writeBlocked conf cb)]
    unfold H3Session.writeBlocks H3Session.has
    rw [deliver_obj conf s cb]
  · rfl

theorem H3Session.Marked.callback (h : s.Marked held) (cb : Callback) : (s.callback conf cb).Marked held := by
  have hblocks := @callback_writeBlocks conf s cb
  unfold H3Session.callback at hblocks ⊢
  split_ifs at hblocks ⊢
  · have htable := deliver_table conf s cb
    refine h.of_same hblocks (fun x => ?_) htable.1 htable.2
    rw [deliver_obj conf s cb, H3Session.modify_obj_isSome]
  · exact h

/-- Alterations that set or lift no write block keep the marks. -/
theorem Alters.marked (h : Alters conf C (fun _ _ => False) s s') (hs : s.Marked held) : s'.Marked held := by
  refine h.preserve (P := fun s => s.Marked held) (fun s₁ s₂ ha h₁ => ?_) hs
  cases ha with
  | same hobj hstreams hcount =>
    refine h₁.of_same ?_ (fun x => by rw [hobj]) hstreams hcount
    unfold H3Session.writeBlocks H3Session.has
    rw [hobj]
  | touch sid hf =>
    exact h₁.of_same (H3Session.writeBlocks_modify s₁ sid (touch_writeBlocked hf))
      (fun x => H3Session.modify_obj_isSome s₁ sid x _) rfl rfl
  | callback cb hC => exact h₁.callback cb
  | unblock sid hB hb => exact hB.elim
  | block sid hB => exact hB.elim
  | reclaim sid => exact h₁.reclaimStream sid
  | add sid g hnew => exact h₁.addStream g hnew

/-- Alterations that set or lift no write block set none, though a reclaimed stream loses its own. -/
theorem Alters.writeBlocks (h : Alters conf C (fun _ _ => False) s s') {sid : ℤ}
    (hb : s'.writeBlocks sid) : s.writeBlocks sid := by
  refine h.preserve (P := fun s₁ => s₁.writeBlocks sid → s.writeBlocks sid) (fun s₁ s₂ ha h₁ => ?_) id hb
  have hsame : s₂.writeBlocks = s₁.writeBlocks → s₂.writeBlocks sid → s.writeBlocks sid := by
    intro he hb'
    rw [he] at hb'
    exact h₁ hb'
  cases ha with
  | same hobj hstreams hcount =>
    apply hsame
    unfold H3Session.writeBlocks H3Session.has
    rw [hobj]
  | touch x hf => exact hsame (H3Session.writeBlocks_modify s₁ x (touch_writeBlocked hf))
  | callback cb hC => exact hsame (callback_writeBlocks s₁ cb)
  | unblock x hB hb => exact hB.elim
  | block x hB => exact hB.elim
  | reclaim x =>
    rcases H3Session.reclaimStream_spec s₁ x with he | ⟨hre, -, -⟩
    · rw [he]
      exact h₁
    · rw [hre.writeBlocks]
      by_cases hx : sid = x
      · rw [hx, Function.update_self]
        nofun
      · rw [Function.update_of_ne hx]
        exact h₁
  | add x g hnew =>
    unfold H3Session.writeBlocks H3Session.has
    by_cases hx : sid = x
    · rw [hx, H3Session.addStream_obj_self]
      nofun
    · rw [H3Session.addStream_obj_ne s₁ g hx]
      exact h₁

end

end ModHttp3.Session
