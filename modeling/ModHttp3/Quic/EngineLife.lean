import ModHttp3.Lib.Ledger
import ModHttp3.Quic.PeerAddr

/-! The life of a QUIC engine: `h3q_engine_create` with every call that may fail, the datagrams that it reads, the
connections that it accepts, and `h3q_engine_destroy`. -/
namespace ModHttp3.Quic
open Lib LinkedQueue

/-- What is allocated for an engine, besides its datagrams. -/
inductive Part
  | engine
  | sslCtx
  | bioMethod
  | peerAddr
  | listener
  | dgramBio
  | filterBio
  deriving DecidableEq, Repr

/-- The calls in `h3q_engine_create` and `h3q_tls_ctx_create`, in their order. -/
inductive Call
  | engine
  | sslCtx
  | certificate
  | bioMethod
  | handlers
  | peerAddr
  | exIndex
  | listener
  | dgramBio
  | filterBio
  | listen
  deriving DecidableEq, Repr

/-- The pointers in `h3q_engine` that are set; `chained` tells that the listener has its BIOs. -/
structure EngineFields where
  sslCtx : Bool
  peerAddrBioMethod : Bool
  currentPeerAddr : Bool
  sslListener : Bool
  chained : Bool
  deriving DecidableEq, Repr

inductive EnginePc
  | creating (call : Call)
  | ready
  | gone
  deriving DecidableEq, Repr

/-- An engine, the datagrams it has, what was done to its parts, the last first, and the number of accepted
connections that are not freed. -/
structure EngineLife where
  pc : EnginePc
  fields : EngineFields
  rx : Rx
  uses : List (Use Part)
  conns : ℕ

inductive EngineAct
  | call (ok : Bool)
  | recv (msgs : List BioMsg)
  | newConn
  | accept (ok : Bool)
  | connFree
  | destroy

/-- What OpenSSL does when the last reference to the listener goes: it frees the BIOs first, and the filter's method
then calls `h3q_peer_addr_bio_destroy`. Every accepted connection has a reference. -/
def sslFreeUses (chained : Bool) : List (Use Part) :=
  (if chained then [.access .bioMethod, .access .engine, .free .filterBio, .free .dgramBio] else []) ++
    [.access .sslCtx, .free .listener]

/-- `last` tells that the engine has the last reference to its listener. -/
def destroyUses (f : EngineFields) (last : Bool) : List (Use Part) :=
  [.access .engine] ++
    (if f.sslListener then if last then sslFreeUses f.chained else [.access .listener] else []) ++
    (if f.currentPeerAddr then [.free .peerAddr] else []) ++
    (if f.peerAddrBioMethod then [.free .bioMethod] else []) ++ (if f.sslCtx then [.free .sslCtx] else []) ++
    [.free .engine]

namespace EngineLife

def start (socket : List (Option (List Arrival))) : EngineLife :=
  ⟨.creating .engine, ⟨false, false, false, false, false⟩, .start socket, [], 0⟩

def record (us : List (Use Part)) (w : EngineLife) : EngineLife := { w with uses := us.reverse ++ w.uses }

/-- The queue is cleared once more when the filter goes. -/
def clearTwice (f : EngineFields) (last : Bool) (e : Engine) : Option Engine :=
  (h3qPeerAddrQueueClear e).bind fun e =>
    if f.sslListener && f.chained && last then h3qPeerAddrQueueClear e else some e

def h3qEngineDestroy (w : EngineLife) : Option EngineLife :=
  (clearTwice w.fields (w.conns == 0) w.rx.engine).map fun e =>
    { w.record (destroyUses w.fields (w.conns == 0)) with pc := .gone, rx := { w.rx with engine := e } }

/-- `h3q_conn_free`. After the engine, the last connection takes the listener with it. -/
def h3qConnFree (w : EngineLife) : Option EngineLife :=
  match w.conns with
  | 0 => none
  | conns + 1 =>
    if w.pc = .gone ∧ conns = 0 then some { w.record (sslFreeUses w.fields.chained) with conns := 0 }
    else some { w.record [.access .listener] with conns := conns }

/-- The next call of the creation. A failure destroys what is there, except that `h3q_tls_ctx_create` itself frees
its context, and that a BIO which is not yet in the chain is freed alone. -/
def call (w : EngineLife) : Call → Bool → Option EngineLife
  | .engine, true => some { w.record [.gain .engine] with pc := .creating .sslCtx }
  | .engine, false => some { w with pc := .gone }
  | .sslCtx, true => some { w.record [.gain .sslCtx] with pc := .creating .certificate }
  | .certificate, true =>
    some { w.record [.access .sslCtx] with
      pc := .creating .bioMethod
      fields := { w.fields with sslCtx := true } }
  | .certificate, false => (w.record [.access .sslCtx, .free .sslCtx]).h3qEngineDestroy
  | .bioMethod, true =>
    some { w.record [.gain .bioMethod] with
      pc := .creating .handlers
      fields := { w.fields with peerAddrBioMethod := true } }
  | .handlers, true => some { w.record [.access .bioMethod] with pc := .creating .peerAddr }
  | .handlers, false => (w.record [.access .bioMethod]).h3qEngineDestroy
  | .peerAddr, ok =>
    some { w.record (if ok then [.gain .peerAddr] else []) with
      pc := .creating .exIndex
      fields := { w.fields with currentPeerAddr := ok } }
  | .exIndex, ok =>
    if w.fields.currentPeerAddr && ok then some { w.record [.access .sslCtx] with pc := .creating .listener }
    else w.h3qEngineDestroy
  | .listener, true =>
    some { w.record [.access .sslCtx, .gain .listener] with
      pc := .creating .dgramBio
      fields := { w.fields with sslListener := true } }
  | .dgramBio, true => some { w.record [.gain .dgramBio] with pc := .creating .filterBio }
  | .filterBio, true =>
    some { w.record [.access .bioMethod, .gain .filterBio, .access .listener] with
      pc := .creating .listen
      fields := { w.fields with chained := true } }
  | .filterBio, false => (w.record [.free .dgramBio]).h3qEngineDestroy
  | .listen, true => some { w.record [.access .listener] with pc := .ready }
  | .listen, false => (w.record [.access .listener]).h3qEngineDestroy
  | _, false => w.h3qEngineDestroy

/-- `h3q_peer_addr_bio_recvmmsg` and `h3q_new_pending_conn_cb` are called with a pointer to the engine. -/
def step (alloc : ℕ → Bool) (w : EngineLife) : EngineAct → Option EngineLife
  | .call ok => match w.pc with
    | .creating c => w.call c ok
    | _ => none
  | .recv msgs =>
    if w.pc = .ready then
      (w.rx.recv alloc msgs).map fun p =>
        { w.record [.access .bioMethod, .access .filterBio, .access .engine, .access .peerAddr, .access .dgramBio] with
          rx := p.2 }
    else none
  | .newConn =>
    if w.pc = .ready then some (w.record [.access .sslCtx, .access .engine, .access .peerAddr]) else none
  | .accept ok =>
    if w.pc = .ready then
      some { w.record [.access .engine, .access .listener] with conns := if ok then w.conns + 1 else w.conns }
    else none
  | .connFree => w.h3qConnFree
  | .destroy => if w.pc = .ready then w.h3qEngineDestroy else none

/-- The engine is destroyed after the connections. -/
def connsFirst (w : EngineLife) : EngineAct → Bool
  | .destroy => w.conns == 0
  | _ => true

end EngineLife

section
variable {alloc : ℕ → Bool} {e : Engine} {l : List (Addr × Datagram)}

/-- A batch with null buffers clears the queue, too. -/
private theorem fill_total (alloc : ℕ → Bool) (msgs : List BioMsg) (h : Holds e l) :
    ∃ ok e' l', h3qQueueFill alloc msgs e = some (ok, e') ∧ Holds e' l' := by
  induction msgs generalizing e l with
  | nil => exact ⟨true, e, l, rfl, h⟩
  | cons m msgs ih =>
    obtain ⟨e₀, hclear, hempty, -⟩ := h.clear
    unfold h3qQueueFill
    cases m.data with
    | none => exact ⟨false, e₀, [], by rw [hclear]; rfl, hempty⟩
    | some bytes =>
      dsimp only
      split_ifs
      · exact ⟨false, e₀, [], by rw [hclear]; rfl, hempty⟩
      · obtain ⟨q, hq, hpushed⟩ := h.push ⟨bytes.take m.dataLen, m.peer, m.localAddr⟩
        rw [hq]
        exact ih hpushed

theorem recvPop_total (h : Holds e l) (msg : BioMsg) : ∃ r e' l', recvPop e msg = some (r, e') ∧ Holds e' l' := by
  cases l with
  | nil =>
    have hhead : e.peerRx.head = none := h.rep.head_eq
    exact ⟨⟨false, some 0, some msg⟩, e, [], by simp [recvPop, h3qQueuePop, hhead], h⟩
  | cons c l =>
    cases hdata : msg.data with
    | none =>
      have hhead : e.peerRx.head = some c.1 := h.rep.head_eq
      exact ⟨⟨false, some 0, some msg⟩, e, c :: l, by simp [recvPop, h3qQueuePop, hhead, hdata], h⟩
    | some bytes =>
      obtain ⟨e', hholds, -, hpop⟩ := recvPop_holds h (by rw [hdata]; rfl)
      exact ⟨_, e', l, hpop, hholds⟩

private theorem recvmmsg_total (alloc : ℕ → Bool) (h : Holds e l) (msgs : List BioMsg) (answer : Bool × List BioMsg) :
    ∃ r e' l', h3qPeerAddrBioRecvmmsg alloc e msgs answer = some (r, e') ∧ Holds e' l' := by
  have hcleared : Holds { e with currentPeerAddr := none } l := ⟨h.rep, h.counted⟩
  unfold h3qPeerAddrBioRecvmmsg
  cases msgs with
  | nil => exact ⟨_, e, l, rfl, h⟩
  | cons msg more =>
    dsimp only
    split_ifs
    · exact recvPop_total hcleared msg
    · split
      · rename_i first rest
        obtain ⟨ok, e', l', hfill, hholds⟩ := fill_total alloc (first :: rest) hcleared
        rw [hfill]
        cases ok with
        | true => exact recvPop_total hholds first
        | false => exact ⟨_, e', l', rfl, hholds⟩
      · exact ⟨_, _, l, rfl, hcleared⟩

/-- Whatever the caller supplies, the queue stays whole. -/
private theorem recv_total (alloc : ℕ → Bool) {rx : Rx} (h : Holds rx.engine l) (msgs : List BioMsg) :
    ∃ o rx' l', rx.recv alloc msgs = some (o, rx') ∧ Holds rx'.engine l' := by
  obtain ⟨r, e', l', hcall, hholds⟩ := recvmmsg_total alloc h msgs (bioRecvmmsg msgs (rx.batch msgs))
  unfold Rx.recv
  rw [hcall]
  exact ⟨_, _, l', rfl, hholds⟩

end

/-- The engine has the part. -/
def EngineFields.has (f : EngineFields) : Part → Bool
  | .engine => true
  | .sslCtx => f.sslCtx
  | .bioMethod => f.peerAddrBioMethod
  | .peerAddr => f.currentPeerAddr
  | .listener => f.sslListener
  | .dgramBio | .filterBio => f.chained

/-- Nothing is set before what it needs. -/
def EngineFields.ordered (f : EngineFields) : Bool :=
  (!f.chained || f.sslListener && f.peerAddrBioMethod) && (!f.sslListener || f.sslCtx)

/-- The fields when the call is made; `BIO_ADDR_new` is only checked after the one that follows it. -/
def fieldsAt (addr : Bool) : Call → EngineFields
  | .engine | .sslCtx | .certificate => ⟨false, false, false, false, false⟩
  | .bioMethod => ⟨true, false, false, false, false⟩
  | .handlers | .peerAddr => ⟨true, true, false, false, false⟩
  | .exIndex => ⟨true, true, addr, false, false⟩
  | .listener => ⟨true, true, true, false, false⟩
  | .dgramBio | .filterBio => ⟨true, true, true, true, false⟩
  | .listen => ⟨true, true, true, true, true⟩

/-- The parts then. A context and a BIO are not in the fields at first. -/
def placesAt (addr : Bool) (c : Call) (part : Part) : Place :=
  match c, part with
  | .engine, _ => .fresh
  | .certificate, .sslCtx => .held
  | .filterBio, .dgramBio => .held
  | c, part => if (fieldsAt addr c).has part then .held else .fresh

/-- The invariant of the life of an engine. -/
structure EngineLife.Sound (w : EngineLife) : Prop where
  legal : Legal w.uses
  queue : ∃ l, Holds w.rx.engine l
  creating : ∀ c, w.pc = .creating c → Holds w.rx.engine [] ∧
    w.fields = fieldsAt w.fields.currentPeerAddr c ∧ place w.uses = placesAt w.fields.currentPeerAddr c
  ready : w.pc = .ready → w.fields = ⟨true, true, true, true, true⟩ ∧ ∀ part, place w.uses part = .held
  gone : w.pc = .gone → (∀ part, place w.uses part ≠ .held) ∧ ∀ a, w.rx.engine.peerRx.mem a = none
  conns : w.pc ≠ .ready → w.conns = 0

/-- The parts that the fields have are held; nothing is known of the others. -/
def heldBy (f : EngineFields) (others : Part → Place) (part : Part) : Place :=
  if f.has part then .held else others part

/-- `h3q_engine_destroy` can be run on every partly built engine, and leaves nothing. -/
private theorem destroyUses_plays (f : EngineFields) (hf : f.ordered = true) {others : Part → Place}
    (hothers : ∀ part, f.has part = false → others part ≠ .held) :
    ∃ q, plays (heldBy f others) (destroyUses f true) = some q ∧ ∀ part, q part ≠ .held := by
  obtain ⟨ctx, method, addr, listener, chained⟩ := f
  cases ctx <;> cases method <;> cases addr <;> cases listener <;> cases chained <;>
    first
    | exact absurd hf Bool.false_ne_true
    | refine ⟨_, rfl, fun part => ?_⟩
      cases part <;> first | exact Place.noConfusion | exact hothers _ rfl

namespace EngineLife

variable {w w' : EngineLife} {c : Call}

theorem holds_nil {e : Engine} (h : Holds e []) (a : Addr) : e.peerRx.mem a = none := by
  by_contra hne
  exact absurd (h.rep.alloc a hne) List.not_mem_nil

private theorem clearTwice_holds (f : EngineFields) (last : Bool) {e : Engine} {l : List (Addr × Datagram)} (h : Holds e l) :
    ∃ e', clearTwice f last e = some e' ∧ Holds e' [] := by
  obtain ⟨e₁, hclear, hempty, -⟩ := h.clear
  obtain ⟨e₂, hagain, hempty₂, -⟩ := hempty.clear
  unfold clearTwice
  rw [hclear, Option.bind_some]
  split_ifs
  · exact ⟨e₂, hagain, hempty₂⟩
  · exact ⟨e₁, rfl, hempty⟩

theorem destroy_sound (hl : Legal w.uses) (hq : ∃ l, Holds w.rx.engine l) (hconns : w.conns = 0) (hf : w.fields.ordered = true)
    (hheld : ∀ part, w.fields.has part = true → place w.uses part = .held)
    (hrest : ∀ part, w.fields.has part = false → place w.uses part ≠ .held) :
    ∃ w', w.h3qEngineDestroy = some w' ∧ w'.Sound := by
  obtain ⟨l, hl₀⟩ := hq
  have hlast : (w.conns == 0) = true := beq_iff_eq.mpr hconns
  obtain ⟨e, hclear, hholds⟩ := clearTwice_holds w.fields (w.conns == 0) hl₀
  have hplace : place w.uses = heldBy w.fields (place w.uses) := by
    funext part
    unfold heldBy
    cases hhas : w.fields.has part with
    | true => exact hheld part hhas
    | false => rfl
  obtain ⟨q, hplays, hnone⟩ := destroyUses_plays w.fields hf hrest
  rw [← hplace, ← hlast] at hplays
  obtain ⟨hlegal, hq⟩ := hl.plays hplays
  refine ⟨_, congrArg (Option.map _) hclear, ⟨hlegal, ⟨[], hholds⟩, fun c hc => (by cases hc), fun hc => (by cases hc),
    fun _ => ⟨fun part => ?_, holds_nil hholds⟩, fun _ => hconns⟩⟩
  change place ((destroyUses w.fields (w.conns == 0)).reverse ++ w.uses) part ≠ .held
  rw [hq]
  exact hnone part

/-- Connections are accepted only on an engine that was returned. -/
private theorem Sound.no_conns (hS : w.Sound) (hpc : w.pc = .creating c) : w.conns = 0 := by
  refine hS.conns ?_
  rw [hpc]
  exact EnginePc.noConfusion

/-- The creation goes on to the call `c'`. -/
theorem Sound.next (hS : w.Sound) (hpc : w.pc = .creating c) {us : List (Use Part)} {f : EngineFields} {c' : Call}
    {q : Part → Place} (hplays : plays (placesAt w.fields.currentPeerAddr c) us = some q)
    (hf : f = fieldsAt f.currentPeerAddr c') (hq : ∀ part, q part = placesAt f.currentPeerAddr c' part) :
    ({ w.record us with pc := .creating c', fields := f } : EngineLife).Sound := by
  obtain ⟨hnone, -, hold⟩ := hS.creating c hpc
  rw [← hold] at hplays
  obtain ⟨hlegal, hplace⟩ := hS.legal.plays hplays
  refine ⟨hlegal, hS.queue, fun c₀ hc => ?_, fun hc => (by cases hc), fun hc => (by cases hc), fun _ => hS.no_conns hpc⟩
  cases hc
  exact ⟨hnone, hf, hplace.trans (funext hq)⟩

/-- The creation fails. -/
theorem Sound.fails (hS : w.Sound) (hpc : w.pc = .creating c) (us : List (Use Part)) {q : Part → Place}
    (hplays : plays (placesAt w.fields.currentPeerAddr c) us = some q)
    (hf : (fieldsAt w.fields.currentPeerAddr c).ordered = true)
    (hq : ∀ part, decide (q part = .held) = (fieldsAt w.fields.currentPeerAddr c).has part) :
    ∃ w', (w.record us).h3qEngineDestroy = some w' ∧ w'.Sound := by
  obtain ⟨-, hfields, hplace⟩ := hS.creating c hpc
  rw [← hplace] at hplays
  obtain ⟨hlegal, hplace'⟩ := hS.legal.plays hplays
  have hpart : ∀ part, place (w.record us).uses part = .held ↔ (w.record us).fields.has part = true := by
    intro part
    change place (us.reverse ++ w.uses) part = .held ↔ w.fields.has part = true
    rw [hplace', hfields, ← hq part, decide_eq_true_iff]
  have hconns : w.conns = 0 := hS.no_conns hpc
  refine destroy_sound hlegal hS.queue hconns ?_ (fun part => (hpart part).mpr) fun part hno hyes => ?_
  · change w.fields.ordered = true
    rw [hfields]
    exact hf
  · rw [(hpart part).mp hyes] at hno
    cases hno

theorem Sound.call (hS : w.Sound) (hpc : w.pc = .creating c) (ok : Bool) : ∃ w', w.call c ok = some w' ∧ w'.Sound := by
  obtain ⟨hnone, hfields, hplace⟩ := hS.creating c hpc
  cases c with
  | engine =>
    cases ok with
    | true => exact ⟨_, rfl, hS.next hpc rfl hfields fun part => by cases part <;> rfl⟩
    | false =>
      refine ⟨_, rfl, hS.legal, hS.queue, fun c hc => (by cases hc), fun hc => (by cases hc),
        fun _ => ⟨fun part => ?_, holds_nil hnone⟩, fun _ => hS.no_conns hpc⟩
      change place w.uses part ≠ .held
      rw [hplace]
      exact Place.noConfusion
  | sslCtx | dgramBio =>
    cases ok with
    | true => exact ⟨_, rfl, hS.next hpc rfl hfields fun part => by cases part <;> rfl⟩
    | false => exact hS.fails hpc [] rfl rfl fun part => by cases part <;> rfl
  | bioMethod | listener =>
    cases ok with
    | true => exact ⟨_, rfl, hS.next hpc rfl (by rw [hfields]; rfl) fun part => by cases part <;> rfl⟩
    | false => exact hS.fails hpc [] rfl rfl fun part => by cases part <;> rfl
  | certificate | filterBio =>
    cases ok with
    | true => exact ⟨_, rfl, hS.next hpc rfl (by rw [hfields]; rfl) fun part => by cases part <;> rfl⟩
    | false => exact hS.fails hpc _ rfl rfl fun part => by cases part <;> rfl
  | handlers =>
    cases ok with
    | true => exact ⟨_, rfl, hS.next hpc rfl hfields fun part => by cases part <;> rfl⟩
    | false => exact hS.fails hpc _ rfl rfl fun part => by cases part <;> rfl
  | peerAddr =>
    cases ok <;> exact ⟨_, rfl, hS.next hpc rfl (by rw [hfields]; rfl) fun part => by cases part <;> rfl⟩
  | exIndex =>
    have hcall : w.call .exIndex ok = if w.fields.currentPeerAddr && ok then
        some { w.record [.access .sslCtx] with pc := .creating .listener } else w.h3qEngineDestroy := by
      cases ok <;> rfl
    rw [hcall]
    split_ifs with hboth
    · have haddr := (Bool.and_eq_true_iff.mp hboth).1
      have hset : w.fields = fieldsAt w.fields.currentPeerAddr .listener := by
        rw [haddr] at hfields
        exact hfields
      refine ⟨_, rfl, hS.next hpc rfl hset fun part => ?_⟩
      rw [haddr]
      cases part <;> rfl
    · refine hS.fails hpc [] rfl ?_ fun part => ?_
      · cases w.fields.currentPeerAddr <;> rfl
      · cases w.fields.currentPeerAddr <;> cases part <;> rfl
  | listen =>
    cases ok with
    | true =>
      have hheld : ∀ part, place w.uses part = .held := by
        intro part
        rw [hplace]
        cases part <;> rfl
      obtain ⟨hlegal, hplace'⟩ := hS.legal.plays (plays_access [.listener] fun part _ => hheld part)
      refine ⟨_, rfl, hlegal, hS.queue, fun c hc => (by cases hc), fun _ => ⟨hfields, fun part => ?_⟩,
        fun hc => (by cases hc), fun hc => absurd rfl hc⟩
      exact (congrFun hplace' part).trans (hheld part)
    | false => exact hS.fails hpc _ rfl rfl fun part => by cases part <;> rfl

private theorem sound_start (socket : List (Option (List Arrival))) : (start socket).Sound := by
  refine ⟨trivial, ⟨[], holds_new⟩, fun c hc => ?_, fun hc => (by cases hc), fun hc => (by cases hc), fun _ => rfl⟩
  cases hc
  exact ⟨holds_new, rfl, rfl⟩

/-- A callback on a finished engine. -/
theorem Sound.access (hS : w.Sound) (hpc : w.pc = .ready) {rx : Rx} (hq : ∃ l, Holds rx.engine l) (parts : List Part)
    (conns : ℕ) : ({ w.record (parts.map Use.access) with rx := rx, conns := conns } : EngineLife).Sound := by
  obtain ⟨hfields, hheld⟩ := hS.ready hpc
  obtain ⟨hlegal, hplace⟩ := hS.legal.plays (plays_access parts fun part _ => hheld part)
  refine ⟨hlegal, hq, fun c hc => ?_, fun _ => ⟨hfields, fun part => ?_⟩, fun hc => ?_, fun hc => absurd hpc hc⟩
  · cases hpc.symm.trans hc
  · exact (congrFun hplace part).trans (hheld part)
  · cases hpc.symm.trans hc

theorem Sound.destroy (hS : w.Sound) (hpc : w.pc = .ready) (hconns : w.conns = 0) :
    ∃ w', w.h3qEngineDestroy = some w' ∧ w'.Sound := by
  obtain ⟨hfields, hheld⟩ := hS.ready hpc
  refine destroy_sound hS.legal hS.queue hconns (by rw [hfields]; rfl) (fun part _ => hheld part) fun part hno => ?_
  rw [hfields] at hno
  cases part <;> cases hno

theorem Sound.connFree (hS : w.Sound) (h : w.h3qConnFree = some w') : w'.Sound := by
  unfold h3qConnFree at h
  split at h
  · cases h
  · rename_i conns hconns
    have hpc : w.pc = .ready := by
      by_contra hne
      have hzero := hS.conns hne
      omega
    rw [if_neg fun hgone => EnginePc.noConfusion (hpc.symm.trans hgone.1)] at h
    cases h
    exact hS.access hpc hS.queue [.listener] conns

theorem Sound.step {alloc : ℕ → Bool} {act : EngineAct} (hS : w.Sound) (hok : w.connsFirst act)
    (h : w.step alloc act = some w') : w'.Sound := by
  cases act with
  | call ok =>
    simp only [EngineLife.step] at h
    split at h
    · rename_i c hpc
      obtain ⟨w₁, hw₁, hS₁⟩ := hS.call hpc ok
      cases h.symm.trans hw₁
      exact hS₁
    · cases h
  | recv msgs =>
    obtain ⟨hpc, h⟩ := Option.ite_none_right_eq_some.mp h
    obtain ⟨l, hl⟩ := hS.queue
    obtain ⟨o, rx, l', hrecv, hholds⟩ := recv_total alloc hl msgs
    rw [hrecv] at h
    cases h
    exact hS.access hpc ⟨l', hholds⟩ [.bioMethod, .filterBio, .engine, .peerAddr, .dgramBio] w.conns
  | newConn =>
    obtain ⟨hpc, h⟩ := Option.ite_none_right_eq_some.mp h
    cases h
    exact hS.access hpc hS.queue [.sslCtx, .engine, .peerAddr] w.conns
  | accept ok =>
    obtain ⟨hpc, h⟩ := Option.ite_none_right_eq_some.mp h
    cases h
    exact hS.access hpc hS.queue [.engine, .listener] _
  | connFree => exact hS.connFree h
  | destroy =>
    obtain ⟨hpc, h⟩ := Option.ite_none_right_eq_some.mp h
    obtain ⟨w₁, hw₁, hS₁⟩ := hS.destroy hpc (beq_iff_eq.mp hok)
    cases h.symm.trans hw₁
    exact hS₁

/-- Whichever calls of the creation fail, whatever is read and accepted: if the engine is destroyed after the accepted
connections, no part of it is used before it is there or after it is freed, and none is freed twice; an engine that is
returned has all its parts; without connections it can be destroyed, and then neither a part nor a datagram is
left. -/
theorem engine_released {alloc : ℕ → Bool} {socket : List (Option (List Arrival))}
    (h : Reach (EngineLife.step alloc) (fun w act => w.connsFirst act) (.start socket) w) :
    Legal w.uses ∧
    (w.pc = .ready → (∀ part, place w.uses part = .held) ∧
      (w.conns = 0 → ∃ w', w.step alloc .destroy = some w' ∧ w'.pc = .gone)) ∧
    (w.pc = .gone → w.conns = 0 ∧ (∀ part, place w.uses part ≠ .held) ∧ ∀ a, w.rx.engine.peerRx.mem a = none) := by
  have hS : w.Sound := h.invariant (sound_start socket) fun _ _ _ hS hok hs => hS.step hok hs
  refine ⟨hS.legal, fun hpc => ⟨(hS.ready hpc).2, fun hconns => ?_⟩, fun hpc => ⟨?_, hS.gone hpc⟩⟩
  · obtain ⟨w', hw', -⟩ := hS.destroy hpc hconns
    obtain ⟨e, -, hgone⟩ := Option.map_eq_some_iff.mp hw'
    exact ⟨w', (if_pos hpc).trans hw', congrArg EngineLife.pc hgone.symm⟩
  · exact hS.conns (by rw [hpc]; exact EnginePc.noConfusion)

def created : List EngineAct := List.replicate 11 (.call true)

/-- An engine is destroyed after its connection, with two datagrams in its queue. -/
def destroyedWithDatagrams : List EngineAct :=
  created ++ [.newConn, .accept true, .recv (callerMsgs 3), .connFree, .accept false, .destroy]

theorem engine_released_withDatagrams :
    ∃ w, Reach (EngineLife.step fun _ => true) (fun w act => w.connsFirst act)
        (.start [some [⟨[1], some 7, none⟩, ⟨[2], some 8, none⟩, ⟨[3], some 8, none⟩]]) w ∧ w.pc = .gone ∧
      w.rx.engine.serial = 3 ∧ (∀ part, place w.uses part ≠ .held) ∧ ∀ a, w.rx.engine.peerRx.mem a = none := by
  have hrun : (runChecked (EngineLife.step fun _ => true) (fun w act => w.connsFirst act)
      (.start [some [⟨[1], some 7, none⟩, ⟨[2], some 8, none⟩, ⟨[3], some 8, none⟩]])
      destroyedWithDatagrams).map (fun w => (w.pc, w.rx.engine.serial)) = some (.gone, 3) := by decide +kernel
  obtain ⟨w, hw, he⟩ := Option.map_eq_some_iff.mp hrun
  obtain ⟨hpc, hserial⟩ := Prod.mk.inj he
  have hr := Reach.of_runChecked _ hw
  exact ⟨w, hr, hpc, hserial, ((engine_released hr).2.2 hpc).2⟩

/-- A connection that outlives its engine takes the listener with it, whose filter then goes back to freed memory. -/
example : (runActions (EngineLife.step fun _ => true) (.start [])
    (created ++ [.newConn, .accept true, .destroy, .connFree])).map
      (fun w => w.uses.contains (.access .engine) && (plays (fun _ => .fresh) w.uses.reverse).isNone) = some true := by
  decide +kernel

end EngineLife

end ModHttp3.Quic
