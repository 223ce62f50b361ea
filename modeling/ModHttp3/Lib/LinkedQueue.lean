import Mathlib.Data.List.Nodup
import Mathlib.Data.Nat.Notation
import Mathlib.Logic.Function.Basic
import Mathlib.Tactic.Common
import Mathlib.Tactic.SplitIfs

/-! A singly linked FIFO with head and tail pointers over explicitly allocated
nodes. Following a pointer to a node that is not allocated has no result, so a
dangling head, tail or cursor is visible as `none`. -/
namespace ModHttp3.Lib

abbrev Addr := ℕ

structure Node (α : Type*) where
  next : Option Addr
  val : α
  deriving DecidableEq

/-- Allocated nodes; an address that was freed or never allocated maps to `none`. -/
abbrev Mem (α : Type*) := Addr → Option (Node α)

structure LinkedQueue (α : Type*) where
  mem : Mem α
  head : Option Addr
  tail : Option Addr

variable {α : Type*}

/-- The chain from `p` visits exactly the cells of `l` and then arrives at `e`. -/
def Seg (m : Mem α) : Option Addr → List (Addr × α) → Option Addr → Prop
  | p, [], e => p = e
  | p, c :: l, e => p = some c.1 ∧ ∃ n, m c.1 = some ⟨n, c.2⟩ ∧ Seg m n l e

theorem seg_append (m : Mem α) (l₁ l₂ : List (Addr × α)) (p e : Option Addr) :
    Seg m p (l₁ ++ l₂) e ↔ ∃ x, Seg m p l₁ x ∧ Seg m x l₂ e := by
  induction l₁ generalizing p with
  | nil => simp [Seg]
  | cons c l ih =>
    simp only [List.cons_append, Seg, ih]
    constructor
    · rintro ⟨hp, n, hm, x, hl, hr⟩
      exact ⟨x, ⟨hp, n, hm, hl⟩, hr⟩
    · rintro ⟨x, ⟨hp, n, hm, hl⟩, hr⟩
      exact ⟨hp, n, hm, x, hl, hr⟩

/-- Writing outside a segment leaves it in place. -/
theorem seg_update (m : Mem α) (l : List (Addr × α)) {a : Addr} (ha : a ∉ l.map Prod.fst)
    (x : Option (Node α)) (p e : Option Addr) :
    Seg (Function.update m a x) p l e ↔ Seg m p l e := by
  induction l generalizing p with
  | nil => rfl
  | cons c l ih =>
    simp only [List.map_cons, List.mem_cons, not_or] at ha
    simp only [Seg, Function.update_of_ne (Ne.symm ha.1), ih ha.2]

theorem seg_mem {m : Mem α} {l : List (Addr × α)} {p e : Option Addr} (h : Seg m p l e)
    {c : Addr × α} (hc : c ∈ l) : ∃ n, m c.1 = some ⟨n, c.2⟩ := by
  induction l generalizing p with
  | nil => cases hc
  | cons d l ih =>
    obtain ⟨_, n, hm, hl⟩ := h
    rcases List.mem_cons.mp hc with rfl | hc
    · exact ⟨n, hm⟩
    · exact ih hl hc

namespace LinkedQueue

def empty : LinkedQueue α := ⟨fun _ => none, none, none⟩

/-- Store a new node at `a` and link it behind the tail. -/
def push (q : LinkedQueue α) (a : Addr) (v : α) : Option (LinkedQueue α) :=
  let mem := Function.update q.mem a (some ⟨none, v⟩)
  match q.tail with
  | none => some ⟨mem, some a, some a⟩
  | some t => (mem t).map fun n =>
      ⟨Function.update mem t (some { n with next := some a }), q.head, some a⟩

/-- Unlink and free the head node; the tail is cleared with the last node. -/
def dropHead (q : LinkedQueue α) : Option (LinkedQueue α) :=
  match q.head with
  | none => none
  | some a => (q.mem a).map fun n =>
      ⟨Function.update q.mem a none, n.next, if n.next.isNone then none else q.tail⟩

/-- Overwrite the value of an allocated node. -/
def setVal (q : LinkedQueue α) (a : Addr) (v : α) : Option (LinkedQueue α) :=
  (q.mem a).map fun n => { q with mem := Function.update q.mem a (some { n with val := v }) }

/-- Free the chain that starts at `p`, following at most `n` links. -/
def freeChain : ℕ → Mem α → Option Addr → Option (Mem α)
  | _, m, none => some m
  | 0, _, some _ => none
  | n + 1, m, some a => (m a).bind fun node => freeChain n (Function.update m a none) node.next

/-- Free every node and reset both ends. -/
def clear (n : ℕ) (q : LinkedQueue α) : Option (LinkedQueue α) :=
  (freeChain n q.mem q.head).map fun m => ⟨m, none, none⟩

/-- The pointer to the cell at position `k`, null past the end. -/
def cursor (l : List (Addr × α)) (k : ℕ) : Option Addr := l[k]?.map Prod.fst

/-- `q` is a well-formed queue whose cells, in order, are `l`, and nothing else is allocated. -/
structure Rep (q : LinkedQueue α) (l : List (Addr × α)) : Prop where
  seg : Seg q.mem q.head l none
  nodup : (l.map Prod.fst).Nodup
  tail : q.tail = l.getLast?.map Prod.fst
  alloc : ∀ a, q.mem a ≠ none → a ∈ l.map Prod.fst

theorem rep_empty : Rep (empty : LinkedQueue α) [] :=
  ⟨rfl, List.nodup_nil, rfl, fun _ h => absurd rfl h⟩

section
variable {q : LinkedQueue α} {l l₁ l₂ : List (Addr × α)} {a : Addr} {v w : α}

theorem Rep.head_eq (h : Rep q l) : q.head = cursor l 0 := by
  cases l with
  | nil => exact h.seg
  | cons c l => exact h.seg.1

theorem Rep.mem_ne_none (h : Rep q l) (ha : a ∈ l.map Prod.fst) : q.mem a ≠ none := by
  obtain ⟨c, hc, rfl⟩ := List.mem_map.mp ha
  obtain ⟨n, hn⟩ := seg_mem h.seg hc
  simp [hn]

theorem Rep.notMem_of_free (h : Rep q l) (ha : q.mem a = none) : a ∉ l.map Prod.fst :=
  fun hmem => h.mem_ne_none hmem ha

/-- The node under a cursor holds that cell's value and points to the next cursor. -/
theorem Rep.load (h : Rep q l) {k : ℕ} (hk : l[k]? = some (a, v)) :
    q.mem a = some ⟨cursor l (k + 1), v⟩ := by
  have hseg := h.seg
  generalize q.head = p at hseg
  clear h
  induction l generalizing k p with
  | nil => simp at hk
  | cons c l ih =>
    obtain ⟨-, n, hm, hl⟩ := hseg
    cases k with
    | zero =>
      obtain rfl : c = (a, v) := by simpa using hk
      rw [hm]
      cases l with
      | nil => simpa [cursor, Seg] using hl
      | cons d l => simpa [cursor, Seg] using hl.1
    | succ k =>
      simpa [cursor] using ih (by simpa using hk) n hl

theorem push_last_link (hm : Seg q.mem q.head (l ++ [(a, v)]) none)
    (hn : ((l ++ [(a, v)]).map Prod.fst).Nodup) {b : Addr} (hb : b ∉ (l ++ [(a, v)]).map Prod.fst) :
    Seg (Function.update (Function.update q.mem b (some ⟨none, w⟩)) a (some ⟨some b, v⟩))
      q.head (l ++ [(a, v)] ++ [(b, w)]) none := by
  obtain ⟨x, hl, hx, n, -, -⟩ := (seg_append _ _ _ _ _).mp hm
  simp only [List.map_append, List.map_cons, List.map_nil, List.mem_append, List.mem_singleton,
    not_or, List.nodup_append] at hb hn
  have hal : a ∉ l.map Prod.fst := fun hmem => hn.2.2 a hmem a rfl rfl
  rw [List.append_assoc, seg_append]
  refine ⟨x, ?_, hx, some b, Function.update_self .., rfl, none, ?_, rfl⟩
  · rw [seg_update _ _ hal, seg_update _ _ hb.1]
    exact hl
  · rw [Function.update_of_ne hb.2, Function.update_self]

theorem Rep.push (h : Rep q l) (ha : q.mem a = none) (v : α) :
    ∃ q', q.push a v = some q' ∧ Rep q' (l ++ [(a, v)]) := by
  have hnot := h.notMem_of_free ha
  have hnodup : ((l ++ [(a, v)]).map Prod.fst).Nodup := by
    rw [List.map_append]
    refine List.nodup_append.mpr ⟨h.nodup, by simp, ?_⟩
    rintro b hb c hc rfl
    exact hnot (by simpa [List.mem_singleton.mp hc] using hb)
  rcases List.eq_nil_or_concat' l with rfl | ⟨l', ⟨t, w⟩, rfl⟩
  · have htail : q.tail = none := by simpa using h.tail
    refine ⟨⟨Function.update q.mem a (some ⟨none, v⟩), some a, some a⟩,
      by simp only [LinkedQueue.push, htail], ⟨⟨rfl, none, by simp, rfl⟩, hnodup, rfl, ?_⟩⟩
    intro b hb
    by_cases hba : b = a
    · simp [hba]
    · simp only [Function.update_of_ne hba] at hb
      simpa using h.alloc b hb
  · have htail : q.tail = some t := by simpa using h.tail
    have hta : t ≠ a := fun hta => hnot (by simp [hta])
    have hload : q.mem t = some ⟨none, w⟩ := by
      have := h.load (k := l'.length) (a := t) (v := w) (by simp)
      simpa [cursor] using this
    refine ⟨⟨Function.update (Function.update q.mem a (some ⟨none, v⟩)) t (some ⟨some a, w⟩),
      q.head, some a⟩, ?_, ⟨push_last_link h.seg h.nodup hnot, hnodup, by simp, ?_⟩⟩
    · simp only [LinkedQueue.push, htail, Function.update_of_ne hta, hload, Option.map_some]
    · intro b hb
      by_cases hbt : b = t
      · simp [hbt]
      · simp only [Function.update_of_ne hbt] at hb
        by_cases hba : b = a
        · simp [hba]
        · rw [Function.update_of_ne hba] at hb
          rw [List.map_append]
          exact List.mem_append_left _ (h.alloc b hb)

theorem Rep.dropHead (h : Rep q ((a, v) :: l)) :
    ∃ q', q.dropHead = some q' ∧ Rep q' l ∧ q'.mem = Function.update q.mem a none := by
  obtain ⟨hhead, n, hm, hl⟩ := h.seg
  have hnodup : a ∉ l.map Prod.fst ∧ (l.map Prod.fst).Nodup := by simpa using h.nodup
  refine ⟨⟨Function.update q.mem a none, n, if n.isNone then none else q.tail⟩,
    by simp [LinkedQueue.dropHead, hhead, hm], ⟨?_, hnodup.2, ?_, ?_⟩, rfl⟩
  · exact (seg_update _ _ hnodup.1 _ _ _).mpr hl
  · cases l with
    | nil =>
      obtain rfl : n = none := hl
      rfl
    | cons c l =>
      obtain rfl : n = some c.1 := hl.1
      simpa using h.tail
  · intro b hb
    by_cases hba : b = a
    · simp [hba] at hb
    · simp only [Function.update_of_ne hba] at hb
      simpa [hba] using h.alloc b hb

theorem freeChain_seg {m : Mem α} {p : Option Addr} {n : ℕ} (h : Seg m p l none)
    (hnodup : (l.map Prod.fst).Nodup) (hn : l.length ≤ n) :
    ∃ m', freeChain n m p = some m' ∧ ∀ a, m' a = if a ∈ l.map Prod.fst then none else m a := by
  induction l generalizing m p n with
  | nil =>
    obtain rfl : p = none := h
    exact ⟨m, by cases n <;> rfl, by simp⟩
  | cons c l ih =>
    obtain ⟨rfl, next, hm, hl⟩ := h
    rw [List.map_cons, List.nodup_cons] at hnodup
    cases n with
    | zero => simp at hn
    | succ n =>
      have hseg := (seg_update m l hnodup.1 none next none).mpr hl
      obtain ⟨m', hfree, hm'⟩ := ih hseg hnodup.2 (by simpa using hn)
      refine ⟨m', by simpa [freeChain, hm] using hfree, fun a => ?_⟩
      rw [hm' a]
      by_cases ha : a = c.1
      · simp [ha]
      · simp only [Function.update_of_ne ha, List.map_cons, List.mem_cons, ha, false_or]

theorem Rep.clear (h : Rep q l) {n : ℕ} (hn : l.length ≤ n) : q.clear n = some empty := by
  obtain ⟨m', hfree, hm'⟩ := freeChain_seg h.seg h.nodup hn
  have hnone : m' = fun _ => none := by
    funext a
    rw [hm' a]
    split_ifs with ha
    · rfl
    · by_contra hne
      exact ha (h.alloc a hne)
  rw [LinkedQueue.clear, hfree, hnone]
  rfl

theorem Rep.setVal (h : Rep q (l₁ ++ (a, v) :: l₂)) (w : α) :
    ∃ q', q.setVal a w = some q' ∧ Rep q' (l₁ ++ (a, w) :: l₂) := by
  obtain ⟨x, hl₁, hx, n, hm, hl₂⟩ := (seg_append _ _ _ _ _).mp h.seg
  have hn := h.nodup
  simp only [List.map_append, List.map_cons, List.nodup_append, List.nodup_cons] at hn
  have ha₁ : a ∉ l₁.map Prod.fst := fun hmem => hn.2.2 a hmem a (by simp) rfl
  refine ⟨{ q with mem := Function.update q.mem a (some ⟨n, w⟩) },
    by simp only [LinkedQueue.setVal, hm, Option.map_some], ⟨?_, ?_, ?_, ?_⟩⟩
  · rw [seg_append]
    refine ⟨x, (seg_update _ _ ha₁ _ _ _).mpr hl₁, hx, n, Function.update_self .., ?_⟩
    exact (seg_update _ _ hn.2.1.1 _ _ _).mpr hl₂
  · simpa using h.nodup
  · have htail := h.tail
    cases l₂ with
    | nil => simpa using htail
    | cons c l₂ => simpa using htail
  · intro b hb
    have := h.alloc b
    by_cases hba : b = a
    · simp [hba]
    · simp only [Function.update_of_ne hba] at hb
      simpa using this hb

end

end LinkedQueue

end ModHttp3.Lib
