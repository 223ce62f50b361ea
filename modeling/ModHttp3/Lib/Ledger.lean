import Mathlib.Data.List.Nodup

/-! The life of resources that are gained, accessed, queued for release and freed, read off a
record of these events with the last one first. -/
namespace ModHttp3.Lib

inductive Use (H : Type*)
  | gain (h : H)
  | access (h : H)
  | queue (h : H)
  | free (h : H)
  deriving DecidableEq

def Use.resource {H : Type*} : Use H → H
  | .gain h | .access h | .queue h | .free h => h

inductive Place
  | fresh
  | held
  | queued
  | freed
  deriving DecidableEq

/-- Where an event leaves its resource. -/
def Use.after {H : Type*} : Use H → Place → Place
  | .gain _, _ => .held
  | .access _, p => p
  | .queue _, _ => .queued
  | .free _, _ => .freed

/-- Where a resource must be for an event: accesses end once it is queued or freed. -/
def Use.allowed {H : Type*} : Use H → Place → Prop
  | .gain _, p => p = .fresh
  | .access _, p => p = .held
  | .queue _, p => p = .held
  | .free _, p => p = .held ∨ p = .queued

instance {H : Type*} (u : Use H) (p : Place) : Decidable (u.allowed p) :=
  match u with
  | .gain _ => inferInstanceAs (Decidable (p = .fresh))
  | .access _ | .queue _ => inferInstanceAs (Decidable (p = .held))
  | .free _ => inferInstanceAs (Decidable (p = .held ∨ p = .queued))

section
variable {H : Type*} [DecidableEq H]

def place : List (Use H) → H → Place
  | [], _ => .fresh
  | u :: l, h => if u.resource = h then u.after (place l h) else place l h

/-- Every event was allowed when it happened. -/
def Legal : List (Use H) → Prop
  | [] => True
  | u :: l => u.allowed (place l u.resource) ∧ Legal l

/-- Where a script, with its first event first, leaves the resources; nothing if an event is not allowed. -/
def plays (p : H → Place) : List (Use H) → Option (H → Place)
  | [] => some p
  | u :: us =>
    if u.allowed (p u.resource) then plays (Function.update p u.resource (u.after (p u.resource))) us else none

variable {l : List (Use H)} {h x : H}

theorem place_cons_self (u : Use H) : place (u :: l) u.resource = u.after (place l u.resource) :=
  if_pos rfl

theorem place_cons_ne {u : Use H} (hne : u.resource ≠ h) : place (u :: l) h = place l h :=
  if_neg hne

@[simp] theorem place_queue : place (.queue h :: l) h = .queued := place_cons_self (.queue h)

@[simp] theorem place_access : place (.access h :: l) x = place l x := by
  by_cases hx : h = x
  · subst hx
    exact place_cons_self (.access h)
  · exact place_cons_ne hx

theorem place_cons (u : Use H) :
    place (u :: l) = Function.update (place l) u.resource (u.after (place l u.resource)) := by
  funext x
  by_cases hx : x = u.resource
  · rw [hx, place_cons_self, Function.update_self]
  · rw [place_cons_ne (Ne.symm hx), Function.update_of_ne hx]

/-- A script that can be played is a legal continuation. -/
theorem Legal.plays {us : List (Use H)} {q : H → Place} (hl : Legal l) (hus : plays (place l) us = some q) :
    Legal (us.reverse ++ l) ∧ place (us.reverse ++ l) = q := by
  induction us generalizing l with
  | nil => exact ⟨hl, Option.some.inj hus⟩
  | cons u us ih =>
    unfold Lib.plays at hus
    split_ifs at hus with hu
    rw [← place_cons] at hus
    have hcons : (u :: us).reverse ++ l = us.reverse ++ u :: l := by simp
    rw [hcons]
    exact ih ⟨hu, hl⟩ hus

/-- Accesses to resources that are held change nothing. -/
theorem plays_access {p : H → Place} (hs : List H) (h : ∀ x ∈ hs, p x = .held) :
    plays p (hs.map Use.access) = some p := by
  induction hs with
  | nil => rfl
  | cons x hs ih =>
    have hx : (Use.access x).allowed (p x) := h x List.mem_cons_self
    have hsame : Function.update p x ((Use.access x).after (p x)) = p := Function.update_eq_self x p
    rw [List.map_cons, plays]
    refine (if_pos hx).trans ?_
    rw [Use.resource, hsame]
    exact ih fun y hy => h y (List.mem_cons_of_mem x hy)

theorem Legal.of_append {l' : List (Use H)} (hl : Legal (l' ++ l)) : Legal l := by
  induction l' with
  | nil => exact hl
  | cons u l' ih => exact ih hl.2

/-- What an event tells about its resource ever after. -/
def Use.remains : Use H → Place → Prop
  | .gain _, p => p ≠ .fresh
  | .access _, p => p ≠ .fresh
  | .queue _, p => p = .queued ∨ p = .freed
  | .free _, p => p = .freed

theorem Legal.remains (hl : Legal l) {u : Use H} (hu : u ∈ l) : u.remains (place l u.resource) := by
  induction l with
  | nil => cases hu
  | cons v l ih =>
    have hall := hl.1
    by_cases hv : v.resource = u.resource
    · rcases List.mem_cons.mp hu with rfl | hu
      · rw [place_cons_self]
        cases u with
        | gain | queue | free => simp [Use.after, Use.remains]
        | access h =>
          have hheld : place l h = .held := hall
          simp [Use.after, Use.remains, Use.resource, hheld]
      · -- an earlier event leaves few places, and `v` was allowed in one of them
        have hold := ih hl.2 hu
        rw [← hv, place_cons_self]
        rw [← hv] at hold
        cases u <;> cases v <;>
          simp_all [Use.remains, Use.allowed, Use.after, Use.resource]
    · rcases List.mem_cons.mp hu with rfl | hu
      · exact absurd rfl hv
      · rw [place_cons_ne hv]
        exact ih hl.2 hu

theorem place_eq_fresh (hl : Use.gain h ∉ l) (hlegal : Legal l) : place l h = .fresh := by
  induction l with
  | nil => rfl
  | cons v l ih =>
    rw [List.mem_cons, not_or] at hl
    have hold := ih hl.2 hlegal.2
    by_cases hv : v.resource = h
    · subst hv
      have hall := hlegal.1
      rw [hold] at hall
      cases v with
      | gain h => exact absurd rfl hl.1
      | access | queue => cases hall
      | free => cases hall <;> contradiction
    · rw [place_cons_ne hv, hold]

theorem free_mem_of_freed (hp : place l h = .freed) : Use.free h ∈ l := by
  induction l with
  | nil => cases hp
  | cons v l ih =>
    by_cases hv : v.resource = h
    · subst hv
      rw [place_cons_self] at hp
      cases v with
      | free => exact List.mem_cons_self
      | access => exact List.mem_cons_of_mem _ (ih hp)
      | gain | queue => cases hp
    · rw [place_cons_ne hv] at hp
      exact List.mem_cons_of_mem _ (ih hp)

/-- No resource is freed twice. -/
theorem Legal.count_free_le (hl : Legal l) : l.count (.free h) ≤ 1 := by
  induction l with
  | nil => simp
  | cons u l ih =>
    by_cases hu : u = .free h
    · subst hu
      have hnot : Use.free h ∉ l := by
        intro hmem
        have hfreed : place l h = .freed := hl.2.remains hmem
        rcases hl.1 with hp | hp <;> cases hfreed.symm.trans hp
      simp [List.count_eq_zero.mpr hnot]
    · rw [List.count_cons_of_ne hu]
      exact ih hl.2

/-- No resource is accessed after it was queued or freed. -/
theorem Legal.access_before {l' : List (Use H)} (hl : Legal (l' ++ .access h :: l)) :
    Use.queue h ∉ l ∧ Use.free h ∉ l := by
  have hl' := hl.of_append
  have hheld : place l h = .held := hl'.1
  constructor
  · intro hmem
    rcases hl'.2.remains hmem with hp | hp <;> cases hheld.symm.trans hp
  · intro hmem
    cases hheld.symm.trans (hl'.2.remains hmem)

/-- The same event for each of a list of distinct resources. -/
theorem Legal.forEach {f : H → Use H} {q : Place} {hs : List H} (hf : ∀ h, (f h).resource = h)
    (hafter : ∀ h p, (f h).after p = q) (hl : Legal l) (hnodup : hs.Nodup)
    (hall : ∀ h ∈ hs, (f h).allowed (place l h)) :
    Legal ((hs.map f).reverse ++ l) ∧
      ∀ x, place ((hs.map f).reverse ++ l) x = if x ∈ hs then q else place l x := by
  induction hs generalizing l with
  | nil => exact ⟨hl, fun x => by simp⟩
  | cons h hs ih =>
    rw [List.nodup_cons] at hnodup
    have hl' : Legal (f h :: l) := ⟨(hf h).symm ▸ hall h List.mem_cons_self, hl⟩
    have hother : ∀ x, x ≠ h → place (f h :: l) x = place l x := by
      intro x hx
      apply place_cons_ne
      rw [hf]
      exact Ne.symm hx
    have hself : place (f h :: l) h = q := by
      have := place_cons_self (l := l) (f h)
      rwa [hf, hafter] at this
    have hall' : ∀ x ∈ hs, (f x).allowed (place (f h :: l) x) := by
      intro x hx
      rw [hother x fun he => hnodup.1 (he ▸ hx)]
      exact hall x (List.mem_cons_of_mem _ hx)
    obtain ⟨h1, h2⟩ := ih hl' hnodup.2 hall'
    have heq : ((h :: hs).map f).reverse ++ l = (hs.map f).reverse ++ f h :: l := by simp
    rw [heq]
    refine ⟨h1, fun x => ?_⟩
    rw [h2 x]
    by_cases hx : x = h
    · subst hx
      simp [hself]
    · rw [hother x hx]
      simp [hx]

end

end ModHttp3.Lib
