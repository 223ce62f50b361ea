import Mathlib.Data.List.Basic

/-! Histories: lists of events, the last one first, in which every event must be justified
by what came before it. -/
namespace ModHttp3.Lib

def Justified {α : Type*} (J : α → List α → Prop) (l : List α) : Prop :=
  ∀ later e earlier, l = later ++ e :: earlier → J e earlier

section
variable {α β : Type*} {J : α → List α → Prop} {l : List α}

theorem justified_nil : Justified J [] := by
  intro later e earlier h
  simp at h

theorem Justified.cons (hl : Justified J l) {e : α} (he : J e l) : Justified J (e :: l) := by
  intro later x earlier h
  cases later with
  | nil =>
    cases h
    exact he
  | cons y later =>
    rw [List.cons_append, List.cons.injEq] at h
    exact hl later x earlier h.2

/-- It is enough to look at some of the events, if no other one needs or is a justification. -/
theorem Justified.of_filter {p : α → Bool} (hl : Justified J (l.filter p))
    (hkeep : ∀ e l, p e → J e (l.filter p) → J e l) (hdrop : ∀ e l, p e = false → J e l) :
    Justified J l := by
  intro later e earlier h
  cases hp : p e with
  | false => exact hdrop e earlier hp
  | true =>
    apply hkeep e earlier hp
    apply hl (later.filter p)
    rw [h, List.filter_append, List.filter_cons_of_pos hp]

theorem findSome?_filter {p : α → Bool} {f : α → Option β} (hf : ∀ e, p e = false → f e = none)
    (l : List α) : (l.filter p).findSome? f = l.findSome? f := by
  induction l with
  | nil => rfl
  | cons e l ih =>
    cases hp : p e with
    | false =>
      rw [List.filter_cons_of_neg (by rw [hp]; exact Bool.false_ne_true), ih, List.findSome?_cons, hf e hp]
    | true => rw [List.filter_cons_of_pos hp, List.findSome?_cons, List.findSome?_cons, ih]

end

end ModHttp3.Lib
