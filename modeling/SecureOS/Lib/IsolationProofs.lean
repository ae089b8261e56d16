import SecureOS.Lib.MachineRunProofs

/-! # One party of a shared machine

Several parties act on one machine.  What a party can see is a part of the state, its view.  The
party is separated from the others when their actions leave its view alone, and its own actions
change the view and answer as a function of the view and of a label: the action itself, with
whatever else of its outcome the comparison is to hold fixed. -/

namespace Isolation

open MachineRun

variable {S A L O V : Type}

/-- A party of the machine with states `S` and actions `A`. -/
structure Part (S A L O V : Type) where
  own : A → Bool
  label : S → A → L
  answer : S → A → O
  view : S → V
  vstep : V → L → V
  vanswer : V → L → O

/-- The party's labels along a run. -/
def Part.labels (p : Part S A L O V) (step : S → A → S) (s : S) (as : List A) : List L :=
  emitted step (fun s a => if p.own a then [p.label s a] else []) s as

/-- The party's answers along a run. -/
def Part.answers (p : Part S A L O V) (step : S → A → S) (s : S) (as : List A) : List O :=
  emitted step (fun s a => if p.own a then [p.answer s a] else []) s as

/-- The answers of the machine the party would have for itself. -/
def Part.solo (p : Part S A L O V) : V → List L → List O
  | _, [] => []
  | v, l :: ls => p.vanswer v l :: p.solo (p.vstep v l) ls

/-- The party is separated from the others wherever the invariant holds. -/
structure Part.Separates (p : Part S A L O V) (step : S → A → S) (I : S → Prop) : Prop where
  kept : ∀ s a, I s → I (step s a)
  foreign : ∀ s a, I s → p.own a = false → p.view (step s a) = p.view s
  view : ∀ s a, I s → p.own a = true → p.view (step s a) = p.vstep (p.view s) (p.label s a)
  answer : ∀ s a, I s → p.own a = true → p.answer s a = p.vanswer (p.view s) (p.label s a)

/-- **OWN MACHINE**: in every run a separated party's answers are those of its own machine. -/
theorem answers_eq_solo {p : Part S A L O V} {step : S → A → S} {I : S → Prop}
    (h : p.Separates step I) : ∀ (as : List A) (s : S), I s →
      p.answers step s as = p.solo (p.view s) (p.labels step s as) := by
  intro as
  induction as with
  | nil => intro s _; rfl
  | cons a _ ih =>
    intro s hs
    have hnext := ih (step s a) (h.kept s a hs)
    rw [Part.answers, Part.labels] at hnext ⊢
    rw [emitted_cons, emitted_cons, hnext]
    cases hown : p.own a with
    | false =>
      rw [h.foreign s a hs hown]
      rfl
    | true =>
      rw [h.view s a hs hown, h.answer s a hs hown]
      rfl

/-- **TWO RUNS** that agree on the party's view and labels agree on its answers. -/
theorem answers_eq {p : Part S A L O V} {step : S → A → S} {I : S → Prop}
    (h : p.Separates step I) {s s' : S} (hs : I s) (hs' : I s') (hview : p.view s = p.view s')
    {as as' : List A} (hlabels : p.labels step s as = p.labels step s' as') :
    p.answers step s as = p.answers step s' as' := by
  rw [answers_eq_solo h as s hs, answers_eq_solo h as' s' hs', hview, hlabels]

/-- Labels that are the actions themselves. -/
theorem labels_eq_filter {p : Part S A A O V} (step : S → A → S)
    (hlabel : ∀ s a, p.label s a = a) (as : List A) (s : S) :
    p.labels step s as = as.filter p.own := by
  induction as generalizing s with
  | nil => rfl
  | cons a _ ih =>
    rw [Part.labels, emitted_cons, ← Part.labels, ih (step s a)]
    cases hown : p.own a with
    | false => rw [List.filter_cons_of_neg (by simp [hown])]; rfl
    | true => rw [List.filter_cons_of_pos hown, hlabel]; rfl

end Isolation
