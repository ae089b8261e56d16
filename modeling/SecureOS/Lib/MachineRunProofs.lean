import Mathlib.Data.List.Induction
import Mathlib.Data.Nat.Basic

/-! # Runs of a deterministic labelled machine

A machine is a total step function `step : S → A → S`: from a state and the next action it
computes the next state (an action that is not enabled leaves the state alone).  A run is a list
of actions. -/

namespace MachineRun

open List

variable {S A E : Type}

/-- The state a list of actions leads to. -/
def run (step : S → A → S) (s : S) (as : List A) : S := as.foldl step s

@[simp] theorem run_nil (step : S → A → S) (s : S) : run step s [] = s := rfl

@[simp] theorem run_cons (step : S → A → S) (s : S) (a : A) (as : List A) :
    run step s (a :: as) = run step (step s a) as := rfl

theorem run_append (step : S → A → S) (s : S) (as bs : List A) :
    run step s (as ++ bs) = run step (run step s as) bs :=
  foldl_append

/-- Every step of the run meets `P` at the state it is taken in. -/
def Along (step : S → A → S) (P : S → A → Prop) : S → List A → Prop
  | _, [] => True
  | s, a :: as => P s a ∧ Along step P (step s a) as

instance decidableAlong (step : S → A → S) (P : S → A → Prop) [∀ s a, Decidable (P s a)] :
    ∀ (s : S) (as : List A), Decidable (Along step P s as)
  | _, [] => .isTrue trivial
  | s, a :: as =>
    let _ := decidableAlong step P (step s a) as
    inferInstanceAs (Decidable (P s a ∧ Along step P (step s a) as))

section

variable (step : S → A → S) (P : S → A → Prop)

@[simp] theorem along_nil (s : S) : Along step P s [] := trivial

@[simp] theorem along_cons (s : S) (a : A) (as : List A) :
    Along step P s (a :: as) ↔ P s a ∧ Along step P (step s a) as := Iff.rfl

theorem along_append : ∀ (as bs : List A) (s : S), Along step P s (as ++ bs) ↔
        Along step P s as ∧ Along step P (run step s as) bs := by
  intro as _
  induction as with
  | nil => intro s; simp
  | cons _ _ ih =>
    intro _
    rw [cons_append, along_cons, along_cons, run_cons, ih, and_assoc]

end

variable {step : S → A → S} {P : S → A → Prop}

/-- Each action of the run meets the condition in the state the actions before it lead to. -/
theorem along_iff_splits (as : List A) (s : S) :
    Along step P s as ↔ ∀ pre a post, as = pre ++ a :: post → P (run step s pre) a := by
  constructor
  · rintro h pre a post rfl
    exact ((along_append step P pre (a :: post) s).mp h).2.1
  · intro h
    induction as generalizing s with
    | nil => trivial
    | cons a as ih =>
      refine ⟨h [] a as rfl, ih (step s a) (fun pre b post hsplit => ?_)⟩
      exact h (a :: pre) b post (congrArg (a :: ·) hsplit)

/-- A condition that holds everywhere holds along every run. -/
theorem along_of_forall (h : ∀ s a, P s a) : ∀ (as : List A) (s : S), Along step P s as := by
  intro as
  induction as with
  | nil => intro s; trivial
  | cons a _ ih => intro s; exact ⟨h s a, ih (step s a)⟩

/-- **INVARIANT RULE**: an invariant of every admitted step is an invariant of every admitted run.
    -/
theorem run_inv {I : S → Prop} (hstep : ∀ s a, I s → P s a → I (step s a)) :
    ∀ (as : List A) (s : S), I s → Along step P s as → I (run step s as) := by
  intro as
  induction as with
  | nil => intro s h _; exact h
  | cons a _ ih =>
    intro s h hP
    exact ih (step s a) (hstep s a h hP.1) hP.2

/-- The invariant rule when every step is admitted. -/
theorem run_inv_all {I : S → Prop} (hstep : ∀ s a, I s → I (step s a)) (as : List A) (s : S)
    (h : I s) : I (run step s as) :=
  run_inv (P := fun _ _ => True) (fun s a hs _ => hstep s a hs) as s h
    (along_of_forall (fun _ _ => trivial) as s)

/-- How many steps of the run meet the test. -/
def hits (step : S → A → S) (t : S → A → Bool) : S → List A → Nat
  | _, [] => 0
  | s, a :: as => (if t s a then 1 else 0) + hits step t (step s a) as

section

variable (step : S → A → S) (t : S → A → Bool)

@[simp] theorem hits_nil (s : S) : hits step t s [] = 0 := rfl

@[simp] theorem hits_cons (s : S) (a : A) (as : List A) : hits step t s (a :: as)
      = (if t s a then 1 else 0) + hits step t (step s a) as := rfl

theorem hits_append : ∀ (as bs : List A) (s : S),
      hits step t s (as ++ bs) = hits step t s as + hits step t (run step s as) bs := by
  intro as _
  induction as with
  | nil => intro s; simp
  | cons _ _ ih =>
    intro _
    rw [cons_append, hits_cons, hits_cons, run_cons, ih, Nat.add_assoc]

end

/-- What the steps of a run emit, in order. -/
def emitted (step : S → A → S) (emit : S → A → List E) : S → List A → List E
  | _, [] => []
  | s, a :: as => emit s a ++ emitted step emit (step s a) as

section

variable (step : S → A → S) (emit : S → A → List E)

@[simp] theorem emitted_nil (s : S) : emitted step emit s [] = [] := rfl

@[simp] theorem emitted_cons (s : S) (a : A) (as : List A) : emitted step emit s (a :: as)
      = emit s a ++ emitted step emit (step s a) as := rfl

theorem emitted_append : ∀ (as bs : List A) (s : S), emitted step emit s (as ++ bs)
        = emitted step emit s as ++ emitted step emit (run step s as) bs := by
  intro as _
  induction as with
  | nil => intro s; rfl
  | cons _ _ ih =>
    intro _
    rw [cons_append, emitted_cons, emitted_cons, run_cons, ih, append_assoc]

end

/-- What a run emitted was emitted by one of its steps. -/
theorem mem_emitted_iff (as : List A) (s : S) : x ∈ emitted step emit s as
      ↔ ∃ pre a post, as = pre ++ a :: post ∧ x ∈ emit (run step s pre) a := by
  induction as generalizing s with
  | nil => simp
  | cons b as ih =>
    rw [emitted_cons, mem_append, ih]
    constructor
    · rintro (hx | ⟨pre, a, post, rfl, hx⟩)
      · exact ⟨[], b, as, rfl, hx⟩
      · exact ⟨b :: pre, a, post, rfl, hx⟩
    · rintro ⟨pre, a, post, hsplit, hx⟩
      cases pre with
      | nil =>
        obtain ⟨rfl, rfl⟩ := cons.inj hsplit
        exact Or.inl hx
      | cons _ pre =>
        obtain ⟨rfl, rfl⟩ := cons.inj hsplit
        exact Or.inr ⟨pre, a, post, rfl, hx⟩

/-- **ERASURE RULE**: if states that look alike take steps that look alike, so do runs from them. -/
theorem run_alike {look : S → O} {part : E → F}
    (hstep : ∀ s s' a, look s = look s' → look (step s a) = look (step s' a)
      ∧ (emit s a).map part = (emit s' a).map part) (as : List A) (s s' : S)
    (h : look s = look s') : look (run step s as) = look (run step s' as)
      ∧ (emitted step emit s as).map part = (emitted step emit s' as).map part := by
  induction as generalizing s s' with
  | nil => exact ⟨h, rfl⟩
  | cons a _ ih =>
    obtain ⟨hlook, hshow⟩ := hstep s s' a h
    obtain ⟨hrun, hrest⟩ := ih (step s a) (step s' a) hlook
    refine ⟨hrun, ?_⟩
    rw [emitted_cons, emitted_cons, map_append, map_append, hshow, hrest]

/-- **HISTORY RULE**: a relation between a run, the state it leads to and what it has emitted holds
    at the end of every run if every further step keeps it. -/
theorem run_history (emit : S → A → List E) {J : List A → S → List E → Prop} {s : S}
    (h0 : J [] s []) (hstep : ∀ as k es a, J as k es → k = run step s as →
      J (as ++ [a]) (step k a) (es ++ emit k a)) (as : List A) :
    J as (run step s as) (emitted step emit s as) := by
  induction as using List.reverseRecOn with
  | nil => exact h0
  | append_singleton as a ih =>
    rw [run_append, emitted_append, run_cons, run_nil, emitted_cons, emitted_nil, append_nil]
    exact hstep as _ _ a ih rfl

end MachineRun
