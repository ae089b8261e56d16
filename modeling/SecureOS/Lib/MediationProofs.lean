import Mathlib.Data.List.Basic

/-! # Mediated logs

A reference monitor tells three kinds of events apart: the acts it watches
over, the boundaries between two requests, and the guards, each of which
licenses certain acts.  A log is mediated if every act in it was licensed
within its own request, and no other act used the licence before it.

* `Extends` — a log grown by a mediated piece: a preorder, so that what a
  composite operation adds is put together from what its parts add. -/

namespace Mediation

open List

variable {E : Type}

/-- What a reference monitor sees in an event. -/
structure Monitor (E : Type) where
  act : E → Prop
  boundary : E → Prop
  licenses : E → E → Prop

/-- Every act has a guard that licenses it in front of it, with no other act
    and no boundary in between. -/
def Mediated (M : Monitor E) (log : List E) : Prop :=
  ∀ front a back, log = front ++ a :: back → M.act a →
    ∃ before g between, front = before ++ g :: between ∧ M.licenses g a ∧
      ∀ e ∈ between, ¬ M.act e ∧ ¬ M.boundary e

variable {M : Monitor E}

/-- A log without acts. -/
theorem mediated_inert (h : ∀ e ∈ log, ¬ M.act e) : Mediated M log := by
  intro front a _ hlog ha
  exact absurd ha (h a (hlog ▸ mem_append_right front mem_cons_self))

/-- A guard and its act. -/
theorem mediated_licensed (hg : ¬ M.act g) (h : M.licenses g a) : Mediated M [g, a] := by
  intro front _ _ hlog hb
  match front, hlog with
  | [], hlog =>
    obtain ⟨rfl, -⟩ := cons.inj hlog
    exact absurd hb hg
  | [e], hlog =>
    obtain ⟨rfl, htl⟩ := cons.inj hlog
    obtain ⟨rfl, -⟩ := cons.inj htl
    exact ⟨[], g, [], rfl, h, fun _ he => absurd he not_mem_nil⟩
  | _ :: _ :: _, hlog => simp at hlog

variable {l l' : List E}

/-- **LOCALITY**: the licence of an act is in its own piece of the log. -/
theorem mediated_append (h : Mediated M l) (h' : Mediated M l') : Mediated M (l ++ l') := by
  intro front a back hlog ha
  rcases append_eq_append_iff.mp hlog with ⟨c, rfl, hl'⟩ | ⟨c, hl, hc⟩
  · -- the act is in the second piece
    obtain ⟨before, g, between, rfl, hg, hbetween⟩ := h' c a back hl' ha
    exact ⟨l ++ before, g, between, (append_assoc _ _ _).symm, hg, hbetween⟩
  · cases c with
    | nil =>
      obtain ⟨_, _, _, hempty, -⟩ := h' [] a back hc.symm ha
      exact absurd hempty.symm (by simp)
    | cons _ c =>
      obtain ⟨rfl, -⟩ := cons.inj hc
      exact h front a c hl ha

/-- An act that nothing in front of it licenses. -/
theorem not_mediated (ha : M.act a)
    (h : ∀ g ∈ front, ¬ M.licenses g a) : ¬ Mediated M (front ++ a :: back) := by
  intro hmed
  obtain ⟨before, g, _, rfl, hg, -⟩ := hmed front a back rfl ha
  exact h g (mem_append_right before mem_cons_self) hg

/-- The second log is the first one with a mediated piece behind it. -/
def Extends (M : Monitor E) (l l' : List E) : Prop := ∃ piece, l' = l ++ piece ∧ Mediated M piece

theorem Extends.refl (l : List E) : Extends M l l :=
  ⟨[], (append_nil l).symm, mediated_inert (fun _ he => absurd he not_mem_nil)⟩

theorem Extends.trans (h : Extends M l l') (h' : Extends M l' l'') : Extends M l l'' := by
  obtain ⟨p, rfl, hp⟩ := h
  obtain ⟨q, rfl, hq⟩ := h'
  exact ⟨p ++ q, append_assoc l p q, mediated_append hp hq⟩

theorem Mediated.extends (h : Mediated M l) (hext : Extends M l l') : Mediated M l' := by
  obtain ⟨_, rfl, hpiece⟩ := hext
  exact mediated_append h hpiece

end Mediation
