import Mathlib

/-!
# Chains along a sweep

A sweep makes its visits in the order of a list, and an item can be dealt with at a
visit that bears its key. A chain of items, each of which waits for the one before, is
met by the sweep if it has visits in its order; one visit may serve several items.
-/

set_option autoImplicit false

namespace Sweep

variable {ι κ : Type} {key : ι → κ} {a b : ι} {c : List ι} {visits : List κ} {k : κ}

/-- The items of a chain, its last one first, have visits in the order of the chain. -/
def Met (key : ι → κ) (chain : List ι) (visits : List κ) : Prop :=
  ∃ ps : List ℕ, ps.IsChain (· ≥ ·) ∧
    List.Forall₂ (fun a p => visits[p]? = some (key a)) chain ps

theorem not_met_nil : ¬ Met key (a :: c) [] := by
  rintro ⟨ps,-,h⟩
  cases h with
  | cons hp _ => simp at hp

theorem met_single (h : key a = k) : Met key [a] (visits++[k]) :=
  ⟨[visits.length],by simp,by simp [h]⟩

/-- One more item can be dealt with at the last visit. -/
theorem Met.cons (h : Met key (b :: c) (visits++[k])) (ha : key a = k) :
    Met key (a :: b :: c) (visits++[k]) := by
  obtain ⟨ps,hps,hf⟩ := h
  cases hf with
  | @cons _ p _ ps hp hrest =>
    refine ⟨visits.length :: p :: ps,?_,?_⟩
    · rw [List.isChain_cons_cons]
      have hlt := (List.getElem?_eq_some_iff.mp hp).1
      simp only [List.length_append, List.length_singleton] at hlt
      exact ⟨by omega,hps⟩
    · exact .cons (by simp [ha]) (.cons hp hrest)

theorem Met.tail (h : Met key (a :: c) visits) : Met key c visits := by
  obtain ⟨ps,hps,hf⟩ := h
  cases hf with
  | @cons _ p _ ps hp hrest => exact ⟨ps,hps.tail,hrest⟩

theorem Met.append (h : Met key c visits) (rest : List κ) : Met key c (visits++rest) := by
  obtain ⟨ps,hps,hf⟩ := h
  refine ⟨ps,hps,hf.imp (fun b p hp => ?_)⟩
  exact List.getElem?_append_left (List.getElem?_eq_some_iff.mp hp).1 ▸ hp

theorem forall₂_within {ps : List ℕ} {rest : List κ} (hle : ∀ p ∈ ps, p < visits.length)
    (h : List.Forall₂ (fun a p => (visits++rest)[p]? = some (key a)) c ps) :
    List.Forall₂ (fun a p => visits[p]? = some (key a)) c ps := by
  induction h with
  | nil => exact .nil
  | @cons b p _ _ hp _ ih =>
    refine .cons ?_ (ih (fun q hq => hle q (by simp [hq])))
    rwa [List.getElem?_append_left (hle p (by simp))] at hp

/-- A visit with another key than the last item of a chain does nothing for it. -/
theorem Met.of_append (h : Met key (a :: c) (visits++[k])) (ha : key a ≠ k) :
    Met key (a :: c) visits := by
  obtain ⟨ps,hps,hf⟩ := h
  cases hf with
  | @cons _ p _ ps hp hrest =>
    have hlt : p < visits.length := by
      by_contra hge
      have hlen := (List.getElem?_eq_some_iff.mp hp).1
      simp only [List.length_append, List.length_singleton] at hlen
      obtain rfl : p = visits.length := by omega
      simp only [List.getElem?_concat_length, Option.some.injEq] at hp
      exact ha hp.symm
    have hle : ∀ q ∈ p :: ps, q < visits.length := by
      intro q hq
      rcases List.mem_cons.mp hq with rfl | hq
      · exact hlt
      · have := (List.pairwise_cons.mp (List.isChain_iff_pairwise.mp hps)).1 q hq
        omega
    exact ⟨p :: ps,hps,forall₂_within hle (.cons hp hrest)⟩

end Sweep
