import BatchScript.Execution.Run

/-!
# Laws of runs

Runs are equal when they do the same in every state, and they obey the monad laws.
-/

namespace BatchScript

variable {σ α : Type}

namespace Run

theorem ext {first second : Run σ α} (h : ∀ state, first.apply state = second.apply state) :
    first = second :=
  congrArg Run.mk (funext h)

theorem id_map (run : Run σ α) : id <$> run = run := by
  refine ext fun state => ?_
  rcases h : run.apply state with ⟨_ | _, _⟩ <;> simp [Functor.map, h]

theorem bind_assoc {β γ : Type} (run : Run σ α) (next : α → Run σ β) (last : β → Run σ γ) :
    run >>= next >>= last = run >>= fun value => next value >>= last := by
  refine ext fun state => ?_
  rcases h : run.apply state with ⟨_ | _, _⟩ <;> simp [bind_apply, h]

instance : LawfulMonad (Run σ) :=
  LawfulMonad.mk' (Run σ) id_map (fun _ _ => rfl) bind_assoc

/-- What a sequence of two runs gives comes from what the first one gives. -/
theorem exists_of_bind_apply {β : Type} {run : Run σ α} {next : α → Run σ β}
    {state after : State σ} {result : β} (h : (run >>= next).apply state = (.ok result, after)) :
    ∃ value between, run.apply state = (.ok value, between) ∧
      (next value).apply between = (.ok result, after) := by
  rw [bind_apply] at h
  rcases hrun : run.apply state with ⟨_ | value, between⟩
  · rw [hrun] at h
    cases h
  · rw [hrun] at h
    exact ⟨value, between, rfl, h⟩

end Run

end BatchScript
