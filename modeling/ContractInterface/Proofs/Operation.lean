import ContractInterface.Failure

/-! Operations followed from the state they start in to their result and the state they leave. -/
namespace ContractInterface.Operation

variable {σ α β : Type} {s : σ}

/-- The result of an operation and the state that it leaves are as stated. -/
def Meets (x : Operation σ α) (s : σ) (P : Except Failure α → σ → Prop) : Prop :=
  P (x.run.run s).1 (x.run.run s).2

theorem Meets.mono {x : Operation σ α} {P Q : Except Failure α → σ → Prop} (h : Meets x s P)
    (hPQ : ∀ r s', P r s' → Q r s') : Meets x s Q := hPQ _ _ h

theorem run_bind (x : Operation σ α) (f : α → Operation σ β) (s : σ) :
    (x >>= f).run.run s =
      match x.run.run s with
      | (.ok a, s') => (f a).run.run s'
      | (.error e, s') => (.error e, s') := by
  rw [ExceptT.run_bind, StateT.run_bind]
  cases h : x.run.run s with
  | mk r s' => cases r <;> rfl

theorem run_get_bind (f : σ → Operation σ α) (s : σ) :
    (get >>= f).run.run s = (f s).run.run s := rfl

theorem run_set_bind (s' : σ) (f : PUnit → Operation σ α) (s : σ) :
    (set s' >>= f).run.run s = (f ⟨⟩).run.run s' := rfl

theorem run_tryCatch (x : Operation σ α) (f : Failure → Operation σ α) (s : σ) :
    (tryCatch x f).run.run s =
      match x.run.run s with
      | (.ok a, s') => (.ok a, s')
      | (.error e, s') => (f e).run.run s' := by
  rw [ExceptT.run_tryCatch, StateT.run_bind]
  cases h : x.run.run s with
  | mk r s' => cases r <;> rfl

/-- What comes second starts where what comes first has ended, unless that has failed. -/
theorem Meets.bind {x : Operation σ α} {f : α → Operation σ β} {P : Except Failure α → σ → Prop}
    {Q : Except Failure β → σ → Prop} (hx : Meets x s P)
    (hok : ∀ a s', P (.ok a) s' → Meets (f a) s' Q)
    (herror : ∀ e s', P (.error e) s' → Q (.error e) s') : Meets (x >>= f) s Q := by
  unfold Meets at hx ⊢
  rw [run_bind]
  cases h : x.run.run s with
  | mk r s' =>
    rw [h] at hx
    cases r with
    | ok a => exact hok a s' hx
    | error e => exact herror e s' hx

theorem meets_lift (x : Except Failure α) {P : Except Failure α → σ → Prop} (h : P x s) :
    Meets (liftM x) s P := by
  cases x <;> exact h

theorem meets_lift_then {x : Except Failure α} {f : α → Operation σ β}
    {P : Except Failure β → σ → Prop} (hok : ∀ a, x = .ok a → Meets (f a) s P)
    (herror : ∀ e, x = .error e → P (.error e) s) : Meets (liftM x >>= f) s P := by
  cases x with
  | ok a => exact hok a rfl
  | error e => exact herror e rfl

theorem meets_lift_bind {x : Except Failure α} {f : α → Except Failure β}
    {P : Except Failure β → σ → Prop} (h : P (x >>= f) s) :
    Meets (liftM x >>= fun a => liftM (f a)) s P := by
  cases x with
  | ok a => exact meets_lift (f a) h
  | error e => exact h

theorem meets_modify (f : σ → σ) {P : Except Failure Unit → σ → Prop}
    (h : P (.ok ()) (f s)) : Meets (modify f) s P := h

theorem meets_get_bind {f : σ → Operation σ α} {P : Except Failure α → σ → Prop}
    (h : Meets (f s) s P) : Meets (get >>= f) s P := h

theorem meets_pure {a : α} {P : Except Failure α → σ → Prop} (h : P (.ok a) s) :
    Meets (pure a) s P := h

theorem meets_throw {e : Failure} {P : Except Failure α → σ → Prop} (h : P (.error e) s) :
    Meets (throw e) s P := h

end ContractInterface.Operation
