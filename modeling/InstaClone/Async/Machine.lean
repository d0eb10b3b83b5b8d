/-!
# Event-driven objects that may trap

A `Machine` is an object that reacts to events one after the other. The environment sends
an event only when `allows` permits it; reacting to it may trap (`none`), and then there is
no next state. `Run` is what has happened so far, `Run.invariant` the induction over it: an
invariant that every allowed event keeps holds in every state a run reaches.
-/

namespace Async

/-- The states an object may start in, the events its environment may send, and its
reactions. -/
structure Machine (σ Ev : Type) where
  starts : σ → Prop
  allows : σ → Ev → Prop
  step : σ → Ev → Option σ

variable {σ Ev : Type}

/-- The events so far, and the state they have led to. -/
inductive Machine.Run (M : Machine σ Ev) : List Ev → σ → Prop
  | nil {s : σ} (hstart : M.starts s) : Run M [] s
  | snoc {es : List Ev} {s s' : σ} {ev : Ev} (run : Run M es s) (hallowed : M.allows s ev)
      (hstep : M.step s ev = some s') : Run M (es ++ [ev]) s'

/-- Induction over a run. -/
theorem Machine.Run.invariant {M : Machine σ Ev} {I : List Ev → σ → Prop}
    (hinit : ∀ s, M.starts s → I [] s)
    (hkeep : ∀ es s ev s', I es s → M.allows s ev → M.step s ev = some s' → I (es ++ [ev]) s')
    {es : List Ev} {s : σ} (run : M.Run es s) : I es s := by
  induction run with
  | nil hstart => exact hinit _ hstart
  | snoc _ hallowed hstep ih => exact hkeep _ _ _ _ ih hallowed hstep

/-- The last event of a run. -/
theorem Machine.Run.last {M : Machine σ Ev} {es : List Ev} {ev : Ev} {s' : σ}
    (run : M.Run (es ++ [ev]) s') :
    ∃ s, M.Run es s ∧ M.allows s ev ∧ M.step s ev = some s' := by
  generalize hes : es ++ [ev] = es' at run
  cases run with
  | nil hstart => exact absurd hes (by simp)
  | snoc run hallowed hstep =>
    obtain ⟨rfl, heq⟩ := List.append_inj' hes rfl
    obtain rfl := List.singleton_inj.mp heq
    exact ⟨_, run, hallowed, hstep⟩

/-- The object in an environment that also keeps `ok`. -/
def Machine.under (M : Machine σ Ev) (ok : σ → Ev → Prop) : Machine σ Ev :=
  { M with allows := fun s ev => M.allows s ev ∧ ok s ev }

theorem Machine.Run.of_under {M : Machine σ Ev} {ok : σ → Ev → Prop} {es : List Ev} {s : σ}
    (run : (M.under ok).Run es s) : M.Run es s := by
  induction run with
  | nil hstart => exact .nil hstart
  | snoc _ hallowed hstep ih => exact .snoc ih hallowed.1 hstep

instance {M : Machine σ Ev} {ok : σ → Ev → Prop} [∀ s ev, Decidable (M.allows s ev)]
    [∀ s ev, Decidable (ok s ev)] (s : σ) (ev : Ev) : Decidable ((M.under ok).allows s ev) :=
  inferInstanceAs (Decidable (M.allows s ev ∧ ok s ev))

/-- React to a list of events, checking that each is allowed. -/
def Machine.play (M : Machine σ Ev) [∀ s ev, Decidable (M.allows s ev)] :
    σ → List Ev → Option σ
  | s, [] => some s
  | s, ev :: es => if M.allows s ev then (M.step s ev).bind fun s' => M.play s' es else none

/-- What `play` computes is a run. -/
theorem Machine.Run.play {M : Machine σ Ev} [∀ s ev, Decidable (M.allows s ev)]
    {es es' : List Ev} {s s' : σ} (run : M.Run es s) (h : M.play s es' = some s') :
    M.Run (es ++ es') s' := by
  induction es' generalizing es s with
  | nil =>
    rw [List.append_nil]
    obtain rfl := Option.some.inj h
    exact run
  | cons ev es' ih =>
    rw [Machine.play] at h
    split at h
    next hallowed =>
      obtain ⟨s₁, hstep, hrest⟩ := Option.bind_eq_some_iff.mp h
      have hrun := ih (run.snoc hallowed hstep) hrest
      rwa [List.append_assoc] at hrun
    next => exact absurd h (by simp)

/-- An evaluation that ends in a state with `P` exhibits such a run. -/
theorem Machine.exists_run_of_play {M : Machine σ Ev} [∀ s ev, Decidable (M.allows s ev)]
    {s₀ : σ} (hstart : M.starts s₀) {es : List Ev} {P : σ → Prop} [DecidablePred P]
    (h : (M.play s₀ es).any (fun s => decide (P s)) = true) : ∃ s, M.Run es s ∧ P s := by
  cases hp : M.play s₀ es with
  | none => rw [hp] at h; exact absurd h (by simp)
  | some s =>
    rw [hp] at h
    exact ⟨s, Machine.Run.play (.nil hstart) hp, by simpa using h⟩

/-- An array access: it traps out of bounds. -/
def subscript {α β : Type} (array : List α) (i : Nat) (k : α → β) : Option β :=
  array[i]?.map k

theorem subscript_isSome {α β : Type} {array : List α} {i : Nat} {k : α → β} :
    (subscript array i k).isSome = true ↔ i < array.length := by
  unfold subscript
  rw [Option.isSome_map]
  constructor
  · intro h
    obtain ⟨x, hx⟩ := Option.isSome_iff_exists.mp h
    exact (List.getElem?_eq_some_iff.mp hx).1
  · intro h
    rw [List.getElem?_eq_getElem h]
    rfl

end Async
