import InstaClone.Async.Contract

/-!
# What a run has been through

A callback that runs now was told something when its request was served, and that was so then.
`Visited` says that a run has been in a world, so that a contract may rely on the past of the
run: every request is served in a world that the run has been in, and leaves one
(`World.Keeps.run_visited`).
-/

namespace Async

variable {Req : Type} {Resp : Req → Type} {E σ S B O A : Type} [DecidableEq S]

/-- The run from `w₀` along `es` has been in the world `w₁`. -/
def Visited (api : Api Req Resp B O) (act : A → Prog Req Resp E σ)
    (ok : World Req Resp E σ S B → Event S A E O → Prop) (w₀ : World Req Resp E σ S B)
    (es : List (Event S A E O)) (w₁ : World Req Resp E σ S B) : Prop :=
  ∃ es₁, es₁ <+: es ∧ Run api act ok w₀ es₁ w₁

variable {api : Api Req Resp B O} {act : A → Prog Req Resp E σ}
  {ok : World Req Resp E σ S B → Event S A E O → Prop} {w₀ w w' : World Req Resp E σ S B}
  {es es' : List (Event S A E O)}

theorem Visited.mono (h : Visited api act ok w₀ es w) (hes : es <+: es') :
    Visited api act ok w₀ es' w := by
  obtain ⟨es₁, hes₁, run⟩ := h
  exact ⟨es₁, hes₁.trans hes, run⟩

/-- Every step of a run is taken in a world that the run has been in. -/
theorem Run.visited (run : Run api act ok w₀ es w) :
    Run api act (fun w₁ ev => ok w₁ ev ∧ Visited api act ok w₀ es w₁) w₀ es w := by
  induction run with
  | nil => exact .nil
  | @snoc es w w' ev run hok hstep ih =>
    refine .snoc (ih.mono ?_) ⟨hok, es, List.prefix_append _ _, run⟩ hstep
    intro w₁ ev₁ h
    exact ⟨h.1, h.2.mono (List.prefix_append _ _)⟩

/-- What holds of the world in every run may be relied on at every step. -/
theorem Run.always {P : World Req Resp E σ S B → Prop}
    (hP : ∀ es w, Run api act ok w₀ es w → P w) (run : Run api act ok w₀ es w) :
    Run api act (fun w ev => ok w ev ∧ P w) w₀ es w := by
  refine run.visited.mono fun w₁ ev h => ⟨h.1, ?_⟩
  obtain ⟨es₁, -, run₁⟩ := h.2
  exact hP es₁ w₁ run₁

/-- Serving a request leaves the backend that the service says. -/
theorem backend_of_serve {i : Nat} {o : O} {s : S} {r : Req} {k : Resp r → Prog Req Resp E σ}
    {b : B} {y : Resp r} (hstep : step (A := A) api act w (.serve i o) = some w')
    (hi : w.pool[i]? = some (s, .issued r k)) (hserve : api.serve w.backend r o = some (b, y)) :
    w'.backend = b := by
  simp only [step, hi, hserve] at hstep
  split at hstep
  next => exact absurd hstep (by simp)
  next =>
    rw [← Option.some.inj hstep]

/-- **The contract rule for what is about the past.** It is enough that the contracts may rely
on replies from a world that the run has been in, to one that it has been in. -/
theorem World.Keeps.run_visited {C : S → Contract Req Resp E σ} {I : B → Prop}
    (h : w₀.Keeps C I) (run : Run api act ok w₀ es w) (hes : es <+: es')
    (hserve : ∀ w₁ w₂ i o s r k e y, ok w₁ (.serve i o) →
      Visited api act ok w₀ es' w₁ → Visited api act ok w₀ es' w₂ →
      w₁.pool[i]? = some (s, .issued r k) → I w₁.backend → (C s).env e → (C s).req e r →
      api.serve w₁.backend r o = some (w₂.backend, y) → I w₂.backend ∧ (C s).resp r y)
    (hact : ∀ w ev, ok w ev → ActOk (fun s a => (act a).Keeps (C s)) w ev)
    (henv : ∀ w ev, ok w ev → EnvOk (fun s e => (C s).env e) w ev) : w.Keeps C I := by
  induction run with
  | nil => exact h
  | @snoc es w w' ev run hok hstep ih =>
    have hbefore : es <+: es' := (List.prefix_append _ _).trans hes
    have hw := ih hbefore
    refine hw.step ?_ (hact w ev hok) (henv w ev hok) (stepped_of_step hstep)
    intro i o hev s r k hi e b' y he hr hs
    subst hev
    have hb : w'.backend = b' := backend_of_serve hstep hi hs
    rw [← hb] at hs ⊢
    exact hserve w w' i o s r k e y hok ⟨es, hbefore, run⟩ ⟨_, hes, .snoc run hok hstep⟩ hi
      hw.backend he hr hs

end Async
