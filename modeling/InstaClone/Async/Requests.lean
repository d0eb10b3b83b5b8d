import InstaClone.Async.Turns

/-!
# More about the requests of a program

A contract settles the states of a session and its requests at one time. `Prog.RequestsIn` says
something more of the requests alone: in a session that keeps the contract `C`, and in which
moreover the replies are as `resp` says, the program issues only requests with `req`. Its
assignments do not matter. So a program that is known to keep `C` keeps more
(`Prog.KeepsIn.also`) once its calls have been gone through, and where all of them are harmless
not even that is necessary (`Prog.Spares.requestsIn`).
-/

namespace Async

variable {Req : Type} {Resp : Req → Type} {E σ τ α : Type}

/-- Run in the turn `e`, the program issues only requests with `req`, and so do its callbacks. -/
def Prog.RequestsIn (C : Contract Req Resp E σ) (req : E → Req → Prop)
    (resp : (r : Req) → Resp r → Prop) : Prog Req Resp E σ → E → Prop
  | done, _ => True
  | call r k rest, e =>
    req e r
      ∧ (∀ y, C.resp r y → resp r y → ∀ e', C.env e' → (k y).RequestsIn C req resp e')
      ∧ rest.RequestsIn C req resp e
  | modify _ rest, e => rest.RequestsIn C req resp e
  | read k, e => ∀ s, C.state s → (k s).RequestsIn C req resp e
  | ask k, e => (k e).RequestsIn C req resp e

/-- The contract `C` that says more of the requests, and relies on more in the replies. -/
def Contract.also (C : Contract Req Resp E σ) (req : E → Req → Prop)
    (resp : (r : Req) → Resp r → Prop) : Contract Req Resp E σ where
  env := C.env
  state := C.state
  req e r := C.req e r ∧ req e r
  resp r y := C.resp r y ∧ resp r y

section Rules

variable {C : Contract Req Resp E σ} {req : E → Req → Prop} {resp : (r : Req) → Resp r → Prop}
  {p q : Prog Req Resp E σ} {e : E}

@[simp] theorem Prog.requestsIn_done :
    (Prog.done : Prog Req Resp E σ).RequestsIn C req resp e := trivial

@[simp] theorem Prog.requestsIn_modify {f : σ → σ} {rest : Prog Req Resp E σ} :
    (Prog.modify f rest).RequestsIn C req resp e ↔ rest.RequestsIn C req resp e := Iff.rfl

@[simp] theorem Prog.requestsIn_ask {k : E → Prog Req Resp E σ} :
    (Prog.ask k).RequestsIn C req resp e ↔ (k e).RequestsIn C req resp e := Iff.rfl

theorem Prog.RequestsIn.andThen (hp : p.RequestsIn C req resp e)
    (hq : q.RequestsIn C req resp e) : (p.andThen q).RequestsIn C req resp e := by
  induction p with
  | done => exact hq
  | call r k rest _ ih => exact ⟨hp.1, hp.2.1, ih hp.2.2⟩
  | modify f rest ih => exact ih hp
  | read k ih => exact fun s hs => ih s (hp s hs)
  | ask k ih => exact ih e hp

/-- Both together. -/
theorem Prog.KeepsIn.also (h : p.KeepsIn C e) (h' : p.RequestsIn C req resp e) :
    p.KeepsIn (C.also req resp) e := by
  induction p generalizing e with
  | done => trivial
  | call r k rest ihk ih =>
    refine ⟨⟨h.1, h'.1⟩, fun y hy e' he' => ?_, ih h.2.2 h'.2.2⟩
    exact ihk y (h.2.1 y hy.1 e' he') (h'.2.1 y hy.1 hy.2 e' he')
  | modify f rest ih => exact ⟨h.1, ih h.2 h'⟩
  | read k ih => exact fun s hs => ih s (h s hs) (h' s hs)
  | ask k ih => exact ih e h h'

/-- A program whose requests are fine whatever happens. -/
theorem Prog.Spares.requestsIn {ok : Req → Prop} {obs : σ → α} (h : p.Spares ok obs)
    (hok : ∀ e r, ok r → req e r) : p.RequestsIn C req resp e := by
  induction p generalizing e with
  | done => trivial
  | call r k rest ihk ih => exact ⟨hok e r h.1, fun y _ _ e' _ => ihk y (h.2.1 y), ih h.2.2⟩
  | modify f rest ih => exact ih h.2
  | read k ih => exact fun s _ => ih s (h s)
  | ask k ih => exact ih e (h e)

/-- On a part of the state it issues the same requests. -/
theorem Prog.RequestsIn.zoom {get : τ → Option σ} {set : σ → τ → τ} {state : τ → Prop}
    (hget : ∀ t, state t → ∀ s ∈ get t, C.state s) (h : p.RequestsIn C req resp e) :
    (p.zoom get set).RequestsIn (C.within state) req resp e := by
  induction p generalizing e with
  | done => trivial
  | call r k rest ihk ih =>
    refine ⟨h.1, fun y hy hy' e' he' t _ => ?_, ih h.2.2⟩
    dsimp only
    split
    next => exact ihk y (h.2.1 y hy hy' e' he')
    next => trivial
  | modify f rest ih => exact ih h
  | read k ih =>
    intro t ht
    show Prog.RequestsIn _ req resp ((get t).elim _ _) e
    cases hs : get t with
    | none => trivial
    | some s => exact ih s (h s (hget t ht s hs))
  | ask k ih => exact ih e h

end Rules

end Async
