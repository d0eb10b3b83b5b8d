import InstaClone.Async.World

/-!
# Contracts: what a callback program may do, whatever happens

A `Contract` is a rely–guarantee specification of one session's code: relying on
`env` for what the device answers and on `resp` for the replies, the code keeps
`state` and issues, in a turn with environment `e`, only requests with `req e`.
`Prog.KeepsIn` says it of a program run in one given turn, with all its callbacks in
any later turns, by recursion over the tree; `Prog.Keeps` says it for every turn.

`World.Keeps` is the invariant that follows: a backend invariant, `state` for
every session, and `Keeps` for everything still in flight. It survives every
step (`World.Keeps.step`) as long as the backend keeps its own invariant and
answers as the contract relies on, in any order, with any outcome, also when
callbacks are lost.
-/

namespace Async

variable {Req : Type} {Resp : Req → Type} {E σ S B O A : Type}

/-- The rely–guarantee contract of one session's code. -/
structure Contract (Req : Type) (Resp : Req → Type) (E σ : Type) where
  env : E → Prop
  state : σ → Prop
  req : E → Req → Prop
  resp : (r : Req) → Resp r → Prop

/-- Run in the turn `e`, the program keeps the contract; its callbacks keep it in
whatever turns they run. -/
def Prog.KeepsIn (C : Contract Req Resp E σ) : Prog Req Resp E σ → E → Prop
  | done, _ => True
  | call r k rest, e =>
    C.req e r ∧ (∀ y, C.resp r y → ∀ e', C.env e' → (k y).KeepsIn C e') ∧ rest.KeepsIn C e
  | modify f rest, e => (∀ s, C.state s → C.state (f s)) ∧ rest.KeepsIn C e
  | read k, e => ∀ s, C.state s → (k s).KeepsIn C e
  | ask k, e => (k e).KeepsIn C e

/-- The program keeps the contract in every turn. -/
def Prog.Keeps (C : Contract Req Resp E σ) (p : Prog Req Resp E σ) : Prop :=
  ∀ e, C.env e → p.KeepsIn C e

/-- What is left of a flight keeps the contract. -/
def Flight.Keeps (C : Contract Req Resp E σ) : Flight Req Resp E σ → Prop
  | issued r k => (∃ e, C.env e ∧ C.req e r) ∧ ∀ y, C.resp r y → (k y).Keeps C
  | served _ p => p.Keeps C

/-- What is left of a flight after its own request keeps the contract. -/
def Flight.Tail (C : Contract Req Resp E σ) : Flight Req Resp E σ → Prop
  | issued r k => ∀ y, C.resp r y → (k y).Keeps C
  | served _ p => p.Keeps C

section Rules

variable {C C' : Contract Req Resp E σ} {e : E}

@[simp] theorem Prog.keepsIn_done : (Prog.done : Prog Req Resp E σ).KeepsIn C e := trivial

@[simp] theorem Prog.keepsIn_call {r : Req} {k : Resp r → Prog Req Resp E σ}
    {rest : Prog Req Resp E σ} :
    (Prog.call r k rest).KeepsIn C e
      ↔ C.req e r ∧ (∀ y, C.resp r y → (k y).Keeps C) ∧ rest.KeepsIn C e := Iff.rfl

@[simp] theorem Prog.keepsIn_modify {f : σ → σ} {rest : Prog Req Resp E σ} :
    (Prog.modify f rest).KeepsIn C e
      ↔ (∀ s, C.state s → C.state (f s)) ∧ rest.KeepsIn C e := Iff.rfl

@[simp] theorem Prog.keepsIn_read {k : σ → Prog Req Resp E σ} :
    (Prog.read k).KeepsIn C e ↔ ∀ s, C.state s → (k s).KeepsIn C e := Iff.rfl

@[simp] theorem Prog.keepsIn_ask {k : E → Prog Req Resp E σ} :
    (Prog.ask k).KeepsIn C e ↔ (k e).KeepsIn C e := Iff.rfl

@[simp] theorem Prog.keeps_done : (Prog.done : Prog Req Resp E σ).Keeps C := fun _ _ => trivial

@[simp] theorem Flight.keeps_issued {r : Req} {k : Resp r → Prog Req Resp E σ} :
    (Flight.issued r k).Keeps C
      ↔ (∃ e, C.env e ∧ C.req e r) ∧ ∀ y, C.resp r y → (k y).Keeps C := Iff.rfl

@[simp] theorem Flight.keeps_served {r : Req} {p : Prog Req Resp E σ} :
    (Flight.served r p).Keeps C ↔ p.Keeps C := Iff.rfl

/-- A flight that keeps the contract has a tail that does. -/
theorem Flight.Keeps.tail {fl : Flight Req Resp E σ} (h : fl.Keeps C) : fl.Tail C := by
  cases fl with
  | issued r k => exact h.2
  | served r p => exact h

/-- Sequences and loops keep the contract when their parts do. -/
theorem Prog.KeepsIn.andThen {p q : Prog Req Resp E σ} (hp : p.KeepsIn C e)
    (hq : q.KeepsIn C e) : (p.andThen q).KeepsIn C e := by
  induction p with
  | done => exact hq
  | call r k rest _ ih => exact ⟨hp.1, hp.2.1, ih hp.2.2⟩
  | modify f rest ih => exact ⟨hp.1, ih hp.2⟩
  | read k ih => exact fun s hs => ih s (hp s hs)
  | ask k ih => exact ih e hp

theorem Prog.KeepsIn.forEach {α : Type} {l : List α} {f : α → Prog Req Resp E σ}
    (h : ∀ a ∈ l, (f a).KeepsIn C e) : (Prog.forEach l f).KeepsIn C e := by
  induction l with
  | nil => trivial
  | cons a l ih =>
    exact (h a (List.mem_cons_self ..)).andThen
      (ih fun b hb => h b (List.mem_cons_of_mem _ hb))

/-- A contract with the same client states, a larger rely and a smaller
guarantee implies the other one. -/
theorem Prog.KeepsIn.mono (henv : ∀ e, C'.env e → C.env e) (hstate : C.state = C'.state)
    (hreq : ∀ e r, C.req e r → C'.req e r) (hresp : ∀ r y, C'.resp r y → C.resp r y)
    {p : Prog Req Resp E σ} (h : p.KeepsIn C e) : p.KeepsIn C' e := by
  induction p generalizing e with
  | done => trivial
  | call r k rest ihk ih =>
    refine ⟨hreq e r h.1, ?_, ih h.2.2⟩
    intro y hy e' he'
    exact ihk y (h.2.1 y (hresp r y hy) e' (henv e' he'))
  | modify f rest ih => exact ⟨hstate ▸ h.1, ih h.2⟩
  | read k ih => exact fun s hs => ih s (h s (hstate ▸ hs))
  | ask k ih => exact ih e h

/-- One turn of a program that keeps the contract: the client state it leaves is
good and everything it issues keeps the contract. -/
theorem Prog.KeepsIn.exec {p : Prog Req Resp E σ} {s : σ} (hp : p.KeepsIn C e)
    (he : C.env e) (hs : C.state s) :
    C.state (p.exec e s).1
      ∧ ∀ fl ∈ (p.exec e s).2, fl.Keeps C ∧ C.req e fl.req ∧ fl.waits = true := by
  induction p generalizing s with
  | done => exact ⟨hs, fun fl hfl => absurd hfl (by simp)⟩
  | call r k rest _ ih =>
    obtain ⟨hreq, hk, hrest⟩ := hp
    obtain ⟨hs', hfl'⟩ := ih hrest hs
    refine ⟨hs', fun fl hfl => ?_⟩
    rcases List.mem_cons.mp hfl with rfl | hfl
    · exact ⟨⟨⟨e, he, hreq⟩, hk⟩, hreq, rfl⟩
    · exact hfl' fl hfl
  | modify f rest ih => exact ih hp.2 (hp.1 s hs)
  | read k ih => exact ih s (hp s hs) hs
  | ask k ih => exact ih e hp hs

end Rules

/-! ## The invariant of a world whose sessions keep their contracts -/

/-- The environment of every turn is as `V` says of the session it belongs to. -/
def EnvOk (V : S → E → Prop) (w : World Req Resp E σ S B) : Event S A E O → Prop
  | .invoke s _ e => V s e
  | .deliver i e => ∀ x ∈ w.pool[i]?, V x.1 e
  | .serve _ _ => True
  | .drop _ => True

instance {V : S → E → Prop} [∀ s e, Decidable (V s e)] (w : World Req Resp E σ S B)
    (ev : Event S A E O) : Decidable (EnvOk V w ev) :=
  match ev with
  | .invoke s _ e => inferInstanceAs (Decidable (V s e))
  | .serve _ _ => isTrue trivial
  | .deliver _ _ => inferInstanceAs (Decidable (∀ x ∈ _, _))
  | .drop _ => isTrue trivial

/-- What the side condition says of the turn of a callback. -/
theorem EnvOk.deliver {V : S → E → Prop} {w : World Req Resp E σ S B}
    {pre post : List (S × Flight Req Resp E σ)} {x : S × Flight Req Resp E σ} {e : E}
    (h : EnvOk (A := A) (O := O) V w (.deliver pre.length e))
    (hpool : w.pool = pre ++ x :: post) : V x.1 e :=
  h x (getElem?_split hpool)

/-- The actions of every turn are ones `P` allows. -/
def ActOk (P : S → A → Prop) (_ : World Req Resp E σ S B) : Event S A E O → Prop
  | .invoke s a _ => P s a
  | _ => True

instance {P : S → A → Prop} [∀ s a, Decidable (P s a)] (w : World Req Resp E σ S B)
    (ev : Event S A E O) : Decidable (ActOk P w ev) :=
  match ev with
  | .invoke s a _ => inferInstanceAs (Decidable (P s a))
  | .serve _ _ => isTrue trivial
  | .deliver _ _ => isTrue trivial
  | .drop _ => isTrue trivial

/-- The backend invariant, good client states, and contracts kept in flight. -/
structure World.Keeps (C : S → Contract Req Resp E σ) (I : B → Prop)
    (w : World Req Resp E σ S B) : Prop where
  backend : I w.backend
  client : ∀ s, (C s).state (w.client s)
  pool : ∀ x ∈ w.pool, x.2.Keeps (C x.1)

section Invariant

variable [DecidableEq S] {api : Api Req Resp B O} {act : A → Prog Req Resp E σ}
  {C : S → Contract Req Resp E σ} {I : B → Prop}

/-- One turn keeps the invariant. -/
theorem World.Keeps.turn {w : World Req Resp E σ S B} (h : w.Keeps C I) {s : S}
    {p : Prog Req Resp E σ} {e : E} {pool : List (S × Flight Req Resp E σ)}
    (hpool : ∀ x ∈ pool, x.2.Keeps (C x.1)) (hp : p.Keeps (C s)) (he : (C s).env e) :
    (w.turn s p e pool).Keeps C I := by
  obtain ⟨hstate, hfl⟩ := (hp e he).exec he (h.client s)
  refine ⟨h.backend, fun t => ?_, fun x hx => ?_⟩
  · rw [World.turn_client]
    by_cases ht : t = s
    · rw [if_pos ht, ht]; exact hstate
    · rw [if_neg ht]; exact h.client t
  · rcases List.mem_append.mp hx with hx | hx
    · exact hpool x hx
    · obtain ⟨fl, hmem, rfl⟩ := List.mem_map.mp hx
      exact (hfl fl hmem).1

/-- **The contract rule, one step.** If the backend keeps `I` and answers the request
served, if any, as the contracts rely on, and the action keeps the contracts, the step
keeps the invariant. -/
theorem World.Keeps.step {w w' : World Req Resp E σ S B} {ev : Event S A E O} (h : w.Keeps C I)
    (hserve : ∀ i o, ev = .serve i o → ∀ s r k, w.pool[i]? = some (s, .issued r k) → ∀ e b' y,
      (C s).env e → (C s).req e r → api.serve w.backend r o = some (b', y) →
      I b' ∧ (C s).resp r y)
    (hact : ActOk (fun s a => (act a).Keeps (C s)) w ev)
    (henv : EnvOk (fun s e => (C s).env e) w ev)
    (hstep : Stepped api act w ev w') : w'.Keeps C I := by
  cases hstep with
  | invoke s a e => exact h.turn h.pool hact henv
  | serve hpool hfifo hs =>
    rename_i pre post s r k o b y
    have hfl := h.pool (s, .issued r k) (mem_split hpool)
    obtain ⟨⟨e, he, hreq⟩, hk⟩ := hfl
    obtain ⟨hI, hy⟩ := hserve _ o rfl s r k (getElem?_split hpool) e b y he hreq hs
    refine ⟨hI, h.client, fun x hx => ?_⟩
    simp only [List.mem_append, List.mem_cons] at hx
    rcases hx with hx | rfl | hx
    · exact h.pool x (mem_split_left hpool hx)
    · exact hk y hy
    · exact h.pool x (mem_split_right hpool hx)
  | deliver hpool hfifo =>
    rename_i pre post s r p e
    refine h.turn (fun x hx => ?_) (h.pool (s, .served r p) (mem_split hpool))
      (henv.deliver hpool)
    rcases List.mem_append.mp hx with hx | hx
    · exact h.pool x (mem_split_left hpool hx)
    · exact h.pool x (mem_split_right hpool hx)
  | drop hpool =>
    refine ⟨h.backend, h.client, fun x hx => ?_⟩
    rcases List.mem_append.mp hx with hx | hx
    · exact h.pool x (mem_split_left hpool hx)
    · exact h.pool x (mem_split_right hpool hx)

/-- **The contract rule, runs.** -/
theorem World.Keeps.run {ok : World Req Resp E σ S B → Event S A E O → Prop}
    {w₀ w : World Req Resp E σ S B} {es : List (Event S A E O)} (h : w₀.Keeps C I)
    (run : Run api act ok w₀ es w)
    (hserve : ∀ s b e r o b' y, I b → (C s).env e → (C s).req e r →
      api.serve b r o = some (b', y) → I b' ∧ (C s).resp r y)
    (hact : ∀ w ev, ok w ev → ActOk (fun s a => (act a).Keeps (C s)) w ev)
    (henv : ∀ w ev, ok w ev → EnvOk (fun s e => (C s).env e) w ev) : w.Keeps C I :=
  run.invariant (I := fun _ w => w.Keeps C I) h fun _ w _ _ hw hok hstep =>
    hw.step (fun _ o _ s r _ _ e b' y => hserve s w.backend e r o b' y hw.backend)
      (hact _ _ hok) (henv _ _ hok) hstep

end Invariant

end Async
