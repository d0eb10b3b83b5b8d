import InstaClone.Async.Guard
import InstaClone.Async.Origins
import InstaClone.Async.Turns

/-!
# Which request goes back to which

A request is issued by an action, or by the callback of an earlier request. `Prog.ChainsFrom`
says how each request of a program is related to the one before it, in the turn in which it is
issued: a contract cannot, which says the same of all requests of a turn. It looks at the states
a turn may start in one by one, so an action may be judged by what it finds.

With the labels of `Labelled`, what is in flight is chained as its label says, in every state of
a run. `SentAlong` is the other half: what is in flight was issued in a turn of the run, in a world
that the run has been in, where whatever all new requests meet is met by it
(`Machine.Run.sent`).
-/

namespace Async

variable {Req : Type} {Resp : Req → Type} {E σ τ S B O A L α : Type}

/-- Run in the turn `e` from the state `s`, as the callback of `prev` if there is such a request,
the program issues only requests with `rel prev e`, and its callbacks do so in turn. -/
def Prog.ChainsFrom (rel : Option Req → E → Req → Prop) :
    Prog Req Resp E σ → Option Req → E → σ → Prop
  | done, _, _, _ => True
  | call r k rest, prev, e, s =>
    rel prev e r ∧ (∀ y e' s', (k y).ChainsFrom rel (some r) e' s')
      ∧ rest.ChainsFrom rel prev e s
  | modify f rest, prev, e, s => rest.ChainsFrom rel prev e (f s)
  | read k, prev, e, s => (k s).ChainsFrom rel prev e s
  | ask k, prev, e, s => (k e).ChainsFrom rel prev e s

/-- So does what is left of a flight. -/
def Flight.Chains (rel : Option Req → E → Req → Prop) : Flight Req Resp E σ → Prop
  | issued r k => ∀ y e s, (k y).ChainsFrom rel (some r) e s
  | served r p => ∀ e s, p.ChainsFrom rel (some r) e s

section Rules

variable {rel : Option Req → E → Req → Prop} {prev : Option Req} {e : E} {s : σ}
  {p q : Prog Req Resp E σ}

@[simp] theorem Prog.chainsFrom_done :
    (Prog.done : Prog Req Resp E σ).ChainsFrom rel prev e s := trivial

@[simp] theorem Prog.chainsFrom_modify {f : σ → σ} {rest : Prog Req Resp E σ} :
    (Prog.modify f rest).ChainsFrom rel prev e s ↔ rest.ChainsFrom rel prev e (f s) := Iff.rfl

@[simp] theorem Prog.chainsFrom_read {k : σ → Prog Req Resp E σ} :
    (Prog.read k).ChainsFrom rel prev e s ↔ (k s).ChainsFrom rel prev e s := Iff.rfl

@[simp] theorem Prog.chainsFrom_ask {k : E → Prog Req Resp E σ} :
    (Prog.ask k).ChainsFrom rel prev e s ↔ (k e).ChainsFrom rel prev e s := Iff.rfl

/-- A sequence goes on where its first part has ended. -/
theorem Prog.ChainsFrom.andThen (hp : p.ChainsFrom rel prev e s)
    (hq : q.ChainsFrom rel prev e (p.exec e s).1) : (p.andThen q).ChainsFrom rel prev e s := by
  induction p generalizing s with
  | done => exact hq
  | call r k rest _ ih => exact ⟨hp.1, hp.2.1, ih hp.2.2 hq⟩
  | modify f rest ih => exact ih hp hq
  | read k ih => exact ih s hp hq
  | ask k ih => exact ih e hp hq

/-- A program whose requests are fine wherever they come from. -/
theorem Prog.Spares.chainsFrom {ok : Req → Prop} {obs : σ → α} (h : p.Spares ok obs)
    (hok : ∀ prev e r, ok r → rel prev e r) (prev : Option Req) (e : E) (s : σ) :
    p.ChainsFrom rel prev e s := by
  induction p generalizing prev e s with
  | done => trivial
  | call r k rest ihk ih =>
    exact ⟨hok prev e r h.1, fun y e' s' => ihk y (h.2.1 y) (some r) e' s', ih h.2.2 prev e s⟩
  | modify f rest ih => exact ih h.2 prev e (f s)
  | read k ih => exact ih s (h s) prev e s
  | ask k ih => exact ih e (h e) prev e s

/-- On a part of the state it issues the same requests. -/
theorem Prog.ChainsFrom.zoom {get : τ → Option σ} {set : σ → τ → τ}
    (hset : ∀ s t, (get t).isSome = true → get (set s t) = some s) {t : τ}
    (h : p.ChainsFrom rel prev e s) (hs : get t = some s) :
    (p.zoom get set).ChainsFrom rel prev e t := by
  induction p generalizing prev e s t with
  | done => trivial
  | call r k rest ihk ih =>
    refine ⟨h.1, fun y e' t' => ?_, ih h.2.2 hs⟩
    show Prog.ChainsFrom rel (if (get t').isSome then _ else _) (some r) e' t'
    cases hs' : get t' with
    | none => trivial
    | some s' => exact ihk y (h.2.1 y e' s') hs'
  | modify f rest ih =>
    show (rest.zoom get set).ChainsFrom rel prev e ((get t).elim t fun s => set (f s) t)
    rw [hs]
    exact ih h (hset (f s) t (by rw [hs]; rfl))
  | read k ih =>
    show Prog.ChainsFrom rel ((get t).elim .done fun s => (k s).zoom get set) prev e t
    rw [hs]
    exact ih s h hs
  | ask k ih => exact ih e h hs

/-- **One turn.** What it issues is related to what it goes back to, and chained. -/
theorem Prog.ChainsFrom.exec (h : p.ChainsFrom rel prev e s) :
    ∀ fl ∈ (p.exec e s).2, rel prev e fl.req ∧ fl.Chains rel := by
  induction p generalizing s with
  | done => exact fun fl hfl => absurd hfl List.not_mem_nil
  | call r k rest _ ih =>
    intro fl hfl
    rcases List.mem_cons.mp hfl with rfl | hfl
    · exact ⟨h.1, h.2.1⟩
    · exact ih h.2.2 fl hfl
  | modify f rest ih => exact ih h
  | read k ih => exact ih s h
  | ask k ih => exact ih e h

end Rules

/-! ## Worlds -/

/-- In the world `w`, the event runs a turn `e` that issues the request `r`. -/
inductive Issues (act : A → Prog Req Resp E σ) (w : World Req Resp E σ S B) :
    Event S A E O → E → Req → Prop
  | action {s : S} {a : A} {e : E} {fl : Flight Req Resp E σ}
      (hfl : fl ∈ ((act a).exec e (w.client s)).2) : Issues act w (.invoke s a e) e fl.req
  | callback {i : Nat} {e : E} {s : S} {r : Req} {p : Prog Req Resp E σ} {fl : Flight Req Resp E σ}
      (hget : w.pool[i]? = some (s, .served r p)) (hfl : fl ∈ (p.exec e (w.client s)).2) :
      Issues act w (.deliver i e) e fl.req

section Worlds

variable [DecidableEq S] {api : Api Req Resp B O} {act : A → Prog Req Resp E σ}
  {origin : σ → A → L} {w₀ w w' : World Req Resp E σ S B} {es es' : List (Event S A E O)}
  {ev : Event S A E O}

variable (api act) in
/-- In the world `w`, which the run from `w₀` along `es` has been in, the run has taken the turn
`e` and issued the request `r`. -/
def SentAlong (w₀ : World Req Resp E σ S B) (es : List (Event S A E O))
    (w : World Req Resp E σ S B) (e : E) (r : Req) : Prop :=
  ∃ es₁ ev es₂, es = es₁ ++ ev :: es₂ ∧ Run api act (fun _ _ => True) w₀ es₁ w
    ∧ Issues act w ev e r

/-- What was sent along a part of the run was sent along the run. -/
theorem SentAlong.append {e : E} {r : Req} (h : SentAlong api act w₀ es w e r)
    (es' : List (Event S A E O)) : SentAlong api act w₀ (es ++ es') w e r := by
  obtain ⟨es₁, ev, es₂, rfl, run, hissues⟩ := h
  exact ⟨es₁, ev, es₂ ++ es', by simp, run, hissues⟩

/-- The turn is one of the run. -/
theorem SentAlong.turn {e : E} {r : Req} (h : SentAlong api act w₀ es w e r) :
    ∃ ev ∈ es, e ∈ ev.turn := by
  obtain ⟨es₁, ev, es₂, rfl, -, hissues⟩ := h
  refine ⟨ev, List.mem_append_right _ (List.mem_cons_self ..), ?_⟩
  cases hissues with
  | action hfl => rfl
  | callback hget hfl => rfl

/-- What is in flight after a step was in flight before it, or has been issued in it. -/
theorem Stepped.issues (hstep : Stepped api act w ev w') :
    ∀ y ∈ w'.pool, (∃ y' ∈ w.pool, y'.2.req = y.2.req) ∨ ∃ e, Issues act w ev e y.2.req := by
  intro y hy
  cases hstep with
  | invoke s a e =>
    rcases List.mem_append.mp hy with hy | hy
    · exact Or.inl ⟨y, hy, rfl⟩
    · obtain ⟨fl, hfl, rfl⟩ := List.mem_map.mp hy
      exact Or.inr ⟨e, .action hfl⟩
  | serve hpool hfifo hserve =>
    rename_i pre post s r k o b x
    refine Or.inl ?_
    simp only [List.mem_append, List.mem_cons] at hy
    rcases hy with hy | rfl | hy
    · exact ⟨y, mem_split_left hpool hy, rfl⟩
    · exact ⟨(s, .issued r k), mem_split hpool, rfl⟩
    · exact ⟨y, mem_split_right hpool hy, rfl⟩
  | deliver hpool hfifo =>
    rename_i pre post s r p e
    rcases List.mem_append.mp hy with hy | hy
    · exact Or.inl ⟨y, mem_split_rest hpool hy, rfl⟩
    · obtain ⟨fl, hfl, rfl⟩ := List.mem_map.mp hy
      exact Or.inr ⟨e, .callback (getElem?_split hpool) hfl⟩
  | drop hpool => exact Or.inl ⟨y, mem_split_rest hpool hy, rfl⟩

variable {rel : L → Option Req → E → Req → Prop} {x x' : Labelled Req Resp E σ S B L}

/-- How a request that is issued is related to what it goes back to. -/
inductive Labelled.Links (origin : σ → A → L) (rel : L → Option Req → E → Req → Prop)
    (x : Labelled Req Resp E σ S B L) : Event S A E O → E → Req → Prop
  | action {s : S} {a : A} {e : E} {r : Req} (h : rel (origin (x.world.client s) a) none e r) :
      Links origin rel x (.invoke s a e) e r
  | callback {i : Nat} {e : E} {l : L} {s : S} {r r' : Req} {p : Prog Req Resp E σ}
      (hlabel : x.labels[i]? = some l) (hget : x.world.pool[i]? = some (s, .served r p))
      (h : rel l (some r) e r') : Links origin rel x (.deliver i e) e r'

omit [DecidableEq S] in
theorem Labelled.Flights.links (h : x.Flights fun l y => y.2.Chains (rel l))
    (hact : ∀ a e s, (act a).ChainsFrom (rel (origin s a)) none e s) {e : E} {r : Req}
    (hissues : Issues (O := O) act x.world ev e r) : x.Links origin rel ev e r := by
  cases hissues with
  | action hfl => exact .action ((hact _ _ _).exec _ hfl).1
  | @callback i e s r p fl hget hfl =>
    obtain ⟨hi, -⟩ := List.getElem?_eq_some_iff.mp hget
    rw [← List.Forall₂.length_eq h] at hi
    have hlabel := List.getElem?_eq_getElem hi
    have hchains : (Flight.served r p).Chains (rel x.labels[i]) := h.get hlabel hget
    exact .callback hlabel hget ((hchains e _).exec _ hfl).1

/-- A step keeps what is in flight chained. -/
theorem Labelled.Flights.chains (h : x.Flights fun l y => y.2.Chains (rel l))
    (hact : ∀ a e s, (act a).ChainsFrom (rel (origin s a)) none e s)
    (hstep : Labelled.step api act origin x ev = some x') :
    x'.Flights fun l y => y.2.Chains (rel l) := by
  refine h.step hstep ?_ ?_ ?_
  · exact fun s a e _ fl hfl => ((hact a e _).exec fl hfl).2
  · exact fun l s r k o b y hl _ e client => hl y e client
  · exact fun i e l s r p _ _ _ hl fl hfl => ((hl e _).exec fl hfl).2

/-- **What is in flight has been sent in the run**, in a world where it was good to send it, if
that follows from what it goes back to. -/
theorem Machine.Run.sent {ok : Labelled Req Resp E σ S B L → Event S A E O → Prop}
    {Good : World Req Resp E σ S B → E → Req → Prop} (hrest : w₀.Quiescent)
    (hact : ∀ a e s, (act a).ChainsFrom (rel (origin s a)) none e s)
    (hgood : ∀ x ev e r, ok x ev → Labelled.Links origin rel x ev e r → Good x.world e r)
    (run : ((labelled api act origin w₀).under ok).Run es x) :
    ∀ y ∈ x.world.pool, ∃ w e, SentAlong api act w₀ es w e y.2.req ∧ Good w e y.2.req := by
  suffices h : x.Flights (fun l y => y.2.Chains (rel l)) ∧
      ∀ y ∈ x.world.pool, ∃ w e, SentAlong api act w₀ es w e y.2.req ∧ Good w e y.2.req from h.2
  induction run with
  | nil hstart =>
    rw [show _ = _ from hstart]
    have hnil : w₀.pool = [] := hrest
    refine ⟨?_, fun y hy => ?_⟩
    · show List.Forall₂ _ [] w₀.pool
      rw [hnil]
      exact .nil
    · have hy' : y ∈ w₀.pool := hy
      rw [hnil] at hy'
      exact absurd hy' List.not_mem_nil
  | @snoc es x x' ev run hallowed hstep ih =>
    obtain ⟨hflights, hsent⟩ := ih
    refine ⟨hflights.chains hact hstep, fun y hy => ?_⟩
    obtain ⟨w, hw, rfl⟩ := Option.map_eq_some_iff.mp hstep
    rcases (stepped_of_step hw).issues y hy with ⟨y', hy', hreq⟩ | ⟨e, hissues⟩
    · obtain ⟨w₁, e, hsent, hgood⟩ := hsent y' hy'
      rw [← hreq]
      exact ⟨w₁, e, hsent.append [ev], hgood⟩
    · refine ⟨x.world, e, ⟨es, ev, [], rfl, run_of_labelled run.of_under, hissues⟩, ?_⟩
      exact hgood x ev e _ hallowed.2 (hflights.links hact hissues)

end Worlds

end Async
