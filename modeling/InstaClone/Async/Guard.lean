import InstaClone.Async.Frame
import InstaClone.Async.World

/-!
# Guards: contracts that look at the callback

A contract relies on the same `env` in every turn. A `Guard` relies on more: what the
device answers when the callback of `r` runs is as `env r` says. So it can state what
holds as long as nothing changes between a request and its callback, and only for the
requests that care.

`Guard.Holds` is the invariant of a world: `state` for every session, and what is in
flight is `Guarded`. A step keeps it if the turn it runs does (`Guard.Holds.step`); what
a run may have stored is what `req` says of the requests issued along it.
-/

namespace Async

variable {Req : Type} {Resp : Req → Type} {E σ S B O A α : Type}

/-- What a session's code relies on and guarantees, callback by callback. -/
structure Guard (Req : Type) (Resp : Req → Type) (E σ : Type) where
  state : σ → Prop
  req : E → Req → Prop
  resp : (r : Req) → Resp r → Prop
  env : Req → E → Prop

/-- Run in the turn `e`, the program keeps the guard; the callback of `r` keeps it in every
turn with `env r`. -/
def Prog.GuardedIn (G : Guard Req Resp E σ) : Prog Req Resp E σ → E → Prop
  | done, _ => True
  | call r k rest, e =>
    G.req e r ∧ (∀ y, G.resp r y → ∀ e', G.env r e' → (k y).GuardedIn G e') ∧ rest.GuardedIn G e
  | modify f rest, e => (∀ s, G.state s → G.state (f s)) ∧ rest.GuardedIn G e
  | read k, e => ∀ s, G.state s → (k s).GuardedIn G e
  | ask k, e => (k e).GuardedIn G e

/-- So does what is left of a flight. -/
def Flight.Guarded (G : Guard Req Resp E σ) : Flight Req Resp E σ → Prop
  | issued r k => (∃ e, G.req e r) ∧ ∀ y, G.resp r y → ∀ e, G.env r e → (k y).GuardedIn G e
  | served r p => ∀ e, G.env r e → p.GuardedIn G e

section Rules

variable {G : Guard Req Resp E σ} {e : E}

@[simp] theorem Prog.guardedIn_done : (Prog.done : Prog Req Resp E σ).GuardedIn G e := trivial

@[simp] theorem Prog.guardedIn_call {r : Req} {k : Resp r → Prog Req Resp E σ}
    {rest : Prog Req Resp E σ} :
    (Prog.call r k rest).GuardedIn G e
      ↔ G.req e r ∧ (∀ y, G.resp r y → ∀ e', G.env r e' → (k y).GuardedIn G e')
        ∧ rest.GuardedIn G e := Iff.rfl

@[simp] theorem Prog.guardedIn_modify {f : σ → σ} {rest : Prog Req Resp E σ} :
    (Prog.modify f rest).GuardedIn G e
      ↔ (∀ s, G.state s → G.state (f s)) ∧ rest.GuardedIn G e := Iff.rfl

@[simp] theorem Prog.guardedIn_ask {k : E → Prog Req Resp E σ} :
    (Prog.ask k).GuardedIn G e ↔ (k e).GuardedIn G e := Iff.rfl

theorem Prog.GuardedIn.andThen {p q : Prog Req Resp E σ} (hp : p.GuardedIn G e)
    (hq : q.GuardedIn G e) : (p.andThen q).GuardedIn G e := by
  induction p with
  | done => exact hq
  | call r k rest _ ih => exact ⟨hp.1, hp.2.1, ih hp.2.2⟩
  | modify f rest ih => exact ⟨hp.1, ih hp.2⟩
  | read k ih => exact fun s hs => ih s (hp s hs)
  | ask k ih => exact ih e hp

/-- A program that never changes what the guard's states are about, and issues only
requests that are always allowed, keeps the guard. -/
theorem Prog.Spares.guardedIn {ok : Req → Prop} {obs : σ → α} (hreq : ∀ e r, ok r → G.req e r)
    (hstate : ∀ s s', obs s' = obs s → G.state s → G.state s') {p : Prog Req Resp E σ}
    (h : p.Spares ok obs) (e : E) : p.GuardedIn G e := by
  induction p generalizing e with
  | done => trivial
  | call r k rest ihk ih =>
    exact ⟨hreq e r h.1, fun y _ e' _ => ihk y (h.2.1 y) e', ih h.2.2 e⟩
  | modify f rest ih => exact ⟨fun s hs => hstate s (f s) (h.1 s) hs, ih h.2 e⟩
  | read k ih => exact fun s _ => ih s (h s) e
  | ask k ih => exact ih e (h e) e

/-- One turn of a program that keeps the guard. -/
theorem Prog.GuardedIn.exec {p : Prog Req Resp E σ} {s : σ} (hp : p.GuardedIn G e)
    (hs : G.state s) :
    G.state (p.exec e s).1
      ∧ ∀ fl ∈ (p.exec e s).2, fl.Guarded G ∧ G.req e fl.req ∧ fl.waits = true := by
  induction p generalizing s with
  | done => exact ⟨hs, fun fl hfl => absurd hfl (by simp)⟩
  | call r k rest _ ih =>
    obtain ⟨hreq, hk, hrest⟩ := hp
    obtain ⟨hs', hissues⟩ := ih hrest hs
    refine ⟨hs', fun fl hfl => ?_⟩
    rcases List.mem_cons.mp hfl with rfl | hfl
    · exact ⟨⟨⟨e, hreq⟩, hk⟩, hreq, rfl⟩
    · exact hissues fl hfl
  | modify f rest ih => exact ih hp.2 (hp.1 s hs)
  | read k ih => exact ih s (hp s hs) hs
  | ask k ih => exact ih e hp hs

end Rules

/-! ## Worlds -/

/-- Good client states, and only what keeps the guard in flight. -/
structure Guard.Holds (G : Guard Req Resp E σ) (w : World Req Resp E σ S B) : Prop where
  client : ∀ s, G.state (w.client s)
  pool : ∀ x ∈ w.pool, x.2.Guarded G

section Worlds

variable [DecidableEq S] {G : Guard Req Resp E σ} {w w' : World Req Resp E σ S B}

/-- One turn: the world it leaves, and what it has issued. -/
theorem Guard.Holds.turn (h : G.Holds w) {s : S} {p : Prog Req Resp E σ} {e : E}
    {pool : List (S × Flight Req Resp E σ)} (hpool : ∀ x ∈ pool, x ∈ w.pool)
    (hp : G.state (p.exec e (w.client s)).1
      ∧ ∀ fl ∈ (p.exec e (w.client s)).2, fl.Guarded G ∧ G.req e fl.req ∧ fl.waits = true) :
    G.Holds (w.turn s p e pool)
      ∧ ∀ x ∈ (w.turn s p e pool).pool, x ∈ w.pool ∨ G.req e x.2.req := by
  obtain ⟨hstate, hissues⟩ := hp
  refine ⟨⟨fun t => ?_, fun x hx => ?_⟩, fun x hx => ?_⟩
  · rw [World.turn_client]
    by_cases ht : t = s
    · rw [if_pos ht]
      exact hstate
    · rw [if_neg ht]
      exact h.client t
  · rcases List.mem_append.mp hx with hx | hx
    · exact h.pool x (hpool x hx)
    · obtain ⟨fl, hfl, rfl⟩ := List.mem_map.mp hx
      exact (hissues fl hfl).1
  · rcases List.mem_append.mp hx with hx | hx
    · exact Or.inl (hpool x hx)
    · obtain ⟨fl, hfl, rfl⟩ := List.mem_map.mp hx
      exact Or.inr (hissues fl hfl).2.1

/-- What a step has to meet: the action keeps the guard where it starts, the reply is one
the guard relies on, and the callback runs in a turn it relies on. -/
def Guard.Admits (G : Guard Req Resp E σ) (api : Api Req Resp B O) (act : A → Prog Req Resp E σ)
    (w : World Req Resp E σ S B) : Event S A E O → Prop
  | .invoke s a e =>
    G.state ((act a).exec e (w.client s)).1
      ∧ ∀ fl ∈ ((act a).exec e (w.client s)).2, fl.Guarded G ∧ G.req e fl.req ∧ fl.waits = true
  | .serve i o => ∀ s r k, w.pool[i]? = some (s, .issued r k) →
    ∀ b y, api.serve w.backend r o = some (b, y) → G.resp r y
  | .deliver i e => ∀ s r p, w.pool[i]? = some (s, .served r p) → G.env r e
  | .drop _ => True

/-- The turn of an event, if it has one. -/
def Event.turn : Event S A E O → Option E
  | .invoke _ _ e => some e
  | .deliver _ e => some e
  | _ => none

/-- **The rule of a guard, one step.** What is in flight after the step was in flight
before, as the same request, or has been issued in its turn. -/
theorem Guard.Holds.step {api : Api Req Resp B O} {act : A → Prog Req Resp E σ}
    {ev : Event S A E O} (h : G.Holds w) (hok : G.Admits api act w ev)
    (hstep : Stepped api act w ev w') :
    G.Holds w' ∧ ∀ x ∈ w'.pool, (∃ x' ∈ w.pool, x'.2.req = x.2.req)
      ∨ ∃ e ∈ ev.turn, G.req e x.2.req := by
  cases hstep with
  | invoke s a e =>
    obtain ⟨hholds, hissued⟩ := h.turn (fun x hx => hx) hok
    refine ⟨hholds, fun x hx => ?_⟩
    rcases hissued x hx with hx | hreq
    · exact Or.inl ⟨x, hx, rfl⟩
    · exact Or.inr ⟨e, rfl, hreq⟩
  | serve hpool hfifo hserve =>
    rename_i pre post s r k o b y
    have hy := hok s r k (getElem?_split hpool) b y hserve
    have hfl := h.pool (s, .issued r k) (mem_split hpool)
    have hold : ∀ x ∈ pre ++ (s, Flight.served r (k y)) :: post,
        x = (s, .served r (k y)) ∨ x ∈ w.pool := by
      intro x hx
      simp only [List.mem_append, List.mem_cons] at hx
      rcases hx with hx | rfl | hx
      · exact Or.inr (mem_split_left hpool hx)
      · exact Or.inl rfl
      · exact Or.inr (mem_split_right hpool hx)
    refine ⟨⟨h.client, fun x hx => ?_⟩, fun x hx => Or.inl ?_⟩
    · rcases hold x hx with rfl | hx
      · exact hfl.2 y hy
      · exact h.pool x hx
    · rcases hold x hx with rfl | hx
      · exact ⟨(s, .issued r k), mem_split hpool, rfl⟩
      · exact ⟨x, hx, rfl⟩
  | deliver hpool hfifo =>
    rename_i pre post s r p e
    have hfl := h.pool (s, .served r p) (mem_split hpool)
    have he := hok s r p (getElem?_split hpool)
    have hold : ∀ x ∈ pre ++ post, x ∈ w.pool := fun _ => mem_split_rest hpool
    obtain ⟨hholds, hissued⟩ := h.turn hold (Prog.GuardedIn.exec (hfl e he) (h.client s))
    refine ⟨hholds, fun x hx => ?_⟩
    rcases hissued x hx with hx | hreq
    · exact Or.inl ⟨x, hx, rfl⟩
    · exact Or.inr ⟨e, rfl, hreq⟩
  | drop hpool =>
    rename_i pre post s r p
    have hold : ∀ x ∈ pre ++ post, x ∈ w.pool := fun _ => mem_split_rest hpool
    exact ⟨⟨h.client, fun x hx => h.pool x (hold x hx)⟩, fun x hx => Or.inl ⟨x, hold x hx, rfl⟩⟩

end Worlds

end Async
