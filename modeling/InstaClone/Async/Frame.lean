import InstaClone.Async.Program

/-!
# What a callback program leaves alone

`Prog.Spares ok obs` is the frame condition of a program and all its callbacks: whatever
is answered and whatever else happens in between, it issues only requests with `ok` and
never changes what `obs` reads off the client state. Unlike a contract it relies on
nothing, so it says what two states have in common and not only what each of them keeps.

`Prog.Calls ok` looks at the calls instead: each request that is issued, together with the
callback that waits for its reply, has `ok`. What is in flight of such a program is such
a call, or what is left of one.
-/

namespace Async

variable {Req : Type} {Resp : Req → Type} {E σ α : Type}

/-- The program issues only requests with `ok` and never changes `obs`. -/
def Prog.Spares (ok : Req → Prop) (obs : σ → α) : Prog Req Resp E σ → Prop
  | done => True
  | call r k rest => ok r ∧ (∀ y, (k y).Spares ok obs) ∧ rest.Spares ok obs
  | modify f rest => (∀ s, obs (f s) = obs s) ∧ rest.Spares ok obs
  | read k => ∀ s, (k s).Spares ok obs
  | ask k => ∀ e, (k e).Spares ok obs

/-- So does what is left of a flight, and its request has `ok`. -/
def Flight.Spares (ok : Req → Prop) (obs : σ → α) : Flight Req Resp E σ → Prop
  | issued r k => ok r ∧ ∀ y, (k y).Spares ok obs
  | served r p => ok r ∧ p.Spares ok obs

section Rules

variable {ok : Req → Prop} {obs : σ → α}

@[simp] theorem Prog.spares_done : (Prog.done : Prog Req Resp E σ).Spares ok obs := trivial

@[simp] theorem Prog.spares_call {r : Req} {k : Resp r → Prog Req Resp E σ}
    {rest : Prog Req Resp E σ} :
    (Prog.call r k rest).Spares ok obs
      ↔ ok r ∧ (∀ y, (k y).Spares ok obs) ∧ rest.Spares ok obs := Iff.rfl

@[simp] theorem Prog.spares_modify {f : σ → σ} {rest : Prog Req Resp E σ} :
    (Prog.modify f rest).Spares ok obs ↔ (∀ s, obs (f s) = obs s) ∧ rest.Spares ok obs := Iff.rfl

@[simp] theorem Prog.spares_read {k : σ → Prog Req Resp E σ} :
    (Prog.read k).Spares ok obs ↔ ∀ s, (k s).Spares ok obs := Iff.rfl

@[simp] theorem Prog.spares_ask {k : E → Prog Req Resp E σ} :
    (Prog.ask k).Spares ok obs ↔ ∀ e, (k e).Spares ok obs := Iff.rfl

/-- The request of a flight has `ok`, served or not. -/
theorem Flight.Spares.req {fl : Flight Req Resp E σ} (h : fl.Spares ok obs) : ok fl.req := by
  cases fl with
  | issued r k => exact h.1
  | served r p => exact h.1

/-- More requests may be allowed. -/
theorem Prog.Spares.mono {ok' : Req → Prop} (hok : ∀ r, ok r → ok' r) {p : Prog Req Resp E σ}
    (h : p.Spares ok obs) : p.Spares ok' obs := by
  induction p with
  | done => trivial
  | call r k rest ihk ih => exact ⟨hok r h.1, fun y => ihk y (h.2.1 y), ih h.2.2⟩
  | modify f rest ih => exact ⟨h.1, ih h.2⟩
  | read k ih => exact fun s => ih s (h s)
  | ask k ih => exact fun e => ih e (h e)

theorem Flight.Spares.mono {ok' : Req → Prop} (hok : ∀ r, ok r → ok' r) {fl : Flight Req Resp E σ}
    (h : fl.Spares ok obs) : fl.Spares ok' obs := by
  cases fl with
  | issued r k => exact ⟨hok r h.1, fun y => (h.2 y).mono hok⟩
  | served r p => exact ⟨hok r h.1, h.2.mono hok⟩

/-- Sequences and loops spare what their parts spare. -/
theorem Prog.Spares.andThen {p q : Prog Req Resp E σ} (hp : p.Spares ok obs)
    (hq : q.Spares ok obs) : (p.andThen q).Spares ok obs := by
  induction p with
  | done => exact hq
  | call r k rest _ ih => exact ⟨hp.1, hp.2.1, ih hp.2.2⟩
  | modify f rest ih => exact ⟨hp.1, ih hp.2⟩
  | read k ih => exact fun s => ih s (hp s)
  | ask k ih => exact fun e => ih e (hp e)

theorem Prog.Spares.forEach {β : Type} {l : List β} {f : β → Prog Req Resp E σ}
    (h : ∀ a, (f a).Spares ok obs) : (Prog.forEach l f).Spares ok obs := by
  induction l with
  | nil => trivial
  | cons a l ih => exact (h a).andThen ih

/-- **The frame rule.** One turn leaves the observation as it was, and what it issues
spares it too. -/
theorem Prog.Spares.exec {p : Prog Req Resp E σ} (h : p.Spares ok obs) (e : E) (s : σ) :
    obs (p.exec e s).1 = obs s ∧ ∀ fl ∈ (p.exec e s).2, fl.Spares ok obs := by
  induction p generalizing s with
  | done => exact ⟨rfl, fun fl hfl => absurd hfl (by simp)⟩
  | call r k rest _ ih =>
    obtain ⟨hr, hk, hrest⟩ := h
    obtain ⟨hobs, hissues⟩ := ih hrest s
    refine ⟨hobs, fun fl hfl => ?_⟩
    rcases List.mem_cons.mp hfl with rfl | hfl
    · exact ⟨hr, hk⟩
    · exact hissues fl hfl
  | modify f rest ih =>
    obtain ⟨hobs, hissues⟩ := ih h.2 (f s)
    exact ⟨hobs.trans (h.1 s), hissues⟩
  | read k ih => exact ih s (h s) s
  | ask k ih => exact ih e (h e) s

end Rules

/-! ## The calls of a program -/

/-- Every call of the program, and of its callbacks, has `ok`. -/
def Prog.Calls (ok : (r : Req) → (Resp r → Prog Req Resp E σ) → Prop) :
    Prog Req Resp E σ → Prop
  | done => True
  | call r k rest => ok r k ∧ (∀ y, (k y).Calls ok) ∧ rest.Calls ok
  | modify _ rest => rest.Calls ok
  | read k => ∀ s, (k s).Calls ok
  | ask k => ∀ e, (k e).Calls ok

/-- So does what is left of a flight. -/
def Flight.Calls (ok : (r : Req) → (Resp r → Prog Req Resp E σ) → Prop) :
    Flight Req Resp E σ → Prop
  | issued r k => ok r k ∧ ∀ y, (k y).Calls ok
  | served _ p => p.Calls ok

section Calls

variable {ok : (r : Req) → (Resp r → Prog Req Resp E σ) → Prop}

/-- A program whose requests are fine whatever waits for them. -/
theorem Prog.Spares.calls {fine : Req → Prop} {obs : σ → α} {p : Prog Req Resp E σ}
    (h : p.Spares fine obs) (hok : ∀ r, fine r → ∀ k, ok r k) : p.Calls ok := by
  induction p with
  | done => trivial
  | call r k rest ihk ih => exact ⟨hok r h.1 k, fun y => ihk y (h.2.1 y), ih h.2.2⟩
  | modify f rest ih => exact ih h.2
  | read k ih => exact fun s => ih s (h s)
  | ask k ih => exact fun e => ih e (h e)

/-- Sequences and loops call what their parts call. -/
theorem Prog.Calls.andThen {p q : Prog Req Resp E σ} (hp : p.Calls ok) (hq : q.Calls ok) :
    (p.andThen q).Calls ok := by
  induction p with
  | done => exact hq
  | call r k rest _ ih => exact ⟨hp.1, hp.2.1, ih hp.2.2⟩
  | modify f rest ih => exact ih hp
  | read k ih => exact fun s => ih s (hp s)
  | ask k ih => exact fun e => ih e (hp e)

theorem Prog.Calls.forEach {β : Type} {l : List β} {f : β → Prog Req Resp E σ}
    (h : ∀ a, (f a).Calls ok) : (Prog.forEach l f).Calls ok := by
  induction l with
  | nil => trivial
  | cons a l ih => exact (h a).andThen ih

/-- What one turn has in flight are such calls. -/
theorem Prog.Calls.exec {p : Prog Req Resp E σ} (h : p.Calls ok) (e : E) (s : σ) :
    ∀ fl ∈ (p.exec e s).2, fl.Calls ok := by
  induction p generalizing s with
  | done => exact fun fl hfl => absurd hfl (by simp)
  | call r k rest _ ih =>
    intro fl hfl
    rcases List.mem_cons.mp hfl with rfl | hfl
    · exact ⟨h.1, h.2.1⟩
    · exact ih h.2.2 s fl hfl
  | modify f rest ih => exact ih h (f s)
  | read k ih => exact ih s (h s) s
  | ask k ih => exact ih e (h e) s

end Calls

end Async
