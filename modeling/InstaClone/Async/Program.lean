import Mathlib.Data.List.Basic

/-!
# Callback programs

A client of a remote service issues a request together with a callback and goes
on at once with the next statement; the callback runs in some later turn of the
client's run loop, when the reply has arrived. `Prog` is that shape of code as a
tree: `call r k rest` issues `r`, registers `k` and continues with `rest`.
Nothing waits, so a program is a finite spine of statements whose callbacks are
programs again.

`exec` runs one turn: the spine from the first statement to the last. It leaves
the client state and the list of requests the turn has issued, each with its
callback, in issue order. What happens to those requests is the subject of
`Async.World`.

Everything is over an arbitrary request type `Req` with reply types `Resp r`, an
arbitrary client state `σ` and an arbitrary environment `E` (what the device
answers within one turn: a clock, a fresh identifier, the signed-in account).
-/

namespace Async

/-- A callback program over requests `Req`, replies `Resp`, environment `E` and
client state `σ`. -/
inductive Prog (Req : Type) (Resp : Req → Type) (E σ : Type) : Type
  /-- The end of the statement list. -/
  | done
  /-- Issue `r` with the callback `k`, and go on with `rest` without waiting. -/
  | call (r : Req) (k : Resp r → Prog Req Resp E σ) (rest : Prog Req Resp E σ)
  /-- Assign to the client state. -/
  | modify (f : σ → σ) (rest : Prog Req Resp E σ)
  /-- Read the client state as it is when this statement runs. -/
  | read (k : σ → Prog Req Resp E σ)
  /-- Ask the device about the current turn. -/
  | ask (k : E → Prog Req Resp E σ)

/-- A request in flight: issued and not yet served, or served with its callback
(already applied to the reply) not yet run. -/
inductive Flight (Req : Type) (Resp : Req → Type) (E σ : Type) : Type
  | issued (r : Req) (k : Resp r → Prog Req Resp E σ)
  | served (r : Req) (p : Prog Req Resp E σ)

variable {Req : Type} {Resp : Req → Type} {E σ : Type}

/-- The request a flight belongs to. -/
def Flight.req : Flight Req Resp E σ → Req
  | .issued r _ => r
  | .served r _ => r

@[simp] theorem Flight.req_issued (r : Req) (k : Resp r → Prog Req Resp E σ) :
    (Flight.issued r k).req = r := rfl

@[simp] theorem Flight.req_served (r : Req) (p : Prog Req Resp E σ) :
    (Flight.served r p).req = r := rfl

/-- Has the request been issued and not yet served? -/
def Flight.waits : Flight Req Resp E σ → Bool
  | .issued _ _ => true
  | .served _ _ => false

@[simp] theorem Flight.waits_issued (r : Req) (k : Resp r → Prog Req Resp E σ) :
    (Flight.issued r k).waits = true := rfl

@[simp] theorem Flight.waits_served (r : Req) (p : Prog Req Resp E σ) :
    (Flight.served r p).waits = false := rfl

namespace Prog

/-- Statement sequencing: all of `p`'s statements, then all of `q`'s. The
callbacks of `p` are left alone, they run in turns of their own. -/
def andThen : Prog Req Resp E σ → Prog Req Resp E σ → Prog Req Resp E σ
  | done, q => q
  | call r k rest, q => call r k (rest.andThen q)
  | modify f rest, q => modify f (rest.andThen q)
  | read k, q => read fun s => (k s).andThen q
  | ask k, q => ask fun e => (k e).andThen q

@[simp] theorem done_andThen (q : Prog Req Resp E σ) : done.andThen q = q := rfl

@[simp] theorem call_andThen (r : Req) (k : Resp r → Prog Req Resp E σ)
    (rest q : Prog Req Resp E σ) :
    (call r k rest).andThen q = call r k (rest.andThen q) := rfl

/-- A `for` loop over a list. -/
def forEach {α : Type} (l : List α) (f : α → Prog Req Resp E σ) : Prog Req Resp E σ :=
  l.foldr (fun a q => (f a).andThen q) done

@[simp] theorem forEach_nil {α : Type} (f : α → Prog Req Resp E σ) :
    forEach [] f = done := rfl

@[simp] theorem forEach_cons {α : Type} (a : α) (l : List α) (f : α → Prog Req Resp E σ) :
    forEach (a :: l) f = (f a).andThen (forEach l f) := rfl

/-- Run one turn: the client state it leaves and the requests it issues. -/
def exec : Prog Req Resp E σ → E → σ → σ × List (Flight Req Resp E σ)
  | done, _, s => (s, [])
  | call r k rest, e, s => ((rest.exec e s).1, .issued r k :: (rest.exec e s).2)
  | modify f rest, e, s => rest.exec e (f s)
  | read k, e, s => (k s).exec e s
  | ask k, e, s => (k e).exec e s

@[simp] theorem exec_done (e : E) (s : σ) :
    (done : Prog Req Resp E σ).exec e s = (s, []) := rfl

@[simp] theorem exec_call (r : Req) (k : Resp r → Prog Req Resp E σ)
    (rest : Prog Req Resp E σ) (e : E) (s : σ) :
    (call r k rest).exec e s = ((rest.exec e s).1, .issued r k :: (rest.exec e s).2) := rfl

@[simp] theorem exec_modify (f : σ → σ) (rest : Prog Req Resp E σ) (e : E) (s : σ) :
    (modify f rest).exec e s = rest.exec e (f s) := rfl

@[simp] theorem exec_read (k : σ → Prog Req Resp E σ) (e : E) (s : σ) :
    (read k).exec e s = (k s).exec e s := rfl

@[simp] theorem exec_ask (k : E → Prog Req Resp E σ) (e : E) (s : σ) :
    (ask k).exec e s = (k e).exec e s := rfl

/-- A sequence runs its second part in the state the first part leaves, and
issues the requests of both in order. -/
theorem exec_andThen (p q : Prog Req Resp E σ) (e : E) (s : σ) :
    (p.andThen q).exec e s
      = ((q.exec e (p.exec e s).1).1, (p.exec e s).2 ++ (q.exec e (p.exec e s).1).2) := by
  induction p generalizing s with
  | done => rfl
  | call r k rest _ ih =>
    simp only [andThen, exec_call, ih, List.cons_append]
  | modify f rest ih =>
    simp only [andThen, exec_modify, ih]
  | read k ih =>
    simp only [andThen, exec_read, ih]
  | ask k ih =>
    simp only [andThen, exec_ask, ih]

/-- A loop whose rounds leave the client state alone. -/
theorem exec_forEach {α : Type} {f : α → Prog Req Resp E σ} {g : α → List (Flight Req Resp E σ)}
    {e : E} {s : σ} (h : ∀ a, (f a).exec e s = (s, g a)) (l : List α) :
    (forEach l f).exec e s = (s, l.flatMap g) := by
  induction l with
  | nil => rfl
  | cons a l ih =>
    rw [forEach_cons, exec_andThen, h, ih]
    rfl

/-- A loop whose rounds issue one request each. -/
theorem exec_forEach_issue {α : Type} {f : α → Prog Req Resp E σ} {g : α → Flight Req Resp E σ}
    {e : E} {s : σ} (h : ∀ a, (f a).exec e s = (s, [g a])) (l : List α) :
    (forEach l f).exec e s = (s, l.map g) := by
  rw [exec_forEach h, List.map_eq_flatMap]

/-- Run in a turn with environment `e`, the program issues `r` in that turn or, whatever is
answered, in a later one; the turn has environment `e'`. -/
def Issues : Prog Req Resp E σ → E → E → Req → Prop
  | done, _, _, _ => False
  | call r' k rest, e, e', r =>
    r' = r ∧ e = e' ∨ (∃ y f, (k y).Issues f e' r) ∨ rest.Issues e e' r
  | modify _ rest, e, e', r => rest.Issues e e' r
  | read k, e, e', r => ∃ s, (k s).Issues e e' r
  | ask k, e, e', r => (k e).Issues e e' r

@[simp] theorem issues_done {e e' : E} {r : Req} :
    (done : Prog Req Resp E σ).Issues e e' r ↔ False := Iff.rfl

@[simp] theorem issues_call {r' r : Req} {k : Resp r' → Prog Req Resp E σ}
    {rest : Prog Req Resp E σ} {e e' : E} :
    (call r' k rest).Issues e e' r
      ↔ r' = r ∧ e = e' ∨ (∃ y f, (k y).Issues f e' r) ∨ rest.Issues e e' r := Iff.rfl

@[simp] theorem issues_modify {f : σ → σ} {rest : Prog Req Resp E σ} {e e' : E} {r : Req} :
    (modify f rest).Issues e e' r ↔ rest.Issues e e' r := Iff.rfl

@[simp] theorem issues_read {k : σ → Prog Req Resp E σ} {e e' : E} {r : Req} :
    (read k).Issues e e' r ↔ ∃ s, (k s).Issues e e' r := Iff.rfl

@[simp] theorem issues_ask {k : E → Prog Req Resp E σ} {e e' : E} {r : Req} :
    (ask k).Issues e e' r ↔ (k e).Issues e e' r := Iff.rfl

end Prog

end Async
