import InstaClone.Async.Contract

/-!
# What a place of the backend will hold once the pending writes are committed

A `Register` is a place of the backend and what each request does to it. Its `settled`
value is the stored one with the waiting writes of the pool applied in issue order. A
turn applies the writes it issues to it, and nothing else does: as long as the waiting
writes of the register all belong to one session, its FIFO channel commits them in issue
order, so serving one moves it from the pool to the store and leaves the settled value as
it was (`settled_serve`). With nothing in flight the settled value is the stored one.

An invariant about settled values therefore says what a run comes to, and is proved by
looking at what the turns issue.

`World.only` keeps the flights of one session. When nobody else writes a register, that
session's pending writes alone settle it.
-/

namespace Async

variable {Req : Type} {Resp : Req → Type} {E σ S B V O A : Type}

/-- A place of the backend: its value, what a request makes of it, and which requests
touch it at all. -/
structure Register (Req B V : Type) where
  val : B → V
  effect : Req → V → V
  touches : Req → Prop

namespace Register

/-- Touching requests go through the FIFO channel and, when `good`, have their effect. -/
structure Lawful (R : Register Req B V) (api : Api Req Resp B O) (good : O → Prop) : Prop where
  ordered : ∀ r, R.touches r → api.ordered r = true
  quiet : ∀ r v, ¬ R.touches r → R.effect r v = v
  serve : ∀ b r o b' y, (R.touches r → good o) → api.serve b r o = some (b', y) →
    R.val b' = R.effect r (R.val b)

/-- The value after the waiting writes of a pool. -/
def after (R : Register Req B V) (pool : List (S × Flight Req Resp E σ)) (v : V) : V :=
  pool.foldl (fun v x => if x.2.waits then R.effect x.2.req v else v) v

/-- The value once everything pending is committed. -/
def settled (R : Register Req B V) (w : World Req Resp E σ S B) : V :=
  R.after w.pool (R.val w.backend)

/-- The waiting writes of the register all belong to one session. -/
def Solo (R : Register Req B V) (pool : List (S × Flight Req Resp E σ)) : Prop :=
  ∀ x ∈ pool, ∀ y ∈ pool, x.2.waits = true → R.touches x.2.req → y.2.waits = true →
    R.touches y.2.req → x.1 = y.1

section Rules

variable {R : Register Req B V} {api : Api Req Resp B O} {good : O → Prop}

@[simp] theorem after_nil (v : V) :
    R.after ([] : List (S × Flight Req Resp E σ)) v = v := rfl

@[simp] theorem after_append (pool pool' : List (S × Flight Req Resp E σ)) (v : V) :
    R.after (pool ++ pool') v = R.after pool' (R.after pool v) := List.foldl_append

@[simp] theorem after_issued (s : S) (r : Req) (k : Resp r → Prog Req Resp E σ)
    (pool : List (S × Flight Req Resp E σ)) (v : V) :
    R.after ((s, .issued r k) :: pool) v = R.after pool (R.effect r v) := rfl

@[simp] theorem after_served (s : S) (r : Req) (p : Prog Req Resp E σ)
    (pool : List (S × Flight Req Resp E σ)) (v : V) :
    R.after ((s, .served r p) :: pool) v = R.after pool v := rfl

/-- Writes of other places leave the register alone. -/
theorem after_quiet (hR : R.Lawful api good) {pool : List (S × Flight Req Resp E σ)} {v : V}
    (h : ∀ x ∈ pool, x.2.waits = true → ¬ R.touches x.2.req) : R.after pool v = v := by
  induction pool generalizing v with
  | nil => rfl
  | cons x pool ih =>
    have hrest := ih (v := v) fun y hy => h y (List.mem_cons_of_mem _ hy)
    have hx := h x (List.mem_cons_self ..)
    obtain ⟨s, fl⟩ := x
    cases fl with
    | issued r k => rw [after_issued, hR.quiet r v (hx rfl), hrest]
    | served r p => rw [after_served, hrest]

/-- With nothing in flight the settled value is the stored one. -/
theorem settled_rest {w : World Req Resp E σ S B} (h : w.Quiescent) :
    R.settled w = R.val w.backend := by
  rw [settled, h, after_nil]

theorem Solo.nil : R.Solo ([] : List (S × Flight Req Resp E σ)) :=
  fun x hx => absurd hx (by simp)

/-- Fewer flights, or the same ones served. -/
theorem Solo.of_waiting {pool pool' : List (S × Flight Req Resp E σ)} (h : R.Solo pool)
    (hsub : ∀ x ∈ pool', x.2.waits = true → x ∈ pool) : R.Solo pool' :=
  fun x hx y hy hxw hxt hyw hyt => h x (hsub x hx hxw) y (hsub y hy hyw) hxw hxt hyw hyt

/-- A session whose turn writes the register while no other session has a write of it
pending, or whose turn does not write it. -/
theorem Solo.issue {pool : List (S × Flight Req Resp E σ)} {s : S}
    {issues : List (Flight Req Resp E σ)} (h : R.Solo pool)
    (hissue : (∀ fl ∈ issues, ¬ R.touches fl.req)
      ∨ ∀ x ∈ pool, x.2.waits = true → R.touches x.2.req → x.1 = s) :
    R.Solo (pool ++ issues.map fun fl => (s, fl)) := by
  have hnew : ∀ x ∈ issues.map (fun fl => (s, fl)), x.1 = s ∧ x.2 ∈ issues := by
    intro x hx
    obtain ⟨fl, hfl, rfl⟩ := List.mem_map.mp hx
    exact ⟨rfl, hfl⟩
  intro x hx y hy hxw hxt hyw hyt
  rcases List.mem_append.mp hx with hx | hx <;> rcases List.mem_append.mp hy with hy | hy
  · exact h x hx y hy hxw hxt hyw hyt
  · obtain ⟨hys, hy⟩ := hnew y hy
    rcases hissue with hissue | hissue
    · exact absurd hyt (hissue _ hy)
    · rw [hys, hissue x hx hxw hxt]
  · obtain ⟨hxs, hx⟩ := hnew x hx
    rcases hissue with hissue | hissue
    · exact absurd hxt (hissue _ hx)
    · rw [hxs, hissue y hy hyw hyt]
  · rw [(hnew x hx).1, (hnew y hy).1]

variable [DecidableEq S]

/-- A user action applies what it issues. -/
theorem settled_invoke {w : World Req Resp E σ S B} {s : S} {p : Prog Req Resp E σ} {e : E} :
    R.settled (w.turn s p e w.pool)
      = R.after ((p.exec e (w.client s)).2.map fun fl => (s, fl)) (R.settled w) := by
  rw [settled, World.turn_pool, World.turn_backend, after_append]
  rfl

omit [DecidableEq S] in
/-- **Committing a write does not change what is settled.** -/
theorem settled_serve (hR : R.Lawful api good) {w : World Req Resp E σ S B}
    {pre post : List (S × Flight Req Resp E σ)} {s : S} {r : Req}
    {k : Resp r → Prog Req Resp E σ} {o : O} {b : B} {y : Resp r}
    (hpool : w.pool = pre ++ (s, .issued r k) :: post)
    (hfifo : api.ordered r = true → ∀ x ∈ pre, x.1 = s → x.2.waits = true →
      api.ordered x.2.req = false)
    (hserve : api.serve w.backend r o = some (b, y)) (hgood : R.touches r → good o)
    (hsolo : R.Solo w.pool) :
    R.settled ({ w with backend := b, pool := pre ++ (s, .served r (k y)) :: post } :
      World Req Resp E σ S B) = R.settled w := by
  rw [settled, settled, hpool, after_append, after_append, after_served, after_issued,
    hR.serve _ _ _ _ _ hgood hserve]
  by_cases htouch : R.touches r
  · -- the channel is FIFO and the register has one writer, so nothing of it is in front
    have hpre : ∀ x ∈ pre, x.2.waits = true → ¬ R.touches x.2.req := by
      intro x hx hxw hxt
      have hs : x.1 = s := hsolo x (mem_split_left hpool hx) (s, .issued r k)
        (mem_split hpool) hxw hxt rfl htouch
      have hfree := hfifo (hR.ordered r htouch) x hx hs hxw
      rw [hR.ordered _ hxt] at hfree
      exact absurd hfree (by simp)
    rw [after_quiet hR hpre, after_quiet hR hpre]
  · rw [hR.quiet r _ htouch, hR.quiet r _ htouch]

omit [DecidableEq S] in
/-- Serving leaves one writer. -/
theorem Solo.serve {pre post : List (S × Flight Req Resp E σ)} {s : S} {r : Req}
    {k : Resp r → Prog Req Resp E σ} {p : Prog Req Resp E σ}
    (h : R.Solo (pre ++ (s, .issued r k) :: post)) : R.Solo (pre ++ (s, .served r p) :: post) := by
  refine h.of_waiting fun x hx hwait => ?_
  simp only [List.mem_append, List.mem_cons] at hx ⊢
  rcases hx with hx | rfl | hx
  · exact Or.inl hx
  · exact absurd hwait (by simp)
  · exact Or.inr (Or.inr hx)

end Rules

end Register

/-! ## The pending writes of one session -/

section Only

variable [DecidableEq S]

/-- The flights of session `s`. -/
def ofSession (s : S) (pool : List (S × Flight Req Resp E σ)) : List (S × Flight Req Resp E σ) :=
  pool.filter fun x => x.1 = s

theorem mem_ofSession {s : S} {pool : List (S × Flight Req Resp E σ)}
    {x : S × Flight Req Resp E σ} : x ∈ ofSession s pool ↔ x ∈ pool ∧ x.1 = s := by
  simp [ofSession]

@[simp] theorem ofSession_append (s : S) (pool pool' : List (S × Flight Req Resp E σ)) :
    ofSession s (pool ++ pool') = ofSession s pool ++ ofSession s pool' := List.filter_append ..

@[simp] theorem ofSession_cons_self (s : S) (fl : Flight Req Resp E σ)
    (pool : List (S × Flight Req Resp E σ)) :
    ofSession s ((s, fl) :: pool) = (s, fl) :: ofSession s pool := by
  simp [ofSession]

theorem ofSession_cons_ne {s t : S} (hne : t ≠ s) (fl : Flight Req Resp E σ)
    (pool : List (S × Flight Req Resp E σ)) :
    ofSession s ((t, fl) :: pool) = ofSession s pool := by
  simp [ofSession, hne]

/-- Serving a request of another session changes nothing for `s`, -/
theorem ofSession_serve_ne {s t : S} (hne : t ≠ s)
    {pool pre post : List (S × Flight Req Resp E σ)} {fl : Flight Req Resp E σ}
    (hpool : pool = pre ++ (t, fl) :: post) (fl' : Flight Req Resp E σ) :
    ofSession s (pre ++ (t, fl') :: post) = ofSession s pool := by
  rw [hpool, ofSession_append, ofSession_append, ofSession_cons_ne hne, ofSession_cons_ne hne]

/-- and neither does taking it off the pool. -/
theorem ofSession_remove_ne {s t : S} (hne : t ≠ s)
    {pool pre post : List (S × Flight Req Resp E σ)} {fl : Flight Req Resp E σ}
    (hpool : pool = pre ++ (t, fl) :: post) :
    ofSession s (pre ++ post) = ofSession s pool := by
  rw [hpool, ofSession_append, ofSession_append, ofSession_cons_ne hne]

@[simp] theorem ofSession_issues_self (s : S) (issues : List (Flight Req Resp E σ)) :
    ofSession s (issues.map fun fl => (s, fl)) = issues.map fun fl => (s, fl) := by
  simp [ofSession]

theorem ofSession_issues_ne {s t : S} (hne : t ≠ s) (issues : List (Flight Req Resp E σ)) :
    ofSession s (issues.map fun fl => (t, fl)) = [] := by
  simp [ofSession, hne]

/-- Committing a write of a session does not change what its own writes settle. -/
theorem Register.only_serve {R : Register Req B V} {api : Api Req Resp B O} {good : O → Prop}
    (hR : R.Lawful api good) {w : World Req Resp E σ S B}
    {pre post : List (S × Flight Req Resp E σ)} {s : S} {r : Req}
    {k : Resp r → Prog Req Resp E σ} {o : O} {b : B} {y : Resp r}
    (hfifo : api.ordered r = true → ∀ x ∈ pre, x.1 = s → x.2.waits = true →
      api.ordered x.2.req = false)
    (hserve : api.serve w.backend r o = some (b, y)) (hgood : R.touches r → good o) :
    R.after (ofSession s (pre ++ (s, .served r (k y)) :: post)) (R.val b)
      = R.after (ofSession s (pre ++ (s, .issued r k) :: post)) (R.val w.backend) := by
  have hone : (ofSession s (pre ++ (s, Flight.issued r k) :: post))
      = ofSession s pre ++ (s, .issued r k) :: ofSession s post := by simp
  have hsolo : R.Solo (ofSession s (pre ++ (s, Flight.issued r k) :: post)) := by
    intro x hx y hy _ _ _ _
    rw [(mem_ofSession.mp hx).2, (mem_ofSession.mp hy).2]
  have hsettled := Register.settled_serve hR
    (w := { w with pool := ofSession s (pre ++ (s, Flight.issued r k) :: post) }) hone
    (fun hr x hx hs hwait => hfifo hr x (mem_ofSession.mp hx).1 hs hwait) hserve hgood hsolo
  rw [ofSession_append, ofSession_cons_self]
  exact hsettled

end Only

end Async
