import InstaClone.Async.World

/-!
# What is broken is being mended

A backend that several requests bring up to date one after the other is wrong in between.
`Mending` says that it is never wrong for good: for every key at which the backend is
`broken` there is a flight that `mends` it. With nothing in flight nothing is broken then.

A step can only go against that at the flight it is about: an action adds flights, and so
does a callback, which owes a successor to what its flight was mending (`Mending.deliver`);
a request that is served changes the backend and its own flight (`Mending.serve`).
-/

namespace Async

variable {Req : Type} {Resp : Req → Type} {E σ S B K : Type}

/-- A list without the entry at which it splits. -/
theorem eraseIdx_middle {α : Type} (pre : List α) (x : α) (post : List α) :
    (pre ++ x :: post).eraseIdx pre.length = pre ++ post := by
  rw [List.eraseIdx_append_of_length_le (Nat.le_refl _), Nat.sub_self, List.eraseIdx_cons_zero]

/-- For every key at which the backend is broken, something in flight mends it. -/
def Mending (broken : B → K → Prop) (mends : B → K → Flight Req Resp E σ → Prop)
    (w : World Req Resp E σ S B) : Prop :=
  ∀ key, broken w.backend key → ∃ x ∈ w.pool, mends w.backend key x.2

section Rules

variable {broken : B → K → Prop} {mends : B → K → Flight Req Resp E σ → Prop}
  {w : World Req Resp E σ S B}

/-- With nothing in flight nothing is broken. -/
theorem Mending.rest (h : Mending broken mends w) (hrest : w.Quiescent) (key : K) :
    ¬ broken w.backend key := by
  intro hbroken
  obtain ⟨x, hx, -⟩ := h key hbroken
  rw [hrest] at hx
  exact absurd hx List.not_mem_nil

/-- Where the pool splits, another flight mends the key or the one it splits at does. -/
theorem Mending.split (h : Mending broken mends w) {pre post : List (S × Flight Req Resp E σ)}
    {x : S × Flight Req Resp E σ} (hpool : w.pool = pre ++ x :: post) {key : K}
    (hbroken : broken w.backend key) :
    (∃ y ∈ pre ++ post, mends w.backend key y.2) ∨ mends w.backend key x.2 := by
  obtain ⟨y, hy, hmends⟩ := h key hbroken
  rw [hpool, List.mem_append, List.mem_cons] at hy
  rcases hy with hy | rfl | hy
  · exact Or.inl ⟨y, List.mem_append_left _ hy, hmends⟩
  · exact Or.inr hmends
  · exact Or.inl ⟨y, List.mem_append_right _ hy, hmends⟩

variable [DecidableEq S]

/-- An action adds to what is in flight. -/
theorem Mending.invoke (h : Mending broken mends w) (s : S) (p : Prog Req Resp E σ) (e : E) :
    Mending broken mends (w.turn s p e w.pool) := by
  intro key hbroken
  obtain ⟨x, hx, hmends⟩ := h key hbroken
  exact ⟨x, List.mem_append_left _ hx, hmends⟩

/-- A callback issues a successor to what its flight was mending. -/
theorem Mending.deliver (h : Mending broken mends w) {pre post : List (S × Flight Req Resp E σ)}
    {s : S} {r : Req} {p : Prog Req Resp E σ} {e : E}
    (hpool : w.pool = pre ++ (s, .served r p) :: post)
    (hnext : ∀ key, broken w.backend key → mends w.backend key (.served r p) →
      ∃ fl ∈ (p.exec e (w.client s)).2, mends w.backend key fl) :
    Mending broken mends (w.turn s p e (pre ++ post)) := by
  intro key hbroken
  rcases h.split hpool hbroken with ⟨y, hy, hmends⟩ | hmends
  · exact ⟨y, List.mem_append_left _ hy, hmends⟩
  · obtain ⟨fl, hfl, hmends⟩ := hnext key hbroken hmends
    exact ⟨(s, fl), List.mem_append_right _ (List.mem_map_of_mem hfl), hmends⟩

omit [DecidableEq S] in
/-- A request is served: what is broken afterwards is mended by its flight or by another. -/
theorem Mending.serve {pre post : List (S × Flight Req Resp E σ)} {s : S}
    {fl : Flight Req Resp E σ} {b : B}
    (hnext : ∀ key, broken b key → mends b key fl ∨ ∃ y ∈ pre ++ post, mends b key y.2) :
    Mending broken mends
      ({ w with backend := b, pool := pre ++ (s, fl) :: post } : World Req Resp E σ S B) := by
  intro key hbroken
  rcases hnext key hbroken with hmends | ⟨y, hy, hmends⟩
  · exact ⟨(s, fl), by simp, hmends⟩
  · refine ⟨y, ?_, hmends⟩
    rcases List.mem_append.mp hy with hy | hy <;> simp [hy]

omit [DecidableEq S] in
/-- A callback is lost that nothing broken needs. -/
theorem Mending.drop {pre post : List (S × Flight Req Resp E σ)}
    (hnext : ∀ key, broken w.backend key → ∃ y ∈ pre ++ post, mends w.backend key y.2) :
    Mending broken mends ({ w with pool := pre ++ post } : World Req Resp E σ S B) := hnext

end Rules

end Async
