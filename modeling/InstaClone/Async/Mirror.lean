import InstaClone.Async.Tracks

/-!
# Mirrored writes: one fact stored in two places by two writes in a row

A common way to keep two copies of a boolean fact: an operation writes the near
copy, and from the acknowledgement's callback writes the far copy with the same
value. Operations overlap: a session may issue any number of them before the
first one has finished.

`Mirror.State` is the protocol on its own: the two copies and the operations
under way, each in one of three stages. Through a FIFO channel the far writes are
issued in the order of the near writes, so the last value that will reach either
copy is the value of the operation issued last (`State.Inv`); the argument needs
all operations under way to belong to one session. When none is left both copies
hold that value.

`Spec` says how a world of callback programs implements the protocol,
`Spec.Implements` which flight is at which stage, and `Tracked.stepped` is the
simulation: every step of the world is a step of the protocol or leaves it alone.
-/

namespace Async.Mirror

variable {S : Type}

/-- An operation under way, with the value it writes: its near write is in
flight, or acknowledged with the callback not yet run, or its far write is in
flight. -/
inductive Stage where
  | first (v : Bool)
  | between (v : Bool)
  | second (v : Bool)
deriving DecidableEq

/-- The two copies and the operations under way, in the order their current
requests were issued. -/
structure State (S : Type) where
  near : Bool
  far : Bool
  stages : List (S × Stage)

/-- The near writes still to come, in order. -/
def nearQueue : List (S × Stage) → List Bool
  | [] => []
  | (_, .first v) :: l => v :: nearQueue l
  | (_, .between _) :: l => nearQueue l
  | (_, .second _) :: l => nearQueue l

/-- The far writes in flight, in order. -/
def farIssued : List (S × Stage) → List Bool
  | [] => []
  | (_, .first _) :: l => farIssued l
  | (_, .between _) :: l => farIssued l
  | (_, .second v) :: l => v :: farIssued l

/-- The far writes the callbacks will issue, in order. -/
def farLater : List (S × Stage) → List Bool
  | [] => []
  | (_, .first v) :: l => v :: farLater l
  | (_, .between v) :: l => v :: farLater l
  | (_, .second _) :: l => farLater l

/-- The value that is left when the writes `l` have been made over `d`. -/
def final (d : Bool) (l : List Bool) : Bool := l.foldl (fun _ v => v) d

@[simp] theorem final_nil (d : Bool) : final d [] = d := rfl

@[simp] theorem final_cons (d v : Bool) (l : List Bool) : final d (v :: l) = final v l := rfl

@[simp] theorem final_append (d : Bool) (l l' : List Bool) :
    final d (l ++ l') = final (final d l) l' := List.foldl_append

@[simp] theorem nearQueue_append (l l' : List (S × Stage)) :
    nearQueue (l ++ l') = nearQueue l ++ nearQueue l' := by
  induction l with
  | nil => rfl
  | cons x l ih => obtain ⟨s, _ | _ | _⟩ := x <;> simp [nearQueue, ih]

@[simp] theorem farIssued_append (l l' : List (S × Stage)) :
    farIssued (l ++ l') = farIssued l ++ farIssued l' := by
  induction l with
  | nil => rfl
  | cons x l ih => obtain ⟨s, _ | _ | _⟩ := x <;> simp [farIssued, ih]

@[simp] theorem farLater_append (l l' : List (S × Stage)) :
    farLater (l ++ l') = farLater l ++ farLater l' := by
  induction l with
  | nil => rfl
  | cons x l ih => obtain ⟨s, _ | _ | _⟩ := x <;> simp [farLater, ih]

/-- Operations between their two writes have no write in flight. -/
theorem queues_between {l : List (S × Stage)} (h : ∀ x ∈ l, ∃ u, x.2 = .between u) :
    nearQueue l = [] ∧ farIssued l = [] := by
  induction l with
  | nil => exact ⟨rfl, rfl⟩
  | cons x l ih =>
    obtain ⟨s, stage⟩ := x
    obtain ⟨u, hu⟩ := h (s, stage) (List.mem_cons_self ..)
    obtain rfl : stage = .between u := hu
    exact ih fun x hx => h x (List.mem_cons_of_mem _ hx)

/-- The protocol. The label carries the value of an operation that starts. -/
inductive Step (m : State S) : Option Bool → State S → Prop
  /-- An operation starts: its near write is issued. -/
  | start (s : S) (v : Bool) (halone : ∀ x ∈ m.stages, x.1 = s) :
      Step m (some v) { m with stages := m.stages ++ [(s, .first v)] }
  /-- A near write is committed, after the writes its session issued before. -/
  | commitNear {pre post : List (S × Stage)} {s : S} {v : Bool}
      (hm : m.stages = pre ++ (s, .first v) :: post)
      (hfifo : ∀ x ∈ pre, x.1 = s → ∃ u, x.2 = .between u) :
      Step m none { m with near := v, stages := pre ++ (s, .between v) :: post }
  /-- The acknowledgement's callback issues the far write. -/
  | pass {pre post : List (S × Stage)} {s : S} {v : Bool}
      (hm : m.stages = pre ++ (s, .between v) :: post) (hfifo : ∀ x ∈ pre, x.1 ≠ s) :
      Step m none { m with stages := pre ++ post ++ [(s, .second v)] }
  /-- A far write is committed; the operation is over. -/
  | commitFar {pre post : List (S × Stage)} {s : S} {v : Bool}
      (hm : m.stages = pre ++ (s, .second v) :: post)
      (hfifo : ∀ x ∈ pre, x.1 = s → ∃ u, x.2 = .between u) :
      Step m none { m with far := v, stages := pre ++ post }

/-- All operations under way belong to one session, one of those that may work on
this fact (`P`), and both copies will end up at `target`. -/
structure State.Inv (P : S → Prop) (m : State S) (target : Bool) : Prop where
  solo : ∀ x ∈ m.stages, ∀ y ∈ m.stages, x.1 = y.1
  owner : ∀ x ∈ m.stages, P x.1
  near : final m.near (nearQueue m.stages) = target
  far : final m.far (farIssued m.stages ++ farLater m.stages) = target

/-- **The protocol keeps its invariant**; an operation that starts sets the value
both copies will end up at. -/
theorem Step.inv {P : S → Prop} {m m' : State S} {label : Option Bool} {target : Bool}
    (hstep : Step m label m') (h : m.Inv P target)
    (hstart : ∀ s v, label = some v → (s, .first v) ∈ m'.stages → P s) :
    m'.Inv P (label.getD target) := by
  cases hstep with
  | start s v halone =>
    refine ⟨?_, ?_, ?_, ?_⟩
    · have hs : ∀ x ∈ m.stages ++ [(s, Stage.first v)], x.1 = s := by
        intro x hx
        rcases List.mem_append.mp hx with hx | hx
        · exact halone x hx
        · rw [List.mem_singleton.mp hx]
      intro x hx y hy
      rw [hs x hx, hs y hy]
    · intro x hx
      rcases List.mem_append.mp hx with hx | hx
      · exact h.owner x hx
      · rw [List.mem_singleton.mp hx]
        exact hstart s v rfl (by simp)
    · simp [nearQueue]
    · simp [farIssued, farLater]
  | commitNear hm hfifo =>
    rename_i pre post s v
    obtain ⟨hsolo, howner, hnear, hfar⟩ := h
    rw [hm] at hsolo howner hnear hfar
    have hs : ∀ x ∈ pre ++ (s, Stage.first v) :: post, x.1 = s :=
      fun x hx => hsolo x hx (s, .first v) (by simp)
    obtain ⟨hq, -⟩ := queues_between fun x hx => hfifo x hx (hs x (by simp [hx]))
    have hs' : ∀ x ∈ pre ++ (s, Stage.between v) :: post, x.1 = s := by
      intro x hx
      simp only [List.mem_append, List.mem_cons] at hx
      rcases hx with hx | rfl | hx
      · exact hs x (by simp [hx])
      · rfl
      · exact hs x (by simp [hx])
    refine ⟨fun x hx y hy => by rw [hs' x hx, hs' y hy], fun x hx => ?_, ?_, ?_⟩
    · rw [hs' x hx]
      exact howner (s, .first v) (by simp)
    · simpa [nearQueue, hq] using hnear
    · simpa [farIssued, farLater] using hfar
  | pass hm hfifo =>
    rename_i pre post s v
    obtain ⟨hsolo, howner, hnear, hfar⟩ := h
    rw [hm] at hsolo howner hnear hfar
    have hs : ∀ x ∈ pre ++ (s, Stage.between v) :: post, x.1 = s :=
      fun x hx => hsolo x hx (s, .between v) (by simp)
    -- nothing of the session is in front, and there is no other session
    have hpre : pre = [] := List.eq_nil_iff_forall_not_mem.mpr fun x hx =>
      hfifo x hx (hs x (by simp [hx]))
    subst hpre
    have hs' : ∀ x ∈ post ++ [(s, Stage.second v)], x.1 = s := by
      intro x hx
      rcases List.mem_append.mp hx with hx | hx
      · exact hs x (by simp [hx])
      · rw [List.mem_singleton.mp hx]
    refine ⟨fun x hx y hy => by rw [hs' x hx, hs' y hy], fun x hx => ?_, ?_, ?_⟩
    · rw [hs' x hx]
      exact howner (s, .between v) (by simp)
    · simpa [nearQueue] using hnear
    · simpa [farIssued, farLater] using hfar
  | commitFar hm hfifo =>
    rename_i pre post s v
    obtain ⟨hsolo, howner, hnear, hfar⟩ := h
    rw [hm] at hsolo howner hnear hfar
    have hs : ∀ x ∈ pre ++ (s, Stage.second v) :: post, x.1 = s :=
      fun x hx => hsolo x hx (s, .second v) (by simp)
    obtain ⟨-, hq⟩ := queues_between fun x hx => hfifo x hx (hs x (by simp [hx]))
    have hs' : ∀ x ∈ pre ++ post, x.1 = s := by
      intro x hx
      rcases List.mem_append.mp hx with hx | hx <;> exact hs x (by simp [hx])
    refine ⟨fun x hx y hy => by rw [hs' x hx, hs' y hy], fun x hx => ?_, ?_, ?_⟩
    · rw [hs' x hx]
      exact howner (s, .second v) (by simp)
    · simpa [nearQueue] using hnear
    · simpa [farIssued, farLater, hq] using hfar

/-- With no operation under way both copies hold the target. -/
theorem State.Inv.settled {P : S → Prop} {m : State S} {target : Bool} (h : m.Inv P target)
    (hnil : m.stages = []) : m.near = target ∧ m.far = target := by
  obtain ⟨-, -, hnear, hfar⟩ := h
  rw [hnil] at hnear hfar
  exact ⟨hnear, hfar⟩

/-! ## Worlds of callback programs that implement the protocol -/

section Simulation

variable {Req : Type} {Resp : Req → Type} {E σ B O A : Type}

/-- How a service stores a fact twice: the two copies as the backend holds them,
the requests that write them, and which requests leave both alone. -/
structure Spec (Req B : Type) where
  near : B → Bool
  far : B → Bool
  mark : Bool → Req
  copy : Bool → Req
  touches : Req → Prop

/-- The contract of everything that is not part of an operation, in turns whose
environment is as `env` says. -/
def Spec.quiet (M : Spec Req B) (env : E → Prop) : Contract Req Resp E σ where
  env := env
  state _ := True
  req _ r := ¬ M.touches r
  resp _ _ := True

/-- The backend implements the protocol: the two writes are ordered and write
their own copy when they succeed (`good`), and quiet requests change neither. -/
structure Spec.Lawful (M : Spec Req B) (api : Api Req Resp B O) (good : O → Prop) : Prop where
  touches_mark : ∀ v, M.touches (M.mark v)
  touches_copy : ∀ v, M.touches (M.copy v)
  ordered_mark : ∀ v, api.ordered (M.mark v) = true
  ordered_copy : ∀ v, api.ordered (M.copy v) = true
  serve_mark : ∀ v b o b' y, good o → api.serve b (M.mark v) o = some (b', y) →
    M.near b' = v ∧ M.far b' = M.far b
  serve_copy : ∀ v b o b' y, good o → api.serve b (M.copy v) o = some (b', y) →
    M.near b' = M.near b ∧ M.far b' = v
  serve_quiet : ∀ r b o b' y, ¬ M.touches r → api.serve b r o = some (b', y) →
    M.near b' = M.near b ∧ M.far b' = M.far b

/-- The callback that issues the far write and nothing else of the operation. -/
def Spec.Follows (M : Spec Req B) (env : E → Prop) (v : Bool) (p : Prog Req Resp E σ) : Prop :=
  ∃ k, p = .call (M.copy v) k .done ∧ ∀ y, (k y).Keeps (M.quiet env)

/-- The flights of an operation, and the stages they are at. -/
inductive Spec.Implements (M : Spec Req B) (env : E → Prop) : Flight Req Resp E σ → Stage → Prop
  | first {v : Bool} {k : Resp (M.mark v) → Prog Req Resp E σ}
      (hk : ∀ y, M.Follows env v (k y)) : Implements M env (.issued (M.mark v) k) (.first v)
  | between {v : Bool} {p : Prog Req Resp E σ} (hp : M.Follows env v p) :
      Implements M env (.served (M.mark v) p) (.between v)
  | second {v : Bool} {k : Resp (M.copy v) → Prog Req Resp E σ}
      (hk : ∀ y, (k y).Keeps (M.quiet env)) : Implements M env (.issued (M.copy v) k) (.second v)

/-- The stages of the operations in a pool. `V` is what is known of each session's
environment. -/
abbrev Stages (M : Spec Req B) (V : S → E → Prop) :
    List (S × Flight Req Resp E σ) → List (S × Stage) → Prop :=
  Tracks (fun s fl => fl.Keeps (M.quiet (V s))) fun s fl t => M.Implements (V s) fl t

variable {M : Spec Req B} {V : S → E → Prop}

/-- A flight at a stage is not quiet as long as its session can run, its request is
ordered, and it waits unless the operation is between its writes. -/
theorem Spec.Implements.facts {api : Api Req Resp B O} {good : O → Prop} (hM : M.Lawful api good)
    {env : E → Prop} {fl : Flight Req Resp E σ} {t : Stage} (h : M.Implements env fl t) :
    (∀ e, env e → ¬ fl.Keeps (M.quiet env)) ∧ api.ordered fl.req = true
      ∧ ((∃ u, t = .between u) ∨ fl.waits = true) := by
  cases h with
  | @first v k hk =>
    refine ⟨?_, hM.ordered_mark v, Or.inr rfl⟩
    rintro e - ⟨⟨e', -, hquiet⟩, -⟩
    exact hquiet (hM.touches_mark v)
  | @between v p hp =>
    refine ⟨?_, hM.ordered_mark v, Or.inl ⟨v, rfl⟩⟩
    obtain ⟨k, rfl, -⟩ := hp
    intro e he hquiet
    exact (hquiet e he).1 (hM.touches_copy v)
  | @second v k hk =>
    refine ⟨?_, hM.ordered_copy v, Or.inr rfl⟩
    rintro e - ⟨⟨e', -, hquiet⟩, -⟩
    exact hquiet (hM.touches_copy v)

/-- The world implements a protocol state whose copies will end up at `target`;
only sessions with `P` work on it. -/
def Tracked (M : Spec Req B) (V : S → E → Prop) (P : S → Prop) (target : Bool)
    (w : World Req Resp E σ S B) : Prop :=
  ∃ stages, Stages M V w.pool stages
    ∧ (⟨M.near w.backend, M.far w.backend, stages⟩ : State S).Inv P target

/-- No other session has an operation on this fact under way. -/
def Alone (M : Spec Req B) (V : S → E → Prop) (s : S) (w : World Req Resp E σ S B) : Prop :=
  ∀ x ∈ w.pool, x.1 ≠ s → x.2.Keeps (M.quiet (V x.1))

variable [DecidableEq S] {api : Api Req Resp B O} {act : A → Prog Req Resp E σ}
  {good : O → Prop} {P : S → Prop}

/-- A turn that starts nothing leaves the protocol alone. -/
theorem Tracked.turn_quiet {target : Bool} {w : World Req Resp E σ S B} {s : S}
    {p : Prog Req Resp E σ} {e : E} {pool : List (S × Flight Req Resp E σ)}
    {stages : List (S × Stage)} (hpool : Stages M V pool stages)
    (hinv : (⟨M.near w.backend, M.far w.backend, stages⟩ : State S).Inv P target)
    (hp : p.Keeps (M.quiet (V s))) (he : V s e) : Tracked M V P target (w.turn s p e pool) := by
  have hnew := ((hp e he).exec (s := w.client s) he trivial).2
  refine ⟨stages, hpool.append_quiet fun x hx => ?_, hinv⟩
  obtain ⟨fl, hmem, rfl⟩ := List.mem_map.mp hx
  exact (hnew fl hmem).1

/-- A user action either is quiet or starts one operation, alone on this fact. -/
theorem Tracked.invoke {target : Bool} {w : World Req Resp E σ S B} {s : S}
    {p : Prog Req Resp E σ} {e : E} (hM : M.Lawful api good) (hV : ∀ t, ∃ e, V t e)
    (h : Tracked M V P target w) (starts : Option Bool)
    (hact : Stages M V ((p.exec e (w.client s)).2.map fun fl => (s, fl))
      (starts.toList.map fun v => (s, .first v)))
    (howner : starts.isSome = true → P s)
    (halone : starts.isSome = true → Alone M V s w ∨ ∀ t, P t → t = s) :
    Tracked M V P (starts.getD target) (w.turn s p e w.pool) := by
  obtain ⟨stages, htracks, hinv⟩ := h
  cases starts with
  | none =>
    refine ⟨stages, ?_, hinv⟩
    have happ := htracks.append hact
    rwa [Option.toList_none, List.map_nil, List.append_nil] at happ
  | some v =>
    refine ⟨stages ++ [(s, .first v)], htracks.append (by simpa using hact), ?_⟩
    have hsolo : ∀ x ∈ stages, x.1 = s := by
      intro x hx
      rcases halone rfl with halone | halone
      · obtain ⟨fl, hmem, hfl⟩ := htracks.mem hx
        obtain ⟨e', he'⟩ := hV x.1
        by_contra hne
        exact (hfl.facts hM).1 e' he' (halone _ hmem hne)
      · exact halone x.1 (hinv.owner x hx)
    refine (Step.start (m := ⟨M.near w.backend, M.far w.backend, stages⟩) s v hsolo).inv hinv ?_
    intro t u _ ht
    rcases List.mem_append.mp ht with ht | ht
    · exact hinv.owner _ ht
    · obtain ⟨rfl, -⟩ := Prod.mk.inj (List.mem_singleton.mp ht)
      exact howner rfl

/-- **The simulation**, for the steps that are not user actions: serving a
request and running a callback are steps of the protocol or leave it alone. No
callback may be lost, and the two writes must succeed. -/
theorem Tracked.stepped {target : Bool} {w w' : World Req Resp E σ S B}
    {ev : Event S A E O} (hM : M.Lawful api good) (h : Tracked M V P target w)
    (hstep : Stepped api act w ev w') (hinvoke : ∀ s a e, ev ≠ .invoke s a e)
    (hdrop : ∀ i, ev ≠ .drop i) (henv : EnvOk V w ev)
    (hgood : ∀ i o, ev = .serve i o → ∀ x ∈ w.pool[i]?, M.touches x.2.req → good o) :
    Tracked M V P target w' := by
  obtain ⟨stages, htracks, hinv⟩ := h
  cases hstep with
  | invoke s a e => exact absurd rfl (hinvoke s a e)
  | drop hpool => exact absurd rfl (hdrop _)
  | serve hpool hfifo hserve =>
    rename_i pre post s r k o b y
    rw [hpool] at htracks
    obtain ⟨l, l', rfl, hpre, hpost⟩ := htracks.append_inv
    have hgood' : M.touches r → good o := fun ht =>
      hgood _ _ rfl (s, .issued r k) (getElem?_split hpool) ht
    -- a write is not committed before the waiting writes of its session
    have hfifo' : api.ordered r = true → ∀ x ∈ l, x.1 = s → ∃ u, x.2 = .between u := by
      intro hr x hx hs
      obtain ⟨fl, hmem, hfl⟩ := hpre.mem hx
      obtain ⟨-, hord, hwait⟩ := hfl.facts hM
      rcases hwait with hu | hwait
      · exact hu
      · exact absurd (hfifo hr _ hmem hs hwait) (by simp [hord])
    cases hpost with
    | quiet hfl hpost =>
      obtain ⟨⟨e, -, hreq⟩, hk⟩ := hfl
      obtain ⟨hnear, hfar⟩ := hM.serve_quiet _ _ _ _ _ hreq hserve
      refine ⟨l ++ l', hpre.append (.quiet (hk y trivial) hpost), ?_⟩
      show (⟨M.near b, M.far b, l ++ l'⟩ : State S).Inv P target
      rwa [hnear, hfar]
    | @stage _ _ stage _ stages' hfl hpost =>
      cases hfl with
      | @first v k hk =>
        obtain ⟨hnear, hfar⟩ := hM.serve_mark v _ _ _ _ (hgood' (hM.touches_mark v)) hserve
        refine ⟨l ++ (s, .between v) :: stages', hpre.append (.stage (.between (hk y)) hpost), ?_⟩
        show (⟨M.near b, M.far b, l ++ (s, .between v) :: stages'⟩ : State S).Inv P target
        rw [hnear, hfar]
        exact (Step.commitNear (m := ⟨M.near w.backend, M.far w.backend,
          l ++ (s, .first v) :: stages'⟩) rfl (hfifo' (hM.ordered_mark v))).inv hinv (by simp)
      | @second v k hk =>
        obtain ⟨hnear, hfar⟩ := hM.serve_copy v _ _ _ _ (hgood' (hM.touches_copy v)) hserve
        refine ⟨l ++ stages', hpre.append (.quiet (hk y) hpost), ?_⟩
        show (⟨M.near b, M.far b, l ++ stages'⟩ : State S).Inv P target
        rw [hnear, hfar]
        exact (Step.commitFar (m := ⟨M.near w.backend, M.far w.backend,
          l ++ (s, .second v) :: stages'⟩) rfl (hfifo' (hM.ordered_copy v))).inv hinv (by simp)
  | deliver hpool hfifo =>
    rename_i pre post s r p e
    rw [hpool] at htracks
    obtain ⟨l, l', rfl, hpre, hpost⟩ := htracks.append_inv
    cases hpost with
    | quiet hfl hpost => exact Tracked.turn_quiet (hpre.append hpost) hinv hfl (henv.deliver hpool)
    | @stage _ _ stage _ stages' hfl hpost =>
      cases hfl with
      | @between v p hp =>
        obtain ⟨k, rfl, hk⟩ := hp
        have hnew : Stages M V (((Prog.call (M.copy v) k .done).exec e (w.client s)).2.map
            fun fl => (s, fl)) [(s, .second v)] := .single (.second hk)
        refine ⟨l ++ stages' ++ [(s, .second v)], (hpre.append hpost).append hnew, ?_⟩
        refine (Step.pass (m := ⟨M.near w.backend, M.far w.backend,
          l ++ (s, .between v) :: stages'⟩) rfl ?_).inv hinv (by simp)
        -- a callback does not run before those of its session's earlier writes
        intro x hx hs
        obtain ⟨fl, hmem, hfl⟩ := hpre.mem hx
        obtain ⟨-, hord, -⟩ := hfl.facts hM
        exact absurd (hfifo (hM.ordered_mark v) _ hmem hs) (by simp [hord])

omit [DecidableEq S] in
/-- When nothing is in flight both copies hold the target. -/
theorem Tracked.settled {target : Bool} {w : World Req Resp E σ S B} (h : Tracked M V P target w)
    (hq : w.Quiescent) : M.near w.backend = target ∧ M.far w.backend = target := by
  obtain ⟨stages, htracks, hinv⟩ := h
  rw [World.Quiescent] at hq
  rw [hq] at htracks
  cases htracks
  exact hinv.settled rfl

end Simulation

end Async.Mirror
