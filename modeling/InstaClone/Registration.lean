import InstaClone.Async.Tracks
import InstaClone.Services
import InstaClone.Sessions

/-!
# Registration, all or nothing

`registerUser` stores an image, asks for its URL, creates an account and writes the
document of the user, one request after the other, and gives up where one of them fails.
`Attempt` is how far an attempt has come: what it holds of images, accounts and documents.

When every attempt whose image is stored goes through, images, accounts and users are at any
time those of the start, of the registrations that were reported to have succeeded, and what
the attempts under way hold (`Balance`). With nothing in flight that leaves the
registrations, and every account has its document. An attempt that fails after its image is
stored leaves the image, and one that fails after that an account without a document.
-/

namespace InstaClone

open Async

/-! ## The attempts -/

/-- What the completions of a session's attempts were called with. -/
abbrev RegisterLog := List (AuthCredentials × Option Error)

/-- The completion of `handleSignUp`, as far as it matters here: what it was told. -/
def didRegister (credentials : AuthCredentials) (error : Option Error) : Program RegisterLog :=
  .modify (· ++ [(credentials, error)]) .done

/-- `handleSignUp()`. -/
def handleSignUp (credentials : AuthCredentials) : Program RegisterLog :=
  AuthService.registerUser credentials (didRegister credentials)

/-- The dictionary of `registerUser`. -/
def registeredUser (credentials : AuthCredentials) (imageUrl uid : String)
    (fcmToken : Option String) : Doc :=
  dict
    ([("email", .string credentials.email),
      ("fullname", .string credentials.fullname),
      ("username", .string credentials.username),
      ("profileImageUrl", .string imageUrl),
      ("uid", .string uid)]
     ++ match fcmToken with
        | some fcmToken => [("fcmToken", .string fcmToken)]
        | none => [])

theorem registeredUser_uid (credentials : AuthCredentials) (imageUrl uid : String)
    (fcmToken : Option String) :
    (registeredUser credentials imageUrl uid fcmToken).string "uid" = some uid := by
  cases fcmToken <;> rfl

/-- The callback of `createUser`. -/
def didCreateUser (credentials : AuthCredentials) (imageUrl : String)
    (result : Option String × Option Error) : Program RegisterLog :=
  match result.2 with
  | some _ => .done
  | none =>
    match result.1 with
    | none => .done
    | some uid =>
      .ask fun turn =>
        setData ["users", uid] (registeredUser credentials imageUrl uid turn.fcmToken)
          (didRegister credentials)

/-- The callback of `downloadURL`. -/
def didLocate (credentials : AuthCredentials) (url : Option String) : Program RegisterLog :=
  match url with
  | none => .done
  | some imageUrl =>
    .call (.createUser credentials.email credentials.password)
      (didCreateUser credentials imageUrl) .done

/-- The callback of `putData`. -/
def didStore (credentials : AuthCredentials) (reference : String) (error : Option Error) :
    Program RegisterLog :=
  match error with
  | some _ => .done
  | none => .call (.downloadURL reference) (didLocate credentials) .done

/-- The turn of a sign-up. -/
theorem exec_handleSignUp (credentials : AuthCredentials) (e : Turn) (log : RegisterLog) :
    (handleSignUp credentials).exec e log
      = (log, match credentials.profileImage.jpegData with
          | none => []
          | some imageData =>
            [.issued (.putData ("/profile_images/" ++ e.autoId) imageData)
              (didStore credentials ("/profile_images/" ++ e.autoId))]) := by
  unfold handleSignUp AuthService.registerUser ImageUploader.uploadImage
  cases credentials.profileImage.jpegData with
  | none => rfl
  | some imageData =>
    rw [Prog.exec_ask]
    dsimp only
    rw [Prog.exec_call, Prog.exec_done]
    congr 3
    funext error
    cases error with
    | some error => rfl
    | none =>
      refine congrArg (fun k => Prog.call _ k _) (funext fun url => ?_)
      cases url with
      | none => rfl
      | some imageUrl =>
        refine congrArg (fun k => Prog.call _ k _) (funext fun result => ?_)
        obtain ⟨uid, error⟩ := result
        cases error with
        | some error => rfl
        | none =>
          cases uid with
          | none => rfl
          | some uid => rfl

/-- A registration: the credentials, and the image and the account it made. -/
structure Registration where
  credentials : AuthCredentials
  imageUrl : String
  uid : String

/-- The account of a registration. -/
def Registration.account (r : Registration) : String × String := (r.credentials.email, r.uid)

/-- How far an attempt has come. -/
inductive Attempt where
  | begun (credentials : AuthCredentials)
  | stored (credentials : AuthCredentials) (imageUrl : String)
  | created (r : Registration)
  | written (r : Registration)

namespace Attempt

/-- The image an attempt has stored. -/
def image : Attempt → Option String
  | begun _ => none
  | stored _ imageUrl => some imageUrl
  | created r | written r => some r.imageUrl

/-- The account an attempt has made. -/
def account : Attempt → Option (String × String)
  | begun _ | stored _ _ => none
  | created r | written r => some r.account

/-- The account whose document an attempt has written. -/
def user : Attempt → Option String
  | written r => some r.uid
  | _ => none

end Attempt

/-- The flights of an attempt. -/
inductive AttemptAt : Flight Request Response Turn RegisterLog → Attempt → Prop
  | storing (c reference data) :
      AttemptAt (.issued (.putData reference data) (didStore c reference)) (.begun c)
  | stored (c reference data) :
      AttemptAt (.served (.putData reference data) (didStore c reference none))
        (.stored c (objectUrl reference))
  | locating (c reference) :
      AttemptAt (.issued (.downloadURL reference) (didLocate c)) (.stored c (objectUrl reference))
  | located (c reference) :
      AttemptAt (.served (.downloadURL reference) (didLocate c (some (objectUrl reference))))
        (.stored c (objectUrl reference))
  | creating (c imageUrl) :
      AttemptAt (.issued (.createUser c.email c.password) (didCreateUser c imageUrl))
        (.stored c imageUrl)
  | created (r : Registration) :
      AttemptAt
        (.served (.createUser r.credentials.email r.credentials.password)
          (didCreateUser r.credentials r.imageUrl (some r.uid, none)))
        (.created r)
  | writing (r : Registration) (token) :
      AttemptAt
        (.issued (.write (.setData ["users", r.uid]
          (registeredUser r.credentials r.imageUrl r.uid token))) (didRegister r.credentials))
        (.created r)
  | written (r : Registration) (token) :
      AttemptAt
        (.served (.write (.setData ["users", r.uid]
          (registeredUser r.credentials r.imageUrl r.uid token)))
          (didRegister r.credentials none))
        (.written r)

/-- An attempt whose image was not stored: its callback does nothing. -/
def GivenUp (fl : Flight Request Response Turn RegisterLog) : Prop :=
  ∃ r, fl = .served r .done

/-! ## The condition -/

/-- May the request of an attempt end this way? Once an image is stored, its attempt goes
through: the URL, the account, for an e-mail that has none yet, and the document. -/
def Request.GoesThrough (b : Backend) (o : Outcome) : Request → Prop
  | .putData _ _ => True
  | .createUser email _ => o.isSuccess = true ∧ email ∉ b.accounts.map Prod.fst
  | _ => o.isSuccess = true

instance (b : Backend) (o : Outcome) (r : Request) : Decidable (r.GoesThrough b o) := by
  apply Request.casesOn (motive := fun r => Decidable (r.GoesThrough b o)) r
    <;> intros <;> unfold Request.GoesThrough <;> infer_instance

/-- Every request of every attempt ends so, and every completion runs. -/
def GoesThrough {S : Type} (w : AppWorld RegisterLog S) : AppEvent S AuthCredentials → Prop
  | .serve i o => ∀ x ∈ w.pool[i]?, x.2.req.GoesThrough w.backend o
  | .drop _ => False
  | _ => True

instance {S : Type} (w : AppWorld RegisterLog S) (ev : AppEvent S AuthCredentials) :
    Decidable (GoesThrough w ev) :=
  match ev with
  | .invoke _ _ _ => isTrue trivial
  | .serve _ _ => inferInstanceAs (Decidable (∀ x ∈ _, _))
  | .deliver _ _ => isTrue trivial
  | .drop _ => inferInstanceAs (Decidable False)

/-! ## What the attempts hold -/

/-- There is a user's document for the account `uid`. -/
def Backend.HasUser (b : Backend) (uid : String) : Prop :=
  ∃ d, b.docs.lookup ["users", uid] = some d ∧ d.string "uid" = some uid

section Balance

variable {S : Type}

/-- Some attempt under way holds `a`. -/
def Holds {α : Type} (f : Attempt → Option α) (stages : List (S × Attempt)) (a : α) : Prop :=
  ∃ x ∈ stages, f x.2 = some a

variable {α : Type} {f : Attempt → Option α} {l l' : List (S × Attempt)} {s : S} {t : Attempt}
  {a : α}

theorem holds_nil : ¬ Holds f ([] : List (S × Attempt)) a := by
  intro h
  obtain ⟨x, hx, -⟩ := h
  exact absurd hx (by simp)

@[simp] theorem holds_append : Holds f (l ++ l') a ↔ Holds f l a ∨ Holds f l' a := by
  unfold Holds
  constructor
  · intro h
    obtain ⟨x, hx, ha⟩ := h
    rcases List.mem_append.mp hx with hx | hx
    · exact Or.inl ⟨x, hx, ha⟩
    · exact Or.inr ⟨x, hx, ha⟩
  · intro h
    rcases h with ⟨x, hx, ha⟩ | ⟨x, hx, ha⟩
    · exact ⟨x, List.mem_append_left _ hx, ha⟩
    · exact ⟨x, List.mem_append_right _ hx, ha⟩

@[simp] theorem holds_cons : Holds f ((s, t) :: l) a ↔ f t = some a ∨ Holds f l a := by
  unfold Holds
  simp

/-- What a backend holds is of the start, of attempts under way, or of registrations; where
an account is of the start, a registration, or an attempt that has written it, there is a
document; and other documents are as they were. -/
structure Balance (b₀ b : Backend) (stages : List (S × Attempt)) (done : List (S × Registration)) :
    Prop where
  objects : ∀ url, url ∈ b.objects
    ↔ url ∈ b₀.objects ∨ Holds Attempt.image stages url ∨ ∃ x ∈ done, x.2.imageUrl = url
  accounts : ∀ account, account ∈ b.accounts
    ↔ account ∈ b₀.accounts ∨ Holds Attempt.account stages account
      ∨ ∃ x ∈ done, x.2.account = account
  users : ∀ uid, ((∃ x ∈ b₀.accounts, x.2 = uid) ∨ Holds Attempt.user stages uid
    ∨ ∃ x ∈ done, x.2.uid = uid) → b.HasUser uid
  others : ∀ path, (∀ uid, Holds Attempt.user stages uid → path ≠ ["users", uid]) →
    (∀ x ∈ done, path ≠ ["users", x.2.uid]) → b.docs.lookup path = b₀.docs.lookup path

variable {b₀ b : Backend} {stages stages' : List (S × Attempt)} {done : List (S × Registration)}

/-- Only what the attempts hold matters. -/
theorem Balance.congr (h : Balance b₀ b stages done)
    (himage : ∀ a, Holds Attempt.image stages' a ↔ Holds Attempt.image stages a)
    (haccount : ∀ a, Holds Attempt.account stages' a ↔ Holds Attempt.account stages a)
    (huser : ∀ a, Holds Attempt.user stages' a ↔ Holds Attempt.user stages a) :
    Balance b₀ b stages' done where
  objects url := by
    rw [himage]
    exact h.objects url
  accounts account := by
    rw [haccount]
    exact h.accounts account
  users uid := by
    rw [huser]
    exact h.users uid
  others path hstages hdone :=
    h.others path (fun uid huid => hstages uid ((huser uid).mpr huid)) hdone

/-- An attempt moves on in the pool and holds what it held. -/
theorem Balance.move {t' : Attempt} (h : Balance b₀ b (l ++ (s, t) :: l') done)
    (himage : t'.image = t.image) (haccount : t'.account = t.account) (huser : t'.user = t.user) :
    Balance b₀ b (l ++ l' ++ [(s, t')]) done := by
  refine h.congr (fun a => ?_) (fun a => ?_) (fun a => ?_)
  · simp only [holds_append, holds_cons, himage, holds_nil, or_false]
    exact ⟨fun h => by rcases h with (h | h) | h <;> simp [h],
      fun h => by rcases h with h | h | h <;> simp [h]⟩
  · simp only [holds_append, holds_cons, haccount, holds_nil, or_false]
    exact ⟨fun h => by rcases h with (h | h) | h <;> simp [h],
      fun h => by rcases h with h | h | h <;> simp [h]⟩
  · simp only [holds_append, holds_cons, huser, holds_nil, or_false]
    exact ⟨fun h => by rcases h with (h | h) | h <;> simp [h],
      fun h => by rcases h with h | h | h <;> simp [h]⟩

/-- An image is stored. -/
theorem Balance.store {credentials : AuthCredentials} {imageUrl : String}
    (h : Balance b₀ b (l ++ (s, .begun credentials) :: l') done) :
    Balance b₀ { b with objects := imageUrl :: b.objects }
      (l ++ (s, .stored credentials imageUrl) :: l') done := by
  refine ⟨fun url => ?_, fun account => ?_, fun uid => ?_, fun path hstages hdone => ?_⟩
  · have hobjects := h.objects url
    simp only [holds_append, holds_cons, Attempt.image, reduceCtorEq, false_or,
      Option.some.injEq] at hobjects ⊢
    rw [List.mem_cons, hobjects]
    constructor
    · intro hurl
      rcases hurl with rfl | hurl | (hurl | hurl) | hurl <;> simp [*]
    · intro hurl
      rcases hurl with hurl | (hurl | rfl | hurl) | hurl <;> simp [*]
  · have haccounts := h.accounts account
    simp only [holds_append, holds_cons, Attempt.account, reduceCtorEq, false_or] at haccounts ⊢
    exact haccounts
  · have husers := h.users uid
    simp only [holds_append, holds_cons, Attempt.user, reduceCtorEq, false_or] at husers ⊢
    exact husers
  · refine h.others path (fun uid huid => hstages uid ?_) hdone
    simpa [Attempt.user] using huid

/-- An account is made. -/
theorem Balance.create {r : Registration}
    (h : Balance b₀ b (l ++ (s, .stored r.credentials r.imageUrl) :: l') done) :
    Balance b₀ { b with accounts := r.account :: b.accounts } (l ++ (s, .created r) :: l')
      done := by
  refine ⟨fun url => ?_, fun account => ?_, fun uid => ?_, fun path hstages hdone => ?_⟩
  · have hobjects := h.objects url
    simp only [holds_append, holds_cons, Attempt.image] at hobjects ⊢
    exact hobjects
  · have haccounts := h.accounts account
    simp only [holds_append, holds_cons, Attempt.account, reduceCtorEq, false_or,
      Option.some.injEq] at haccounts ⊢
    rw [List.mem_cons, haccounts]
    constructor
    · intro hmem
      rcases hmem with rfl | hmem | (hmem | hmem) | hmem <;> simp [*]
    · intro hmem
      rcases hmem with hmem | (hmem | rfl | hmem) | hmem <;> simp [*]
  · have husers := h.users uid
    simp only [holds_append, holds_cons, Attempt.user, reduceCtorEq, false_or] at husers ⊢
    exact husers
  · refine h.others path (fun uid huid => hstages uid ?_) hdone
    simpa [Attempt.user] using huid

/-- A user's document is written. -/
theorem Balance.write {r : Registration} {d : Doc} (hd : d.string "uid" = some r.uid)
    (h : Balance b₀ b (l ++ (s, .created r) :: l') done) :
    Balance b₀ { b with docs := b.docs.insert ["users", r.uid] d } (l ++ (s, .written r) :: l')
      done := by
  refine ⟨fun url => ?_, fun account => ?_, fun uid huid => ?_, fun path hstages hdone => ?_⟩
  · have hobjects := h.objects url
    simp only [holds_append, holds_cons, Attempt.image] at hobjects ⊢
    exact hobjects
  · have haccounts := h.accounts account
    simp only [holds_append, holds_cons, Attempt.account] at haccounts ⊢
    exact haccounts
  · by_cases hself : uid = r.uid
    · rw [hself]
      exact ⟨d, AList.lookup_insert _, hd⟩
    · have hne : (["users", uid] : Path) ≠ ["users", r.uid] := by simpa using hself
      have husers := h.users uid
      simp only [holds_append, holds_cons, Attempt.user, reduceCtorEq, false_or,
        Option.some.injEq] at husers huid
      obtain ⟨d', hd', huid'⟩ := husers (by
        rcases huid with huid | (huid | hr | huid) | huid
        · exact Or.inl huid
        · exact Or.inr (Or.inl (Or.inl huid))
        · exact absurd hr.symm hself
        · exact Or.inr (Or.inl (Or.inr huid))
        · exact Or.inr (Or.inr huid))
      exact ⟨d', (AList.lookup_insert_ne hne).trans hd', huid'⟩
  · have hne : path ≠ ["users", r.uid] := hstages r.uid (by simp [Attempt.user])
    refine (AList.lookup_insert_ne hne).trans (h.others path (fun uid huid => hstages uid ?_) hdone)
    simp only [holds_append, holds_cons, Attempt.user, reduceCtorEq, false_or] at huid ⊢
    rcases huid with huid | huid <;> simp [huid]

/-- The completion of a registration runs. -/
theorem Balance.finish {r : Registration} (h : Balance b₀ b (l ++ (s, .written r) :: l') done) :
    Balance b₀ b (l ++ l') (done ++ [(s, r)]) := by
  refine ⟨fun url => ?_, fun account => ?_, fun uid huid => ?_, fun path hstages hdone => ?_⟩
  · have hobjects := h.objects url
    simp only [holds_append, holds_cons, Attempt.image, Option.some.injEq] at hobjects ⊢
    rw [hobjects]
    simp only [List.mem_append, List.mem_singleton, or_and_right, exists_or, exists_eq_left]
    constructor
    · intro hurl
      rcases hurl with hurl | (hurl | hurl | hurl) | hurl <;> simp [hurl]
    · intro hurl
      rcases hurl with hurl | (hurl | hurl) | hurl | hurl <;> simp [hurl]
  · have haccounts := h.accounts account
    simp only [holds_append, holds_cons, Attempt.account, Option.some.injEq] at haccounts ⊢
    rw [haccounts]
    simp only [List.mem_append, List.mem_singleton, or_and_right, exists_or, exists_eq_left]
    constructor
    · intro hmem
      rcases hmem with hmem | (hmem | hmem | hmem) | hmem <;> simp [hmem]
    · intro hmem
      rcases hmem with hmem | (hmem | hmem) | hmem | hmem <;> simp [hmem]
  · refine h.users uid ?_
    simp only [holds_append, holds_cons, Attempt.user, Option.some.injEq]
    simp only [holds_append, List.mem_append, List.mem_singleton, or_and_right, exists_or,
      exists_eq_left] at huid
    rcases huid with huid | (huid | huid) | huid | huid <;> simp [huid]
  · refine h.others path (fun uid huid => ?_) fun x hx => hdone x (List.mem_append_left _ hx)
    simp only [holds_append, holds_cons, Attempt.user, Option.some.injEq] at huid
    rcases huid with huid | rfl | huid
    · exact hstages uid (by simp [huid])
    · exact hdone (s, r) (by simp)
    · exact hstages uid (by simp [huid])

end Balance

/-! ## The runs -/

section Runs

variable {S : Type} [DecidableEq S] {w₀ w w' : AppWorld RegisterLog S}

/-- What is in flight, attempt by attempt. -/
abbrev Attempts : List (S × Flight Request Response Turn RegisterLog) →
    List (S × Attempt) → Prop :=
  Tracks (fun _ fl => GivenUp fl) fun _ fl t => AttemptAt fl t

/-- The reports of the registrations of session `s`. -/
def reports (s : S) (done : List (S × Registration)) : RegisterLog :=
  (done.filter fun x => x.1 = s).map fun x => (x.2.credentials, none)

/-- The invariant: everything is accounted for, and what was reported are the registrations. -/
structure RegisterInv (w₀ w : AppWorld RegisterLog S) (done : List (S × Registration)) : Prop where
  balance : ∃ stages, Attempts w.pool stages ∧ Balance w₀.backend w.backend stages done
  log : ∀ s, w.client s = w₀.client s ++ reports s done

/-- A sign-up begins an attempt, or does nothing. -/
theorem RegisterInv.invoke {done : List (S × Registration)} (h : RegisterInv w₀ w done) (s : S)
    (credentials : AuthCredentials) (e : Turn) :
    RegisterInv w₀ (w.turn s (handleSignUp credentials) e w.pool) done := by
  obtain ⟨⟨stages, hreads, hbalance⟩, hlog⟩ := h
  have hexec := exec_handleSignUp credentials e (w.client s)
  have hclient : ∀ t, (w.turn s (handleSignUp credentials) e w.pool).client t = w.client t := by
    intro t
    rw [World.turn_client, hexec]
    split
    next ht => rw [ht]
    next => rfl
  refine ⟨?_, fun t => by rw [hclient]; exact hlog t⟩
  rw [World.turn_pool, World.turn_backend, hexec]
  cases credentials.profileImage.jpegData with
  | none =>
    refine ⟨stages, ?_, hbalance⟩
    dsimp only
    rw [List.map_nil, List.append_nil]
    exact hreads
  | some imageData =>
    refine ⟨stages ++ [(s, .begun credentials)], hreads.append (.single (.storing ..)), ?_⟩
    refine hbalance.congr (fun a => ?_) (fun a => ?_) (fun a => ?_) <;>
      simp [Attempt.image, Attempt.account, Attempt.user, holds_nil]

/-- A request of an attempt is served. -/
theorem RegisterInv.served {done : List (S × Registration)} (h : RegisterInv w₀ w done)
    {pre post : List (S × Flight Request Response Turn RegisterLog)} {s : S} {r : Request}
    {k : Response r → Program RegisterLog} {o : Outcome} {b : Backend} {y : Response r}
    (hpool : w.pool = pre ++ (s, .issued r k) :: post) (hok : r.GoesThrough w.backend o)
    (hserve : api.serve w.backend r o = some (b, y)) :
    RegisterInv w₀ { w with backend := b, pool := pre ++ (s, .served r (k y)) :: post } done := by
  obtain ⟨⟨stages, hreads, hbalance⟩, hlog⟩ := h
  refine ⟨?_, hlog⟩
  rw [hpool] at hreads
  obtain ⟨l, l', hpre, hpost, hcase⟩ := hreads.split
  rcases hcase with ⟨⟨r', hfl⟩, -⟩ | ⟨t, hat, rfl⟩
  · exact absurd hfl (by simp)
  generalize hfl : Flight.issued r k = fl at hat
  cases hat with
  | storing c reference data =>
    obtain ⟨rfl, hk⟩ := Flight.issued.inj hfl
    obtain rfl := eq_of_heq hk
    cases o with
    | failure error =>
      obtain ⟨rfl, rfl⟩ : w.backend = b ∧ some error = y := by simpa [serve] using hserve
      refine ⟨l ++ l', hpre.append (.quiet ⟨_, rfl⟩ hpost), ?_⟩
      refine hbalance.congr (fun a => ?_) (fun a => ?_) (fun a => ?_) <;>
        simp [Attempt.image, Attempt.account, Attempt.user]
    | success names =>
      obtain ⟨rfl, rfl⟩ : { w.backend with objects := objectUrl reference :: w.backend.objects } = b
          ∧ none = y := by simpa [serve] using hserve
      exact ⟨_, hpre.append (.stage (.stored ..) hpost), hbalance.store⟩
  | locating c reference =>
    obtain ⟨rfl, hk⟩ := Flight.issued.inj hfl
    obtain rfl := eq_of_heq hk
    cases o with
    | failure error => exact absurd hok (by simp [Request.GoesThrough, Outcome.isSuccess])
    | success names =>
      have hstored : objectUrl reference ∈ w.backend.objects :=
        (hbalance.objects _).mpr (Or.inr (Or.inl (by simp [Attempt.image])))
      obtain ⟨rfl, rfl⟩ : w.backend = b ∧ some (objectUrl reference) = y := by
        simpa [serve, hstored] using hserve
      exact ⟨_, hpre.append (.stage (.located ..) hpost), hbalance⟩
  | creating c imageUrl =>
    obtain ⟨rfl, hk⟩ := Flight.issued.inj hfl
    obtain rfl := eq_of_heq hk
    obtain ⟨hsuccess, hfresh⟩ := hok
    cases o with
    | failure error => exact absurd hsuccess (by simp [Outcome.isSuccess])
    | success names =>
      simp only [api_serve, serve, if_neg hfresh] at hserve
      split at hserve
      next uid =>
        split at hserve
        next => exact absurd hserve (by simp)
        next =>
          simp only [Option.some.injEq, Prod.mk.injEq] at hserve
          obtain ⟨rfl, rfl⟩ := hserve
          let registration : Registration := ⟨c, imageUrl, uid⟩
          have hcreated := Balance.create (r := registration) hbalance
          exact ⟨_, hpre.append (.stage (.created registration) hpost), hcreated⟩
      next => exact absurd hserve (by simp)
  | writing registration token =>
    obtain ⟨rfl, hk⟩ := Flight.issued.inj hfl
    obtain rfl := eq_of_heq hk
    cases o with
    | failure error => exact absurd hok (by simp [Request.GoesThrough, Outcome.isSuccess])
    | success names =>
      simp only [api_serve, serve, Write.apply, Option.some.injEq, Prod.mk.injEq] at hserve
      obtain ⟨rfl, rfl⟩ := hserve
      exact ⟨_, hpre.append (.stage (.written registration token) hpost),
        hbalance.write (registeredUser_uid ..)⟩
  | _ => exact absurd hfl (by simp)

/-- A callback of an attempt runs. -/
theorem RegisterInv.delivered {done : List (S × Registration)} (h : RegisterInv w₀ w done)
    {pre post : List (S × Flight Request Response Turn RegisterLog)} {s : S} {r : Request}
    {prog : Program RegisterLog} {e : Turn}
    (hpool : w.pool = pre ++ (s, .served r prog) :: post) :
    ∃ done', RegisterInv w₀ (w.turn s prog e (pre ++ post)) done' := by
  obtain ⟨⟨stages, hreads, hbalance⟩, hlog⟩ := h
  rw [hpool] at hreads
  obtain ⟨l, l', hpre, hpost, hcase⟩ := hreads.split
  have hrest := hpre.append hpost
  have hidle : (prog.exec e (w.client s)).1 = w.client s →
      ∀ t, (w.turn s prog e (pre ++ post)).client t = w₀.client t ++ reports t done := by
    intro hsame t
    rw [World.turn_client, hsame]
    split
    next ht => rw [ht]; exact hlog s
    next => exact hlog t
  rcases hcase with ⟨⟨r', hfl⟩, rfl⟩ | ⟨t, hat, rfl⟩
  · obtain ⟨rfl, rfl⟩ := Flight.served.inj hfl
    refine ⟨done, ⟨l ++ l', ?_, hbalance⟩, hidle rfl⟩
    rw [World.turn_pool, Prog.exec_done, List.map_nil, List.append_nil]
    exact hrest
  generalize hfl : Flight.served r prog = fl at hat
  cases hat with
  | stored c reference data =>
    obtain ⟨rfl, rfl⟩ := Flight.served.inj hfl
    exact ⟨done, ⟨_, hrest.append (.single (.locating c reference)), hbalance.move rfl rfl rfl⟩,
      hidle rfl⟩
  | located c reference =>
    obtain ⟨rfl, rfl⟩ := Flight.served.inj hfl
    exact ⟨done, ⟨_, hrest.append (.single (.creating c _)), hbalance.move rfl rfl rfl⟩,
      hidle rfl⟩
  | created registration =>
    obtain ⟨rfl, rfl⟩ := Flight.served.inj hfl
    exact ⟨done, ⟨_, hrest.append (.single (.writing registration e.fcmToken)),
      hbalance.move rfl rfl rfl⟩, hidle rfl⟩
  | written registration token =>
    obtain ⟨rfl, rfl⟩ := Flight.served.inj hfl
    refine ⟨done ++ [(s, registration)], ⟨l ++ l', ?_, hbalance.finish⟩, fun t => ?_⟩
    · rw [World.turn_pool]
      show Attempts (pre ++ post ++ []) (l ++ l')
      rw [List.append_nil]
      exact hrest
    · have hreports : reports t (done ++ [(s, registration)])
          = reports t done ++ if s = t then [(registration.credentials, none)] else [] := by
        unfold reports
        rw [List.filter_append, List.map_append]
        by_cases hst : s = t
        · simp [hst]
        · simp [hst]
      rw [hreports, World.turn_client]
      by_cases ht : t = s
      · rw [if_pos ht, if_pos ht.symm, ht]
        show w.client s ++ [(registration.credentials, none)] = _
        rw [hlog s, List.append_assoc]
      · rw [if_neg ht, if_neg (Ne.symm ht), List.append_nil]
        exact hlog t
  | _ => exact absurd hfl (by simp)

/-- **Registration is all or nothing.** Any attempts from any sessions, in any interleaving:
when every attempt whose image gets stored goes through, then whenever nothing is in flight
every account has its document, and the images, the accounts and the users are those of the
start and of registrations, one for each attempt that was reported to have succeeded. -/
theorem registered_or_nothing (hrest : w₀.Quiescent)
    (husers : ∀ account ∈ w₀.backend.accounts, w₀.backend.HasUser account.2)
    {es : List (AppEvent S AuthCredentials)} (run : Run api handleSignUp GoesThrough w₀ es w)
    (hquiet : w.Quiescent) :
    (∀ account ∈ w.backend.accounts, w.backend.HasUser account.2)
      ∧ ∃ done : List (S × Registration),
        (∀ s, w.client s = w₀.client s ++ reports s done)
        ∧ (∀ url, url ∈ w.backend.objects
          ↔ url ∈ w₀.backend.objects ∨ ∃ x ∈ done, x.2.imageUrl = url)
        ∧ (∀ account, account ∈ w.backend.accounts
          ↔ account ∈ w₀.backend.accounts ∨ ∃ x ∈ done, x.2.account = account)
        ∧ ∀ path, (∀ x ∈ done, path ≠ ["users", x.2.uid]) →
          w.backend.docs.lookup path = w₀.backend.docs.lookup path := by
  have hinit : RegisterInv w₀ w₀ [] := by
    refine ⟨⟨[], by rw [hrest]; exact .nil, ?_⟩, fun s => (List.append_nil _).symm⟩
    refine ⟨fun url => ?_, fun account => ?_, fun uid huid => ?_, fun _ _ _ => rfl⟩
    · simp [holds_nil]
    · simp [holds_nil]
    · rcases huid with ⟨x, hx, rfl⟩ | huid | ⟨x, hx, -⟩
      · exact husers x hx
      · exact absurd huid holds_nil
      · exact absurd hx (by simp)
  obtain ⟨done, ⟨stages, hreads, hbalance⟩, hlog⟩ : ∃ done, RegisterInv w₀ w done := by
    refine run.invariant (I := fun _ w => ∃ done, RegisterInv w₀ w done) ⟨[], hinit⟩ ?_
    intro es w ev w' h hok hstep
    obtain ⟨done, h⟩ := h
    cases hstep with
    | invoke s credentials e => exact ⟨done, h.invoke s credentials e⟩
    | serve hpool hfifo hserve =>
      rename_i pre post s r k o b y
      have hget : w.pool[pre.length]? = some (s, .issued r k) := getElem?_split hpool
      exact ⟨done, h.served hpool (hok _ hget) hserve⟩
    | deliver hpool hfifo => exact h.delivered hpool
    | drop hpool => exact absurd hok id
  rw [hquiet] at hreads
  cases hreads
  have haccounts : ∀ account, account ∈ w.backend.accounts
      ↔ account ∈ w₀.backend.accounts ∨ ∃ x ∈ done, x.2.account = account := by
    intro account
    have h := hbalance.accounts account
    simp only [holds_nil, false_or] at h
    exact h
  refine ⟨fun account haccount => ?_, done, hlog, fun url => ?_, haccounts, fun path hpath => ?_⟩
  · refine hbalance.users account.2 ?_
    rcases (haccounts account).mp haccount with h | ⟨x, hx, rfl⟩
    · exact Or.inl ⟨account, h, rfl⟩
    · exact Or.inr (Or.inr ⟨x, hx, rfl⟩)
  · have h := hbalance.objects url
    simp only [holds_nil, false_or] at h
    exact h
  · exact hbalance.others path (fun uid huid => absurd huid holds_nil) hpath

end Runs

/-! ## Two runs -/

/-- Nobody has registered. -/
def nobody : AppWorld RegisterLog String := atRest Backend.empty fun _ => []

/-- What the user `a` fills in. -/
def signUpForm : AuthCredentials := ⟨"a@mail", "secret", "A", "a", ⟨some "jpeg"⟩⟩

/-- The first three requests of an attempt by `a` and their callbacks, drawing the name
`image` for the image. -/
def signUpTo (image : String) (created : Outcome) : List (AppEvent String AuthCredentials) :=
  [.invoke "s" signUpForm (turnWith "a" image), .serve 0 (.success []), .deliver 0 (turnOf "a"),
    .serve 0 (.success []), .deliver 0 (turnOf "a"), .serve 0 created, .deliver 0 (turnOf "a")]

/-- An attempt whose image is not stored, and one that goes through. -/
theorem registered_second :
    ∃ w, Run api handleSignUp GoesThrough nobody
        ([.invoke "s" signUpForm (turnWith "a" "i"), .serve 0 (.failure "offline"),
          .deliver 0 (turnOf "a")] ++ signUpTo "j" (.success ["u"])
          ++ [.serve 0 (.success []), .deliver 0 (turnOf "a")]) w
      ∧ w.Quiescent ∧ w.backend.accounts = [("a@mail", "u")]
      ∧ ∀ account ∈ w.backend.accounts, w.backend.HasUser account.2 := by
  obtain ⟨w, run, hquiet, haccounts⟩ : ∃ w, Run api handleSignUp GoesThrough nobody
      ([.invoke "s" signUpForm (turnWith "a" "i"), .serve 0 (.failure "offline"),
        .deliver 0 (turnOf "a")] ++ signUpTo "j" (.success ["u"])
        ++ [.serve 0 (.success []), .deliver 0 (turnOf "a")]) w
      ∧ w.Quiescent ∧ w.backend.accounts = [("a@mail", "u")] :=
  exists_run_of_play (by decide +kernel)
  have hrest : nobody.Quiescent := rfl
  have hnobody : ∀ account ∈ nobody.backend.accounts, nobody.backend.HasUser account.2 :=
    fun account h => absurd h List.not_mem_nil
  exact ⟨w, run, hquiet, haccounts, (registered_or_nothing hrest hnobody run hquiet).1⟩

/-- The document of the first attempt is not written, and the second one finds the e-mail
taken: an account without a document and two images nobody uses. -/
theorem registered_halfway :
    ∃ w, Run api handleSignUp (fun _ _ => True) nobody
        (signUpTo "i" (.success ["u"]) ++ [.serve 0 (.failure "offline"), .deliver 0 (turnOf "a")]
          ++ signUpTo "j" (.success ["v"])) w
      ∧ w.Quiescent ∧ (w.client "s").map Prod.snd = [some "offline"]
      ∧ w.backend.accounts = [("a@mail", "u")] ∧ w.backend.objects.length = 2
      ∧ w.backend.exists ["users", "u"] = false :=
  exists_run_of_play (by decide +kernel)

end InstaClone
