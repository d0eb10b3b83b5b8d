import Mathlib.Data.List.Infix
import InstaClone.Rows

/-!
# What the search shows and what it selects

`SearchController` filters its users when the text of the search bar changes and keeps what
it has found in `filteredUsers`. In search mode the rows are read from there. A list that is
delivered afterwards replaces `users` and leaves `filteredUsers` as it is, so the rows are
those found in the list before. And where a partner for a chat is looked for, the selected
row is read from `users` in search mode too, where another user may stand in it.

`searching` is what a sequence of events has looked for last: the text, and the list that
was there. The rows are right as long as the list delivered last has the same users matching
that text, and so is the selection of a partner if moreover these users come first in it
(`search_iff`).
-/

namespace InstaClone

open Async (Machine subscript subscript_isSome)

/-- What the selection of a row does. -/
inductive SearchSelection where
  | startsChat (user : User)
  | opensProfile (user : User)
deriving DecidableEq

def SearchSelection.user : SearchSelection → User
  | .startsChat user => user
  | .opensProfile user => user

namespace SearchRows

variable {config : UserFilterConfig} {strings : StringOps}
variable {search search' : SearchRows} {es : List SearchRowsEvent} {ev : SearchRowsEvent}

/-- `tableView(_:didSelectRowAt:)`. -/
def didSelectRowAt (config : UserFilterConfig) (search : SearchRows) (row : Nat) :
    Option SearchSelection :=
  if config = .messages then subscript search.users row .startsChat
  else subscript search.shown row .opensProfile

/-- It traps when the machine does. -/
theorem step_didSelectRowAt (row : Nat) :
    search.step config strings (.didSelectRowAt row)
      = (didSelectRowAt config search row).map fun _ => search := by
  unfold didSelectRowAt
  simp only [step, subscript]
  split
  next => rw [Option.map_map]; rfl
  next => rw [Option.map_map]; rfl

/-- The controller when lists may be delivered at any time. -/
def anyDeliveries (config : UserFilterConfig) (strings : StringOps) :
    Machine SearchRows SearchRowsEvent :=
  { machine config strings with
    allows := fun search ev =>
      match ev with
      | .didFetchUsers _ => True
      | ev => search.allows config ev }

/-- Those of the services are among them. -/
theorem run_anyDeliveries (run : (machine config strings).Run es search) :
    (anyDeliveries config strings).Run es search := by
  induction run with
  | nil hstart => exact .nil hstart
  | @snoc es s s' ev _ hallowed hstep ih =>
    refine .snoc ih ?_ hstep
    cases ev with
    | didFetchUsers users => trivial
    | _ => exact hallowed

/-! ## What has been delivered, and what has been searched -/

/-- The list delivered last. -/
def delivered (es : List SearchRowsEvent) : List User :=
  es.foldl
    (fun users ev =>
      match ev with
      | .didFetchUsers users => users
      | _ => users)
    []

/-- The text of the search that is on and the list it has gone through. -/
def searching (es : List SearchRowsEvent) : Option (String × List User) :=
  (es.foldl
    (fun (users, on) ev =>
      match ev with
      | .didFetchUsers users => (users, on)
      | .updateSearchResults isActive text =>
        (users, if isActive && text != "" then some (text, users) else none)
      | .searchBarCancelButtonClicked => (users, none)
      | _ => (users, on))
    (([] : List User), (none : Option (String × List User)))).2

theorem delivered_snoc :
    delivered (es ++ [ev])
      = match ev with
        | .didFetchUsers users => users
        | _ => delivered es := List.foldl_append

/-- The list that `searching` carries along is the one delivered last. -/
theorem searching_users :
    (es.foldl
      (fun (users, on) ev =>
        match ev with
        | .didFetchUsers users => (users, on)
        | .updateSearchResults isActive text =>
          (users, if isActive && text != "" then some (text, users) else none)
        | .searchBarCancelButtonClicked => (users, none)
        | _ => (users, on))
      (([] : List User), (none : Option (String × List User)))).1 = delivered es := by
  induction es using List.reverseRecOn with
  | nil => rfl
  | append_singleton es ev ih =>
    rw [delivered_snoc, List.foldl_append]
    cases ev with
    | didFetchUsers users => rfl
    | _ => exact ih

theorem searching_snoc :
    searching (es ++ [ev])
      = match ev with
        | .updateSearchResults isActive text =>
          if isActive && text != "" then some (text, delivered es) else none
        | .searchBarCancelButtonClicked => none
        | _ => searching es := by
  unfold searching
  rw [List.foldl_append]
  cases ev with
  | updateSearchResults isActive text =>
    dsimp only [List.foldl_cons, List.foldl_nil]
    rw [searching_users]
  | _ => rfl

/-! ## Whom the rows show and select -/

/-- Does the user's name or full name contain the text, in lower case? -/
def Matches (strings : StringOps) (text : String) (user : User) : Prop :=
  strings.contains (strings.lowercased user.username) (strings.lowercased text) = true
    ∨ strings.contains (strings.lowercased user.fullname) (strings.lowercased text) = true

instance (strings : StringOps) (text : String) (user : User) :
    Decidable (Matches strings text user) := inferInstanceAs (Decidable (_ ∨ _))

/-- The rows are those of the users delivered last, in search mode of those that match. -/
def ShowsUsers (strings : StringOps) (es : List SearchRowsEvent)
    (search : SearchRows) : Prop :=
  search.tableRows = search.shown.length
    ∧ search.shown =
      if search.inSearchMode then
        (delivered es).filter fun user => decide (Matches strings search.text user)
      else delivered es

/-- The selection of a row is about the user displayed in it: a chat is started with him where
a partner is looked for, his profile is opened elsewhere. -/
def SelectsShown (config : UserFilterConfig) (search : SearchRows) : Prop :=
  ∀ row < search.tableRows, ∃ user, search.shown[row]? = some user
    ∧ didSelectRowAt config search row
      = some (if config = .messages then .startsChat user else .opensProfile user)

/-! ## What the controller keeps -/

/-- The filter keeps the users that match. -/
theorem filtered_eq (text : String) (users : List User) :
    filtered strings text users
      = users.filter fun user => decide (Matches strings text user) := by
  refine List.filter_congr fun user _ => ?_
  exact Bool.or_eq_decide _ _

/-- `users` is the list delivered last. In search mode `filteredUsers` has what has been found
in the list that was searched. -/
structure SearchInv (strings : StringOps) (es : List SearchRowsEvent)
    (search : SearchRows) : Prop where
  rows : search.tableRows = search.shown.length
  users : search.users = delivered es
  mode : search.inSearchMode = (searching es).isSome
  found : ∀ text before, searching es = some (text, before) →
    search.text = text ∧ search.filteredUsers = filtered strings text before

/-- An event that neither delivers nor searches leaves it to the posts to change. -/
theorem SearchInv.idle (h : SearchInv strings es search)
    (hdelivered : delivered (es ++ [ev]) = delivered es)
    (hsearching : searching (es ++ [ev]) = searching es) (posts : List Post) (gridRows : Nat) :
    SearchInv strings (es ++ [ev]) { search with posts := posts, gridRows := gridRows } := by
  refine ⟨h.rows, ?_, ?_, ?_⟩
  · rw [hdelivered]
    exact h.users
  · rw [hsearching]
    exact h.mode
  · rw [hsearching]
    exact h.found

theorem SearchInv.step (h : SearchInv strings es search)
    (hstep : search.step config strings ev = some search') :
    SearchInv strings (es ++ [ev]) search' := by
  cases ev with
  | didFetchUsers users =>
    rw [← Option.some.inj hstep]
    refine ⟨rfl, ?_, ?_, ?_⟩
    · rw [delivered_snoc]
      rfl
    · rw [searching_snoc]
      exact h.mode
    · rw [searching_snoc]
      exact h.found
  | updateSearchResults isActive text =>
    rw [← Option.some.inj hstep]
    refine ⟨rfl, ?_, ?_, ?_⟩
    · rw [delivered_snoc]
      exact h.users
    · rw [searching_snoc]
      dsimp only
      show (isActive && text != "") = _
      generalize (isActive && text != "") = on
      cases on with
      | true => rfl
      | false => rfl
    · intro text' before hsearching
      rw [searching_snoc] at hsearching
      obtain ⟨-, heq⟩ := Option.ite_none_right_eq_some.mp hsearching
      obtain ⟨rfl, rfl⟩ := Prod.mk.inj (Option.some.inj heq)
      exact ⟨rfl, congrArg _ h.users⟩
  | searchBarCancelButtonClicked =>
    rw [← Option.some.inj hstep]
    refine ⟨rfl, ?_, ?_, ?_⟩
    · rw [delivered_snoc]
      exact h.users
    · rw [searching_snoc]
      show (search.isActive && "" != "") = false
      rw [bne_self_eq_false, Bool.and_false]
    · intro text before hsearching
      rw [searching_snoc] at hsearching
      exact absurd hsearching (by simp)
  | didFetchPosts posts =>
    rw [← Option.some.inj hstep]
    exact h.idle delivered_snoc searching_snoc posts posts.length
  | cellForRowAt row =>
    rw [eq_of_subscript hstep]
    exact h.idle delivered_snoc searching_snoc search.posts search.gridRows
  | didSelectRowAt row =>
    rw [step_didSelectRowAt] at hstep
    obtain ⟨selection, -, rfl⟩ := Option.map_eq_some_iff.mp hstep
    exact h.idle delivered_snoc searching_snoc search.posts search.gridRows
  | cellForItemAt item =>
    rw [eq_of_subscript hstep]
    exact h.idle delivered_snoc searching_snoc search.posts search.gridRows
  | didSelectItemAt item =>
    rw [eq_of_subscript hstep]
    exact h.idle delivered_snoc searching_snoc search.posts search.gridRows

theorem searchInv (run : (anyDeliveries config strings).Run es search) :
    SearchInv strings es search := by
  refine run.invariant (I := fun es search => SearchInv strings es search) ?_ ?_
  · intro search hstart
    obtain rfl : search = {} := hstart
    exact ⟨rfl, rfl, rfl, fun _ _ hsearching => (nomatch hsearching)⟩
  · exact fun _ _ _ _ h _ hstep => h.step hstep

/-! ## When the rows are right, and when the selection is -/

/-- The users found when the text was last changed are those that match in the list delivered
last. -/
def FoundCurrent (strings : StringOps) (es : List SearchRowsEvent) : Prop :=
  ∀ text before, searching es = some (text, before) →
    (before.filter fun user => decide (Matches strings text user))
      = (delivered es).filter fun user => decide (Matches strings text user)

/-- The users found when the text was last changed come first in the list delivered last. -/
def FoundFirst (strings : StringOps) (es : List SearchRowsEvent) : Prop :=
  ∀ text before, searching es = some (text, before) →
    (before.filter fun user => decide (Matches strings text user)) <+: delivered es

/-- The rows while nothing is searched. -/
theorem SearchInv.shown_idle (h : SearchInv strings es search)
    (hsearching : searching es = none) :
    search.inSearchMode = false ∧ search.shown = delivered es := by
  have hmode := h.mode
  rw [hsearching] at hmode
  have hmode : search.inSearchMode = false := hmode
  refine ⟨hmode, ?_⟩
  unfold shown
  rw [hmode]
  exact h.users

/-- The rows while a text is searched. -/
theorem SearchInv.shown_searching (h : SearchInv strings es search) {text : String}
    {before : List User} (hsearching : searching es = some (text, before)) :
    search.inSearchMode = true ∧ search.text = text
      ∧ search.shown = before.filter fun user => decide (Matches strings text user) := by
  have hmode := h.mode
  rw [hsearching] at hmode
  have hmode : search.inSearchMode = true := hmode
  obtain ⟨htext, hfiltered⟩ := h.found text before hsearching
  refine ⟨hmode, htext, ?_⟩
  unfold shown
  rw [hmode, ← filtered_eq]
  exact hfiltered

theorem SearchInv.showsUsers_iff (h : SearchInv strings es search) :
    search.ShowsUsers strings es ↔ FoundCurrent strings es := by
  unfold ShowsUsers FoundCurrent
  cases hsearching : searching es with
  | none =>
    obtain ⟨hmode, hshown⟩ := h.shown_idle hsearching
    rw [hmode]
    exact iff_of_true ⟨h.rows, hshown⟩ fun _ _ hnone => (nomatch hnone)
  | some found =>
    obtain ⟨text, before⟩ := found
    obtain ⟨hmode, rfl, hshown⟩ := h.shown_searching hsearching
    rw [hmode, if_pos rfl, hshown]
    constructor
    · rintro ⟨-, heq⟩ text' before' hsome
      obtain ⟨rfl, rfl⟩ := Prod.mk.inj (Option.some.inj hsome)
      exact heq
    · intro hcurrent
      exact ⟨hshown ▸ h.rows, hcurrent _ _ rfl⟩

/-- A row that is selected is right if `users` has the user shown there too. -/
theorem selectsShown_iff (hrows : search.tableRows = search.shown.length) :
    search.SelectsShown config ↔ (config = .messages → search.shown <+: search.users) := by
  unfold SelectsShown didSelectRowAt
  rw [hrows]
  by_cases hmessages : config = .messages
  · simp only [if_pos hmessages]
    rw [forall_prop_of_true hmessages, List.prefix_iff_getElem?]
    refine forall_congr' fun row => forall_congr' fun hrow => ?_
    rw [List.getElem?_eq_getElem hrow]
    constructor
    · rintro ⟨user, huser, hselected⟩
      obtain ⟨user', huser', heq⟩ := Option.map_eq_some_iff.mp hselected
      obtain rfl := SearchSelection.startsChat.inj heq
      exact huser'.trans huser.symm
    · intro huser
      exact ⟨_, rfl, congrArg (Option.map SearchSelection.startsChat) huser⟩
  · simp only [if_neg hmessages]
    refine iff_of_true (fun row hrow => ?_) fun h => absurd h hmessages
    refine ⟨_, List.getElem?_eq_getElem hrow, ?_⟩
    unfold subscript
    rw [List.getElem?_eq_getElem hrow]
    rfl

theorem SearchInv.prefix_iff (h : SearchInv strings es search) :
    search.shown <+: search.users ↔ FoundFirst strings es := by
  unfold FoundFirst
  rw [h.users]
  cases hsearching : searching es with
  | none =>
    obtain ⟨-, hshown⟩ := h.shown_idle hsearching
    rw [hshown]
    exact iff_of_true List.prefix_rfl fun _ _ hnone => (nomatch hnone)
  | some found =>
    obtain ⟨text, before⟩ := found
    obtain ⟨-, -, hshown⟩ := h.shown_searching hsearching
    rw [hshown]
    constructor
    · intro hprefix text' before' hsome
      obtain ⟨rfl, rfl⟩ := Prod.mk.inj (Option.some.inj hsome)
      exact hprefix
    · exact fun hfirst => hfirst _ _ rfl

end SearchRows

open SearchRows

/-- At every moment the rows and the selection are right if and only if the users found when
the text was last changed are those that match in the list delivered last and, where a partner
is looked for, come first in it. -/
theorem search_iff (config : UserFilterConfig) (strings : StringOps)
    (es : List SearchRowsEvent) (search : SearchRows)
    (run : (anyDeliveries config strings).Run es search) :
    search.ShowsUsers strings es ∧ search.SelectsShown config ↔
      FoundCurrent strings es ∧ (config = .messages → FoundFirst strings es) := by
  have hinv := searchInv run
  rw [hinv.showsUsers_iff, selectsShown_iff hinv.rows, hinv.prefix_iff]

/-! ## Two users -/

def ann : User := User.init (dict [("uid", .string "a"), ("username", .string "Ann")])

def bob : User := User.init (dict [("uid", .string "b"), ("username", .string "Bob")])

/-- A partner is looked for and Ann is found, who comes first. -/
theorem search_iff_first :
    ∃ search, (SearchRows.machine .messages stringsASCII).Run
        [.didFetchUsers [ann, bob], .updateSearchResults true "an"] search
      ∧ search.shown = [ann]
      ∧ search.SelectsShown .messages := by
  have fetched : (SearchRows.machine .messages stringsASCII).Run
      [.didFetchUsers [ann, bob]] _ := .snoc (.nil rfl) (fun _ => rfl) rfl
  have found : (SearchRows.machine .messages stringsASCII).Run
      [.didFetchUsers [ann, bob], .updateSearchResults true "an"] _ :=
    .snoc fetched trivial rfl
  refine ⟨_, found, by decide, ?_⟩
  refine ((search_iff .messages stringsASCII _ _ (run_anyDeliveries found)).mpr ⟨?_, ?_⟩).2
  · intro text before hsearching
    obtain ⟨rfl, rfl⟩ := Prod.mk.inj (Option.some.inj hsearching)
    rfl
  · intro _ text before hsearching
    obtain ⟨rfl, rfl⟩ := Prod.mk.inj (Option.some.inj hsearching)
    decide

/-- Bob is found and a chat is started with Ann. And of the users who like a post, Ann is
delivered, Bob is looked for, and he is not shown when he is delivered too. -/
theorem search_outdated :
    (∃ search, (SearchRows.machine .messages stringsASCII).Run
        [.didFetchUsers [ann, bob], .updateSearchResults true "bob"] search
      ∧ search.shown = [bob] ∧ 0 < search.tableRows
      ∧ didSelectRowAt .messages search 0 = some (.startsChat ann)
      ∧ ¬ search.SelectsShown .messages)
    ∧ ∃ search, (SearchRows.machine (.likes "p") stringsASCII).Run
        [.didFetchUsers [ann], .updateSearchResults true "bob", .didFetchUsers [ann, bob]] search
      ∧ search.inSearchMode = true ∧ search.users = [ann, bob] ∧ search.shown = []
      ∧ ¬ search.ShowsUsers stringsASCII
          [.didFetchUsers [ann], .updateSearchResults true "bob", .didFetchUsers [ann, bob]] := by
  constructor
  · have fetched : (SearchRows.machine .messages stringsASCII).Run
        [.didFetchUsers [ann, bob]] _ := .snoc (.nil rfl) (fun _ => rfl) rfl
    refine ⟨_, .snoc fetched trivial rfl, by decide, by decide, by decide, fun hselects => ?_⟩
    exact absurd ((selectsShown_iff rfl).mp hselects rfl) (by decide)
  · have fetched : (SearchRows.machine (.likes "p") stringsASCII).Run
        [.didFetchUsers [ann]] _ := .snoc (.nil rfl) (fun h => by simp at h) rfl
    have found : (SearchRows.machine (.likes "p") stringsASCII).Run
        [.didFetchUsers [ann], .updateSearchResults true "bob"] _ := .snoc fetched trivial rfl
    refine ⟨_, .snoc found (fun h => by simp at h) rfl, by decide, by decide, by decide,
      fun hshows => ?_⟩
    exact absurd hshows.2 (by decide)

end InstaClone
