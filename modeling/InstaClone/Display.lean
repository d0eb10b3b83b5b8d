import InstaClone.Taps

/-!
# What the cells of a feed show, as a protocol of its own

The state a feed displays lives in three places: the store, the arrays of the controller,
and the view model of each cell. `View` keeps of them what decides what a cell will show:
the cells, the completions of like taps still to run, and for every post the mark and the
count that will be stored once what is pending is committed. `View.Step` lists what can
happen to it.

`View.Good` is the invariant: unless a reply is under way that will reload the feed, a
bound cell has the flag that will be stored, and the count the last outstanding completion
writes into it, or its own if there is none, is the count that will be stored. A tap sets
flag and mark together and queues count and completion together; a completion that runs
takes its count from the queue into the cell.
-/

namespace InstaClone

/-! ## Cells -/

namespace FeedCell

theorem configure_configure (cell : FeedCell) : cell.configure.configure = cell.configure := by
  obtain ⟨viewModel⟩ := cell
  cases viewModel <;> rfl

theorem updatePost_configure {f : Post → Post} {cell : FeedCell}
    (h : cell.post.isSome = true) : (cell.updatePost f).configure = cell.updatePost f := by
  unfold updatePost
  split
  next hnone => exact absurd h (by simp [post, hnone])
  next viewModel _ => exact configure_configure _

/-- `cellForItemAt` binds the cell to a row. -/
def bound (post : Post) (row : Nat) (cell : FeedCell) : FeedCell :=
  { cell.setViewModel (some ⟨post⟩) with row := some row }

@[simp] theorem bound_post (post : Post) (row : Nat) (cell : FeedCell) :
    (cell.bound post row).post = some post := by
  show (cell.setViewModel (some ⟨post⟩)).post = some post
  rw [setViewModel_post]
  rfl

@[simp] theorem bound_row (post : Post) (row : Nat) (cell : FeedCell) :
    (cell.bound post row).row = some row := rfl

theorem bound_configure (post : Post) (row : Nat) (cell : FeedCell) :
    (cell.bound post row).configure = cell.bound post row := rfl

/-- The toggle of a tapped cell. -/
def toggled (cell : FeedCell) : FeedCell :=
  cell.updatePost fun shown => { shown with didLike := !shown.didLike }

end FeedCell

/-! ## Taps -/

/-- A like tap whose completion has not run: the cell and the post its closure captured, and
the user who tapped. -/
structure Tap where
  cell : Nat
  post : Post
  user : User

/-- What the completion of a tap does to the captured cell. -/
def Tap.finished (tap : Tap) (cell : FeedCell) : FeedCell :=
  if tap.post.didLike then
    (cell.setLikeButton .heart .black).updatePost fun shown =>
      { shown with likes := tap.post.likes - 1 }
  else
    (cell.setLikeButton .heartFill .red).updatePost fun shown =>
      { shown with likes := tap.post.likes + 1 }

@[simp] theorem Tap.finished_post (tap : Tap) (cell : FeedCell) :
    (tap.finished cell).post
      = cell.post.map fun shown => { shown with likes := tap.post.tapCount } := by
  unfold finished Post.tapCount
  split <;> simp

@[simp] theorem Tap.finished_row (tap : Tap) (cell : FeedCell) :
    (tap.finished cell).row = cell.row := by
  unfold finished
  split <;> simp

theorem Tap.finished_configure {tap : Tap} {cell : FeedCell} (h : cell.post.isSome = true) :
    (tap.finished cell).configure = tap.finished cell := by
  unfold finished
  split <;> exact FeedCell.updatePost_configure h

/-! ## The view -/

/-- The cells, the taps whose completions are outstanding in the order they will run, the
mark and the count of every post once what is pending is committed, and whether a reply is
under way that will reload the feed. -/
structure View where
  cells : Nat → FeedCell
  taps : List Tap
  mark : String → Bool
  count : String → Option Int
  checking : Prop

namespace View

/-- The count cell `i` will show when all outstanding completions have run. -/
def written (v : View) (i : Nat) (likes : Int) : Int :=
  ((v.taps.filter fun tap => tap.cell = i).map fun tap => tap.post.tapCount).getLastD likes

/-- A cell that shows `post` will show the stored state. -/
def Current (v : View) (i : Nat) (post : Post) : Prop :=
  post.didLike = v.mark post.postId ∧ v.count post.postId = some (v.written i post.likes)

/-- The invariant of the protocol. -/
structure Good (v : View) : Prop where
  shown : ∀ i, (v.cells i).row.isSome = true → (v.cells i).post.isSome = true
  configured : ∀ i, (v.cells i).row.isSome = true → (v.cells i).configure = v.cells i
  distinct : ∀ i j, (v.cells i).row.isSome = true → (v.cells j).row.isSome = true →
    ∀ post ∈ (v.cells i).post, ∀ post' ∈ (v.cells j).post, post.postId = post'.postId → i = j
  current : v.checking ∨ ∀ i, (v.cells i).row.isSome = true → ∀ post ∈ (v.cells i).post,
    v.Current i post

/-- Marks stay, counts that are known stay, and a reply under way stays under way. -/
structure Frame (v v' : View) : Prop where
  mark : ∀ p, v'.mark p = v.mark p
  count : ∀ p n, v.count p = some n → v'.count p = some n
  checking : v.checking → v'.checking

/-- What can happen to a feed. -/
inductive Step (v : View) : View → Prop
  /-- Nothing a cell depends on. -/
  | same {v' : View} (hcells : v'.cells = v.cells) (htaps : v'.taps = v.taps)
      (hframe : v.Frame v') : Step v v'
  /-- The arrays are assigned: no cell is bound any more. -/
  | reload {v' : View} (hcells : ∀ i, (v'.cells i).row = none) : Step v v'
  /-- A cell is bound to a row whose post no other bound cell shows. The post is current and
  nothing outstanding will write into the cell, or the feed will be reloaded. -/
  | bind {v' : View} (cell row : Nat) (post : Post)
      (hcells : v'.cells = Function.update v.cells cell ((v.cells cell).bound post row))
      (htaps : v'.taps = v.taps) (hframe : v.Frame v')
      (halone : ∀ j, j ≠ cell → (v.cells j).row.isSome = true →
        ∀ shown ∈ (v.cells j).post, shown.postId ≠ post.postId)
      (hcurrent : v.checking ∨ post.didLike = v.mark post.postId
        ∧ v.count post.postId = some post.likes ∧ ∀ tap ∈ v.taps, tap.cell ≠ cell) : Step v v'
  /-- A bound cell is tapped. -/
  | tap {v' : View} (tap : Tap) (hbound : (v.cells tap.cell).row.isSome = true)
      (hpost : (v.cells tap.cell).post = some tap.post)
      (hcells : v'.cells = Function.update v.cells tap.cell (v.cells tap.cell).toggled)
      (htaps : v'.taps = v.taps ++ [tap])
      (hmark : ∀ p, v'.mark p = if p = tap.post.postId then !tap.post.didLike else v.mark p)
      (hcount : ∀ p n, v.count p = some n →
        v'.count p = some (if p = tap.post.postId then tap.post.tapCount else n))
      (hchecking : v.checking → v'.checking) : Step v v'
  /-- A bound cell is tapped and the guard of `unlikePost` refuses; the feed will be
  reloaded. -/
  | refused {v' : View} (cell : Nat)
      (hcells : v'.cells = Function.update v.cells cell (v.cells cell).toggled)
      (hchecking : v'.checking) : Step v v'
  /-- The completion of the earliest outstanding tap runs. -/
  | finish {v' : View} (tap : Tap) (rest : List Tap) (hqueue : v.taps = tap :: rest)
      (hcells : v'.cells = Function.update v.cells tap.cell (tap.finished (v.cells tap.cell)))
      (htaps : v'.taps = rest) (hframe : v.Frame v') : Step v v'

/-! ## The invariant -/

section Rules

variable {v v' : View}

/-- What a cell will show does not change when neither it nor its completions do. -/
theorem Current.frame {i : Nat} {post : Post} (h : v.Current i post) (hframe : v.Frame v')
    (htaps : v'.taps = v.taps) : v'.Current i post := by
  obtain ⟨hmark, hcount⟩ := h
  refine ⟨?_, ?_⟩
  · rw [hframe.mark]
    exact hmark
  · have hwritten : v'.written i post.likes = v.written i post.likes := by
      unfold written
      rw [htaps]
    rw [hwritten]
    exact hframe.count _ _ hcount

/-- A tap of another cell leaves its completions out of this one's. -/
theorem written_append_ne {i : Nat} {likes : Int} {tap : Tap} (htaps : v'.taps = v.taps ++ [tap])
    (hne : tap.cell ≠ i) : v'.written i likes = v.written i likes := by
  unfold written
  rw [htaps, List.filter_append]
  have hnil : [tap].filter (fun tap => tap.cell = i) = [] := by simp [hne]
  rw [hnil, List.append_nil]

/-- The last tap of a cell decides its count. -/
theorem written_append_self {likes : Int} {tap : Tap} (htaps : v'.taps = v.taps ++ [tap]) :
    v'.written tap.cell likes = tap.post.tapCount := by
  unfold written
  rw [htaps, List.filter_append, List.map_append]
  have hone : [tap].filter (fun t => t.cell = tap.cell) = [tap] := by simp
  rw [hone]
  simp

/-- A completion hands its count over from the queue to the cell. -/
theorem written_cons_self {likes : Int} {tap : Tap} {rest : List Tap}
    (hqueue : v.taps = tap :: rest) (htaps : v'.taps = rest) :
    v.written tap.cell likes = v'.written tap.cell tap.post.tapCount := by
  unfold written
  rw [hqueue, htaps, List.filter_cons_of_pos (by simp), List.map_cons]
  exact List.getLastD_cons ..

theorem written_cons_ne {i : Nat} {likes : Int} {tap : Tap} {rest : List Tap}
    (hqueue : v.taps = tap :: rest) (htaps : v'.taps = rest) (hne : tap.cell ≠ i) :
    v'.written i likes = v.written i likes := by
  unfold written
  rw [hqueue, htaps]
  simp [hne]

/-- Cells that are bound nowhere are good. -/
theorem Good.of_unbound (h : ∀ i, (v.cells i).row = none) : v.Good where
  shown i hi := absurd hi (by simp [h i])
  configured i hi := absurd hi (by simp [h i])
  distinct i _ hi := absurd hi (by simp [h i])
  current := Or.inr fun i hi => absurd hi (by simp [h i])

/-- A change of one cell that keeps its row and the identifier of its post, and leaves it
configured. -/
theorem Good.changed (h : v.Good) {cell : Nat} {x : FeedCell} {f : Post → Post}
    (hcells : v'.cells = Function.update v.cells cell x)
    (hrow : x.row = (v.cells cell).row) (hpost : x.post = (v.cells cell).post.map f)
    (hid : ∀ post, (f post).postId = post.postId)
    (hconfigured : (v.cells cell).row.isSome = true → x.configure = x)
    (hcurrent : v'.checking ∨ ∀ i, (v'.cells i).row.isSome = true →
      ∀ post ∈ (v'.cells i).post, v'.Current i post) : v'.Good := by
  have hrows : ∀ i, (v'.cells i).row = (v.cells i).row := by
    intro i
    rw [hcells, Function.update_apply]
    split
    next hi => rw [hi, hrow]
    next => rfl
  have hids : ∀ i, ∀ post ∈ (v'.cells i).post, ∃ shown ∈ (v.cells i).post,
      shown.postId = post.postId := by
    intro i post hp
    rw [hcells, Function.update_apply] at hp
    split at hp
    next hi =>
      rw [hpost, Option.mem_def] at hp
      obtain ⟨shown, hshown, rfl⟩ := Option.map_eq_some_iff.mp hp
      exact ⟨shown, by rw [hi]; exact hshown, (hid shown).symm⟩
    next => exact ⟨post, hp, rfl⟩
  refine ⟨fun i hi => ?_, fun i hi => ?_, fun i j hi hj post hp post' hp' heq => ?_, hcurrent⟩
  · rw [hrows] at hi
    have hsome := h.shown i hi
    rw [hcells, Function.update_apply]
    split
    next hcell =>
      rw [hcell] at hsome
      rw [hpost, Option.isSome_map]
      exact hsome
    next => exact hsome
  · rw [hrows] at hi
    rw [hcells, Function.update_apply]
    split
    next hcell =>
      rw [hcell] at hi
      exact hconfigured hi
    next => exact h.configured i hi
  · rw [hrows] at hi hj
    obtain ⟨shown, hshown, hsame⟩ := hids i post hp
    obtain ⟨shown', hshown', hsame'⟩ := hids j post' hp'
    exact h.distinct i j hi hj shown hshown shown' hshown' (by rw [hsame, hsame', heq])

/-- A post that shows what is stored is current where nothing outstanding writes into. -/
theorem Current.of_stored {cell : Nat} {post : Post} (hmark : post.didLike = v.mark post.postId)
    (hcount : v.count post.postId = some post.likes) (hfree : ∀ tap ∈ v.taps, tap.cell ≠ cell) :
    v.Current cell post := by
  have hnone : v.written cell post.likes = post.likes := by
    unfold written
    rw [List.filter_eq_nil_iff.mpr (by simpa using hfree)]
    rfl
  exact ⟨hmark, by rw [hnone]; exact hcount⟩

/-- One cell is bound to a post that no other bound cell shows. -/
theorem Good.bind (h : v.Good) {cell row : Nat} {post : Post}
    (hcells : v'.cells = Function.update v.cells cell ((v.cells cell).bound post row))
    (halone : ∀ j, j ≠ cell → (v.cells j).row.isSome = true →
      ∀ shown ∈ (v.cells j).post, shown.postId ≠ post.postId)
    (hcurrent : v'.checking ∨ v'.Current cell post
      ∧ ∀ i, (v.cells i).row.isSome = true → ∀ p ∈ (v.cells i).post, v'.Current i p) :
    v'.Good := by
  have hself : v'.cells cell = (v.cells cell).bound post row := by
    rw [hcells, Function.update_self]
  have hother : ∀ i, i ≠ cell → v'.cells i = v.cells i := by
    intro i hi
    rw [hcells, Function.update_of_ne hi]
  refine ⟨fun i hi => ?_, fun i hi => ?_, fun i j hi hj p hp p' hp' heq => ?_, ?_⟩
  · by_cases hc : i = cell
    · rw [hc, hself, FeedCell.bound_post]
      rfl
    · rw [hother i hc] at hi ⊢
      exact h.shown i hi
  · by_cases hc : i = cell
    · rw [hc, hself]
      exact FeedCell.bound_configure ..
    · rw [hother i hc] at hi ⊢
      exact h.configured i hi
  · by_cases hc : i = cell
    · by_cases hc' : j = cell
      · rw [hc, hc']
      · rw [hc, hself, FeedCell.bound_post, Option.mem_some_iff] at hp
        rw [hother j hc'] at hj hp'
        exact absurd (by rw [← heq, hp]) (halone j hc' hj p' hp')
    · rw [hother i hc] at hi hp
      by_cases hc' : j = cell
      · rw [hc', hself, FeedCell.bound_post, Option.mem_some_iff] at hp'
        exact absurd (by rw [heq, hp']) (halone i hc hi p hp)
      · rw [hother j hc'] at hj hp'
        exact h.distinct i j hi hj p hp p' hp' heq
  · refine hcurrent.imp_right fun hgood i hi p hp => ?_
    by_cases hc : i = cell
    · rw [hc, hself, FeedCell.bound_post, Option.mem_some_iff] at hp
      subst hp
      rw [hc]
      exact hgood.1
    · rw [hother i hc] at hi hp
      exact hgood.2 i hi p hp

/-- The toggle of a tap keeps every bound cell current: the tapped one against the new mark
and the count its own completion will write, the others because they show other posts. -/
theorem Good.current_tap (h : v.Good) {tap : Tap}
    (hbound : (v.cells tap.cell).row.isSome = true)
    (hpost : (v.cells tap.cell).post = some tap.post)
    (hcells : v'.cells = Function.update v.cells tap.cell (v.cells tap.cell).toggled)
    (htaps : v'.taps = v.taps ++ [tap])
    (hmark : ∀ p, v'.mark p = if p = tap.post.postId then !tap.post.didLike else v.mark p)
    (hcount : ∀ p n, v.count p = some n →
      v'.count p = some (if p = tap.post.postId then tap.post.tapCount else n))
    (hgood : ∀ i, (v.cells i).row.isSome = true → ∀ post ∈ (v.cells i).post, v.Current i post)
    {i : Nat} (hi : (v'.cells i).row.isSome = true) {p : Post} (hp : p ∈ (v'.cells i).post) :
    v'.Current i p := by
  by_cases hc : i = tap.cell
  · subst hc
    rw [hcells, Function.update_self, FeedCell.toggled, FeedCell.updatePost_post, hpost,
      Option.map_some, Option.mem_some_iff] at hp
    subst hp
    refine ⟨?_, ?_⟩
    · rw [hmark, if_pos rfl]
    · rw [written_append_self htaps, hcount _ _ (hgood _ hbound _ hpost).2, if_pos rfl]
  · rw [hcells, Function.update_of_ne hc] at hi hp
    obtain ⟨hflag, hlikes⟩ := hgood i hi p hp
    have hne : p.postId ≠ tap.post.postId := fun heq =>
      hc (h.distinct i tap.cell hi hbound p hp tap.post hpost heq)
    refine ⟨?_, ?_⟩
    · rw [hmark, if_neg hne]
      exact hflag
    · rw [written_append_ne htaps (Ne.symm hc), hcount _ _ hlikes, if_neg hne]

/-- A completion keeps every bound cell current. -/
theorem current_finish {tap : Tap} {rest : List Tap} (hqueue : v.taps = tap :: rest)
    (hcells : v'.cells = Function.update v.cells tap.cell (tap.finished (v.cells tap.cell)))
    (htaps : v'.taps = rest) (hframe : v.Frame v')
    (hgood : ∀ i, (v.cells i).row.isSome = true → ∀ post ∈ (v.cells i).post, v.Current i post)
    {i : Nat} (hi : (v'.cells i).row.isSome = true) {p : Post} (hp : p ∈ (v'.cells i).post) :
    v'.Current i p := by
  by_cases hc : i = tap.cell
  · subst hc
    rw [hcells, Function.update_self] at hi hp
    rw [Tap.finished_row] at hi
    rw [Tap.finished_post, Option.mem_def] at hp
    obtain ⟨shown, hshown, rfl⟩ := Option.map_eq_some_iff.mp hp
    obtain ⟨hflag, hlikes⟩ := hgood _ hi shown hshown
    rw [written_cons_self hqueue htaps] at hlikes
    refine ⟨?_, hframe.count _ _ hlikes⟩
    rw [hframe.mark]
    exact hflag
  · rw [hcells, Function.update_of_ne hc] at hi hp
    obtain ⟨hflag, hlikes⟩ := hgood i hi p hp
    refine ⟨?_, ?_⟩
    · rw [hframe.mark]
      exact hflag
    · rw [written_cons_ne hqueue htaps (Ne.symm hc)]
      exact hframe.count _ _ hlikes

/-- **The protocol keeps its invariant.** -/
theorem Step.good (hstep : v.Step v') (h : v.Good) : v'.Good := by
  cases hstep with
  | same hcells htaps hframe =>
    obtain ⟨hshown, hconfigured, hdistinct, hcurrent⟩ := h
    rw [← hcells] at hshown hconfigured hdistinct hcurrent
    refine ⟨hshown, hconfigured, hdistinct, ?_⟩
    rcases hcurrent with hchecking | hcurrent
    · exact Or.inl (hframe.checking hchecking)
    · exact Or.inr fun i hi post hpost => (hcurrent i hi post hpost).frame hframe htaps
  | reload hcells => exact .of_unbound hcells
  | bind cell row post hcells htaps hframe halone hcurrent =>
    refine h.bind hcells halone ?_
    rcases h.current with hchecking | hgood
    · exact Or.inl (hframe.checking hchecking)
    rcases hcurrent with hchecking | ⟨hmark, hcount, hfree⟩
    · exact Or.inl (hframe.checking hchecking)
    · have hshown : v.Current cell post := .of_stored hmark hcount hfree
      exact Or.inr ⟨hshown.frame hframe htaps, fun i hi p hp =>
        (hgood i hi p hp).frame hframe htaps⟩
  | tap tap hbound hpost hcells htaps hmark hcount hchecking =>
    have hsome : (v.cells tap.cell).post.isSome = true := by rw [hpost]; rfl
    refine h.changed hcells (FeedCell.updatePost_row ..) (FeedCell.updatePost_post ..)
      (fun _ => rfl) (fun _ => FeedCell.updatePost_configure hsome) ?_
    rcases h.current with hcheck | hgood
    · exact Or.inl (hchecking hcheck)
    · exact Or.inr fun i hi p hp =>
        h.current_tap hbound hpost hcells htaps hmark hcount hgood hi hp
  | refused cell hcells hchecking =>
    refine h.changed hcells (FeedCell.updatePost_row ..) (FeedCell.updatePost_post ..)
      (fun _ => rfl) (fun hrow => FeedCell.updatePost_configure (h.shown cell hrow))
      (Or.inl hchecking)
  | finish tap rest hqueue hcells htaps hframe =>
    refine h.changed hcells (Tap.finished_row ..) (Tap.finished_post ..) (fun _ => rfl)
      (fun hrow => Tap.finished_configure (h.shown _ hrow)) ?_
    rcases h.current with hcheck | hgood
    · exact Or.inl (hframe.checking hcheck)
    · exact Or.inr fun i hi p hp => current_finish hqueue hcells htaps hframe hgood hi hp

end Rules

end View

end InstaClone
