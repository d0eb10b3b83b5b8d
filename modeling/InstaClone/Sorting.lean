import Mathlib.Data.List.Induction
import Mathlib.Data.List.Perm.Basic
import Mathlib.Order.Basic

/-!
# Stable sorting by a coarse comparator

A comparator that looks at part of a key leaves ties, and a stable sort leaves tied elements in
the order it has found them. `mergeSort_eq_iff` says when that is nevertheless the order of the
whole key: exactly when tied elements come in that order already.

Inserting by appending and sorting again (`insertSorted`) is independent of the order of
insertion up to ties (`SameUpToTies`).
-/

namespace Sorting

variable {α β κ : Type}

/-- A comparator that sorts: `le a b` when `a` may stand before `b`. -/
structure Comparator (le : α → α → Bool) : Prop where
  trans : ∀ a b c, le a b = true → le b c = true → le a c = true
  total : ∀ a b, (le a b || le b a) = true

/-- Each may stand before the other. -/
def Tied (le : α → α → Bool) (a b : α) : Prop := le a b = true ∧ le b a = true

/-- `fine` orders the elements of `l` as `le` does and breaks its ties. -/
structure Refines (fine : α → α → Prop) (le : α → α → Bool) (l : List α) : Prop where
  strict : ∀ a ∈ l, ∀ b ∈ l, le b a = false → fine a b
  antisymm : ∀ a ∈ l, ∀ b ∈ l, fine a b → fine b a → a = b

/-! ## Pairs of a list, in order -/

/-- Of two elements of a list one comes before the other. -/
theorem pair_sublist_or {l : List α} {a b : α} (ha : a ∈ l) (hb : b ∈ l) (hne : a ≠ b) :
    [a, b].Sublist l ∨ [b, a].Sublist l := by
  induction l with
  | nil => exact absurd ha (by simp)
  | cons x l ih =>
    rcases List.mem_cons.mp ha with rfl | ha'
    · have hb' : b ∈ l := (List.mem_cons.mp hb).resolve_left (Ne.symm hne)
      exact Or.inl ((List.singleton_sublist.mpr hb').cons_cons a)
    · rcases List.mem_cons.mp hb with rfl | hb'
      · exact Or.inr ((List.singleton_sublist.mpr ha').cons_cons b)
      · exact (ih ha' hb').imp (fun h => h.cons x) fun h => h.cons x

/-- Without repetition it does not come after it as well. -/
theorem not_pair_sublist_swap {l : List α} {a b : α} (hnodup : l.Nodup)
    (h : [a, b].Sublist l) : ¬ [b, a].Sublist l := by
  induction l with
  | nil => exact absurd h (by simp)
  | cons x l ih =>
    obtain ⟨hx, hl⟩ := List.nodup_cons.mp hnodup
    intro hswap
    cases h with
    | cons _ h =>
      cases hswap with
      | cons _ hswap => exact ih hl h hswap
      | cons_cons _ hswap => exact hx (h.subset (by simp))
    | cons_cons _ h =>
      cases hswap with
      | cons _ hswap => exact hx (hswap.subset (by simp))
      | cons_cons _ hswap => exact hx (List.singleton_sublist.mp h)

/-! ## When a stable sort sorts by the whole key -/

/-- **A stable sort by a coarse comparator** gives the order of the whole key exactly if tied
elements come in that order already. -/
theorem mergeSort_eq_iff {le : α → α → Bool} (hle : Comparator le) {fine : α → α → Prop}
    {l sorted : List α} (hnodup : l.Nodup) (hfine : Refines fine le l) (hperm : sorted.Perm l)
    (hsorted : sorted.Pairwise fine) :
    l.mergeSort le = sorted ↔ l.Pairwise fun a b => Tied le a b → fine a b := by
  have hstable : ∀ {a b}, [a, b].Sublist l → le a b = true → [a, b].Sublist (l.mergeSort le) :=
    fun h hab => List.pair_sublist_mergeSort hle.trans hle.total hab h
  constructor
  · intro heq
    refine List.pairwise_of_forall_sublist fun {a b} hpair htied => ?_
    have hkept := hstable hpair htied.1
    rw [heq] at hkept
    exact hsorted.forall_sublist hkept
  · intro hties
    have hself : (l.mergeSort le).Perm l := List.mergeSort_perm l le
    refine List.Perm.eq_of_pairwise ?_ ?_ hsorted (hself.trans hperm.symm)
    · intro a b ha hb
      exact hfine.antisymm a (hself.mem_iff.mp ha) b (hperm.mem_iff.mp hb)
    · refine List.pairwise_of_forall_sublist fun {a b} hpair => ?_
      have ha : a ∈ l := hself.mem_iff.mp (hpair.subset (by simp))
      have hb : b ∈ l := hself.mem_iff.mp (hpair.subset (by simp))
      have hab : le a b = true :=
        (List.pairwise_mergeSort hle.trans hle.total l).forall_sublist hpair
      cases hba : le b a with
      | false => exact hfine.strict a ha b hb hba
      | true =>
        -- tied elements stand as they stood
        have hne : a ≠ b := by
          rintro rfl
          exact not_pair_sublist_swap (hself.nodup_iff.mpr hnodup) hpair hpair
        rcases pair_sublist_or ha hb hne with hbefore | hafter
        · exact hties.forall_sublist hbefore ⟨hab, hba⟩
        · exact absurd (hstable hafter hba)
            (not_pair_sublist_swap (hself.nodup_iff.mpr hnodup) hpair)

/-! ## Sorting after every insertion -/

/-- Append, and sort again. -/
def insertSorted (le : α → α → Bool) (l : List α) (a : α) : List α := (l ++ [a]).mergeSort le

/-- All insertions in turn. -/
def insertAll (le : α → α → Bool) (l : List α) : List α := l.foldl (insertSorted le) []

@[simp] theorem insertAll_nil (le : α → α → Bool) : insertAll le ([] : List α) = [] := rfl

theorem insertAll_append (le : α → α → Bool) (l : List α) (a : α) :
    insertAll le (l ++ [a]) = insertSorted le (insertAll le l) a := by
  unfold insertAll
  rw [List.foldl_append]
  rfl

/-- Everything inserted is there, once for each time. -/
theorem insertAll_perm (le : α → α → Bool) (l : List α) : (insertAll le l).Perm l := by
  induction l using List.reverseRecOn with
  | nil => exact .nil
  | append_singleton l a ih =>
    rw [insertAll_append]
    exact (List.mergeSort_perm _ _).trans (ih.append_right [a])

theorem insertAll_sorted {le : α → α → Bool} (hle : Comparator le) (l : List α) :
    (insertAll le l).Pairwise fun a b => le a b = true := by
  induction l using List.reverseRecOn with
  | nil => exact .nil
  | append_singleton l a ih =>
    rw [insertAll_append]
    exact List.pairwise_mergeSort hle.trans hle.total _

/-- The same elements, with the same keys at the same places. -/
def SameUpToTies (key : α → κ) (l l' : List α) : Prop := l.Perm l' ∧ l.map key = l'.map key

/-- Two lists of the same elements that are sorted by `key` differ in ties only. -/
theorem SameUpToTies.of_sorted [PartialOrder κ] {key : α → κ} {l l' : List α} (h : l.Perm l')
    (hl : l.Pairwise fun a b => key b ≤ key a) (hl' : l'.Pairwise fun a b => key b ≤ key a) :
    SameUpToTies key l l' := by
  refine ⟨h, ?_⟩
  have hkeys : (l.map key).Pairwise fun x y => y ≤ x := List.pairwise_map.mpr hl
  have hkeys' : (l'.map key).Pairwise fun x y => y ≤ x := List.pairwise_map.mpr hl'
  exact (h.map key).eq_of_pairwise (fun x y _ _ hxy hyx => le_antisymm hyx hxy) hkeys hkeys'

end Sorting
