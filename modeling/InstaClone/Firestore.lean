import Mathlib.Data.List.AList
import Mathlib.Data.List.Perm.Basic
import InstaClone.Async.World

/-!
# The backend: Firestore documents, Storage objects, Auth accounts

Firestore is a finite map from document paths to documents. A path is the list
of its segments, written out exactly as the source builds it
(`COLLECTION_USERS.document(u).collection("user-likes").document(p)` is
`["users", u, "user-likes", p]`), so two functions that spell a collection
differently name different documents here too.

`serve` is the whole backend as a step function: each `setData`, `updateData`
and `delete` is atomic, an `updateData` of a missing document is rejected, a
query returns the matching documents in any order its `order(by:)` leaves open
(the outcome names the order), and every request may fail without effect.
-/

namespace InstaClone

open Async (Api Prog World Event)

/-! ## Values and documents -/

/-- `Timestamp` of the Firestore SDK. -/
structure Timestamp where
  seconds : Int
  nanoseconds : Int
deriving DecidableEq, Repr

/-- Earlier or equal, by seconds and then by nanoseconds. -/
def Timestamp.le (t u : Timestamp) : Bool :=
  t.seconds < u.seconds || (t.seconds == u.seconds && t.nanoseconds ≤ u.nanoseconds)

/-- The field values this code stores. -/
inductive Value where
  | string (s : String)
  | int (i : Int)
  | timestamp (t : Timestamp)
  | strings (l : List String)
deriving DecidableEq, Repr

/-- A dictionary `[String: Any]`: the contents of a document, or the fields of
an update. -/
abbrev Doc := String → Option Value

/-- A dictionary literal. -/
def dict (fields : List (String × Value)) : Doc := fun key => fields.lookup key

/-- What a dictionary literal holds stands in it. -/
theorem mem_of_dict {fields : List (String × Value)} {key : String} {v : Value}
    (h : dict fields key = some v) : (key, v) ∈ fields := by
  obtain ⟨l₁, l₂, rfl, -⟩ := List.lookup_eq_some_iff.mp h
  simp

/-- A dictionary literal without a repeated key holds all that stands in it. -/
theorem dict_of_mem {fields : List (String × Value)} (hnodup : (fields.map Prod.fst).Nodup)
    {key : String} {v : Value} (h : (key, v) ∈ fields) : dict fields key = some v := by
  obtain ⟨l₁, l₂, rfl⟩ := List.append_of_mem h
  refine List.lookup_eq_some_iff.mpr ⟨l₁, l₂, rfl, fun x hx => ?_⟩
  rw [List.map_append, List.map_cons, List.nodup_middle, List.nodup_cons] at hnodup
  rw [bne_iff_ne]
  intro hkey
  exact hnodup.1 (List.mem_append_left _ (List.mem_map.mpr ⟨x, hx, hkey.symm⟩))

/-- `dictionary[key] as? String`. -/
def Doc.string (d : Doc) (key : String) : Option String :=
  match d key with
  | some (.string s) => some s
  | _ => none

/-- `dictionary[key] as? Int`. -/
def Doc.int (d : Doc) (key : String) : Option Int :=
  match d key with
  | some (.int i) => some i
  | _ => none

/-- `dictionary[key] as? Timestamp`. -/
def Doc.timestamp (d : Doc) (key : String) : Option Timestamp :=
  match d key with
  | some (.timestamp t) => some t
  | _ => none

/-- `dictionary[key] as? [String]`. -/
def Doc.strings (d : Doc) (key : String) : Option (List String) :=
  match d key with
  | some (.strings l) => some l
  | _ => none

/-- `updateData`: the given fields replace or join the stored ones. -/
def Doc.merge (d fields : Doc) : Doc := fun key => (fields key).or (d key)

/-! ## The document store -/

/-- The segments of a path, from the root collection down. -/
abbrev Path := List String

/-- The stored documents. -/
abbrev Store := AList fun _ : Path => Doc

/-- The last segment of `path` when it names a document directly in `coll`. -/
def childOf : Path → Path → Option String
  | [], [id] => some id
  | c :: coll, x :: path => if c = x then childOf coll path else none
  | _, _ => none

theorem childOf_eq_some {coll path : Path} {id : String} :
    childOf coll path = some id ↔ path = coll ++ [id] := by
  induction coll generalizing path with
  | nil =>
    cases path with
    | nil => simp [childOf]
    | cons x path => cases path <;> simp [childOf]
  | cons c coll ih =>
    cases path with
    | nil => simp [childOf]
    | cons x path =>
      by_cases h : c = x
      · simp [childOf, h, ih]
      · simp [childOf, h, Ne.symm h]

/-- The documents of a collection with their identifiers. -/
def Store.documents (s : Store) (coll : Path) : List (String × Doc) :=
  s.entries.filterMap fun entry => (childOf coll entry.1).map fun id => (id, entry.2)

/-- A collection lists exactly the documents stored under its path. -/
theorem Store.mem_documents {s : Store} {coll : Path} {id : String} {d : Doc} :
    (id, d) ∈ s.documents coll ↔ s.lookup (coll ++ [id]) = some d := by
  rw [← Option.mem_def, AList.mem_lookup_iff]
  simp only [Store.documents, List.mem_filterMap, Option.map_eq_some_iff, Prod.mk.injEq]
  constructor
  · rintro ⟨⟨path, d'⟩, hmem, id', hid, rfl, rfl⟩
    rw [← childOf_eq_some.mp hid]
    exact hmem
  · intro hmem
    exact ⟨⟨coll ++ [id], d⟩, hmem, id, childOf_eq_some.mpr rfl, rfl, rfl⟩

/-- The identifiers in use in a collection. -/
def Store.ids (s : Store) (coll : Path) : List String := (s.documents coll).map Prod.fst

theorem Store.mem_ids {s : Store} {coll : Path} {id : String} :
    id ∈ s.ids coll ↔ (s.lookup (coll ++ [id])).isSome := by
  rw [Option.isSome_iff_exists, Store.ids, List.mem_map]
  constructor
  · rintro ⟨⟨id', d⟩, hmem, rfl⟩
    exact ⟨d, Store.mem_documents.mp hmem⟩
  · rintro ⟨d, hd⟩
    exact ⟨(id, d), Store.mem_documents.mpr hd, rfl⟩

/-- The identifiers of a collection are read off the stored paths. -/
theorem Store.ids_eq (s : Store) (coll : Path) :
    s.ids coll = s.keys.filterMap (childOf coll) := by
  simp only [Store.ids, Store.documents, AList.keys, List.keys, List.map_filterMap,
    List.filterMap_map]
  congr 1
  funext entry
  simp [Function.comp_def]

/-- No identifier occurs twice in a collection. -/
theorem Store.nodup_ids (s : Store) (coll : Path) : (s.ids coll).Nodup := by
  rw [Store.ids_eq]
  refine s.keys_nodup.filterMap ?_
  intro path path' id hid hid'
  rw [childOf_eq_some.mp hid, childOf_eq_some.mp hid']

/-- Which documents are there decides how many there are. -/
theorem Store.length_ids {s t : Store} {coll : Path}
    (h : ∀ id, (s.lookup (coll ++ [id])).isSome = (t.lookup (coll ++ [id])).isSome) :
    (s.ids coll).length = (t.ids coll).length := by
  refine List.Perm.length_eq ?_
  refine (List.perm_ext_iff_of_nodup (s.nodup_ids coll) (t.nodup_ids coll)).mpr fun id => ?_
  rw [Store.mem_ids, Store.mem_ids, h]

/-! ## Writes -/

/-- `localizedDescription` of a backend error. -/
abbrev Error := String

/-- A single-document write. -/
inductive Write where
  | setData (path : Path) (data : Doc)
  | updateData (path : Path) (fields : Doc)
  | delete (path : Path)

/-- The document a write is about. -/
def Write.path : Write → Path
  | setData path _ => path
  | updateData path _ => path
  | delete path => path

@[simp] theorem Write.path_setData (path : Path) (data : Doc) :
    (Write.setData path data).path = path := rfl

@[simp] theorem Write.path_updateData (path : Path) (fields : Doc) :
    (Write.updateData path fields).path = path := rfl

@[simp] theorem Write.path_delete (path : Path) : (Write.delete path).path = path := rfl

/-- What a write leaves of the document it is about. -/
def Write.effect : Write → Option Doc → Option Doc
  | setData _ data, _ => some data
  | updateData _ fields, d => d.map fun d => d.merge fields
  | delete _, _ => none

/-- Commit a write. An update of a missing document is rejected. -/
def Write.apply : Write → Store → Option Store
  | setData path data, s => some (s.insert path data)
  | updateData path fields, s => (s.lookup path).map fun d => s.insert path (d.merge fields)
  | delete path, s => some (s.erase path)

/-- A committed write leaves its effect on its own document. -/
theorem Write.lookup_apply {w : Write} {s s' : Store} (h : w.apply s = some s') :
    s'.lookup w.path = w.effect (s.lookup w.path) := by
  cases w with
  | setData path data =>
    simp only [apply, Option.some.injEq] at h
    subst h
    exact AList.lookup_insert s
  | updateData path fields =>
    obtain ⟨d, hd, rfl⟩ := Option.map_eq_some_iff.mp h
    show (s.insert path (d.merge fields)).lookup path = _
    rw [AList.lookup_insert]
    simp [effect, hd]
  | delete path =>
    simp only [apply, Option.some.injEq] at h
    subst h
    exact AList.lookup_erase path s

/-- A committed write touches no other document. -/
theorem Write.lookup_apply_ne {w : Write} {s s' : Store} (h : w.apply s = some s')
    {path : Path} (hne : path ≠ w.path) : s'.lookup path = s.lookup path := by
  cases w with
  | setData p data =>
    simp only [apply, Option.some.injEq] at h
    subst h
    exact AList.lookup_insert_ne hne
  | updateData p fields =>
    obtain ⟨d, hd, rfl⟩ := Option.map_eq_some_iff.mp h
    exact AList.lookup_insert_ne hne
  | delete p =>
    simp only [apply, Option.some.injEq] at h
    subst h
    exact AList.lookup_erase_ne hne

/-! ## Queries -/

/-- Firestore's order of values of the types stored here: numbers, then
timestamps, then strings, then arrays. Arrays are not ordered by this code. -/
def Value.le : Value → Value → Bool
  | .int i, .int j => i ≤ j
  | .int _, _ => true
  | .timestamp _, .int _ => false
  | .timestamp t, .timestamp u => t.le u
  | .timestamp _, _ => true
  | .string s, .string t => s ≤ t
  | .string _, .strings _ => true
  | .string _, _ => false
  | .strings _, .strings _ => true
  | .strings _, _ => false

/-- A query: a collection, an optional `whereField(_:isEqualTo:)` and an optional
`order(by:descending:)`. -/
structure Query where
  collection : Path
  whereField : Option (String × Value) := none
  orderBy : Option (String × Bool) := none
deriving DecidableEq

/-- Does the query select this document? A document without the field it is
ordered by is left out. -/
def Query.selects (q : Query) (x : String × Doc) : Bool :=
  (match q.whereField with
    | none => true
    | some (field, value) => x.2 field == some value)
  && (match q.orderBy with
    | none => true
    | some (field, _) => (x.2 field).isSome)

/-- The documents the query selects. -/
def Query.results (q : Query) (s : Store) : List (String × Doc) :=
  (s.documents q.collection).filter q.selects

theorem Query.mem_results {q : Query} {s : Store} {id : String} {d : Doc} :
    (id, d) ∈ q.results s ↔ s.lookup (q.collection ++ [id]) = some d ∧ q.selects (id, d) := by
  rw [Query.results, List.mem_filter, Store.mem_documents]

/-- Without a filter or an order the query selects the whole collection. -/
@[simp] theorem Query.results_all (coll : Path) (s : Store) :
    Query.results { collection := coll } s = s.documents coll :=
  List.filter_eq_self.mpr fun _ _ => rfl

/-- Does the field that the query is ordered by put document `x` before document `y`, or
leave them tied? -/
def Query.byField (q : Query) (x y : String × Doc) : Bool :=
  match q.orderBy with
  | none => true
  | some (field, descending) =>
    match x.2 field, y.2 field with
    | some v, some u => if descending then u.le v else v.le u
    | _, _ => true

/-- May document `x` be returned before document `y`? Ties are broken by the identifier, in
the direction of the order. -/
def Query.inOrder (q : Query) (x y : String × Doc) : Bool :=
  match q.orderBy with
  | none => true
  | some (_, descending) =>
    q.byField x y && (!q.byField y x || decide (if descending then y.1 ≤ x.1 else x.1 ≤ y.1))

theorem Query.byField_of_inOrder {q : Query} {x y : String × Doc} (h : q.inOrder x y = true) :
    q.byField x y = true := by
  unfold inOrder at h
  split at h
  next hnone => simp [byField, hnone]
  next => exact (Bool.and_eq_true_iff.mp h).1

/-- The order of an ordered query leaves no ties. -/
theorem Query.inOrder_antisymm {q : Query} (hordered : q.orderBy.isSome = true)
    {x y : String × Doc} (h : q.inOrder x y = true) (h' : q.inOrder y x = true) : x.1 = y.1 := by
  obtain ⟨⟨field, descending⟩, horder⟩ := Option.isSome_iff_exists.mp hordered
  simp only [inOrder, horder, Bool.and_eq_true, Bool.or_eq_true, Bool.not_eq_true',
    decide_eq_true_eq] at h h'
  have hle := h.2.resolve_left (by simp [h'.1])
  have hle' := h'.2.resolve_left (by simp [h.1])
  cases descending with
  | true => exact String.le_antisymm hle' hle
  | false => exact String.le_antisymm hle hle'

/-- The documents with the given identifiers, in that order. -/
def Query.fetch (q : Query) (s : Store) (names : List String) : List (String × Doc) :=
  names.filterMap fun id => (s.lookup (q.collection ++ [id])).map fun d => (id, d)

/-- Is `names` an order in which the query may return its results? -/
def Query.admits (q : Query) (s : Store) (names : List String) : Bool :=
  names.isPerm ((q.results s).map Prod.fst) &&
    decide ((q.fetch s names).Pairwise fun x y => q.inOrder x y = true)

private theorem fetch_map_fst {q : Query} {s : Store} :
    ∀ {l : List (String × Doc)}, (∀ x ∈ l, s.lookup (q.collection ++ [x.1]) = some x.2) →
      q.fetch s (l.map Prod.fst) = l
  | [], _ => rfl
  | (id, d) :: l, h => by
    have hd := h (id, d) (List.mem_cons_self ..)
    have hl := fetch_map_fst fun x hx => h x (List.mem_cons_of_mem _ hx)
    simp only [Query.fetch, List.map_cons, List.filterMap_cons] at hl ⊢
    rw [hd, hl]
    rfl

/-- Whatever order a query returns its results in, it returns exactly them. -/
theorem Query.fetch_perm {q : Query} {s : Store} {names : List String}
    (h : q.admits s names = true) : (q.fetch s names).Perm (q.results s) := by
  rw [Query.admits, Bool.and_eq_true, List.isPerm_iff] at h
  have hself : q.fetch s ((q.results s).map Prod.fst) = q.results s :=
    fetch_map_fst fun x hx => (Query.mem_results.mp hx).1
  have hperm := h.1.filterMap fun id => (s.lookup (q.collection ++ [id])).map fun d => (id, d)
  rw [← hself]
  exact hperm

end InstaClone
