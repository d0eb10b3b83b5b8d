import Mathlib.Data.List.Basic

/-!
# Storage URLs

A picture is known by the download URL of its object. To delete it the app asks
`Storage.reference(forURL:)` for the object, which reads the bucket back out of the URL
and ends the process when it finds none, or another than the app's. The names of objects
are percent-encoded in their URLs, so that `accepts_objectUrl` can say: whatever the name,
the URL that Storage hands out is accepted.
-/

namespace InstaClone

/-- The Storage bucket of `GoogleService-Info.plist`. -/
def storageBucket : String := "instaclonesnapkit.appspot.com"

/-! ## Reading a URL -/

/-- The value of a hexadecimal digit. -/
def hexDigit? (c : Char) : Option Nat :=
  if c.isDigit then some (c.toNat - 48)
  else if 'A' ≤ c ∧ c ≤ 'F' then some (c.toNat - 55)
  else if 'a' ≤ c ∧ c ≤ 'f' then some (c.toNat - 87)
  else none

/-- What a percent-encoded part of a URL stands for, byte by byte. -/
def removingPercentEncoding : List Char → List Char
  | [] => []
  | '%' :: high :: low :: rest =>
    match hexDigit? high, hexDigit? low with
    | some high', some low' => Char.ofNat (16 * high' + low') :: removingPercentEncoding rest
    | _, _ => '%' :: removingPercentEncoding (high :: low :: rest)
  | c :: rest => c :: removingPercentEncoding rest

/-- The parts between the slashes, empty ones left out. -/
def segments (path : List Char) : List (List Char) := (path.splitOn '/').filter (· ≠ [])

/-- `URL.pathComponents` without the root, of a URL whose scheme has been read: neither
the authority before the path nor the query and the fragment after it belong to it. A host
that `URL(string:)` would reject is not told apart. -/
def pathComponents (url : List Char) : List (List Char) :=
  (segments ((url.takeWhile fun c => c ≠ '?' ∧ c ≠ '#').dropWhile (· ≠ '/'))).map
    removingPercentEncoding

namespace StoragePath

/-- `path(GSURI:)`: the bucket, of what follows `gs://`. Nothing but slashes traps. -/
def bucketOfGSURI (bucketObject : List Char) : Option (List Char) := (segments bucketObject).head?

/-- `path(HTTPURL:)`: the bucket, of what follows the scheme. With one component after the
bucket `pathComponents[5]` is out of range. -/
def bucketOfHTTPURL (url : List Char) : Option (List Char) :=
  match pathComponents url with
  | v0 :: b :: bucketName :: object =>
    if v0 = "v0".toList ∧ b = "b".toList ∧ object.length ≠ 1 then some bucketName else none
  | _ => none

/-- `path(string:)`: the bucket of the path, `none` where it throws or traps. -/
def bucket? (string : String) : Option (List Char) :=
  match string.toList with
  | 'g' :: 's' :: ':' :: '/' :: '/' :: rest => bucketOfGSURI rest
  | 'h' :: 't' :: 't' :: 'p' :: ':' :: '/' :: '/' :: rest => bucketOfHTTPURL rest
  | 'h' :: 't' :: 't' :: 'p' :: 's' :: ':' :: '/' :: '/' :: rest => bucketOfHTTPURL rest
  | _ => none

end StoragePath

/-- Does `Storage.reference(forURL:)` return? Where it does not, it ends the process. -/
def Storage.accepts (url : String) : Bool := StoragePath.bucket? url == some storageBucket.toList

/-! ## Download URLs -/

/-- The characters that stand for themselves in the name of an object. -/
def allowedSet : List Char :=
  "ABCDEFGHIJKLMNOPQRSTUVWXYZabcdefghijklmnopqrstuvwxyz0123456789-._~!$'()*,=:@".toList

/-- `%XX`. -/
def percentEncoded (byte : UInt8) : List Char :=
  ['%', (Nat.digitChar (byte.toNat / 16)).toUpper, (Nat.digitChar (byte.toNat % 16)).toUpper]

/-- `StorageUtils.GCSEscapedString`. -/
def GCSEscapedString (string : List Char) : List Char :=
  string.flatMap fun c =>
    if c ∈ allowedSet then [c] else (String.utf8EncodeChar c).flatMap percentEncoded

/-- `standardizedPathForString`. -/
def standardizedPathForString (string : List Char) : List Char :=
  ['/'].intercalate (segments string)

/-- The host and port of `Storage`. -/
def storageHost : String := "firebasestorage.googleapis.com:443"

/-- The parts of the path of a download URL. -/
def encodedParts (reference : String) : List (List Char) :=
  ["v0".toList, "b".toList, storageBucket.toList, "o".toList]
    ++ [GCSEscapedString (standardizedPathForString reference.toList)]

/-- The download URL of the object at a Storage reference, its access token left out. -/
def objectUrl (reference : String) : String :=
  "https://" ++ storageHost ++ "/" ++ String.ofList (['/'].intercalate (encodedParts reference))
    ++ "?alt=media"

/-- The three characters that end a part of a URL. -/
theorem forall_ends {P : Char → Prop} :
    (∀ c ∈ ['/', '?', '#'], P c) ↔ P '/' ∧ P '?' ∧ P '#' := by
  simp

/-- An escaped name has none of the characters that end a part of a URL. -/
theorem not_mem_GCSEscapedString {string : List Char} {c : Char} (hc : c ∈ ['/', '?', '#']) :
    c ∉ GCSEscapedString string := by
  intro hmem
  obtain ⟨d, -, hd⟩ := List.mem_flatMap.mp hmem
  split at hd
  next hallowed =>
    have hends : ∀ x ∈ ['/', '?', '#'], x ∉ allowedSet := forall_ends.mpr (by decide)
    rw [List.mem_singleton] at hd
    exact hends c hc (hd ▸ hallowed)
  next =>
    obtain ⟨byte, -, hbyte⟩ := List.mem_flatMap.mp hd
    have hdigit : ∀ n < 16, (Nat.digitChar n).toUpper ∉ ['/', '?', '#'] := by decide
    have hlt := byte.toNat_lt
    simp only [percentEncoded, List.mem_cons, List.not_mem_nil, or_false] at hbyte
    rcases hbyte with rfl | rfl | rfl
    · exact absurd hc (by decide)
    · exact hdigit _ (by omega) hc
    · exact hdigit _ (by omega) hc

/-- No name but the empty one is escaped to nothing. -/
theorem GCSEscapedString_ne_nil {string : List Char} (h : string ≠ []) :
    GCSEscapedString string ≠ [] := by
  obtain ⟨c, rest, rfl⟩ := List.exists_cons_of_ne_nil h
  rw [GCSEscapedString, List.flatMap_cons]
  refine List.append_ne_nil_of_left_ne_nil ?_ _
  split
  next => simp
  next =>
    have hbytes : String.utf8EncodeChar c ≠ [] := by
      rw [← List.length_pos_iff, String.length_utf8EncodeChar]
      exact c.utf8Size_pos
    obtain ⟨byte, bytes, hcons⟩ := List.exists_cons_of_ne_nil hbytes
    rw [hcons, List.flatMap_cons]
    simp [percentEncoded]

/-- There is no segment before a slash at the start. -/
theorem segments_slash (rest : List Char) : segments ('/' :: rest) = segments rest := by
  rw [segments, List.splitOn_cons_eq_if_modifyHead, if_pos (by simp),
    List.filter_cons_of_neg (by simp), segments]

/-- Parts joined by slashes are read as the parts. -/
theorem segments_intercalate {parts : List (List Char)} (hparts : parts ≠ [])
    (h : ∀ part ∈ parts, part ≠ [] ∧ '/' ∉ part) : segments (['/'].intercalate parts) = parts := by
  rw [segments, List.splitOn_intercalate '/' (fun part hpart => (h part hpart).2) hparts,
    List.filter_eq_self]
  intro part hpart
  exact decide_eq_true (h part hpart).1

/-- Neither the authority nor the query belongs to the path. -/
theorem pathComponents_append {authority path query : List Char}
    (hauthority : ∀ c ∈ ['/', '?', '#'], c ∉ authority) (hpath : ∀ c ∈ ['?', '#'], c ∉ path) :
    pathComponents (authority ++ '/' :: (path ++ '?' :: query))
      = (segments path).map removingPercentEncoding := by
  have hkeep : ∀ c ∈ authority ++ '/' :: path, (decide (c ≠ '?' ∧ c ≠ '#')) = true := by
    intro c hc
    refine decide_eq_true ⟨?_, ?_⟩ <;> rintro rfl <;> rcases List.mem_append.mp hc with hc | hc
    · exact hauthority _ (by decide) hc
    · exact hpath _ (by decide) (List.mem_of_ne_of_mem (by decide) hc)
    · exact hauthority _ (by decide) hc
    · exact hpath _ (by decide) (List.mem_of_ne_of_mem (by decide) hc)
  have hsplit : authority ++ '/' :: (path ++ '?' :: query)
      = (authority ++ '/' :: path) ++ '?' :: query := by simp
  have htake : ((authority ++ '/' :: path) ++ '?' :: query).takeWhile
      (fun c => decide (c ≠ '?' ∧ c ≠ '#')) = authority ++ '/' :: path := by
    rw [List.takeWhile_append_of_pos hkeep]
    simp
  have hdrop : (authority ++ '/' :: path).dropWhile (· ≠ '/') = '/' :: path := by
    have hhost : ∀ c ∈ authority, (decide (c ≠ '/')) = true := by
      intro c hc
      refine decide_eq_true ?_
      rintro rfl
      exact hauthority _ (by decide) hc
    rw [List.dropWhile_append_of_pos hhost]
    simp
  rw [pathComponents, hsplit, htake, hdrop, segments_slash]

/-- A joined path is made of its parts and of slashes. -/
theorem mem_intercalate {parts : List (List Char)} {c : Char}
    (h : c ∈ ['/'].intercalate parts) : c = '/' ∨ ∃ part ∈ parts, c ∈ part := by
  induction parts with
  | nil => exact absurd h (by simp)
  | cons part parts ih =>
    by_cases hparts : parts = []
    · rw [hparts, List.intercalate_singleton] at h
      exact Or.inr ⟨part, List.mem_cons_self .., h⟩
    · rw [List.intercalate_cons_of_ne_nil hparts, List.append_assoc, List.mem_append,
        List.mem_append] at h
      rcases h with h | h | h
      · exact Or.inr ⟨part, List.mem_cons_self .., h⟩
      · exact Or.inl (List.mem_singleton.mp h)
      · rcases ih h with h | ⟨part', hmem, h⟩
        · exact Or.inl h
        · exact Or.inr ⟨part', List.mem_cons_of_mem _ hmem, h⟩

/-- The parts of a download URL can be told apart again. -/
theorem encodedParts_clean {reference : String}
    (h : standardizedPathForString reference.toList ≠ []) :
    ∀ part ∈ encodedParts reference, part ≠ [] ∧ ∀ c ∈ ['/', '?', '#'], c ∉ part := by
  have hfixed : ∀ part ∈ ["v0".toList, "b".toList, storageBucket.toList, "o".toList],
      part ≠ [] ∧ ∀ c ∈ ['/', '?', '#'], c ∉ part := by
    simp only [forall_ends]
    decide
  intro part hpart
  rcases List.mem_append.mp hpart with hpart | hpart
  · exact hfixed part hpart
  · rw [List.mem_singleton.mp hpart]
    exact ⟨GCSEscapedString_ne_nil h, fun c hc => not_mem_GCSEscapedString hc⟩

theorem toList_objectUrl (reference : String) :
    (objectUrl reference).toList = 'h' :: 't' :: 't' :: 'p' :: 's' :: ':' :: '/' :: '/' ::
      (storageHost.toList ++ '/' :: (['/'].intercalate (encodedParts reference)
        ++ '?' :: "alt=media".toList)) := by
  have hscheme : "https://".toList = ['h', 't', 't', 'p', 's', ':', '/', '/'] := by decide
  have hslash : "/".toList = ['/'] := by decide
  have hquery : "?alt=media".toList = '?' :: "alt=media".toList := by decide
  rw [objectUrl, String.toList_append, String.toList_append, String.toList_append,
    String.toList_append, hscheme, hslash, hquery, String.toList_ofList, List.append_assoc,
    List.append_assoc, List.append_assoc]
  simp only [List.cons_append, List.nil_append]

/-- The components of the path of a download URL are its parts, decoded. -/
theorem pathComponents_objectUrl {reference : String}
    (h : standardizedPathForString reference.toList ≠ []) :
    pathComponents (storageHost.toList ++ '/' :: (['/'].intercalate (encodedParts reference)
        ++ '?' :: "alt=media".toList))
      = (encodedParts reference).map removingPercentEncoding := by
  have hclean := encodedParts_clean h
  have hsegments : segments (['/'].intercalate (encodedParts reference)) = encodedParts reference :=
    segments_intercalate (List.append_ne_nil_of_right_ne_nil _ (List.cons_ne_nil _ _))
      fun part hpart => ⟨(hclean part hpart).1, (hclean part hpart).2 _ (List.mem_cons_self ..)⟩
  have hpath : ∀ c ∈ ['?', '#'], c ∉ ['/'].intercalate (encodedParts reference) := by
    intro c hc hmem
    rcases mem_intercalate hmem with rfl | ⟨part, hpart, hmem⟩
    · exact absurd hc (by decide)
    · exact (hclean part hpart).2 c (List.mem_cons_of_mem _ hc) hmem
  rw [pathComponents_append (forall_ends.mpr (by decide)) hpath, hsegments]

/-- **A download URL is accepted**, whatever the object is called. -/
theorem accepts_objectUrl {reference : String}
    (h : standardizedPathForString reference.toList ≠ []) :
    Storage.accepts (objectUrl reference) = true := by
  have hfixed : ["v0".toList, "b".toList, storageBucket.toList, "o".toList].map
      removingPercentEncoding = ["v0".toList, "b".toList, storageBucket.toList, "o".toList] := by
    decide
  rw [Storage.accepts, StoragePath.bucket?, toList_objectUrl]
  show (StoragePath.bucketOfHTTPURL _ == _) = true
  rw [StoragePath.bucketOfHTTPURL, pathComponents_objectUrl h, encodedParts, List.map_append,
    hfixed]
  show ((if _ then _ else _) == _) = true
  rw [if_pos ⟨rfl, rfl, by simp⟩]
  exact beq_self_eq_true _

/-- The picture of the users in the runs of this development. -/
@[irreducible] def oldPictureUrl : String := objectUrl "/profile_images/old"

theorem accepts_oldPictureUrl : Storage.accepts oldPictureUrl = true := by
  unfold oldPictureUrl
  exact accepts_objectUrl (by decide)

-- The form that a comment of `StoragePath` gives, without `/v0/b/`, is not read.
example : Storage.accepts
    "https://firebasestorage.googleapis.com/instaclonesnapkit.appspot.com/o/a" = false := by
  decide

end InstaClone
