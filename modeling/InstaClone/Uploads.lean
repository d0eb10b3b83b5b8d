import InstaClone.Services
import InstaClone.Sessions

/-!
# An image on its way into Storage

`ImageUploader.uploadImage` stores the image under a fresh name, asks for its URL and hands
that to its completion, one request after the other; it gives up where one of them fails.
`UploadAt next` are the flights of an upload whose completion is `next`, with the URL of
the object from the moment it is stored.
-/

namespace InstaClone

open Async

section Uploads

variable {σ : Type} {next : String → Program σ}

/-- The callback of the `downloadURL` of an upload. -/
def didLocateImage (next : String → Program σ) (url : Option String) : Program σ :=
  match url with
  | none => .done
  | some imageUrl => next imageUrl

/-- The callback of the `putData` of an upload. -/
def didStoreImage (next : String → Program σ) (reference : String) (error : Option Error) :
    Program σ :=
  match error with
  | some _ => .done
  | none => .call (.downloadURL reference) (didLocateImage next) .done

/-- The turn that starts an upload. An image without data is not uploaded. -/
theorem exec_uploadImage (image : UIImage) (next : String → Program σ) (e : Turn) (s : σ) :
    (ImageUploader.uploadImage image next).exec e s
      = (s, match image.jpegData with
          | none => []
          | some imageData =>
            [.issued (.putData ("/profile_images/" ++ e.autoId) imageData)
              (didStoreImage next ("/profile_images/" ++ e.autoId))]) := by
  unfold ImageUploader.uploadImage
  cases image.jpegData with
  | none => rfl
  | some imageData =>
    rw [Prog.exec_ask]
    dsimp only
    rw [Prog.exec_call, Prog.exec_done]
    congr 3
    funext error
    cases error with
    | some error => rfl
    | none =>
      refine congrArg (fun k => Prog.call _ k _) (funext fun url => ?_)
      cases url with
      | none => rfl
      | some imageUrl => rfl

/-- The flights of an upload, and the URL of the object once it is stored. -/
inductive UploadAt (next : String → Program σ) :
    Flight Request Response Turn σ → Option String → Prop
  | storing (reference data) :
      UploadAt next (.issued (.putData reference data) (didStoreImage next reference)) none
  | stored (reference data) :
      UploadAt next (.served (.putData reference data) (didStoreImage next reference none))
        (some (objectUrl reference))
  | locating (reference) :
      UploadAt next (.issued (.downloadURL reference) (didLocateImage next))
        (some (objectUrl reference))
  | located (reference) :
      UploadAt next
        (.served (.downloadURL reference) (didLocateImage next (some (objectUrl reference))))
        (some (objectUrl reference))

/-- The requests of an upload. -/
theorem UploadAt.req {fl : Flight Request Response Turn σ} {u : Option String}
    (h : UploadAt next fl u) :
    (∃ reference data, fl.req = .putData reference data)
      ∨ ∃ reference, fl.req = .downloadURL reference := by
  cases h with
  | storing reference data => exact Or.inl ⟨_, _, rfl⟩
  | stored reference data => exact Or.inl ⟨_, _, rfl⟩
  | locating reference => exact Or.inr ⟨_, rfl⟩
  | located reference => exact Or.inr ⟨_, rfl⟩

/-- A request of an upload is served: it goes on, with its object in Storage, or it fails and
does nothing more. -/
theorem UploadAt.serve {b b' : Backend} {r : Request} {k : Response r → Program σ} {o : Outcome}
    {y : Response r} {u : Option String} (h : UploadAt next (.issued r k) u)
    (hheld : ∀ url ∈ u, url ∈ b.objects) (hserve : serve b r o = some (b', y)) :
    (∃ u', UploadAt next (.served r (k y)) u' ∧ ∀ url ∈ u', url ∈ b'.objects)
      ∨ o.isSuccess = false ∧ k y = .done := by
  generalize hfl : Flight.issued r k = fl at h
  cases h with
  | storing reference data =>
    obtain ⟨rfl, hk⟩ := Flight.issued.inj hfl
    obtain rfl := eq_of_heq hk
    cases o with
    | failure error =>
      obtain ⟨rfl, rfl⟩ : b = b' ∧ some error = y := by simpa [InstaClone.serve] using hserve
      exact Or.inr ⟨rfl, rfl⟩
    | success names =>
      obtain ⟨rfl, rfl⟩ :
          { b with objects := objectUrl reference :: b.objects } = b' ∧ none = y := by
        simpa [InstaClone.serve] using hserve
      refine Or.inl ⟨_, .stored reference data, fun url hurl => ?_⟩
      obtain rfl := Option.some.inj hurl
      exact List.mem_cons_self ..
  | locating reference =>
    obtain ⟨rfl, hk⟩ := Flight.issued.inj hfl
    obtain rfl := eq_of_heq hk
    have hstored : objectUrl reference ∈ b.objects := hheld _ rfl
    cases o with
    | failure error =>
      obtain ⟨rfl, rfl⟩ : b = b' ∧ none = y := by simpa [InstaClone.serve] using hserve
      exact Or.inr ⟨rfl, rfl⟩
    | success names =>
      obtain ⟨rfl, rfl⟩ : b = b' ∧ some (objectUrl reference) = y := by
        simpa [InstaClone.serve, hstored] using hserve
      exact Or.inl ⟨_, .located reference, hheld⟩
  | _ => exact absurd hfl (by simp)

/-- A callback of an upload runs: it asks for the URL, or it is the completion's turn. -/
theorem UploadAt.deliver {r : Request} {p : Program σ} {u : Option String}
    (h : UploadAt next (.served r p) u) (e : Turn) (s : σ) :
    (∃ reference, p.exec e s = (s, [.issued (.downloadURL reference) (didLocateImage next)])
        ∧ u = some (objectUrl reference))
      ∨ ∃ url, u = some url ∧ p = next url := by
  generalize hfl : Flight.served r p = fl at h
  cases h with
  | stored reference data =>
    obtain ⟨rfl, rfl⟩ := Flight.served.inj hfl
    exact Or.inl ⟨reference, rfl, rfl⟩
  | located reference =>
    obtain ⟨rfl, rfl⟩ := Flight.served.inj hfl
    exact Or.inr ⟨_, rfl, rfl⟩
  | _ => exact absurd hfl (by simp)

end Uploads

end InstaClone
