import CodingOpd.Library.Interruption
import CodingOpd.Oci.Manifest

/-!
# Downloading a blob

`_download_blob` keeps two files for a digest: the blob, and the part of it that was received so
far. The part is continued where the last run left it, whichever source that came from, and takes
the blob's name only after its digest was checked. A blob that is already there is trusted for its
size.

## Main definitions

* `Cell`: the two files of a digest
* `BlobReply`: what a source answers to one request
* `downloadBlob`: `_download_blob`
* `Genuine`: a stored blob has the digest it is stored under

## Main results

* `downloadBlob_spec`: a download keeps `Genuine` wherever it is interrupted, and where it returns,
  the blob is there with its digest and its size
-/

open Python Interruption

namespace Oci

/-- The files `blobs/sha256/<digest>` and `blobs/sha256/<digest>.part`. -/
structure Cell where
  target : Option Bytes := none
  temporary : Option Bytes := none

/-- A registry and its token endpoint. -/
structure Source where
  registry : String
  authUrl : Option String

/-- What a source answers to a request for a blob: an exception, of the token request or of the
request itself, or a response whose body ends, or breaks off in an exception, after some bytes. -/
inductive BlobReply where
  | raises (error : PyError)
  | response (status : Option ℕ) (body : Bytes) (failure : Option PyError)

/-- `_RETRYABLE_NETWORK_ERRORS` -/
def retryable : PyError → Bool
  | .httpError _ | .networkError _ => true
  | _ => false

/-- How an attempt ends: the part has the expected size, the source is given up, or the next
attempt follows. -/
inductive Verdict where
  | completed
  | nextSource (error : PyError)
  | again (error : Option PyError)

/-- The size of the part, which is deleted where it is longer than the blob should be. -/
def partialSize (expectedSize : ℤ) : Program PyError Cell ℕ := do
  let cell ← Program.read
  let size := (cell.temporary.getD []).length
  if size > expectedSize then
    match cell.temporary with
    | none => Program.raise (.fileNotFoundError "part")
    | some _ => do
      Program.modify fun cell => { cell with temporary := none }
      return 0
  else
    return size

/-- Write the body of a response behind the part, or over it where the part is empty. -/
def receive (size : ℕ) (body : Bytes) : Program PyError Cell Unit :=
  let kept (cell : Cell) := if size = 0 then [] else cell.temporary.getD []
  Program.write
    (fun cell cell' => ∃ k, cell' = { cell with temporary := some (kept cell ++ body.take k) })
    (fun cell => { cell with temporary := some (kept cell ++ body) })

/-- The body of the `try` statement. -/
def request (expectedSize : ℤ) (size : ℕ) : BlobReply → Program PyError Cell Verdict
  | .raises error => Program.raise error
  | .response status body failure => do
    if size ≠ 0 ∧ status ≠ some 206 then
      return .nextSource (.runtimeError "ignored Range")
    else
      receive size body
      Program.ofExcept (failure.elim (.ok ()) .error)
      let cell ← Program.read
      if (cell.temporary.getD []).length = expectedSize then
        return .completed
      else
        return .again none

/-- The `except` clauses. The attempt after the last one is the end of the loop. -/
def handleError (error : PyError) : Program PyError Cell Verdict :=
  match error with
  | .httpError code =>
    if code ∈ [401, 403, 404, 416] then return .nextSource error else return .again (some error)
  | .networkError _ => return .again (some error)
  | _ => Program.raise error

/-- One attempt at a source, which answers to the offset that is asked for. -/
def attempt (expectedSize : ℤ) (reply : ℕ → BlobReply) : Program PyError Cell Verdict := do
  let size ← partialSize expectedSize
  (request expectedSize size (reply size)).recover handleError

/-- The attempts at a source that are left: whether the part is complete, and `last_error`. -/
def attempts (expectedSize : ℤ) (answers : ℕ → ℕ → BlobReply) (retries : ℕ) :
    ℕ → Option PyError → Program PyError Cell (Bool × Option PyError)
  | 0, lastError => return (false, lastError)
  | remaining + 1, lastError => do
    match ← attempt expectedSize (answers (retries - (remaining + 1))) with
    | .completed => return (true, lastError)
    | .nextSource error => return (false, some error)
    | .again none => attempts expectedSize answers retries remaining lastError
    | .again (some error) => attempts expectedSize answers retries remaining (some error)

/-- The sources that are left, from the one at an index. -/
def trySources (expectedSize : ℤ) (answers : ℕ → ℕ → ℕ → BlobReply) (retries : ℕ) :
    List Source → ℕ → Option PyError → Program PyError Cell (Bool × Option PyError)
  | [], _, lastError => return (false, lastError)
  | _ :: sources, index, lastError => do
    let (completed, lastError) ← attempts expectedSize (answers index) retries retries lastError
    if completed then
      return (true, lastError)
    else
      trySources expectedSize answers retries sources (index + 1) lastError

/-- The check of a complete part, and its renaming. -/
def validate (sha256 : Bytes → Digest) (digest : Digest) (expectedSize : ℤ) :
    Program PyError Cell (Digest × ℤ) := do
  let cell ← Program.read
  match cell.temporary with
  | none => Program.raise (.fileNotFoundError "part")
  | some bytes =>
    if sha256 bytes ≠ digest ∨ bytes.length ≠ expectedSize then
      Program.modify fun cell => { cell with temporary := none }
      Program.raise (.valueError "blob validation failed")
    else
      -- `os.replace`
      Program.modify fun _ => { target := some bytes, temporary := none }
      return (digest, bytes.length)

/-- `_download_blob`, on the files of the digest. A source answers by its index, the number of the
attempt and the offset. -/
def downloadBlob (sha256 : Bytes → Digest) (sources : List Source)
    (answers : ℕ → ℕ → ℕ → BlobReply) (retries : ℕ) (digest : Digest) (expectedSize : ℤ) :
    Program PyError Cell (Digest × ℤ) := do
  let cell ← Program.read
  if cell.target.map (fun bytes => (bytes.length : ℤ)) = some expectedSize then
    return (digest, expectedSize)
  else
    let (completed, lastError) ← trySources expectedSize answers retries sources 0 none
    if completed then
      validate sha256 digest expectedSize
    else
      Program.raise (lastError.getD (.runtimeError "download remained incomplete"))

/-! ## What a download keeps -/

/-- A stored blob has the digest that it is stored under. -/
def Genuine (sha256 : Bytes → Digest) (digest : Digest) (cell : Cell) : Prop :=
  ∀ bytes, cell.target = some bytes → sha256 bytes = digest

/-- The blob is stored, with its digest and its size. -/
def Stored (sha256 : Bytes → Digest) (digest : Digest) (size : ℤ) (cell : Cell) : Prop :=
  ∃ bytes, cell.target = some bytes ∧ sha256 bytes = digest ∧ (bytes.length : ℤ) = size

theorem Stored.genuine {sha256 : Bytes → Digest} {digest : Digest} {size : ℤ} {cell : Cell}
    (h : Stored sha256 digest size cell) : Genuine sha256 digest cell := by
  obtain ⟨bytes, htarget, hdigest, -⟩ := h
  intro other hother
  rw [Option.some_inj.mp (hother.symm.trans htarget)]
  exact hdigest

section Target

/-! Until the part is complete, only the part changes. -/

variable {P : Option Bytes → Prop} {expectedSize : ℤ}

theorem partialSize_keeps : Triple (fun cell => P cell.target) (partialSize expectedSize)
    (fun _ cell => P cell.target) (fun cell => P cell.target) := by
  refine (Triple.read fun _ h => h).bind fun cell => ?_
  dsimp only
  split
  · split
    · exact Triple.raise fun _ h => h.2
    · refine (Triple.modify (Q := fun _ cell => P cell.target) (fun _ h => h.2) (fun _ h => h.2)
        (fun _ h => h.2)).bind fun _ => ?_
      exact Triple.pure (fun _ h => h) (fun _ h => h)
  · exact Triple.pure (fun _ h => h.2) (fun _ h => h.2)

theorem receive_keeps (size : ℕ) (body : Bytes) :
    Triple (fun cell => P cell.target) (receive size body) (fun _ cell => P cell.target)
      (fun cell => P cell.target) := by
  refine Triple.write (fun _ h => h) (fun _ h => h) ?_ (fun _ h => h)
  rintro cell _ h ⟨k, rfl⟩
  exact h

theorem request_keeps (size : ℕ) (reply : BlobReply) :
    Triple (fun cell => P cell.target) (request expectedSize size reply)
      (fun _ cell => P cell.target) (fun cell => P cell.target) := by
  cases reply with
  | raises error => exact Triple.raise fun _ h => h
  | response status body failure =>
    rw [request]
    split
    · exact Triple.pure (fun _ h => h) (fun _ h => h)
    · refine (receive_keeps size body).bind fun _ => ?_
      refine (Triple.ofExcept (Q := fun _ cell => P cell.target) (fun _ _ _ h => h)
        (fun _ h => h)).bind fun _ => ?_
      refine (Triple.read fun _ h => h).bind fun cell => ?_
      split
      · exact Triple.pure (fun _ h => h.2) (fun _ h => h.2)
      · exact Triple.pure (fun _ h => h.2) (fun _ h => h.2)

theorem handleError_keeps (error : PyError) :
    Triple (fun cell => P cell.target) (handleError error) (fun _ cell => P cell.target)
      (fun cell => P cell.target) := by
  unfold handleError
  split
  · split
    · exact Triple.pure (fun _ h => h) (fun _ h => h)
    · exact Triple.pure (fun _ h => h) (fun _ h => h)
  · exact Triple.pure (fun _ h => h) (fun _ h => h)
  · exact Triple.raise fun _ h => h

theorem attempts_keeps (answers : ℕ → ℕ → BlobReply) (retries remaining : ℕ)
    (lastError : Option PyError) :
    Triple (fun cell => P cell.target) (attempts expectedSize answers retries remaining lastError)
      (fun _ cell => P cell.target) (fun cell => P cell.target) := by
  induction remaining generalizing lastError with
  | zero => exact Triple.pure (fun _ h => h) (fun _ h => h)
  | succ remaining ih =>
    have hattempt : Triple (fun cell => P cell.target)
        (attempt expectedSize (answers (retries - (remaining + 1))))
        (fun _ cell => P cell.target) (fun cell => P cell.target) :=
      partialSize_keeps.bind fun size =>
        (request_keeps size _).recover fun error => handleError_keeps error
    refine hattempt.bind fun verdict => ?_
    split
    · exact Triple.pure (fun _ h => h) (fun _ h => h)
    · exact Triple.pure (fun _ h => h) (fun _ h => h)
    · exact ih lastError
    · exact ih _

theorem trySources_keeps (answers : ℕ → ℕ → ℕ → BlobReply) (retries : ℕ) (sources : List Source)
    (index : ℕ) (lastError : Option PyError) :
    Triple (fun cell => P cell.target)
      (trySources expectedSize answers retries sources index lastError)
      (fun _ cell => P cell.target) (fun cell => P cell.target) := by
  induction sources generalizing index lastError with
  | nil => exact Triple.pure (fun _ h => h) (fun _ h => h)
  | cons source sources ih =>
    refine (attempts_keeps (answers index) retries retries lastError).bind fun result => ?_
    obtain ⟨completed, lastError⟩ := result
    dsimp only
    split
    · exact Triple.pure (fun _ h => h) (fun _ h => h)
    · exact ih (index + 1) lastError

end Target

variable {sha256 : Bytes → Digest} {digest : Digest} {expectedSize : ℤ}

/-- Only bytes that have the digest take the blob's name. -/
theorem validate_spec : Triple (Genuine sha256 digest) (validate sha256 digest expectedSize)
    (fun _ => Stored sha256 digest expectedSize) (Genuine sha256 digest) := by
  refine (Triple.read fun _ h => h).bind fun cell => ?_
  split
  · exact Triple.raise fun _ h => h.2
  case h_2 bytes htemporary =>
    split
    · refine (Triple.modify (Q := fun _ => Genuine sha256 digest) (fun _ h => h.2) (fun _ h => h.2)
        (fun _ h => h.2)).bind fun _ => ?_
      exact Triple.raise fun _ h => h
    · next hvalid =>
      push Not at hvalid
      obtain ⟨hdigest, hsize⟩ := hvalid
      have hgenuine : Genuine sha256 digest { target := some bytes, temporary := none } := by
        rintro _ ⟨rfl⟩
        exact hdigest
      refine (Triple.modify (Q := fun _ => Stored sha256 digest expectedSize) ?_ (fun _ h => h.2)
        (fun _ _ => hgenuine)).bind fun _ => ?_
      · exact fun _ _ => ⟨bytes, rfl, hdigest, hsize⟩
      · exact Triple.pure (fun _ h => h) fun _ h => h.genuine

/-- **A download keeps stored blobs genuine** wherever it is interrupted, and where it returns, the
blob is stored. -/
theorem downloadBlob_spec (sources : List Source) (answers : ℕ → ℕ → ℕ → BlobReply) (retries : ℕ) :
    Triple (Genuine sha256 digest)
      (downloadBlob sha256 sources answers retries digest expectedSize)
      (fun _ => Stored sha256 digest expectedSize) (Genuine sha256 digest) := by
  refine (Triple.read fun _ h => h).bind fun cell => ?_
  split
  · next hsize =>
    -- the file is trusted for its size; its digest is right since it was checked in an earlier run
    obtain ⟨bytes, htarget, hsize⟩ := Option.map_eq_some_iff.mp hsize
    refine Triple.pure ?_ fun _ h => h.2
    rintro cell ⟨rfl, hgenuine⟩
    exact ⟨bytes, htarget, hgenuine bytes htarget, hsize⟩
  · refine (trySources_keeps (P := fun target => ∀ bytes, target = some bytes →
      sha256 bytes = digest) answers retries sources 0 none).conseq (fun _ h => h.2)
      (fun _ _ h => h) (fun _ h => h) |>.bind fun result => ?_
    obtain ⟨completed, lastError⟩ := result
    dsimp only
    split
    · exact validate_spec
    · exact Triple.raise fun _ h => h

end Oci
