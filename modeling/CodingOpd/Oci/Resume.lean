import Mathlib.Data.List.TakeDrop
import CodingOpd.Oci.Download

/-!
# Resuming a download

An interrupted download leaves a part that holds the first bytes of the blob. The next one continues
it, whichever sources it asks first, as long as those send bytes of the blob only: a registry that
honours `Range` sends the rest. A registry that ignores `Range` is given up where the part is not
empty, so that the part is left for another source.

## Main definitions

* `HonoursRange`, `IgnoresRange`: registries that serve the blob
* `Truthful`, `Silent`: what a source may do before an honest registry is asked
* `Resumable`: a part that holds the first bytes of the blob

## Main results

* `attempts_truthful`: a truthful source completes the part or leaves it resumable
* `downloadBlob_resumes`: the download returns, and the blob is stored
-/

open Python Interruption

namespace Oci

/-! ## Sources -/

/-- A registry that serves the blob and honours `Range`: behind the last byte, it answers 416. -/
def HonoursRange (content : Bytes) (answers : ℕ → ℕ → BlobReply) : Prop :=
  ∀ attempt offset,
    (offset = 0 → ∃ status, answers attempt offset = .response status content none) ∧
    (0 < offset → offset < content.length →
      answers attempt offset = .response (some 206) (content.drop offset) none) ∧
    (0 < offset → content.length ≤ offset → answers attempt offset = .raises (.httpError 416))

/-- A registry that serves the whole blob, whatever the offset. -/
def IgnoresRange (content : Bytes) (answers : ℕ → ℕ → BlobReply) : Prop :=
  ∀ attempt offset, answers attempt offset = .response (some 200) content none

/-- What a reply may do to the part: its bytes are the next ones of the blob, an exception is one
that is handled, and it does not break off behind the last byte. A body that answers to no range
is not read. -/
def BlobReply.Truthful (content : Bytes) (offset : ℕ) : BlobReply → Prop
  | .raises error => retryable error = true
  | .response status body failure => offset ≠ 0 ∧ status ≠ some 206 ∨
      body <+: content.drop offset ∧
        ∀ error, failure = some error → retryable error = true ∧
          (body = [] ∨ offset + body.length < content.length)

/-- A source that sends bytes of the blob only. -/
def Truthful (content : Bytes) (answers : ℕ → ℕ → BlobReply) : Prop :=
  ∀ attempt offset, (answers attempt offset).Truthful content offset

/-- A source that sends no byte. -/
def Silent (answers : ℕ → ℕ → BlobReply) : Prop :=
  ∀ attempt offset status body failure,
    answers attempt offset = .response status body failure → body = []

/-! ## The part -/

/-- The bytes that were received so far. -/
def Cell.part (cell : Cell) : Bytes := cell.temporary.getD []

/-- The part holds the first bytes of the blob, and not all of them unless there are none. -/
structure Resumable (content : Bytes) (cell : Cell) : Prop where
  starts : cell.part <+: content
  short : cell.part.length < content.length ∨ cell.part = []

theorem Resumable.length_le {content : Bytes} {cell : Cell} (h : Resumable content cell) :
    cell.part.length ≤ content.length := h.starts.length_le

/-- The part is resumable, and empty as long as the sources are silent. -/
def Waiting (content : Bytes) (quiet : Prop) (cell : Cell) : Prop :=
  Resumable content cell ∧ (quiet → cell.part = [])

/-- The part is the blob. -/
def Complete (content : Bytes) (cell : Cell) : Prop := cell.temporary = some content

/-- What an attempt leaves. -/
def Left (content : Bytes) (quiet : Prop) (verdict : Verdict) (cell : Cell) : Prop :=
  match verdict with
  | .completed => Complete content cell
  | .nextSource _ | .again _ => Waiting content quiet cell

section Attempts

variable {content : Bytes} {quiet : Prop}

/-- A part that is no longer than the blob is not deleted. -/
theorem partialSize_ends {P : Cell → Prop} (hP : ∀ cell, P cell → Resumable content cell) :
    Ends P (partialSize content.length) (fun size cell => P cell ∧ size = cell.part.length)
      (fun _ _ => False) := by
  refine (Ends.read (Q := fun read cell => read = cell ∧ P cell) fun _ h => ⟨rfl, h⟩).bind
    fun cell => ?_
  dsimp only
  split
  · next hlong =>
    intro other h
    obtain ⟨rfl, h⟩ := h
    have hle := (hP cell h).length_le
    rw [Cell.part] at hle
    omega
  · refine Ends.pure ?_
    rintro _ ⟨rfl, h⟩
    exact ⟨h, rfl⟩

/-- Exceptions that `_download_blob` handles do not complete the part. -/
theorem handleError_ends (error : PyError) :
    Ends (fun cell => retryable error = true ∧ Waiting content quiet cell) (handleError error)
      (Left content quiet) (fun _ _ => False) := by
  unfold handleError
  split
  · split
    · exact Ends.pure fun _ h => h.2
    · exact Ends.pure fun _ h => h.2
  · exact Ends.pure fun _ h => h.2
  · next hhttp hnetwork =>
    apply Ends.raise
    rintro cell ⟨hretryable, -⟩
    cases error with
    | httpError code => exact hhttp code rfl
    | networkError message => exact hnetwork message rfl
    | _ => cases hretryable

/-- The body of a response was written behind a part that is resumable. -/
def Received (content : Bytes) (quiet : Prop) (part body : Bytes) (cell : Cell) : Prop :=
  cell.temporary = some (part ++ body) ∧ part <+: content ∧ body <+: content.drop part.length ∧
    (part.length < content.length ∨ part = []) ∧ (quiet → part = [] ∧ body = [])

theorem receive_ends {part body : Bytes} (hbody : body <+: content.drop part.length)
    (hquiet : quiet → body = []) {E : PyError → Cell → Prop} :
    Ends (fun cell => Waiting content quiet cell ∧ part.length = cell.part.length ∧
        cell.part = part) (receive part.length body)
      (fun _ => Received content quiet part body) E := by
  refine Ends.write fun cell h => ?_
  obtain ⟨⟨hresumable, hempty⟩, -, rfl⟩ := h
  refine ⟨?_, hresumable.starts, hbody, hresumable.short, fun hq => ⟨hempty hq, hquiet hq⟩⟩
  dsimp only
  split
  · next hzero => rw [List.length_eq_zero_iff.mp hzero]
  · rfl

namespace Received

variable {part body : Bytes} {cell : Cell}

theorem part_eq (h : Received content quiet part body cell) : cell.part = part ++ body := by
  rw [Cell.part, h.1, Option.getD_some]

/-- What was received is the start of the blob. -/
theorem starts (h : Received content quiet part body cell) : cell.part <+: content := by
  have hcontent : part ++ content.drop part.length = content := by
    conv_rhs => rw [← List.take_append_drop part.length content]
    rw [← List.prefix_iff_eq_take.mp h.2.1]
  rw [h.part_eq, ← hcontent]
  exact (List.prefix_append_right_inj _).mpr h.2.2.1

theorem complete (h : Received content quiet part body cell)
    (hlength : cell.part.length = content.length) : Complete content cell := by
  rw [Complete, h.1, ← h.part_eq, h.starts.eq_of_length hlength]

theorem waiting (h : Received content quiet part body cell)
    (hshort : cell.part.length < content.length ∨ cell.part = []) : Waiting content quiet cell := by
  refine ⟨⟨h.starts, hshort⟩, fun hq => ?_⟩
  obtain ⟨hpart, hbody⟩ := h.2.2.2.2 hq
  rw [h.part_eq, hpart, hbody, List.append_nil]

end Received

/-- The `try` statement, for a truthful reply. -/
theorem request_ends {part : Bytes} {reply : BlobReply}
    (hreply : reply.Truthful content part.length)
    (hquiet : quiet → ∀ status body failure, reply = .response status body failure → body = []) :
    Ends (fun cell => Waiting content quiet cell ∧ part.length = cell.part.length ∧
        cell.part = part) (request content.length part.length reply) (Left content quiet)
      (fun error cell => retryable error = true ∧ Waiting content quiet cell) := by
  cases reply with
  | raises error => exact Ends.raise fun cell h => ⟨hreply, h.1⟩
  | response status body failure =>
    rw [request]
    split
    · exact Ends.pure fun cell h => h.1
    · next hrange =>
      obtain ⟨hbody, hfailure⟩ : body <+: content.drop part.length ∧
          ∀ error, failure = some error → retryable error = true ∧
            (body = [] ∨ part.length + body.length < content.length) :=
        hreply.resolve_left hrange
      refine (receive_ends hbody fun hq => hquiet hq status body failure rfl).bind fun _ => ?_
      refine (Ends.ofExcept (Q := fun _ => Received content quiet part body)
        (fun _ _ _ h => h) ?_).bind fun _ => ?_
      · intro error cell herror h
        cases failure with
        | none => cases herror
        | some failure =>
          cases herror
          obtain ⟨hretryable, hshort⟩ := hfailure error rfl
          refine ⟨hretryable, h.waiting ?_⟩
          rw [h.part_eq, List.length_append]
          rcases hshort with rfl | hlt
          · rw [List.append_nil, List.length_nil, Nat.add_zero]
            exact h.2.2.2.1
          · exact Or.inl hlt
      · refine (Ends.read
          (Q := fun read cell => read = cell ∧ Received content quiet part body cell)
          fun _ h => ⟨rfl, h⟩).bind fun cell => ?_
        split
        · next hlength =>
          refine Ends.pure ?_
          rintro _ ⟨rfl, h⟩
          exact h.complete (Nat.cast_injective hlength)
        · next hlength =>
          refine Ends.pure ?_
          rintro _ ⟨rfl, h⟩
          have hle := h.starts.length_le
          have hne : cell.part.length ≠ content.length := fun heq => hlength (congrArg Nat.cast heq)
          exact h.waiting (Or.inl (by omega))

/-- One attempt at a truthful source. -/
theorem attempt_ends {reply : ℕ → BlobReply}
    (hreply : ∀ offset, (reply offset).Truthful content offset)
    (hquiet : quiet → ∀ offset status body failure,
      reply offset = .response status body failure → body = []) :
    Ends (Waiting content quiet) (attempt content.length reply) (Left content quiet)
      (fun _ _ => False) := by
  refine (partialSize_ends fun _ h => h.1).bind fun size => ?_
  intro cell ⟨h, hsize⟩
  subst hsize
  exact ((request_ends (hreply _) fun hq => hquiet hq _).recover handleError_ends) cell
    ⟨h, rfl, rfl⟩

/-- **A truthful source** completes the part, or leaves it resumable. -/
theorem attempts_truthful {answers : ℕ → ℕ → BlobReply} (hanswers : Truthful content answers)
    (hquiet : quiet → Silent answers) (retries remaining : ℕ) (lastError : Option PyError) :
    Ends (Waiting content quiet) (attempts content.length answers retries remaining lastError)
      (fun result cell => if result.1 then Complete content cell else Waiting content quiet cell)
      (fun _ _ => False) := by
  induction remaining generalizing lastError with
  | zero => exact Ends.pure fun _ h => h
  | succ remaining ih =>
    refine (attempt_ends (hanswers _) fun hq => hquiet hq _).bind fun verdict => ?_
    cases verdict with
    | completed => exact Ends.pure fun _ h => h
    | nextSource error => exact Ends.pure fun _ h => h
    | again error =>
      cases error with
      | none => exact ih lastError
      | some error => exact ih (some error)

/-! ## An honest registry -/

/-- The rest of the blob completes the part. -/
theorem request_rest {part : Bytes} {status : Option ℕ} (hstatus : part = [] ∨ status = some 206)
    {E : PyError → Cell → Prop} :
    Ends (fun cell => Waiting content False cell ∧ part.length = cell.part.length ∧
        cell.part = part)
      (request content.length part.length (.response status (content.drop part.length) none))
      (fun verdict cell => verdict = .completed ∧ Complete content cell) E := by
  have hrange : ¬ (part.length ≠ 0 ∧ status ≠ some 206) := by
    rintro ⟨hne, hno⟩
    rcases hstatus with hempty | hpartial
    · exact hne (List.length_eq_zero_iff.mpr hempty)
    · exact hno hpartial
  have hlength : ∀ cell, Received content False part (content.drop part.length) cell →
      cell.part.length = content.length := by
    intro cell h
    have hle := h.2.1.length_le
    rw [h.part_eq, List.length_append, List.length_drop]
    omega
  have hreceive : Ends (fun cell => Waiting content False cell ∧
      part.length = cell.part.length ∧ cell.part = part)
      (receive part.length (content.drop part.length))
      (fun _ => Received content False part (content.drop part.length)) E :=
    receive_ends List.prefix_rfl fun hfalse => hfalse.elim
  rw [request, if_neg hrange]
  refine hreceive.bind fun _ => ?_
  refine (Ends.ofExcept (Q := fun _ => Received content False part (content.drop part.length))
    (fun _ _ _ h => h) fun _ _ herror => by cases herror).bind fun _ => ?_
  refine (Ends.read (Q := fun read cell => read = cell ∧ Received content False part
    (content.drop part.length) cell) fun _ h => ⟨rfl, h⟩).bind fun cell => ?_
  split
  · refine Ends.pure ?_
    rintro _ ⟨rfl, h⟩
    exact ⟨rfl, h.complete (hlength _ h)⟩
  · next hne =>
    rintro _ ⟨rfl, h⟩
    exact absurd (congrArg Nat.cast (hlength _ h)) hne

/-- An honest reply, to the offset of the part. -/
theorem attempt_honest {P : Cell → Prop} {reply : ℕ → BlobReply}
    (hP : ∀ cell, P cell → Resumable content cell ∧ ∃ status,
      (cell.part = [] ∨ status = some 206) ∧
        reply cell.part.length = .response status (content.drop cell.part.length) none) :
    Ends P (attempt content.length reply)
      (fun verdict cell => verdict = .completed ∧ Complete content cell) (fun _ _ => False) := by
  refine (partialSize_ends fun cell h => (hP cell h).1).bind fun size => ?_
  rintro cell ⟨h, rfl⟩
  obtain ⟨hresumable, status, hstatus, hreply⟩ := hP cell h
  rw [hreply]
  have hnothing : ∀ error, Ends (fun _ => False) (handleError error)
      (fun verdict cell => verdict = .completed ∧ Complete content cell) (fun _ _ => False) :=
    fun error => by rintro _ ⟨⟩
  exact ((request_rest hstatus).recover hnothing) cell ⟨⟨hresumable, nofun⟩, rfl, rfl⟩

/-- **An honest registry** completes the part, with its first answer. -/
theorem attempts_honest {answers : ℕ → ℕ → BlobReply} {retries : ℕ} (hretries : 0 < retries)
    (hanswers : HonoursRange content answers ∨ IgnoresRange content answers ∧ quiet)
    (lastError : Option PyError) :
    Ends (Waiting content quiet) (attempts content.length answers retries retries lastError)
      (fun result cell => result.1 = true ∧ Complete content cell) (fun _ _ => False) := by
  obtain ⟨remaining, rfl⟩ := Nat.exists_eq_succ_of_ne_zero hretries.ne'
  have hreply : ∀ cell, Waiting content quiet cell → Resumable content cell ∧ ∃ status,
      (cell.part = [] ∨ status = some 206) ∧
        answers (remaining + 1 - (remaining + 1)) cell.part.length =
          .response status (content.drop cell.part.length) none := by
    rintro cell ⟨hresumable, hempty⟩
    refine ⟨hresumable, ?_⟩
    rcases hanswers with hhonours | ⟨hignores, hquiet⟩
    · obtain ⟨hstart, hrange, -⟩ := hhonours (remaining + 1 - (remaining + 1)) cell.part.length
      by_cases hnone : cell.part = []
      · obtain ⟨status, hreply⟩ := hstart (List.length_eq_zero_iff.mpr hnone)
        refine ⟨status, Or.inl hnone, ?_⟩
        rw [hreply, hnone, List.length_nil, List.drop_zero]
      · exact ⟨some 206, Or.inr rfl, hrange (List.length_pos_iff.mpr hnone)
          (hresumable.short.resolve_right hnone)⟩
    · refine ⟨some 200, Or.inl (hempty hquiet), ?_⟩
      rw [hignores, hempty hquiet, List.length_nil, List.drop_zero]
  refine (attempt_honest hreply).bind fun verdict => ?_
  rintro cell ⟨rfl, h⟩
  exact ⟨rfl, h⟩

end Attempts

/-! ## The download -/

section Download

variable {content : Bytes} {quiet : Prop}

/-- The sources in turn, up to the honest registry. -/
theorem trySources_ends {answers : ℕ → ℕ → ℕ → BlobReply} {retries : ℕ} (hretries : 0 < retries)
    {before after : List Source} {honest : Source} {index : ℕ}
    (hbefore : ∀ i < before.length, Truthful content (answers (index + i)) ∧
      (quiet → Silent (answers (index + i))))
    (hhonest : HonoursRange content (answers (index + before.length)) ∨
      IgnoresRange content (answers (index + before.length)) ∧ quiet)
    (lastError : Option PyError) :
    Ends (Waiting content quiet)
      (trySources content.length answers retries (before ++ honest :: after) index lastError)
      (fun result cell => result.1 = true ∧ Complete content cell) (fun _ _ => False) := by
  induction before generalizing index lastError with
  | nil =>
    refine (attempts_honest hretries hhonest lastError).bind fun result => ?_
    rintro cell ⟨hcompleted, h⟩
    obtain ⟨completed, lastError⟩ := result
    obtain rfl : completed = true := hcompleted
    exact ⟨rfl, h⟩
  | cons source before ih =>
    obtain ⟨htruthful, hquiet⟩ := hbefore 0 (Nat.zero_lt_succ _)
    refine (attempts_truthful htruthful hquiet retries retries lastError).bind fun result => ?_
    obtain ⟨completed, lastError⟩ := result
    cases completed with
    | true => exact Ends.pure fun cell h => ⟨rfl, h⟩
    | false =>
      have hrest : ∀ i, index + 1 + i = index + (i + 1) := fun i => by omega
      refine ih (fun i hi => ?_) ?_ lastError
      · rw [hrest]
        exact hbefore (i + 1) (Nat.succ_lt_succ hi)
      · rw [hrest]
        exact hhonest

/-- The check of the part that is the blob. -/
theorem validate_ends {sha256 : Bytes → Digest} :
    Ends (Complete content) (validate sha256 (sha256 content) content.length)
      (fun value cell => value = (sha256 content, (content.length : ℤ)) ∧
        Stored sha256 (sha256 content) content.length cell) (fun _ _ => False) := by
  refine (Ends.read (Q := fun read cell => read = cell ∧ Complete content cell)
    fun _ h => ⟨rfl, h⟩).bind fun cell => ?_
  rintro _ ⟨rfl, h⟩
  rw [Complete] at h
  rw [h]
  dsimp only
  rw [if_neg (by simp)]
  exact ⟨rfl, content, rfl, rfl, rfl⟩

end Download

/-- **A download that was interrupted is resumed.** Its part holds the first bytes of the blob,
fewer than all of them unless it is empty. Where an honest registry that honours `Range` is among
the sources, and those before it are truthful, the download returns and the blob is stored with its
digest. A registry that ignores `Range` does as well while the part is empty and the sources before
it are silent. -/
theorem downloadBlob_resumes (sha256 : Bytes → Digest) (content : Bytes) (cell : Cell)
    (before after : List Source) (honest : Source) (answers : ℕ → ℕ → ℕ → BlobReply) (retries : ℕ)
    (hretries : 0 < retries) (hgenuine : Genuine sha256 (sha256 content) cell)
    (hresumable : Resumable content cell)
    (hbefore : ∀ index < before.length, Truthful content (answers index))
    (hhonest : HonoursRange content (answers before.length) ∨
      IgnoresRange content (answers before.length) ∧ cell.part = [] ∧
        ∀ index < before.length, Silent (answers index)) :
    (downloadBlob sha256 (before ++ honest :: after) answers retries (sha256 content)
        content.length cell).outcome = .ok (sha256 content, (content.length : ℤ)) ∧
      Stored sha256 (sha256 content) content.length
        (downloadBlob sha256 (before ++ honest :: after) answers retries (sha256 content)
          content.length cell).final := by
  have hends : Ends (fun other => other = cell)
      (downloadBlob sha256 (before ++ honest :: after) answers retries (sha256 content)
        content.length)
      (fun value cell => value = (sha256 content, (content.length : ℤ)) ∧
        Stored sha256 (sha256 content) content.length cell) (fun _ _ => False) := by
    refine (Ends.read (Q := fun read other => read = cell ∧ other = cell)
      fun _ h => ⟨h, h⟩).bind fun read => ?_
    split
    · next hsize =>
      -- a blob of the right size is trusted, and was checked when it was stored
      refine Ends.pure ?_
      rintro _ ⟨rfl, rfl⟩
      obtain ⟨bytes, htarget, hsize⟩ := Option.map_eq_some_iff.mp hsize
      exact ⟨rfl, bytes, htarget, hgenuine bytes htarget, hsize⟩
    · have hsources : Ends
          (Waiting content (cell.part = [] ∧ ∀ index < before.length, Silent (answers index)))
          (trySources content.length answers retries (before ++ honest :: after) 0 none)
          (fun result cell => result.1 = true ∧ Complete content cell) (fun _ _ => False) := by
        refine trySources_ends hretries (fun i hi => ?_) ?_ none
        · rw [Nat.zero_add]
          exact ⟨hbefore i hi, fun hquiet => hquiet.2 i hi⟩
        · rwa [Nat.zero_add]
      refine Ends.conseq (hsources.bind fun result => ?_) ?_ (fun _ _ h => h) fun _ _ h => h
      · rintro other ⟨hcompleted, h⟩
        obtain ⟨completed, lastError⟩ := result
        obtain rfl : completed = true := hcompleted
        exact validate_ends other h
      · rintro _ ⟨-, rfl⟩
        exact ⟨hresumable, fun hquiet => hquiet.1⟩
  obtain ⟨value, hvalue, rfl, hstored⟩ := hends.returns rfl
  exact ⟨hvalue, hstored⟩

/-- Two of three bytes were received; a mirror breaks off at once, and the registry sends the
rest. -/
theorem downloadBlob_resumes_part :
    (downloadBlob (fun _ => 0)
        ([⟨"https://mirror", none⟩] ++ ⟨"https://registry-1.docker.io", none⟩ :: [])
        (fun index _ offset =>
          if index = 0 then .raises (.networkError "timed out")
          else if offset = 0 then .response (some 200) [0x1f, 0x8b, 0x08] none
          else if offset < 3 then .response (some 206) ([0x1f, 0x8b, 0x08].drop offset) none
          else .raises (.httpError 416)) 8 0 3 { temporary := some [0x1f, 0x8b] }).outcome =
      .ok (0, 3) := by
  refine (downloadBlob_resumes (fun _ => 0) [0x1f, 0x8b, 0x08] { temporary := some [0x1f, 0x8b] }
    [⟨"https://mirror", none⟩] [] ⟨"https://registry-1.docker.io", none⟩ _ 8 (by decide) nofun
    ⟨by decide, by decide⟩ ?_ (Or.inl ?_)).1
  · intro index hindex attempt offset
    obtain rfl : index = 0 := Nat.lt_one_iff.mp hindex
    rfl
  · intro attempt offset
    refine ⟨?_, ?_, ?_⟩
    · rintro rfl
      exact ⟨_, rfl⟩
    · intro hpos hlt
      have hlt : offset < 3 := hlt
      show (if (1 : ℕ) = 0 then _ else if offset = 0 then _ else if offset < 3 then _ else _) = _
      rw [if_neg one_ne_zero, if_neg hpos.ne', if_pos hlt]
    · intro hpos hle
      have hle : ¬ offset < 3 := not_lt.mpr hle
      show (if (1 : ℕ) = 0 then _ else if offset = 0 then _ else if offset < 3 then _ else _) = _
      rw [if_neg one_ne_zero, if_neg hpos.ne', if_neg hle]

/-- A part of one byte, and a registry that serves the whole blob whatever the offset, as the only
source: it is given up, and the part stays. -/
theorem downloadBlob_gives_up :
    Resumable [0x1f, 0x8b, 0x08] { temporary := some [0x1f] } ∧
      IgnoresRange [0x1f, 0x8b, 0x08]
        (fun _ _ => .response (some 200) [0x1f, 0x8b, 0x08] none) ∧
      (downloadBlob (fun _ => 0) [⟨"https://mirror", none⟩]
          (fun _ _ _ => .response (some 200) [0x1f, 0x8b, 0x08] none) 8 0 3
          { temporary := some [0x1f] }).outcome = .error (.runtimeError "ignored Range") :=
  ⟨⟨by decide, by decide⟩, fun _ _ => rfl, by decide +kernel⟩

end Oci
