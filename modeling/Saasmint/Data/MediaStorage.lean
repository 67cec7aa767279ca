import Saasmint.Python.Value

/-!
# The media storage

`FileSystemStorage`: files and directories under a root, by the path that a name resolves
to.  A name is joined to the root and normalised; where that leaves the root it is refused.
-/

namespace Saasmint

/-- The segments of a path, from the root of the storage. -/
abbrev MediaPath := List (List Char)

structure MediaStorage (β : Type) where
  /-- The segments of `MEDIA_ROOT`. -/
  location : MediaPath
  files : List (MediaPath × β)
  directories : List MediaPath

/-- The exceptions of a storage. -/
inductive StorageError
  | suspiciousFileOperation
  | nameRequired
  | os (message : String)
deriving DecidableEq, Repr

/-- `os.path.abspath` of a path from a directory on. -/
def normalizePath (start : MediaPath) (segments : MediaPath) : MediaPath :=
  segments.foldl (fun path segment =>
    if segment = [] ∨ segment = ['.'] then path
    else if segment = ['.', '.'] then path.dropLast
    else path ++ [segment]) start

/-- Two slashes in front are kept, three or more are one. -/
def keepsSlashes : List Char → Bool
  | '/' :: '/' :: '/' :: _ => false
  | '/' :: '/' :: _ => true
  | _ => false

/-- `safe_join(location, name)`, from the location on. -/
def safeJoin (location : MediaPath) (name : List Char) : Except StorageError MediaPath :=
  let start := if name.head? = some '/' then [] else location
  let path := normalizePath start (name.splitOn '/')
  if location = [] ∨ (location.isPrefixOf path ∧ keepsSlashes name = false) then
    .ok (path.drop location.length)
  else .error .suspiciousFileOperation

namespace MediaStorage

variable {β : Type} (storage : MediaStorage β)

def file? (path : MediaPath) : Option β := storage.files.lookup path

/-- `FileSystemStorage.exists`. -/
def exists? (name : List Char) : Except StorageError Bool :=
  (fun path => (storage.file? path).isSome || storage.directories.contains path) <$>
    safeJoin storage.location name

/-- `os.remove`: the storage without the file. -/
def remove (path : MediaPath) : MediaStorage β :=
  { storage with files := storage.files.filter fun entry => entry.1 ≠ path }

/-- `os.rmdir`: only an empty directory goes. -/
def rmdir (path : MediaPath) : Except StorageError (MediaStorage β) :=
  if (storage.files.map Prod.fst ++ storage.directories).any
      fun other => path.isPrefixOf other && path != other then
    .error (.os "Directory not empty")
  else .ok { storage with directories := storage.directories.filter (· ≠ path) }

/-- `FileSystemStorage.delete`. -/
def delete (name : List Char) : Except StorageError (MediaStorage β) :=
  if name = [] then .error .nameRequired
  else do
    let path ← safeJoin storage.location name
    if (storage.file? path).isSome then return storage.remove path
    else if storage.directories.contains path then storage.rmdir path
    else return storage

variable {storage} {path other : MediaPath}

theorem file?_remove_self : (storage.remove path).file? path = none := by
  refine List.lookup_eq_none_iff.mpr fun entry hentry => ?_
  have hne : entry.1 ≠ path := of_decide_eq_true (List.mem_filter.mp hentry).2
  simpa using Ne.symm hne

theorem file?_remove_of_ne (h : other ≠ path) : (storage.remove path).file? other = storage.file? other := by
  unfold remove file?
  dsimp only
  induction storage.files with
  | nil => rfl
  | cons entry files ih =>
      rw [List.filter_cons]
      split
      next => rw [List.lookup_cons, List.lookup_cons, ih]
      next hentry =>
        have hsame : entry.1 = path := by simpa using hentry
        have hother : (other == entry.1) = false := by
          rw [hsame]
          exact beq_false_of_ne h
        rw [ih, List.lookup_cons, hother]

/-- An empty directory takes no file with it. -/
theorem file?_rmdir {after : MediaStorage β} (h : storage.rmdir path = .ok after) :
    after.file? other = storage.file? other := by
  unfold rmdir at h
  split at h
  next => cases h
  next =>
    cases h
    rfl

/-- `delete` takes the file that the name resolves to, and no other. -/
theorem eq_of_delete {name : List Char} {after : MediaStorage β} (h : storage.delete name = .ok after)
    (hsome : (storage.file? other).isSome) (hgone : after.file? other = none) :
    name ≠ [] ∧ safeJoin storage.location name = .ok other := by
  unfold delete at h
  split at h
  next => cases h
  next hname =>
    refine ⟨hname, ?_⟩
    cases hjoin : safeJoin storage.location name with
    | error e =>
        rw [hjoin] at h
        cases h
    | ok path =>
        rw [hjoin] at h
        have hkept : ∀ kept : MediaStorage β, kept.file? other = storage.file? other → after = kept →
            False := by
          rintro kept hsame rfl
          rw [← hsame, hgone] at hsome
          cases hsome
        replace h : (if (storage.file? path).isSome then Except.ok (storage.remove path)
            else if storage.directories.contains path then storage.rmdir path
            else .ok storage) = .ok after := h
        split at h
        next =>
          by_cases hother : other = path
          · rw [hother]
          · exact absurd (Except.ok.inj h).symm
              (hkept _ (file?_remove_of_ne hother))
        next =>
          split at h
          next => exact (hkept after (file?_rmdir h) rfl).elim
          next => exact (hkept storage rfl (Except.ok.inj h).symm).elim

theorem delete_of_file {name : List Char} (hname : name ≠ [])
    (hjoin : safeJoin storage.location name = .ok path) (hsome : (storage.file? path).isSome) :
    storage.delete name = .ok (storage.remove path) := by
  unfold delete
  rw [if_neg hname, hjoin]
  exact if_pos hsome

theorem exists?_of_file {name : List Char} (hjoin : safeJoin storage.location name = .ok path)
    (hsome : (storage.file? path).isSome) : storage.exists? name = .ok true := by
  unfold exists?
  rw [hjoin]
  show Except.ok ((storage.file? path).isSome || _) = _
  rw [hsome, Bool.true_or]

end MediaStorage

end Saasmint
