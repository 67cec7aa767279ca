import Saasmint.Data.MediaStorage
import Saasmint.Library.Program
import Saasmint.Python.Url
import Saasmint.Python.Uuid

/-!
# Avatars

A user's `avatar_url` is any text: what an upload has stored, or what a provider has sent.
`_delete_local_avatar` takes the path of that URL, strips `MEDIA_URL` from it and deletes
the file that the rest resolves to.  The host of the URL is not looked at, and neither is
the directory of the file.

`process_and_save_avatar` deletes the old file before it stores the new one, and the row
changes last, so a step that fails in between leaves the URL of a file that is gone.
-/

namespace Saasmint.Avatars

open Atomic

inductive AvatarError
  | python (error : PyError)
  | storage (error : StorageError)
deriving DecidableEq

/-! ## What an upload depends on -/

/-- The exceptions of the image library; an image that it does not know is an `OSError`. -/
inductive ImageError
  | os (message : String)
  | other (error : PyError)

/-- What is called of Pillow, for uploads `φ`, images `ι` and file contents `β`. -/
structure ImageLibrary (φ ι β : Type) where
  /-- `Image.open(file)`, with the format of the image. -/
  open_ : φ → Except ImageError (Option String × ι)
  exifTranspose : ι → Except ImageError (Option ι)
  mode : ι → String
  getbands : ι → List String
  convert : ι → String → Except ImageError ι
  thumbnail : ι → ℕ × ℕ → Except ImageError ι
  /-- `img.save(buffer, format="WEBP", quality=…, method=6)`. -/
  saveWebp : ι → ℕ → Except ImageError β

/-- What a site serves as media. -/
structure Site where
  lib : UrlLibrary
  mediaUrl : List Char
  /-- The authority is one of the site's own. -/
  ownsNetloc : List Char → Bool

/-- The parts of a run that are decided elsewhere. -/
structure Upload (φ ι β : Type) where
  images : ImageLibrary φ ι β
  /-- What `os.remove` fails with. -/
  deleteError : Option StorageError
  /-- What `default_storage.save` fails with. -/
  saveError : Option StorageError
  /-- The name under which a file is saved, and the storage then.  After a failure a part
  of the file may be left. -/
  save : MediaStorage β → List Char → β → List Char × MediaStorage β
  /-- A file is saved under an available name. -/
  save_file? : ∀ storage name content path, (storage.file? path).isSome →
    (save storage name content).2.file? path = storage.file? path
  /-- `request.build_absolute_uri`, which fails on a host that is not allowed. -/
  buildAbsoluteUri : Except PyError (List Char → String)
  /-- `uuid.uuid4().hex`. -/
  hex : List Char
  /-- What `user.save()` fails with. -/
  databaseError : Option PyError

/-- The stored files, and the user's row as far as it matters here. -/
structure AvatarState (β : Type) where
  storage : MediaStorage β
  userId : UUID
  avatarUrl : Option String

/-- What an action does. -/
inductive AvatarStep
  | exists
  | delete
  | save
  | database

variable {φ ι β : Type}

abbrev AvatarProgram (β : Type) := Fallible AvatarError AvatarStep (AvatarState β)

/-! ## Images -/

/-- `_AVATAR_DIM`. -/
def avatarDim : ℕ := 128

/-- `_AVATAR_WEBP_QUALITY`. -/
def avatarWebpQuality : ℕ := 80

/-- `_ALLOWED_AVATAR_INPUT_FORMATS`. -/
def allowedAvatarInputFormats : List String := ["JPEG", "PNG", "WEBP", "GIF"]

def unsupportedImageType : PyError := .validation "avatar" "Unsupported image type."
def invalidImageFile : PyError := .validation "avatar" "Invalid image file."

/-- The part of `process_and_save_avatar` that is done in memory. -/
def encodeAvatar (images : ImageLibrary φ ι β) (file : φ) : Except ImageError β := do
  let (format, opened) ← images.open_ file
  if String.ofList ((format.getD "").toList.map Char.toUpper) ∉ allowedAvatarInputFormats then
    throw (.other unsupportedImageType)
  let img := (← images.exifTranspose opened).getD opened
  let img ← if images.mode img ∉ ["RGB", "RGBA"] then
      images.convert img (if "A" ∈ images.getbands img then "RGBA" else "RGB")
    else pure img
  let img ← images.thumbnail img (avatarDim, avatarDim)
  images.saveWebp img avatarWebpQuality

/-- An `OSError` is answered with a 400. -/
def encoded (images : ImageLibrary φ ι β) (file : φ) : Except AvatarError β :=
  match encodeAvatar images file with
  | .ok content => .ok content
  | .error (.os _) => .error (.python invalidImageFile)
  | .error (.other e) => .error (.python e)

/-! ## The service -/

section Service

variable (site : Site) (upload : Upload φ ι β)

/-- `_delete_local_avatar`. -/
def deleteLocalAvatar (avatarUrl : Option String) : AvatarProgram β Unit := do
  match avatarUrl.filter (· ≠ "") with
  | none => return ()
  | some url =>
      let parsed ← Fallible.ofExcept ((urlparse site.lib url).mapError .python)
      match parsed.path.dropPrefix? site.mediaUrl with
      | none => return ()
      | some oldPath =>
          if ← Fallible.atomic .exists fun s =>
              ((s.storage.exists? oldPath).mapError .storage, s) then
            Fallible.atomic .delete fun s =>
              match upload.deleteError, s.storage.delete oldPath with
              | some e, _ => (.error (.storage e), s)
              | none, .error e => (.error (.storage e), s)
              | none, .ok storage => (.ok (), { s with storage })

/-- `user.avatar_url = …` and `user.save(update_fields=["avatar_url", "updated_at"])`. -/
def saveAvatarUrl (avatarUrl : Option String) : AvatarProgram β Unit :=
  Fallible.atomic .database fun s =>
    match upload.databaseError with
    | some e => (.error (.python e), s)
    | none => (.ok (), { s with avatarUrl })

/-- `default_storage.save(path, content)`. -/
def saveFile (path : List Char) (content : β) : AvatarProgram β (List Char) :=
  Fallible.atomic .save fun s =>
    let (saved, storage) := upload.save s.storage path content
    match upload.saveError with
    | some e => (.error (.storage e), { s with storage })
    | none => (.ok saved, { s with storage })

/-- `process_and_save_avatar`. -/
def processAndSaveAvatar (file : φ) (userId : UUID) (avatarUrl : Option String) :
    AvatarProgram β String := do
  let content ← Fallible.ofExcept (encoded upload.images file)
  deleteLocalAvatar site upload avatarUrl
  let path := "avatars/".toList ++ (uuidText userId).toList ++ '/' :: upload.hex ++ ".webp".toList
  let savedPath ← saveFile upload path content
  let absolute ← Fallible.ofExcept (upload.buildAbsoluteUri.mapError .python)
  let url := absolute (site.mediaUrl ++ savedPath)
  saveAvatarUrl upload (some url)
  return url

/-- `AvatarView.delete`. -/
def deleteAvatar (avatarUrl : Option String) : AvatarProgram β Unit := do
  deleteLocalAvatar site upload avatarUrl
  saveAvatarUrl upload none

/-- The user's row is read, and then the avatar is replaced or deleted. -/
inductive AvatarRequest (φ : Type)
  | post (file : φ)
  | delete

/-- What a request leaves, and whether it has failed. -/
def AvatarRequest.exec (request : AvatarRequest φ) (s : AvatarState β) :
    Except AvatarError Unit × AvatarState β :=
  match request with
  | post file => (processAndSaveAvatar site upload file s.userId s.avatarUrl >>= fun _ => pure ()).exec s
  | delete => (deleteAvatar site upload s.avatarUrl).exec s

end Service

/-! ## What a URL denotes -/

/-- The URL is of this site: it is relative, or it has one of the site's authorities. -/
def Site.IsOwn (site : Site) (parsed : ParseResult) : Prop :=
  (parsed.scheme = [] ∧ parsed.netloc = []) ∨
    (parsed.scheme ∈ [[], "http".toList, "https".toList] ∧ site.ownsNetloc parsed.netloc = true)

/-- The path of the URL is `MEDIA_URL`, and then a name that resolves to this path. -/
def Site.Resolves (site : Site) (location : MediaPath) (parsed : ParseResult) (path : MediaPath) :
    Prop :=
  ∃ name, name ≠ [] ∧ parsed.path = site.mediaUrl ++ name ∧ safeJoin location name = .ok path

/-- The user's `avatar_url` is a URL, and it satisfies `P`. -/
def AvatarState.Url (site : Site) (s : AvatarState β) (P : ParseResult → Prop) : Prop :=
  ∃ url parsed, s.avatarUrl = some url ∧ urlparse site.lib url = .ok parsed ∧ P parsed

/-- The directory of the user's uploads. -/
def avatarDirectory (userId : UUID) : MediaPath := ["avatars".toList, (uuidText userId).toList]

section Deletion

variable {site : Site} {upload : Upload φ ι β} {s : AvatarState β}

theorem dropPrefix?_eq_some {path pre name : List Char} :
    path.dropPrefix? pre = some name ↔ path = pre ++ name := by
  rw [List.dropPrefix?_eq_some_iff]
  constructor
  · rintro ⟨p, rfl, hp⟩
    rw [eq_of_beq hp]
  · rintro rfl
    exact ⟨pre, rfl, beq_self_eq_true pre⟩

theorem urlparse_empty (lib : UrlLibrary) : urlparse lib "" = .ok ⟨[], [], [], [], [], []⟩ := rfl

variable (site upload) in
/-- `_delete_local_avatar` deletes no file but the one that the path of the URL resolves
to. -/
theorem ends_deleteLocalAvatar (path : MediaPath) (hsome : (s.storage.file? path).isSome) :
    (deleteLocalAvatar site upload s.avatarUrl).Ends (fun _ t => t.storage.file? path = none →
      s.Url site fun parsed => site.Resolves s.storage.location parsed path) s := by
  have hstays : s.storage.file? path = none → s.Url site fun parsed =>
      site.Resolves s.storage.location parsed path := by
    intro hnone
    rw [hnone] at hsome
    cases hsome
  unfold deleteLocalAvatar
  split
  next => exact hstays
  next url hurl =>
    rw [Option.filter_eq_some_iff] at hurl
    refine Fallible.Ends.keep (P := fun t : AvatarState β => t.storage.file? path = none → _)
      ⟨hstays, fun parsed hparsed => ?_⟩
    split
    next => exact hstays
    next oldPath hpath =>
      refine Fallible.Ends.keep (P := fun t : AvatarState β => t.storage.file? path = none → _)
        ⟨hstays, fun found _ => ?_⟩
      split
      next =>
        rw [Fallible.ends_atomic]
        split
        next => exact hstays
        next => exact hstays
        next storage _ hdelete =>
          intro hgone
          obtain ⟨hname, hjoin⟩ := MediaStorage.eq_of_delete hdelete hsome hgone
          refine ⟨url, parsed, hurl.1, ?_, oldPath, hname, dropPrefix?_eq_some.mp hpath, hjoin⟩
          cases hparse : urlparse site.lib url with
          | error e =>
              rw [hparse] at hparsed
              cases hparsed
          | ok result =>
              rw [hparse] at hparsed
              cases hparsed
              rfl
      next => exact hstays

/-- What is left of the request keeps every stored file. -/
theorem ends_saveAvatarUrl {P : AvatarState β → Prop} {avatarUrl : Option String}
    (h : ∀ t, t.storage = s.storage → P t) :
    (saveAvatarUrl upload avatarUrl).Ends (fun _ t => P t) s := by
  unfold saveAvatarUrl
  rw [Fallible.ends_atomic]
  split
  · exact h s rfl
  · exact h _ rfl

theorem ends_saveFile {P : AvatarState β → Prop} {path : List Char} {content : β}
    (h : P { s with storage := (upload.save s.storage path content).2 }) :
    (saveFile upload path content).Ends (fun _ t => P t) s := by
  unfold saveFile
  rw [Fallible.ends_atomic]
  dsimp only
  split
  · exact h
  · exact h

/-- A file that a request has deleted is one that the path of the URL resolves to. -/
theorem resolves_of_gone {request : AvatarRequest φ} {path : MediaPath}
    (hsome : (s.storage.file? path).isSome)
    (hgone : (request.exec site upload s).2.storage.file? path = none) :
    s.Url site fun parsed => site.Resolves s.storage.location parsed path := by
  have hdeletion := ends_deleteLocalAvatar site upload path hsome
  revert hgone
  cases request with
  | delete =>
      show (deleteAvatar site upload s.avatarUrl).Ends (fun _ t => t.storage.file? path = none → _) s
      refine Fallible.Ends.keep (P := fun t : AvatarState β => t.storage.file? path = none → _)
        (hdeletion.mono fun _ t ht => ⟨ht, fun _ _ => ?_⟩)
      exact ends_saveAvatarUrl fun r hr hnone => ht (hr ▸ hnone)
  | post file =>
      show (processAndSaveAvatar site upload file s.userId s.avatarUrl >>= fun _ => pure ()).Ends
        (fun _ t => t.storage.file? path = none → _) s
      refine Fallible.Ends.keep (P := fun t : AvatarState β => t.storage.file? path = none → _) ?_
      have hstart : s.storage.file? path = none → s.Url site fun parsed =>
          site.Resolves s.storage.location parsed path := by
        intro hnone
        rw [hnone] at hsome
        cases hsome
      suffices hprocess : (processAndSaveAvatar site upload file s.userId s.avatarUrl).Ends
          (fun _ t => t.storage.file? path = none → s.Url site fun parsed =>
            site.Resolves s.storage.location parsed path) s from
        hprocess.mono fun _ t ht => ⟨ht, fun _ _ => ht⟩
      unfold processAndSaveAvatar
      refine Fallible.Ends.keep (P := fun t : AvatarState β => t.storage.file? path = none → _)
        ⟨hstart, fun content _ => ?_⟩
      refine Fallible.Ends.keep (P := fun t : AvatarState β => t.storage.file? path = none → _)
        (hdeletion.mono fun _ t ht => ⟨ht, fun _ _ => ?_⟩)
      -- what the deletion has left is still there when the new file is saved
      have hsaved : ∀ name, (upload.save t.storage name content).2.file? path = none →
          s.Url site fun parsed => site.Resolves s.storage.location parsed path := by
        intro name hnone
        cases hfile : t.storage.file? path with
        | none => exact ht hfile
        | some old =>
            have hkept := upload.save_file? t.storage name content path (Option.isSome_of_eq_some hfile)
            rw [hnone, hfile] at hkept
            cases hkept
      refine Fallible.Ends.keep (P := fun t : AvatarState β => t.storage.file? path = none → _) ?_
      refine Fallible.Ends.mono (ends_saveFile (P := fun t => t.storage.file? path = none → _)
        (hsaved _)) fun _ r hr => ⟨hr, fun saved _ => ?_⟩
      refine Fallible.Ends.keep (P := fun t : AvatarState β => t.storage.file? path = none → _)
        ⟨hr, fun absolute _ => ?_⟩
      refine Fallible.Ends.keep (P := fun t : AvatarState β => t.storage.file? path = none → _) ?_
      exact Fallible.Ends.mono (ends_saveAvatarUrl fun r' hr' hnone => hr (hr' ▸ hnone))
        fun _ _ h => ⟨h, fun _ _ => h⟩

variable (upload) in
/-- A file that the path of the URL resolves to is deleted, unless that fails. -/
theorem exec_deleteLocalAvatar {url : String} {parsed : ParseResult} {path : MediaPath}
    (hurl : s.avatarUrl = some url) (hparsed : urlparse site.lib url = .ok parsed)
    (hresolves : site.Resolves s.storage.location parsed path)
    (hsome : (s.storage.file? path).isSome) :
    (deleteLocalAvatar site upload s.avatarUrl).exec s = match upload.deleteError with
      | some e => (.error (.storage e), s)
      | none => (.ok (), { s with storage := s.storage.remove path }) := by
  obtain ⟨name, hname, hpath, hjoin⟩ := hresolves
  have hfilter : s.avatarUrl.filter (· ≠ "") = some url := by
    rw [Option.filter_eq_some_iff]
    refine ⟨hurl, decide_eq_true ?_⟩
    rintro rfl
    obtain rfl := Except.ok.inj ((urlparse_empty site.lib).symm.trans hparsed)
    exact hname (List.append_eq_nil_iff.mp hpath.symm).2
  unfold deleteLocalAvatar
  rw [hfilter]
  dsimp only
  rw [hparsed]
  simp only [Except.mapError, Fallible.exec_bind, Fallible.exec_ofExcept, Fallible.resume_ok,
    dropPrefix?_eq_some.mpr hpath, Fallible.exec_atomic, MediaStorage.exists?_of_file hjoin hsome,
    MediaStorage.delete_of_file hname hjoin hsome, if_true]
  cases upload.deleteError <;> rfl

end Deletion

/-! ## Whose file is deleted -/

section Ownership

variable (site : Site) (s : AvatarState β)

/-- Replacing or deleting the avatar deletes a file only if the URL is of this site and its
path resolves to that file, in the directory of the user. -/
def DeletesOwnFile (upload : Upload φ ι β) (request : AvatarRequest φ) : Prop :=
  ∀ path, (s.storage.file? path).isSome →
    (request.exec site upload s).2.storage.file? path = none →
      s.Url site fun parsed => site.IsOwn parsed ∧ site.Resolves s.storage.location parsed path ∧
        avatarDirectory s.userId <+: path

/-- If the path of the URL resolves to a stored file, the URL is of this site and the file
in the directory of the user. -/
def UrlIsOwnOrNoFile : Prop :=
  ∀ url parsed path, s.avatarUrl = some url → urlparse site.lib url = .ok parsed →
    site.Resolves s.storage.location parsed path → (s.storage.file? path).isSome →
      site.IsOwn parsed ∧ avatarDirectory s.userId <+: path

variable {site s}

/-- An upload of which no step fails, as far as it matters for a deletion. -/
def quietUpload : Upload φ ι β where
  images :=
    { open_ := fun _ => .error (.os "cannot identify image file")
      exifTranspose := fun _ => .ok none
      mode := fun _ => "RGB"
      getbands := fun _ => []
      convert := fun image _ => .ok image
      thumbnail := fun image _ => .ok image
      saveWebp := fun _ _ => .error (.os "encoder error") }
  deleteError := none
  saveError := none
  save := fun storage name _ => (name, storage)
  save_file? := fun _ _ _ _ _ => rfl
  buildAbsoluteUri := .ok String.ofList
  hex := []
  databaseError := none

/-- **Only the user's own file is deleted** exactly if the URL is of no stored file but one
of the user's own. -/
theorem deletesOwnFile_iff (φ ι : Type) (site : Site) (s : AvatarState β) :
    (∀ (upload : Upload φ ι β) (request : AvatarRequest φ), DeletesOwnFile site s upload request) ↔
      UrlIsOwnOrNoFile site s := by
  constructor
  · intro howns url parsed path hurl hparsed hresolves hsome
    have hdeleted : (AvatarRequest.delete.exec site (quietUpload : Upload φ ι β) s).2.storage.file?
        path = none := by
      show ((deleteAvatar site (quietUpload : Upload φ ι β) s.avatarUrl).exec s).2.storage.file?
        path = none
      unfold deleteAvatar saveAvatarUrl
      rw [Fallible.exec_bind, exec_deleteLocalAvatar _ hurl hparsed hresolves hsome]
      exact MediaStorage.file?_remove_self
    obtain ⟨url', parsed', hurl', hparsed', hown, -, hdirectory⟩ :=
      howns quietUpload .delete path hsome hdeleted
    obtain rfl := Option.some.inj (hurl.symm.trans hurl')
    obtain rfl := Except.ok.inj (hparsed.symm.trans hparsed')
    exact ⟨hown, hdirectory⟩
  · intro hown upload request path hsome hgone
    obtain ⟨url, parsed, hurl, hparsed, hresolves⟩ := resolves_of_gone hsome hgone
    obtain ⟨howns, hdirectory⟩ := hown url parsed path hurl hparsed hresolves hsome
    exact ⟨url, parsed, hurl, hparsed, howns, hresolves, hdirectory⟩

/-- The site at `api.example.com`. -/
def exampleSite : Site where
  lib := asciiLibrary
  mediaUrl := "/media/".toList
  ownsNetloc netloc := netloc == "api.example.com".toList

/-- A user's avatar is at a provider, under the path of another user's file. -/
def exampleState : AvatarState String where
  storage :=
    { location := ["srv".toList, "media".toList]
      files := [(["avatars".toList, "00000000-0000-0000-0000-000000000001".toList,
        "a.webp".toList], "RIFF")]
      directories := [[], ["avatars".toList],
        ["avatars".toList, "00000000-0000-0000-0000-000000000001".toList]] }
  userId := 2
  avatarUrl :=
    some "https://cdn.example.net/media/avatars/00000000-0000-0000-0000-000000000001/a.webp"

theorem not_deletesOwnFile : ¬ ∀ (upload : Upload Unit Unit String) (request : AvatarRequest Unit),
    DeletesOwnFile exampleSite exampleState upload request := by
  intro howns
  obtain ⟨url, parsed, hurl, hparsed, hown, -⟩ := howns quietUpload .delete
    ["avatars".toList, "00000000-0000-0000-0000-000000000001".toList, "a.webp".toList] rfl rfl
  obtain rfl := Option.some.inj hurl
  obtain rfl := Except.ok.inj hparsed
  rcases hown with ⟨hscheme, -⟩ | ⟨-, hnetloc⟩
  · revert hscheme
    decide
  · revert hnetloc
    decide

end Ownership

/-! ## What a failure leaves -/

section Failure

variable (site : Site) (s : AvatarState β) (upload : Upload φ ι β) (file : φ)

/-- The URL is of this site, and it denotes a stored file with this content. -/
def AvatarState.Denotes (content : β) (path : MediaPath) : Prop :=
  s.Url site fun parsed => site.IsOwn parsed ∧ site.Resolves s.storage.location parsed path ∧
    s.storage.file? path = some content

/-- After a failure the user's URL is the one before, and if it denoted a file, that file has
its content. -/
def FailureKeepsAvatar : Prop :=
  ∀ e t, (processAndSaveAvatar site upload file s.userId s.avatarUrl).exec s = (.error e, t) →
    t.avatarUrl = s.avatarUrl ∧
      ∀ content path, s.Denotes site content path → t.storage.file? path = some content

/-- The name under which `default_storage` is asked to save the new file. -/
def Upload.path (userId : UUID) : List Char :=
  "avatars/".toList ++ (uuidText userId).toList ++ '/' :: upload.hex ++ ".webp".toList

/-- No step after the deletion fails. -/
def Upload.Completes : Prop :=
  upload.saveError = none ∧ (∃ absolute, upload.buildAbsoluteUri = .ok absolute) ∧
    upload.databaseError = none

/-- The URL denotes no stored file of this site, or the upload is refused before anything is
deleted, or the deletion itself fails, or no step after it does.  (The new file may also
have taken the name and the content of the old one.) -/
def DeletesLast : Prop :=
  ∀ content path, s.Denotes site content path →
    (∃ e, encoded upload.images file = .error e) ∨ upload.deleteError ≠ none ∨ upload.Completes ∨
      ∀ new, encoded upload.images file = .ok new →
        (upload.save (s.storage.remove path) (upload.path s.userId) new).2.file? path = some content

variable {site s upload file}

/-- What follows the deletion ends in a failure if and only if one of its steps fails, and
leaves what `default_storage.save` has left. -/
theorem exec_processAndSaveAvatar {new : β} {t : AvatarState β}
    (hencoded : encoded upload.images file = .ok new)
    (hdeleted : (deleteLocalAvatar site upload s.avatarUrl).exec s = (.ok (), t)) :
    ((processAndSaveAvatar site upload file s.userId s.avatarUrl).exec s).2.storage =
        (upload.save t.storage (upload.path s.userId) new).2 ∧
      ((∃ e, ((processAndSaveAvatar site upload file s.userId s.avatarUrl).exec s).1 = .error e) ↔
        ¬ upload.Completes) := by
  unfold processAndSaveAvatar saveFile saveAvatarUrl Upload.Completes
  rw [Fallible.exec_bind, hencoded]
  simp only [Fallible.exec_ofExcept, Fallible.resume_ok, Fallible.exec_bind, hdeleted,
    Fallible.exec_atomic]
  cases upload.saveError with
  | some e => exact ⟨rfl, by simp⟩
  | none =>
      simp only [Fallible.resume_ok, Fallible.exec_bind, Fallible.exec_ofExcept]
      cases upload.buildAbsoluteUri with
      | error e => exact ⟨rfl, by simp [Except.mapError]⟩
      | ok absolute =>
          simp only [Except.mapError, Fallible.resume_ok, Fallible.exec_bind, Fallible.exec_atomic]
          cases upload.databaseError with
          | some e => exact ⟨rfl, by simp⟩
          | none => exact ⟨rfl, by simp⟩

theorem avatarUrl_deleteLocalAvatar (avatarUrl : Option String) :
    (deleteLocalAvatar site upload avatarUrl).Ends (fun _ t => t.avatarUrl = s.avatarUrl) s := by
  unfold deleteLocalAvatar
  split
  next => rfl
  next url _ =>
    refine Fallible.Ends.keep (P := fun t : AvatarState β => t.avatarUrl = s.avatarUrl)
      ⟨rfl, fun parsed _ => ?_⟩
    split
    next => rfl
    next oldPath _ =>
      refine Fallible.Ends.keep (P := fun t : AvatarState β => t.avatarUrl = s.avatarUrl)
        ⟨rfl, fun found _ => ?_⟩
      split
      next =>
        rw [Fallible.ends_atomic]
        split <;> rfl
      next => rfl

/-- The row changes only if the whole upload succeeds. -/
theorem avatarUrl_of_error {e : AvatarError} {t : AvatarState β}
    (h : (processAndSaveAvatar site upload file s.userId s.avatarUrl).exec s = (.error e, t)) :
    t.avatarUrl = s.avatarUrl := by
  suffices hends : (processAndSaveAvatar site upload file s.userId s.avatarUrl).Ends
      (fun result t => (∃ e, result = .error e) → t.avatarUrl = s.avatarUrl) s by
    have hfailed := hends
    unfold Fallible.Ends at hfailed
    rw [h] at hfailed
    exact hfailed ⟨e, rfl⟩
  unfold processAndSaveAvatar
  simp only [Fallible.ends_bind, Fallible.ends_ofExcept]
  cases encoded upload.images file with
  | error e => exact fun _ => rfl
  | ok content =>
      rw [Fallible.follow_ok, Fallible.ends_bind]
      refine (avatarUrl_deleteLocalAvatar s.avatarUrl).mono fun result t ht => ?_
      cases result with
      | error e => exact fun _ => ht
      | ok _ =>
          unfold saveFile saveAvatarUrl
          simp only [Fallible.follow_ok, Fallible.ends_bind, Fallible.ends_atomic]
          cases upload.saveError with
          | some e => exact fun _ => ht
          | none =>
              simp only [Fallible.follow_ok, Fallible.ends_bind, Fallible.ends_ofExcept]
              cases upload.buildAbsoluteUri with
              | error e => exact fun _ => ht
              | ok absolute =>
                  simp only [Except.mapError, Fallible.follow_ok, Fallible.ends_bind,
                    Fallible.ends_atomic]
                  cases upload.databaseError with
                  | some e => exact fun _ => ht
                  | none =>
                      rintro ⟨e, he⟩
                      cases he

/-- What a failed upload leaves of a file that the URL denotes. -/
theorem storage_of_error {content : β} {path : MediaPath} {e : AvatarError} {t : AvatarState β}
    (hdenotes : s.Denotes site content path)
    (h : (processAndSaveAvatar site upload file s.userId s.avatarUrl).exec s = (.error e, t)) :
    t.storage = s.storage ∨ (upload.deleteError = none ∧ ¬ upload.Completes ∧
      ∃ new, encoded upload.images file = .ok new ∧
        t.storage = (upload.save (s.storage.remove path) (upload.path s.userId) new).2) := by
  obtain ⟨url, parsed, hurl, hparsed, -, hresolves, hfile⟩ := hdenotes
  have hdelete := exec_deleteLocalAvatar upload hurl hparsed hresolves
    (Option.isSome_of_eq_some hfile)
  cases hencoded : encoded upload.images file with
  | error refused =>
      unfold processAndSaveAvatar at h
      rw [Fallible.exec_bind, hencoded] at h
      cases h
      exact Or.inl rfl
  | ok new =>
      cases hfails : upload.deleteError with
      | some refused =>
          rw [hfails] at hdelete
          unfold processAndSaveAvatar at h
          rw [Fallible.exec_bind, hencoded, Fallible.exec_ofExcept, Fallible.resume_ok,
            Fallible.exec_bind, hdelete] at h
          cases h
          exact Or.inl rfl
      | none =>
          rw [hfails] at hdelete
          obtain ⟨hstorage, hfailed⟩ := exec_processAndSaveAvatar hencoded hdelete
          rw [h] at hstorage hfailed
          exact Or.inr ⟨rfl, hfailed.mp ⟨e, rfl⟩, new, rfl, hstorage⟩

/-- **A failed upload leaves the old avatar** exactly if nothing fails after the old file has
been deleted. -/
theorem failureKeepsAvatar_iff (site : Site) (s : AvatarState β) (upload : Upload φ ι β) (file : φ) :
    FailureKeepsAvatar site s upload file ↔ DeletesLast site s upload file := by
  constructor
  · intro hkeeps content path hdenotes
    by_cases hrefused : ∃ e, encoded upload.images file = .error e
    · exact Or.inl hrefused
    by_cases hdelete : upload.deleteError = none
    case neg => exact Or.inr (Or.inl hdelete)
    by_cases hcompletes : upload.Completes
    · exact Or.inr (Or.inr (Or.inl hcompletes))
    refine Or.inr (Or.inr (Or.inr fun new hencoded => ?_))
    obtain ⟨url, parsed, hurl, hparsed, hown, hresolves, hfile⟩ := id hdenotes
    have hdeleted := exec_deleteLocalAvatar upload hurl hparsed hresolves
      (Option.isSome_of_eq_some hfile)
    rw [hdelete] at hdeleted
    obtain ⟨hstorage, hfailed⟩ := exec_processAndSaveAvatar hencoded hdeleted
    obtain ⟨e, he⟩ := hfailed.mpr hcompletes
    obtain ⟨-, hkept⟩ := hkeeps e _ (Prod.ext he rfl)
    rw [← hkept content path hdenotes, hstorage]
  · intro hlast e t hrun
    refine ⟨avatarUrl_of_error hrun, fun content path hdenotes => ?_⟩
    have hfile : s.storage.file? path = some content := by
      obtain ⟨-, -, -, -, -, -, hfile⟩ := hdenotes
      exact hfile
    rcases storage_of_error hdenotes hrun with hsame | ⟨hdelete, hfailed, new, hencoded, hsaved⟩
    · rw [hsame, hfile]
    · rcases hlast content path hdenotes with ⟨refused, hrefused⟩ | hfails | hcompletes | hrestored
      · rw [hencoded] at hrefused
        cases hrefused
      · exact absurd hdelete hfails
      · exact absurd hcompletes hfailed
      · rw [hsaved]
        exact hrestored new hencoded

/-- A PNG is uploaded to a full disk. -/
def fullDisk : Upload Unit Unit String where
  images :=
    { open_ := fun _ => .ok (some "PNG", ())
      exifTranspose := fun _ => .ok none
      mode := fun _ => "RGB"
      getbands := fun _ => ["R", "G", "B"]
      convert := fun image _ => .ok image
      thumbnail := fun image _ => .ok image
      saveWebp := fun _ _ => .ok "RIFF new" }
  deleteError := none
  saveError := some (.os "No space left on device")
  save := fun storage name _ => (name, storage)
  save_file? := fun _ _ _ _ _ => rfl
  buildAbsoluteUri := .ok fun location => "https://api.example.com" ++ String.ofList location
  hex := "0123456789abcdef0123456789abcdef".toList
  databaseError := none

/-- The user whose avatar the site itself serves. -/
def ownAvatarState : AvatarState String :=
  { exampleState with
    userId := 1
    avatarUrl :=
      some "https://api.example.com/media/avatars/00000000-0000-0000-0000-000000000001/a.webp" }

theorem not_failureKeepsAvatar : ¬ FailureKeepsAvatar exampleSite ownAvatarState fullDisk () := by
  intro hkeeps
  have hdenotes : ownAvatarState.Denotes exampleSite "RIFF" ["avatars".toList,
      "00000000-0000-0000-0000-000000000001".toList, "a.webp".toList] :=
    ⟨_, ⟨"https".toList, "api.example.com".toList,
        "/media/avatars/00000000-0000-0000-0000-000000000001/a.webp".toList, [], [], []⟩,
      rfl, rfl, Or.inr ⟨by decide, rfl⟩,
      ⟨"avatars/00000000-0000-0000-0000-000000000001/a.webp".toList, by decide, rfl, rfl⟩, rfl⟩
  obtain ⟨url, parsed, hurl, hparsed, -, hresolves, hfile⟩ := id hdenotes
  have hdeleted := exec_deleteLocalAvatar fullDisk hurl hparsed hresolves
    (Option.isSome_of_eq_some hfile)
  have hencoded : encoded fullDisk.images () = .ok "RIFF new" := rfl
  obtain ⟨hstorage, hfailed⟩ := exec_processAndSaveAvatar hencoded hdeleted
  have hincomplete : ¬ fullDisk.Completes := by
    rintro ⟨hsave, -⟩
    cases hsave
  obtain ⟨e, he⟩ := hfailed.mpr hincomplete
  obtain ⟨-, hkept⟩ := hkeeps e _ (Prod.ext he rfl)
  have hgone := hkept "RIFF" _ hdenotes
  rw [hstorage] at hgone
  cases hgone

end Failure

end Saasmint.Avatars
