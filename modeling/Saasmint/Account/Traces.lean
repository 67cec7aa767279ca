import Saasmint.Orgs.Erasure
import Saasmint.Users.Tables
import Saasmint.Billing.Endpoint

/-!
# What an erasure leaves

"Permanently remove all user data": the deletion of an account removes the row of the
user and, by the foreign keys, whatever belongs to it.  What names the user without a
key stays: an invitation that was sent to the address, unless its org goes too; the
payload of a Stripe event; the picture in the media storage.

An `Estate` is the database, the tables of the auth backend, which only their key to
`users` matters of here, and the media storage.
-/

namespace Saasmint

open Atomic Relational

variable {σ : Type}

/-! ## The estate -/

/-- The tables whose rows belong to one user each. -/
structure Holdings where
  refreshTokens : Table Auth.RefreshToken
  oneTime : (model : Auth.OneTimeModel) → Table (Auth.OneTimeToken model)
  socialAccounts : Table Auth.SocialAccount

/-- All that is stored belongs to users of whom `stored` holds. -/
structure Holdings.Belong (h : Holdings) (stored : UUID → Bool) : Prop where
  refreshTokens : ∀ token ∈ h.refreshTokens.rows, stored token.userId = true
  oneTime : ∀ model, ∀ token ∈ (h.oneTime model).rows, stored token.userId = true
  socialAccounts : ∀ account ∈ h.socialAccounts.rows, stored account.userId = true

/-- The cascade: what belongs to no stored user goes. -/
def Holdings.restrict (h : Holdings) (stored : UUID → Bool) : Holdings where
  refreshTokens := h.refreshTokens.delete fun token => !stored token.userId
  oneTime model := (h.oneTime model).delete fun token => !stored token.userId
  socialAccounts := h.socialAccounts.delete fun account => !stored account.userId

theorem Holdings.belong_restrict (h : Holdings) (stored : UUID → Bool) :
    (h.restrict stored).Belong stored where
  refreshTokens token htoken := by simpa using (Table.mem_delete.mp htoken).2
  oneTime model token htoken := by simpa using (Table.mem_delete.mp htoken).2
  socialAccounts account haccount := by simpa using (Table.mem_delete.mp haccount).2

def Db.hasUser (db : Db) (id : UUID) : Bool := db.users.rows.any fun user => user.id == id

theorem Db.hasUser_iff {db : Db} {id : UUID} :
    db.hasUser id = true ↔ ∃ user ∈ db.users.rows, user.id = id := by
  simp [hasUser]

structure Estate (σ : Type) where
  world : World σ
  holdings : Holdings
  /-- The column of `users`. -/
  avatarUrl : UUID → Option String
  /-- The paths of the stored files. -/
  media : List String
  belong : holdings.Belong world.db.hasUser

namespace Estate

/-- The database has changed, and the rows of deleted users have gone with them. -/
def settle (e : Estate σ) (w : World σ) : Estate σ where
  world := w
  holdings := e.holdings.restrict w.db.hasUser
  avatarUrl := e.avatarUrl
  media := e.media
  belong := e.holdings.belong_restrict _

/-- `AccountView.delete`. -/
def deleteAccount (rt : Runtime σ) (userId : UUID) (e : Estate σ) : Py Unit × Estate σ :=
  let (result, w) := Fallible.exec (Session.deleteAccount rt userId) e.world
  (result, e.settle w)

end Estate

/-! ## Pictures -/

/-- The scheme is cut off, if there is one: letters, digits and `+-.` up to the colon. -/
def cutScheme (url : List Char) : List Char × List Char :=
  let (scheme, rest) := url.span (· ≠ ':')
  let legal := scheme.all fun c => c.isAlphanum || "+-.".toList.contains c
  match rest, scheme.head? with
  | _ :: rest, some first => if first.isAlpha && legal then (scheme, rest) else ([], url)
  | _, _ => ([], url)

/-- `uses_params`. -/
def usesParams : List String :=
  ["", "ftp", "hdl", "prospero", "http", "https", "shttp", "rtsp", "rtsps", "sip", "sips", "mms",
    "sftp", "tel"]

/-- The last segment of a path, without its parameters. -/
def cutParams (path : List Char) : List Char :=
  let (last, above) := path.reverse.span (· ≠ '/')
  above.reverse ++ last.reverse.takeWhile (· ≠ ';')

/-- `urlparse(url).path`. -/
def urlPath (url : String) : Py String := do
  let url := (url.toList.dropWhile fun c => c.toNat ≤ 32).filter
    fun c => !(['\t', '\r', '\n'].contains c)
  let (scheme, rest) := cutScheme url
  let (netloc, rest) := if "//".toList.isPrefixOf rest
    then (rest.drop 2).span fun c => !"/?#".toList.contains c else ([], rest)
  if netloc.contains '[' ≠ netloc.contains ']' then throw (.valueError "Invalid IPv6 URL")
  let path := (rest.takeWhile (· ≠ '#')).takeWhile (· ≠ '?')
  if usesParams.contains (lower (String.ofList scheme)) then return String.ofList (cutParams path)
  return String.ofList path

/-- `MEDIA_URL`. -/
def mediaUrl : String := "/media/"

/-- `_delete_local_avatar`: what is left in the storage. -/
def deleteLocalAvatar (avatarUrl : Option String) (media : List String) : Py (List String) := do
  let some url := avatarUrl | return media
  if url = "" then return media
  let path ← urlPath url
  if mediaUrl.toList.isPrefixOf path.toList then
    let oldPath := String.ofList (path.toList.drop mediaUrl.toList.length)
    return media.filter (· ≠ oldPath)
  return media

/-- A file in the directory of a user's pictures. -/
def avatarPath (userId : UUID) (name : String) : String :=
  "avatars/" ++ uuidText userId ++ "/" ++ name

/-- The file is a picture that was stored for the user. -/
def StoredFor (userId : UUID) (path : String) : Prop := ∃ name, path = avatarPath userId name

/-- The name of a new picture; the storage puts `suffix` behind one that is taken. -/
def newName (media : List String) (userId : UUID) (hex suffix : String) : String :=
  if avatarPath userId (hex ++ ".webp") ∈ media then hex ++ "_" ++ suffix ++ ".webp"
  else hex ++ ".webp"

namespace Estate

/-- `process_and_save_avatar`, once the picture is decoded and encoded again. -/
def uploadAvatar (userId : UUID) (origin hex suffix : String) (e : Estate σ) :
    Py Unit × Estate σ :=
  match deleteLocalAvatar (e.avatarUrl userId) e.media with
  | .error err => (.error err, e)
  | .ok media =>
      let path := avatarPath userId (newName media userId hex suffix)
      (.ok (), { e with
        media := media ++ [path]
        avatarUrl := Function.update e.avatarUrl userId (some (origin ++ mediaUrl ++ path)) })

/-- `AvatarView.delete`. -/
def deleteAvatar (userId : UUID) (e : Estate σ) : Py Unit × Estate σ :=
  match deleteLocalAvatar (e.avatarUrl userId) e.media with
  | .error err => (.error err, e)
  | .ok media =>
      (.ok (), { e with media := media, avatarUrl := Function.update e.avatarUrl userId none })

end Estate

/-! ## Operations -/

/-- What happens to an estate: a complete operation on orgs and accounts, a
registration, whatever the auth backend makes of its tables, an event that is stored,
and the two requests about the picture. -/
inductive EstateOperation (σ : Type)
  | org (operation : OrgOperation σ)
  | register (row : User)
  | auth (holdings : Holdings)
  | event (row : StripeEvent)
  | uploadAvatar (userId : UUID) (origin hex suffix : String)
  | deleteAvatar (userId : UUID)

namespace EstateOperation

def after (e : Estate σ) : EstateOperation σ → Estate σ
  | org operation => e.settle (operation.after e.world)
  | register row =>
      match insertRow e.world.db.users row >>= fun users =>
        Db.commit { e.world.db.toTables with users := users } with
      | .ok db => e.settle { e.world with db := db }
      | .error _ => e
  | auth holdings =>
      { e with
        holdings := holdings.restrict e.world.db.hasUser
        belong := holdings.belong_restrict _ }
  | event row =>
      match getOrCreateEvent e.world.db row with
      | .ok (_, db) => e.settle { e.world with db := db }
      | .error _ => e
  | uploadAvatar userId origin hex suffix =>
      if e.world.db.hasUser userId then (e.uploadAvatar userId origin hex suffix).2 else e
  | deleteAvatar userId => if e.world.db.hasUser userId then (e.deleteAvatar userId).2 else e

end EstateOperation

theorem mem_of_deleteLocalAvatar {avatarUrl : Option String} {media media' : List String}
    (h : deleteLocalAvatar avatarUrl media = .ok media') : ∀ path ∈ media', path ∈ media := by
  intro path hpath
  unfold deleteLocalAvatar at h
  cases avatarUrl with
  | none => exact Except.ok.inj h ▸ hpath
  | some url =>
      dsimp only at h
      split at h
      next => exact Except.ok.inj h ▸ hpath
      next =>
          obtain ⟨old, _, hrest⟩ := bind_eq_ok.mp h
          split at hrest
          next =>
              rw [← Except.ok.inj hrest] at hpath
              exact (List.mem_filter.mp hpath).1
          next => exact Except.ok.inj hrest ▸ hpath

/-- A step stores pictures only of the user who uploads one. -/
theorem EstateOperation.mem_media_after {e : Estate σ} {operation : EstateOperation σ}
    {path : String} (h : path ∈ (operation.after e).media) : path ∈ e.media ∨
      ∃ userId origin hex suffix, operation = .uploadAvatar userId origin hex suffix ∧
        StoredFor userId path := by
  cases operation with
  | org operation => exact Or.inl h
  | register row =>
      dsimp only [after] at h
      split at h <;> exact Or.inl h
  | auth holdings => exact Or.inl h
  | event row =>
      dsimp only [after] at h
      split at h <;> exact Or.inl h
  | uploadAvatar userId origin hex suffix =>
      simp only [after, Estate.uploadAvatar] at h
      split at h
      next =>
          split at h
          next => exact Or.inl h
          next media hdeleted =>
              rcases List.mem_append.mp h with hold | hnew
              · exact Or.inl (mem_of_deleteLocalAvatar hdeleted path hold)
              · exact Or.inr ⟨userId, origin, hex, suffix, rfl, _, List.mem_singleton.mp hnew⟩
      next => exact Or.inl h
  | deleteAvatar userId =>
      simp only [after, Estate.deleteAvatar] at h
      split at h
      next =>
          split at h
          next => exact Or.inl h
          next media hdeleted => exact Or.inl (mem_of_deleteLocalAvatar hdeleted path h)
      next => exact Or.inl h

/-- Every picture in the storage was put there by an upload of the user it is stored
for. -/
theorem uploaded_of_mem_media {e : Estate σ} (hstart : e.media = [])
    (operations : List (EstateOperation σ)) :
    ∀ path ∈ (Runs.run EstateOperation.after e operations).media,
      ∃ userId, StoredFor userId path ∧
        ∃ origin hex suffix, .uploadAvatar userId origin hex suffix ∈ operations := by
  have hrun : ∀ (operations : List (EstateOperation σ)) (e : Estate σ),
      ∀ path ∈ (Runs.run EstateOperation.after e operations).media, path ∈ e.media ∨
        ∃ userId, StoredFor userId path ∧
          ∃ origin hex suffix, .uploadAvatar userId origin hex suffix ∈ operations := by
    intro operations
    induction operations with
    | nil => exact fun e path hpath => Or.inl hpath
    | cons operation operations ih =>
        intro e path hpath
        rcases ih (operation.after e) path hpath with hthere | ⟨userId, hstored, origin, hex, suffix, hmem⟩
        · rcases EstateOperation.mem_media_after hthere with hold | hnew
          · exact Or.inl hold
          · obtain ⟨userId, origin, hex, suffix, rfl, hstored⟩ := hnew
            exact Or.inr ⟨userId, hstored, origin, hex, suffix, List.mem_cons_self⟩
        · exact Or.inr ⟨userId, hstored, origin, hex, suffix, List.mem_cons_of_mem _ hmem⟩
  intro path hpath
  rcases hrun operations e path hpath with hold | hnew
  · rw [hstart] at hold
    cases hold
  · exact hnew

/-! ## What names a user -/

mutual

/-- The texts of a document, its keys among them. -/
def Json.texts : Json → List String
  | .str value => [value]
  | .arr items => textsOfItems items
  | .obj fields => textsOfFields fields
  | _ => []

def textsOfItems : List Json → List String
  | [] => []
  | item :: items => item.texts ++ textsOfItems items

def textsOfFields : List (String × Json) → List String
  | [] => []
  | (key, value) :: fields => key :: (value.texts ++ textsOfFields fields)

end

/-- The text has the user's id in it, or their address, in whatever case. -/
def User.NamedIn (user : User) (text : String) : Prop :=
  (uuidText user.id).toList <:+: text.toList ∨ (lower user.email).toList <:+: (lower text).toList

instance (user : User) (text : String) : Decidable (user.NamedIn text) :=
  inferInstanceAs (Decidable (_ ∨ _))

/-- The user is named in a text of the stored event. -/
def StripeEvent.Names (event : StripeEvent) (user : User) : Prop :=
  ∃ text ∈ event.payload.texts ++ event.error.toList ++ [event.stripeId, event.type],
    user.NamedIn text

instance (event : StripeEvent) (user : User) : Decidable (event.Names user) :=
  inferInstanceAs (Decidable (∃ _ ∈ _, _))

def SameAddress (a b : String) : Prop := lower a = lower b

instance (a b : String) : Decidable (SameAddress a b) := inferInstanceAs (Decidable (_ = _))

/-- No row refers to the user or has their address, and no picture of them is stored. -/
structure Estate.Erased (e : Estate σ) (user : User) : Prop where
  users : ∀ row ∈ e.world.db.users.rows, row.id ≠ user.id ∧ ¬ SameAddress row.email user.email
  orgs : ∀ row ∈ e.world.db.orgs.rows, row.createdById ≠ some user.id
  members : ∀ row ∈ e.world.db.members.rows, row.userId ≠ user.id
  invitations : ∀ row ∈ e.world.db.invitations.rows,
    row.invitedById ≠ some user.id ∧ ¬ SameAddress row.email user.email
  customers : ∀ row ∈ e.world.db.customers.rows, row.userId ≠ some user.id
  subscriptions : ∀ row ∈ e.world.db.subscriptions.rows, row.userId ≠ some user.id
  creditBalances : ∀ row ∈ e.world.db.creditBalances.rows, row.userId ≠ some user.id
  creditTransactions : ∀ row ∈ e.world.db.creditTransactions.rows, row.userId ≠ some user.id
  events : ∀ row ∈ e.world.db.events.rows, ¬ row.Names user
  refreshTokens : ∀ row ∈ e.holdings.refreshTokens.rows, row.userId ≠ user.id
  oneTime : ∀ model, ∀ row ∈ (e.holdings.oneTime model).rows, row.userId ≠ user.id
  socialAccounts : ∀ row ∈ e.holdings.socialAccounts.rows, row.userId ≠ user.id
  media : ∀ path ∈ e.media, ¬ StoredFor user.id path

/-- What there is about the user goes with their row, or with an org they have
created. -/
structure Estate.CascadeCovers (e : Estate σ) (user : User) : Prop where
  invitations : ∀ row ∈ e.world.db.invitations.rows, SameAddress row.email user.email →
    row.orgId ∈ e.world.db.createdBy user.id
  events : ∀ row ∈ e.world.db.events.rows, ¬ row.Names user
  media : ∀ path ∈ e.media, ¬ StoredFor user.id path

/-! ## What an erasure does to what has no key -/

namespace Tables

variable {t : Tables} {userId : UUID}

/-- To which orgs which addresses have been invited. -/
def invited (t : Tables) : List (UUID × String) :=
  t.invitations.rows.map fun i => (i.orgId, i.email)

theorem invited_deleteUsers (ids : List UUID) : (t.deleteUsers ids).invited = t.invited := by
  show ((t.invitations.rows.map _).map _) = _
  rw [List.map_map]
  rfl

theorem invited_cancelInvitationsOf (orgIds : List UUID) :
    (t.cancelInvitationsOf orgIds).invited = t.invited := by
  show ((t.invitations.rows.map _).map _) = _
  rw [List.map_map]
  refine List.map_congr_left fun i _ => ?_
  dsimp only [Function.comp_apply]
  split
  · rfl
  · rfl

theorem invited_deleteOrgs (orgIds : List UUID) :
    (t.deleteOrgs orgIds).invited = t.invited.filter fun i => !orgIds.contains i.1 := by
  unfold invited
  rw [List.filter_map]
  rfl

/-- Invitations go with their orgs, and with nothing else. -/
theorem invited_erased (userId : UUID) :
    (t.erased userId 4).invited = t.invited.filter fun i => !(t.createdBy userId).contains i.1 := by
  have hcustomer : (t.deleteCustomerOf userId).invited = t.invited := by
    rcases t.deleteCustomerOf_cases userId with hsame | ⟨customer, _, _, hdeleted⟩
    · rw [hsame]
    · rw [hdeleted]
      rfl
  have horgs : ((t.deleteCustomerOf userId).deleteOrgsCreatedBy userId).invited =
      t.invited.filter fun i => !(t.createdBy userId).contains i.1 := by
    rw [← hcustomer, ← createdBy_deleteCustomerOf]
    rcases (t.deleteCustomerOf userId).deleteOrgsCreatedBy_cases userId with
      ⟨hnone, hsame⟩ | hdeleted
    · rw [hsame, hnone]
      simp
    · rw [hdeleted]
      unfold deleteOrgBatch
      rw [invited_deleteOrgs, invited_deleteUsers, invited_cancelInvitationsOf]
  show (Tables.deleteUsers _ [userId]).invited = _
  rw [invited_deleteUsers]
  exact horgs

theorem events_erased (userId : UUID) : (t.erased userId 4).events = t.events := by
  have hcustomer : (t.deleteCustomerOf userId).events = t.events := by
    rcases t.deleteCustomerOf_cases userId with hsame | ⟨customer, _, _, hdeleted⟩
    · rw [hsame]
    · rw [hdeleted]
      rfl
  rw [← hcustomer]
  rcases (t.deleteCustomerOf userId).deleteOrgsCreatedBy_cases userId with ⟨_, hsame⟩ | hdeleted
  · show ((t.deleteCustomerOf userId).deleteOrgsCreatedBy userId).events = _
    rw [hsame]
  · show ((t.deleteCustomerOf userId).deleteOrgsCreatedBy userId).events = _
    rw [hdeleted]
    rfl

/-- No user comes. -/
theorem mem_users_of_erased {u : User} (h : u ∈ (t.erased userId 4).users.rows) :
    u ∈ t.users.rows ∧ u.id ≠ userId := by
  have hcustomer : (t.deleteCustomerOf userId).users = t.users := by
    rcases t.deleteCustomerOf_cases userId with hsame | ⟨customer, _, _, hdeleted⟩
    · rw [hsame]
    · rw [hdeleted]
      rfl
  obtain ⟨hstored, hother⟩ := mem_users_deleteUsers.mp h
  refine ⟨?_, fun hid => hother (List.mem_singleton.mpr hid)⟩
  rw [← hcustomer]
  rcases (t.deleteCustomerOf userId).deleteOrgsCreatedBy_cases userId with ⟨_, hsame⟩ | hdeleted
  · change u ∈ ((t.deleteCustomerOf userId).deleteOrgsCreatedBy userId).users.rows at hstored
    rwa [hsame] at hstored
  · change u ∈ ((t.deleteCustomerOf userId).deleteOrgsCreatedBy userId).users.rows at hstored
    rw [hdeleted] at hstored
    exact (mem_users_deleteUsers.mp hstored).1

end Tables

/-! ## Erasures -/

/-- **What an erasure leaves.**  The deletion of an account, when it succeeds, leaves
nothing of the user if and only if they have been invited to no org but those they have
created, no stored event names them, and no picture is stored for them. -/
theorem deleteAccount_erases_iff {rt : Runtime σ} {e : Estate σ} {user : User}
    (huser : user ∈ e.world.db.users.rows) (hdone : (e.deleteAccount rt user.id).1 = .ok ()) :
    (e.deleteAccount rt user.id).2.Erased user ↔ e.CascadeCovers user := by
  obtain ⟨w, hw⟩ : ∃ w, w = (Fallible.exec (Session.deleteAccount rt user.id) e.world).2 :=
    ⟨_, rfl⟩
  have hsettled : (e.deleteAccount rt user.id).2 = e.settle w := by
    rw [hw]
    rfl
  have hdb : w.db.toTables = e.world.db.toTables.erased user.id 4 := by
    rw [hw]
    exact Session.erased_of_deleteAccount hdone
  have husers : ∀ u ∈ w.db.users.rows, u ∈ e.world.db.users.rows ∧ u.id ≠ user.id := by
    intro u hu
    rw [hdb] at hu
    exact Tables.mem_users_of_erased hu
  have hgone : ∀ u ∈ w.db.users.rows, u.id ≠ user.id := fun u hu => (husers u hu).2
  have hinvited : w.db.invited =
      e.world.db.invited.filter fun i => !(e.world.db.createdBy user.id).contains i.1 := by
    rw [hdb]
    exact Tables.invited_erased user.id
  have hevents : w.db.events = e.world.db.events := by
    rw [hdb]
    exact Tables.events_erased user.id
  rw [hsettled]
  constructor
  · intro h
    refine ⟨fun row hrow haddress => ?_, fun row hrow => ?_, h.media⟩
    · by_contra hkept
      have hleft : (row.orgId, row.email) ∈ w.db.invited := by
        rw [hinvited, List.mem_filter]
        exact ⟨List.mem_map.mpr ⟨row, hrow, rfl⟩, by simpa using hkept⟩
      obtain ⟨row', hrow', hsame⟩ := List.mem_map.mp hleft
      refine (h.invitations row' hrow').2 ?_
      rw [(Prod.mk.inj hsame).2]
      exact haddress
    · rw [← hevents] at hrow
      exact h.events row hrow
  · intro h
    -- a key that is left refers to a user who is left
    have hintegral := w.db.integral
    have hrefers : ∀ {id : Option UUID}, Refers id User.id w.db.users.rows → id ≠ some user.id :=
      fun hrefers => hrefers.ne_some hgone
    have hheld : ∀ id, w.db.hasUser id = true → id ≠ user.id := by
      intro id hstored
      obtain ⟨u, hu, rfl⟩ := Db.hasUser_iff.mp hstored
      exact hgone u hu
    have hbelong := (e.settle w).belong
    constructor
    · intro u hu
      refine ⟨hgone u hu, fun haddress => hgone u hu ?_⟩
      -- two users with one address are one
      rw [e.world.db.users.eq_of_clash (husers u hu).1 huser (Or.inr haddress)]
    · exact fun o ho => hrefers (hintegral.orgs o ho)
    · exact fun m hm hid => hrefers (hintegral.members m hm).2 (congrArg some hid)
    · intro i hi
      refine ⟨hrefers (hintegral.invitations i hi).2, fun haddress => ?_⟩
      have hleft : (i.orgId, i.email) ∈ w.db.invited := List.mem_map.mpr ⟨i, hi, rfl⟩
      rw [hinvited, List.mem_filter] at hleft
      obtain ⟨row, hrow, hsame⟩ := List.mem_map.mp hleft.1
      obtain ⟨horg, hemail⟩ := Prod.mk.inj hsame
      have hcreated := h.invitations row hrow (by rw [hemail]; exact haddress)
      rw [horg] at hcreated
      simp [hcreated] at hleft
    · exact fun c hc => hrefers (hintegral.customers c hc).1
    · exact fun s hs => hrefers (hintegral.subscriptions s hs).2.1
    · exact fun b hb => hrefers (hintegral.creditBalances b hb).1
    · exact fun c hc => hrefers (hintegral.creditTransactions c hc).1
    · intro row hrow
      replace hrow : row ∈ w.db.events.rows := hrow
      rw [hevents] at hrow
      exact h.events row hrow
    · exact fun row hrow => hheld _ (hbelong.refreshTokens row hrow)
    · exact fun model row hrow => hheld _ (hbelong.oneTime model row hrow)
    · exact fun row hrow => hheld _ (hbelong.socialAccounts row hrow)
    · exact h.media

/-! ## Two erasures -/

/-- The sample world, where nobody has logged in yet. -/
def sampleEstate : Estate Unit where
  world := sampleWorld
  holdings := ⟨Table.empty, fun _ => Table.empty, Table.empty⟩
  avatarUrl _ := none
  media := []
  belong := ⟨nofun, nofun, nofun⟩

/-- A user has founded an org, and an admin has been invited and has joined. -/
def joined : Estate Unit := Runs.run EstateOperation.after sampleEstate (staffed.map .org)

/-- The account of the admin. -/
def admin : User := ⟨adminId, "admin@example.com", "Admin", some "usd"⟩

/-- The founder of the org leaves nothing behind. -/
theorem deleteAccount_erases_founder :
    (joined.deleteAccount (sampleRuntime (fun _ => .ok .null) 3 0) buyer.id).2.Erased buyer := by
  refine (deleteAccount_erases_iff (by decide +kernel) (by decide +kernel)).mpr ⟨?_, ?_, ?_⟩
  · decide +kernel
  · exact nofun
  · exact nofun

/-- The admin has uploaded a picture. -/
def pictured : Estate Unit :=
  (EstateOperation.uploadAvatar adminId "https://example.com" "0123" "").after joined

/-- The erasure of the admin leaves the invitation they have accepted, and the picture. -/
theorem not_deleteAccount_erases :
    let rt : Runtime Unit := sampleRuntime noStripe 3 0
    let left := (pictured.deleteAccount rt adminId).2
    admin ∈ pictured.world.db.users.rows ∧ (pictured.deleteAccount rt adminId).1 = .ok () ∧
      (∃ i ∈ left.world.db.invitations.rows, SameAddress i.email admin.email) ∧
      (∃ path ∈ left.media, StoredFor adminId path) ∧ ¬ left.Erased admin := by
  intro rt left
  have hinvited : ∃ i ∈ left.world.db.invitations.rows, SameAddress i.email admin.email := by
    decide +kernel
  have hmedia : left.media = [avatarPath adminId "0123.webp"] := by decide +kernel
  refine ⟨by decide +kernel, by decide +kernel, hinvited, ?_, fun herased => ?_⟩
  · rw [hmedia]
    exact ⟨_, List.mem_singleton_self _, _, rfl⟩
  · obtain ⟨i, hi, haddress⟩ := hinvited
    exact (herased.invitations i hi).2 haddress

end Saasmint
