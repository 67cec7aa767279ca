import Saasmint.Library.Serial
import Saasmint.Python.Value
import Saasmint.Users.OAuthExchange
import Mathlib.Data.List.Sort

/-!
# The profile of an account

`PATCH /account/` validates what it is given, reads the whole row, and saves the columns it was
asked to change.  What it has read of the other columns may be old by then.

`profiles_serial` says that this does no harm: whatever runs beside it, the profile of an
account is what the PATCHes make of it one after the other, in the order of their saves, and a
profile that is valid stays so.
-/

namespace Saasmint.Profiles

open Atomic

/-! ## Rows -/

/-- The columns of `users` that a PATCH can change. -/
structure Columns where
  fullName : String
  preferredLocale : String
  preferredCurrency : String
  phonePrefix : Option String
  phone : Option String
  timezone : Option String
  jobTitle : Option String
  pronouns : Option String
  bio : Option String
deriving DecidableEq, Repr

/-- A row of `users`, as `UserSerializer` shows it. -/
structure AccountRow extends Columns where
  id : UUID
  email : String
  avatarUrl : Option String
  isVerified : Bool
  registrationMethod : String
  createdAt : Datetime
  updatedAt : Datetime
deriving DecidableEq, Repr

/-- The names of the columns that are saved. -/
inductive Field
  | fullName | preferredLocale | preferredCurrency | phonePrefix | phone | timezone | jobTitle
  | pronouns | bio | updatedAt
deriving DecidableEq, Repr

/-- `validated_data` of `UpdateUserSerializer`: a value for each column that is set. -/
structure ProfileUpdate where
  fullName : Option String
  preferredLocale : Option String
  preferredCurrency : Option String
  phonePrefix : Option (Option String)
  phone : Option (Option String)
  timezone : Option (Option String)
  jobTitle : Option (Option String)
  pronouns : Option (Option String)
  bio : Option (Option String)
deriving DecidableEq, Repr

namespace ProfileUpdate

variable (data : ProfileUpdate)

/-- The loop of `setattr`. -/
def apply (row : Columns) : Columns where
  fullName := data.fullName.getD row.fullName
  preferredLocale := data.preferredLocale.getD row.preferredLocale
  preferredCurrency := data.preferredCurrency.getD row.preferredCurrency
  phonePrefix := data.phonePrefix.getD row.phonePrefix
  phone := data.phone.getD row.phone
  timezone := data.timezone.getD row.timezone
  jobTitle := data.jobTitle.getD row.jobTitle
  pronouns := data.pronouns.getD row.pronouns
  bio := data.bio.getD row.bio

/-- `validated_data.keys()`. -/
def fields : List Field :=
  named .fullName data.fullName ++ named .preferredLocale data.preferredLocale ++
    named .preferredCurrency data.preferredCurrency ++ named .phonePrefix data.phonePrefix ++
    named .phone data.phone ++ named .timezone data.timezone ++ named .jobTitle data.jobTitle ++
    named .pronouns data.pronouns ++ named .bio data.bio
where
  named {α : Type} (field : Field) (value : Option α) : List Field :=
    if value.isSome then [field] else []

end ProfileUpdate

/-- The object with its new values, and the time that `auto_now` sets when it is saved. -/
def AccountRow.edited (row : AccountRow) (data : ProfileUpdate) (now : Datetime) : AccountRow :=
  { row with toColumns := data.apply row.toColumns, updatedAt := now }

/-- `save(update_fields=fields)`: the columns that are named are written, as they are in the
object; the other ones stay as they are stored. -/
def AccountRow.saved (fields : List Field) (object stored : AccountRow) : AccountRow where
  id := stored.id
  email := stored.email
  avatarUrl := stored.avatarUrl
  isVerified := stored.isVerified
  registrationMethod := stored.registrationMethod
  createdAt := stored.createdAt
  fullName := if .fullName ∈ fields then object.fullName else stored.fullName
  preferredLocale :=
    if .preferredLocale ∈ fields then object.preferredLocale else stored.preferredLocale
  preferredCurrency :=
    if .preferredCurrency ∈ fields then object.preferredCurrency else stored.preferredCurrency
  phonePrefix := if .phonePrefix ∈ fields then object.phonePrefix else stored.phonePrefix
  phone := if .phone ∈ fields then object.phone else stored.phone
  timezone := if .timezone ∈ fields then object.timezone else stored.timezone
  jobTitle := if .jobTitle ∈ fields then object.jobTitle else stored.jobTitle
  pronouns := if .pronouns ∈ fields then object.pronouns else stored.pronouns
  bio := if .bio ∈ fields then object.bio else stored.bio
  updatedAt := if .updatedAt ∈ fields then object.updatedAt else stored.updatedAt

/-! ## Validation -/

/-- A field of a request: left out, `null`, a text, or what is no text. -/
inductive RawField
  | missing
  | null
  | invalid
  | text (value : String)

/-- The field `phone` of a request; `typeName` is that of what is no object. -/
inductive RawPhone
  | missing
  | null
  | invalid (typeName : String)
  | fields (number phonePrefix : RawField)

/-- The body of a request. -/
structure RawProfile where
  fullName : RawField
  preferredLocale : RawField
  preferredCurrency : RawField
  phone : RawPhone
  timezone : RawField
  jobTitle : RawField
  pronouns : RawField
  bio : RawField

/-- Where errors are, and what they say. -/
abbrev FieldErrors := String × List String

/-- A `CharField`, with the `validate_<field>` that the serializer has for it. -/
structure CharField where
  name : String
  minLength : ℕ
  maxLength : ℕ
  required : Bool
  allowNull : Bool
  validate : String → Except String Unit

/-- No `validate_<field>`. -/
def accepts (_ : String) : Except String Unit := .ok ()

namespace CharField

variable (field : CharField)

/-- The validators of the field, all of which are run. -/
def runValidators (text : String) : List String :=
  (if field.maxLength < text.length then
    ["Ensure this field has no more than " ++ toString field.maxLength ++ " characters."] else []) ++
  (if text.length < field.minLength then
    ["Ensure this field has at least " ++ toString field.minLength ++ " characters."] else []) ++
  if text.toList.contains (Char.ofNat 0) then ["Null characters are not allowed."] else []

def runValidation : RawField → Except FieldErrors (Option (Option String))
  | .missing => if field.required then .error (field.name, ["This field is required."]) else .ok none
  | .null =>
      if field.allowNull then .ok (some none)
      else .error (field.name, ["This field may not be null."])
  | .invalid => .error (field.name, ["Not a valid string."])
  | .text value =>
      let text := Auth.strip value
      if text = "" then .error (field.name, ["This field may not be blank."])
      else
        match field.runValidators text with
        | [] =>
            match field.validate text with
            | .ok () => .ok (some (some text))
            | .error message => .error (field.name, [message])
        | errors => .error (field.name, errors)

end CharField

/-- `SUPPORTED_LOCALES`, `SUPPORTED_CURRENCIES`, `SUPPORTED_PHONE_PREFIXES` and
`_available_timezones()`. -/
structure References where
  locales : List String
  currencies : List String
  phonePrefixes : List String
  timezones : List String

/-- `_validate_in_set`. -/
def validateInSet (label : String) (allowed : List String) (value : String) :
    Except String Unit :=
  if value ∈ allowed then .ok ()
  else .error ("Unsupported " ++ label ++ ". Must be one of: " ++
    ", ".intercalate (allowed.insertionSort (· ≤ ·)))

/-- `validate_timezone`, of a value that is not `null`. -/
def validateTimezone (timezones : List String) (value : String) : Except String Unit :=
  if value ∈ timezones then .ok ()
  else .error "Unsupported timezone. Must be a valid IANA timezone identifier."

section Fields

variable (refs : References)

def fullNameField : CharField := ⟨"full_name", 3, 255, false, false, accepts⟩

def localeField : CharField :=
  ⟨"preferred_locale", 0, 10, false, false, validateInSet "locale" refs.locales⟩

def currencyField : CharField :=
  ⟨"preferred_currency", 0, 3, false, false, validateInSet "currency" refs.currencies⟩

def prefixField : CharField :=
  ⟨"phone.prefix", 0, 5, true, false, validateInSet "phone prefix" refs.phonePrefixes⟩

def numberField : CharField := ⟨"phone.number", 4, 15, true, false, accepts⟩

def timezoneField : CharField :=
  ⟨"timezone", 0, 50, false, true, validateTimezone refs.timezones⟩

def jobTitleField : CharField := ⟨"job_title", 0, 100, false, true, accepts⟩

def pronounsField : CharField := ⟨"pronouns", 0, 50, false, true, accepts⟩

def bioField : CharField := ⟨"bio", 0, 500, false, true, accepts⟩

end Fields

/-- The errors of a field. -/
def errorsOf {α : Type} : Except FieldErrors α → List FieldErrors
  | .ok _ => []
  | .error errors => [errors]

/-- `_PhoneWriteSerializer`: prefix and number, or `null`, or nothing. -/
def runPhone (refs : References) :
    RawPhone → Except (List FieldErrors) (Option (Option (String × String)))
  | .missing => .ok none
  | .null => .ok (some none)
  | .invalid typeName => .error [("phone.non_field_errors",
      ["Invalid data. Expected a dictionary, but got " ++ typeName ++ "."])]
  | .fields number phonePrefix =>
      match (prefixField refs).runValidation phonePrefix, numberField.runValidation number with
      | .ok (some (some phonePrefix)), .ok (some (some number)) =>
          .ok (some (some (phonePrefix, number)))
      | phonePrefix, number => .error (errorsOf phonePrefix ++ errorsOf number)

/-- `UpdateUserSerializer(data=…).is_valid(raise_exception=True)`: every field is checked, and
`validate` makes two columns of the phone. -/
def runValidation (refs : References) (raw : RawProfile) :
    Except (List FieldErrors) ProfileUpdate :=
  match fullNameField.runValidation raw.fullName,
    (localeField refs).runValidation raw.preferredLocale,
    (currencyField refs).runValidation raw.preferredCurrency,
    runPhone refs raw.phone,
    (timezoneField refs).runValidation raw.timezone,
    jobTitleField.runValidation raw.jobTitle,
    pronounsField.runValidation raw.pronouns,
    bioField.runValidation raw.bio with
  | .ok fullName, .ok preferredLocale, .ok preferredCurrency, .ok phone, .ok timezone,
    .ok jobTitle, .ok pronouns, .ok bio => .ok {
      fullName := fullName.join
      preferredLocale := preferredLocale.join
      preferredCurrency := preferredCurrency.join
      phonePrefix := phone.map fun phone => phone.map Prod.fst
      phone := phone.map fun phone => phone.map Prod.snd
      timezone, jobTitle, pronouns, bio }
  | fullName, preferredLocale, preferredCurrency, phone, timezone, jobTitle, pronouns, bio =>
      .error (errorsOf fullName ++ errorsOf preferredLocale ++ errorsOf preferredCurrency ++
        phoneErrors phone ++ errorsOf timezone ++ errorsOf jobTitle ++ errorsOf pronouns ++
        errorsOf bio)
where
  phoneErrors : Except (List FieldErrors) (Option (Option (String × String))) → List FieldErrors
    | .ok _ => []
    | .error errors => errors

/-! ## Requests -/

/-- `users`, and the providers of `social_accounts`. -/
structure Accounts where
  users : UUID → Option AccountRow
  providers : UUID → List String

inductive ProfileError
  | validation (errors : List FieldErrors)
  | doesNotExist
  | notUpdated

/-- A statement that reads, or a save of columns of `users`. -/
inductive AccountLabel
  | select
  | save
deriving DecidableEq

abbrev AccountSession (α : Type) := Fallible ProfileError AccountLabel Accounts α

/-- `UserSerializer`. -/
structure AccountEntry where
  id : UUID
  email : String
  fullName : String
  avatarUrl : Option String
  preferredLocale : String
  preferredCurrency : String
  phone : Option (Option String × Option String)
  timezone : Option String
  jobTitle : Option String
  pronouns : Option String
  bio : Option String
  isVerified : Bool
  registrationMethod : String
  linkedProviders : List String
  createdAt : Datetime
  updatedAt : Datetime

def AccountEntry.of (user : AccountRow) (providers : List String) : AccountEntry where
  id := user.id
  email := user.email
  fullName := user.fullName
  avatarUrl := user.avatarUrl
  preferredLocale := user.preferredLocale
  preferredCurrency := user.preferredCurrency
  phone :=
    if user.phonePrefix = none ∧ user.phone = none then none
    else some (user.phonePrefix, user.phone)
  timezone := user.timezone
  jobTitle := user.jobTitle
  pronouns := user.pronouns
  bio := user.bio
  isVerified := user.isVerified
  registrationMethod := user.registrationMethod
  linkedProviders := providers
  createdAt := user.createdAt
  updatedAt := user.updatedAt

/-- `User.objects.prefetch_related("social_accounts").get(id=…)`. -/
def fetchUser (userId : UUID) : AccountSession (AccountRow × List String) := do
  let some user ← Fallible.observe .select fun s => s.users userId | throw .doesNotExist
  let providers ← Fallible.observe .select fun s => s.providers userId
  return (user, providers)

/-- `AccountView.get`. -/
def getAccount (userId : UUID) : AccountSession AccountEntry := do
  let (user, providers) ← fetchUser userId
  return .of user providers

/-- What the `UPDATE` of a save does; `object` is the row that was read, as it was changed. -/
def storeUser (userId : UUID) (fields : List Field) (object : AccountRow) (s : Accounts) :
    Except ProfileError Unit × Accounts :=
  match s.users userId with
  | some stored => (.ok (), { s with
      users := Function.update s.users userId (some (.saved fields object stored)) })
  | none => (.error .notUpdated, s)

/-- `AccountView.patch`. -/
def patchAccount (refs : References) (userId : UUID) (now : Datetime) (raw : RawProfile) :
    AccountSession AccountEntry := do
  let data ← Fallible.ofExcept ((runValidation refs raw).mapError .validation)
  let (user, providers) ← fetchUser userId
  if data.fields = [] then return .of user providers
  let user := user.edited data now
  Fallible.atomic .save (storeUser userId (data.fields ++ [.updatedAt]) user)
  return .of user providers

/-! ## What is saved -/

theorem mem_fields {α : Type} (field : Field) (value : Option α) :
    field ∈ ProfileUpdate.fields.named field value ↔ value ≠ none := by
  cases value <;> simp [ProfileUpdate.fields.named]

theorem mem_fields_of_ne {α : Type} {field other : Field} (h : field ≠ other) (value : Option α) :
    field ∉ ProfileUpdate.fields.named other value := by
  cases value <;> simp [ProfileUpdate.fields.named, h]

theorem ite_getD {α : Type} {P : Prop} [Decidable P] {value : Option α} (h : P ↔ value ≠ none)
    (old new : α) : (if P then value.getD old else new) = value.getD new := by
  cases value with
  | none => rw [if_neg fun hP => h.mp hP rfl, Option.getD_none]
  | some v => rw [if_pos (h.mpr nofun), Option.getD_some, Option.getD_some]

/-- The columns that are saved are the new ones, and the other ones are those that are stored,
whatever the row was when it was read. -/
theorem toColumns_saved (data : ProfileUpdate) (row stored : AccountRow) (now : Datetime) :
    (AccountRow.saved (data.fields ++ [.updatedAt]) (row.edited data now) stored).toColumns =
      data.apply stored.toColumns := by
  simp only [AccountRow.saved, AccountRow.edited, ProfileUpdate.apply, Columns.mk.injEq]
  refine ⟨?_, ?_, ?_, ?_, ?_, ?_, ?_, ?_, ?_⟩ <;> apply ite_getD <;>
    simp [ProfileUpdate.fields, mem_fields, mem_fields_of_ne]

/-! ## What is valid -/

section Valid

variable {refs : References} {field : CharField} {raw : RawField} {text : String}

/-- What a `CharField` takes. -/
structure CharField.Accepts (field : CharField) (text : String) : Prop where
  short : text.length ≤ field.maxLength
  long : field.minLength ≤ text.length
  valid : field.validate text = .ok ()

theorem accepts_of_text (h : field.runValidation raw = .ok (some (some text))) :
    field.Accepts text := by
  cases raw with
  | missing => cases hrequired : field.required <;> simp [CharField.runValidation, hrequired] at h
  | null => cases hnull : field.allowNull <;> simp [CharField.runValidation, hnull] at h
  | invalid => simp [CharField.runValidation] at h
  | text value =>
      simp only [CharField.runValidation] at h
      split at h
      · cases h
      split at h
      next hvalidators =>
          split at h
          next hvalidate =>
              cases h
              simp only [CharField.runValidators, List.append_eq_nil_iff] at hvalidators
              obtain ⟨⟨hmax, hmin⟩, -⟩ := hvalidators
              exact ⟨by simpa using hmax, by simpa using hmin, hvalidate⟩
          · cases h
      · cases h

theorem validateInSet_ok {label : String} {allowed : List String} :
    validateInSet label allowed text = .ok () ↔ text ∈ allowed := by
  unfold validateInSet
  split <;> simp [*]

theorem validateTimezone_ok {timezones : List String} :
    validateTimezone timezones text = .ok () ↔ text ∈ timezones := by
  unfold validateTimezone
  split <;> simp [*]

/-- Prefix and number of a phone. -/
structure ValidPhone (refs : References) (phone : String × String) : Prop where
  phonePrefix : phone.1 ∈ refs.phonePrefixes
  number : 4 ≤ phone.2.length ∧ phone.2.length ≤ 15

theorem validPhone_of_ok {raw : RawPhone} {phone : String × String}
    (h : runPhone refs raw = .ok (some (some phone))) : ValidPhone refs phone := by
  cases raw with
  | missing | null | invalid typeName => simp [runPhone] at h
  | fields number phonePrefix =>
      simp only [runPhone] at h
      split at h
      next phonePrefix number hprefix hnumber =>
          cases h
          have hp := accepts_of_text hprefix
          have hn := accepts_of_text hnumber
          exact ⟨validateInSet_ok.mp hp.valid, hn.long, hn.short⟩
      · cases h

/-- What the columns of a profile may be. -/
structure ValidColumns (refs : References) (c : Columns) : Prop where
  fullName : 3 ≤ c.fullName.length ∧ c.fullName.length ≤ 255
  preferredLocale : c.preferredLocale ∈ refs.locales
  preferredCurrency : c.preferredCurrency ∈ refs.currencies
  phone : (c.phonePrefix = none ∧ c.phone = none) ∨
    ∃ phone, c.phonePrefix = some phone.1 ∧ c.phone = some phone.2 ∧ ValidPhone refs phone
  timezone : ∀ text ∈ c.timezone, text ∈ refs.timezones
  jobTitle : ∀ text ∈ c.jobTitle, text.length ≤ 100
  pronouns : ∀ text ∈ c.pronouns, text.length ≤ 50
  bio : ∀ text ∈ c.bio, text.length ≤ 500

/-- A column that may not be `null`, after a field is set or left out. -/
theorem getD_of_ok {P : String → Prop} {old : String} {value : Option (Option String)}
    (h : field.runValidation raw = .ok value) (haccepts : ∀ text, field.Accepts text → P text)
    (hold : P old) : P (value.join.getD old) := by
  match value, h with
  | none, _ | some none, _ => exact hold
  | some (some text), h => exact haccepts text (accepts_of_text h)

/-- A column that may be `null`. -/
theorem mem_getD_of_ok {P : String → Prop} {old : Option String}
    {value : Option (Option String)} (h : field.runValidation raw = .ok value)
    (haccepts : ∀ text, field.Accepts text → P text) (hold : ∀ text ∈ old, P text) :
    ∀ text ∈ value.getD old, P text := by
  match value, h with
  | none, _ => exact hold
  | some none, _ => exact nofun
  | some (some text), h =>
      rintro _ ⟨⟩
      exact haccepts text (accepts_of_text h)

/-- A PATCH that is valid leaves a valid profile valid. -/
theorem ValidColumns.apply {raw : RawProfile} {data : ProfileUpdate} {c : Columns}
    (hc : ValidColumns refs c) (h : runValidation refs raw = .ok data) :
    ValidColumns refs (data.apply c) := by
  unfold runValidation at h
  split at h
  next fullName locale currency phone timezone jobTitle pronouns bio
      hname hlocale hcurrency hphone htimezone htitle hpronouns hbio =>
      cases h
      exact {
        fullName := getD_of_ok (P := fun name => 3 ≤ name.length ∧ name.length ≤ 255) hname
          (fun _ h => ⟨h.long, h.short⟩) hc.fullName
        preferredLocale := getD_of_ok hlocale (fun _ h => validateInSet_ok.mp h.valid)
          hc.preferredLocale
        preferredCurrency := getD_of_ok hcurrency (fun _ h => validateInSet_ok.mp h.valid)
          hc.preferredCurrency
        phone := by
          match phone, hphone with
          | none, _ => exact hc.phone
          | some none, _ => exact .inl ⟨rfl, rfl⟩
          | some (some phone), hphone => exact .inr ⟨phone, rfl, rfl, validPhone_of_ok hphone⟩
        timezone := mem_getD_of_ok htimezone (fun _ h => validateTimezone_ok.mp h.valid)
          hc.timezone
        jobTitle := mem_getD_of_ok htitle (fun _ h => h.short) hc.jobTitle
        pronouns := mem_getD_of_ok hpronouns (fun _ h => h.short) hc.pronouns
        bio := mem_getD_of_ok hbio (fun _ h => h.short) hc.bio }
  · cases h

end Valid

/-! ## Runs -/

/-- Every row of the user was there before, with the same columns. -/
def Keeps (user : UUID) (effect : Accounts → Accounts) : Prop :=
  ∀ s row, (effect s).users user = some row →
    ∃ stored, s.users user = some stored ∧ row.toColumns = stored.toColumns

/-- A program that saves none of the columns.  It may delete the row. -/
def bystander (user : UUID) : Monitor Unit AccountLabel Accounts where
  track _ _ _ := ()
  allow _ label effect := label = .select ∧ Keeps user effect

/-- What runs in a pool: a PATCH, or any other program. -/
inductive AccountClient (user : UUID)
  | patch (userId : UUID) (now : Datetime) (raw : RawProfile)
  | other (session : AccountSession AccountEntry)
      (h : session.Obeys (bystander user) (fun _ _ => True) ())

namespace AccountClient

variable (refs : References) {user : UUID}

def session : AccountClient user → AccountSession AccountEntry
  | patch userId now raw => patchAccount refs userId now raw
  | other session _ => session

/-- What a client makes of the columns of the user. -/
def apply (client : AccountClient user) (c : Columns) : Columns :=
  match client with
  | patch userId _ raw =>
      match runValidation refs raw with
      | .ok data => if userId = user then data.apply c else c
      | .error _ => c
  | other _ _ => c

/-- What a client may do: the one save of a PATCH, of a row as it was at any time. -/
def Allowed (client : AccountClient user) (label : AccountLabel)
    (effect : Accounts → Accounts) : Prop :=
  match label with
  | .select => Keeps user effect
  | .save => ∃ userId now raw data row, client = .patch userId now raw ∧
      runValidation refs raw = .ok data ∧
      effect = fun s =>
        (storeUser userId (data.fields ++ [.updatedAt]) (AccountRow.edited row data now) s).2

/-- Whether a client that is answered has saved. -/
def Saved (client : AccountClient user) (saved : Bool)
    (result : Except ProfileError AccountEntry) : Prop :=
  ∀ userId now raw data, client = .patch userId now raw → runValidation refs raw = .ok data →
    data.fields ≠ [] → (∃ entry, result = .ok entry) → saved = true

end AccountClient

section Runs

variable {refs : References} {user : UUID}

theorem keeps_id : Keeps user id := fun _ row h => ⟨row, h, rfl⟩

theorem getAccount_keeps (userId : UUID) :
    (getAccount userId).Obeys (bystander user) (fun _ _ => True) () := by
  unfold getAccount fetchUser
  simp only [Fallible.obeys_bind, Fallible.obeys_observe]
  refine ⟨⟨rfl, keeps_id⟩, fun s => ?_⟩
  cases s.users userId with
  | none => trivial
  | some row => exact ⟨⟨rfl, keeps_id⟩, fun _ => trivial⟩

def isSave (label : AccountLabel) : Bool := label == .save

section Once

variable {client : AccountClient user}

/-- A read is allowed. -/
theorem allow_select {saved : Bool} :
    (Monitor.once isSave (client.Allowed refs)).allow saved .select id :=
  ⟨nofun, keeps_id⟩

/-- A user that was found. -/
theorem fetchUser_heeds (userId : UUID) {saved : Bool}
    {post : Bool → AccountRow × List String → Prop}
    (hpost : ∀ found, post saved found) :
    (fetchUser userId).Heeds (.once isSave (client.Allowed refs)) post saved := by
  have htrack : (Monitor.once isSave (client.Allowed refs)).track saved .select = fun _ => saved := by
    funext s
    simp [Monitor.once, isSave]
  unfold fetchUser
  refine Fallible.heeds_bind.mpr (Fallible.heeds_observe allow_select fun s => ?_)
  rw [htrack]
  cases s.users userId with
  | none => exact Fallible.heeds_throw _
  | some row =>
      refine Fallible.heeds_bind.mpr (Fallible.heeds_observe allow_select fun s' => ?_)
      rw [htrack]
      exact Fallible.heeds_pure.mpr (hpost _)

/-- A PATCH that is valid, and changes anything, saves before it is answered. -/
theorem patchAccount_heeds {userId : UUID} {now : Datetime} {raw : RawProfile}
    {data : ProfileUpdate} (hclient : client = .patch userId now raw)
    (hdata : runValidation refs raw = .ok data) :
    (patchAccount refs userId now raw).Heeds (.once isSave (client.Allowed refs))
      (fun saved _ => data.fields ≠ [] → saved = true) false := by
  unfold patchAccount
  rw [hdata]
  refine Fallible.heeds_bind.mpr ((Fallible.heeds_pure (a := data)).mpr ?_)
  refine Fallible.heeds_bind.mpr (fetchUser_heeds userId fun ⟨row, providers⟩ => ?_)
  dsimp only
  split
  next hempty => exact Fallible.heeds_pure.mpr fun hne => absurd hempty hne
  next hne =>
      have hallow : client.Allowed refs .save fun s => (storeUser userId
          (data.fields ++ [.updatedAt]) (row.edited data now) s).2 :=
        ⟨userId, now, raw, data, row, hclient, hdata, rfl⟩
      refine Fallible.heeds_bind.mpr (Fallible.heeds_atomic ⟨fun _ => rfl, hallow⟩ fun s _ _ => ?_)
      exact Fallible.heeds_pure.mpr fun _ => rfl

end Once

/-- A client saves once at most, and a PATCH that is answered has saved. -/
theorem session_once (client : AccountClient user) :
    (client.session refs).Obeys (.once isSave (client.Allowed refs)) (client.Saved refs) false := by
  cases client with
  | other session h =>
      -- the other programs never save, whatever the memory says
      refine (Program.Obeys.transfer ?_ h false).mono fun _ _ _ _ _ _ _ => nofun
      rintro _ written label effect ⟨rfl, hkeeps⟩
      exact ⟨nofun, hkeeps⟩
  | patch userId now raw =>
      cases hdata : runValidation refs raw with
      | error errors =>
          show (patchAccount refs userId now raw).Obeys _ _ _
          unfold patchAccount
          rw [hdata]
          rintro _ _ _ data ⟨⟩ hdata'
          cases hdata.symm.trans hdata'
      | ok data =>
          refine Fallible.Obeys.mono (patchAccount_heeds rfl hdata) fun saved result hsaved => ?_
          rintro _ _ _ data' ⟨⟩ hdata' hfields ⟨entry, hentry⟩
          cases hdata.symm.trans hdata'
          exact hsaved entry hentry hfields

/-- A save of any row that was read makes of the columns what the PATCH makes of them. -/
theorem storeUser_columns {userId : UUID} {data : ProfileUpdate} (row : AccountRow)
    (now : Datetime) (s : Accounts) {final : AccountRow}
    (h : (storeUser userId (data.fields ++ [.updatedAt]) (row.edited data now) s).2.users user =
      some final) :
    ∃ stored, s.users user = some stored ∧
      final.toColumns = if userId = user then data.apply stored.toColumns else stored.toColumns := by
  unfold storeUser at h
  split at h
  next stored hstored =>
      by_cases huser : userId = user
      · subst huser
        simp only [Function.update_self] at h
        cases h
        exact ⟨stored, hstored, by rw [if_pos rfl, toColumns_saved]⟩
      · simp only [Function.update_of_ne (Ne.symm huser)] at h
        exact ⟨final, h, by rw [if_neg huser]⟩
  next hnone =>
      -- nothing is updated, so the row that is there is another user's
      refine ⟨final, h, ?_⟩
      rw [if_neg]
      rintro rfl
      exact absurd (hnone.symm.trans h) nofun

/-- The columns of the user, as long as there is a row. -/
def Shows (user : UUID) (s : Accounts) (c : Columns) : Prop :=
  ∀ row, s.users user = some row → row.toColumns = c

theorem shows_save {client : AccountClient user} {effect : Accounts → Accounts}
    (h : client.Allowed refs .save effect) {s : Accounts} {c : Columns} (hshows : Shows user s c) :
    Shows user (effect s) (client.apply refs c) := by
  obtain ⟨userId, now, raw, data, row, rfl, hdata, rfl⟩ := h
  intro final hfinal
  obtain ⟨stored, hstored, hcolumns⟩ := storeUser_columns row now s hfinal
  rw [hcolumns, hshows stored hstored]
  simp only [AccountClient.apply, hdata]

theorem valid_apply (client : AccountClient user) {c : Columns} (hc : ValidColumns refs c) :
    ValidColumns refs (client.apply refs c) := by
  cases client with
  | other session h => exact hc
  | patch userId now raw =>
      simp only [AccountClient.apply]
      cases hdata : runValidation refs raw with
      | error errors => exact hc
      | ok data =>
          dsimp only
          split
          · exact hc.apply hdata
          · exact hc

/-- The saves leave what is valid valid. -/
theorem valid_saves {ι : Type} {clients : ι → AccountClient user} (saves : List ι) {c : Columns}
    (hc : ValidColumns refs c) :
    ValidColumns refs (saves.foldl (fun c i => (clients i).apply refs c) c) := by
  induction saves generalizing c with
  | nil => exact hc
  | cons i saves ih => exact ih (valid_apply (clients i) hc)

/-! ## The order of the saves -/

section Serving

variable {ι : Type} (refs : References) (s : Accounts) (clients : ι → AccountClient user)

/-- Any number of clients at the same accounts. -/
def serving : Pool ι AccountLabel Accounts (Except ProfileError AccountEntry) where
  shared := s
  procs i := ExceptT.run ((clients i).session refs)

theorem serving_obeys :
    (serving refs s clients).Obeys (fun i => .once isSave ((clients i).Allowed refs))
      (fun i => (clients i).Saved refs) fun _ => false :=
  fun i => session_once (clients i)

variable [DecidableEq ι] {refs s clients} {schedule : List ι}

/-- Who saves is a PATCH, of what is valid. -/
theorem patch_of_saves {i : ι}
    (h : i ∈ (serving refs s clients).performed isSave schedule) :
    ∃ userId now raw data, clients i = .patch userId now raw ∧
      runValidation refs raw = .ok data := by
  obtain ⟨label, effect, hsave, hallowed⟩ :=
    Pool.allowed_of_performed (serving_obeys refs s clients) h
  cases label with
  | select => cases hsave
  | save =>
      obtain ⟨userId, now, raw, data, row, hclient, hdata, -⟩ := hallowed
      exact ⟨userId, now, raw, data, hclient, hdata⟩

/-- What the saves make of the columns is what is stored. -/
theorem shows_saves {c : Columns} (hc : Shows user s c) :
    Shows user ((serving refs s clients).run schedule).shared
      (((serving refs s clients).performed isSave schedule).foldl
        (fun c i => (clients i).apply refs c) c) := by
  refine Pool.shows_performed ?_ ?_ (serving_obeys refs s clients) schedule hc
  · intro i label effect hallowed hread t c hshows row hrow
    cases label with
    | select =>
        obtain ⟨stored, hstored, hsame⟩ := hallowed t row hrow
        rw [hsame, hshows stored hstored]
    | save => cases hread
  · intro i label effect hallowed hsave t c hshows
    cases label with
    | select => cases hsave
    | save => exact shows_save hallowed hshows

end Serving

variable {ι : Type} [DecidableEq ι]

/-- **Profiles are serial.**  The saves of a run have an order, that of their statements, in
which no client is twice, and which only grows at its end.  Only PATCHes are in it that are
valid; one that is answered, and changes anything, is in it already.  As long as the user has
not been deleted, its profile is what the PATCHes in this order make of the first one, and it
is valid if that was. -/
theorem profiles_serial (refs : References) (clients : ι → AccountClient user) {s : Accounts}
    {row : AccountRow} (hrow : s.users user = some row) :
    ∃ saves : List ι → List ι, ∀ schedule,
      (saves schedule).Nodup ∧
      (∀ rest, saves schedule <+: saves (schedule ++ rest)) ∧
      (∀ i ∈ saves schedule, i ∈ schedule ∧ ∃ userId now raw data,
        clients i = .patch userId now raw ∧ runValidation refs raw = .ok data) ∧
      (∀ i userId now raw data entry, clients i = .patch userId now raw →
        runValidation refs raw = .ok data → data.fields ≠ [] →
        ((serving refs s clients).run schedule).procs i = .done (.ok entry) →
          i ∈ saves schedule) ∧
      ∀ final, ((serving refs s clients).run schedule).shared.users user = some final →
        final.toColumns =
          (saves schedule).foldl (fun c i => (clients i).apply refs c) row.toColumns ∧
        (ValidColumns refs row.toColumns → ValidColumns refs final.toColumns) := by
  have hobeys := serving_obeys refs s clients
  refine ⟨(serving refs s clients).performed isSave, fun schedule => ?_⟩
  obtain ⟨hnodup, -, hfinal⟩ := Pool.performed_once hobeys schedule
  refine ⟨hnodup, fun rest => ?_, fun i hi => ?_, ?_, ?_⟩
  · rw [Pool.performed_append]
    exact List.prefix_append _ _
  · exact ⟨Pool.mem_of_performed hi, patch_of_saves hi⟩
  · intro i userId now raw data entry hclient hdata hfields hanswer
    have hpost := hfinal i
    rw [hanswer] at hpost
    simpa using hpost userId now raw data hclient hdata hfields ⟨entry, rfl⟩
  · intro final hlast
    have hcolumns := shows_saves (fun _ h => by rw [Option.some.inj (h.symm.trans hrow)]) final hlast
    exact ⟨hcolumns, fun hvalid => hcolumns ▸ valid_saves _ hvalid⟩

end Runs

/-! ### Two PATCHes that read the same row, and a GET -/

def sampleRow : AccountRow where
  id := 1#128
  email := "ada@example.com"
  fullName := "Ada"
  avatarUrl := none
  preferredLocale := "en"
  preferredCurrency := "usd"
  phonePrefix := some "+44"
  phone := some "5550100"
  timezone := none
  jobTitle := some "Analyst"
  pronouns := none
  bio := none
  isVerified := true
  registrationMethod := "email"
  createdAt := 0
  updatedAt := 0

def nothingSet : RawProfile :=
  ⟨.missing, .missing, .missing, .missing, .missing, .missing, .missing, .missing⟩

/-- One takes the phone away, the other one the job title. -/
def threeClients : Fin 3 → AccountClient 1#128
  | 0 => .patch 1#128 1 { nothingSet with phone := .null }
  | 1 => .patch 1#128 2 { nothingSet with jobTitle := .null }
  | 2 => .other (getAccount 1#128) (getAccount_keeps 1#128)

/-- Both PATCHes read the row and its providers before either saves. -/
def readBeforeSaves : List (Fin 3) := [0, 0, 1, 1, 1, 2, 2, 0]

def sampleReferences : References := ⟨["en"], ["usd"], ["+44"], []⟩

def sampleAccounts : Accounts where
  users id := if id = 1#128 then some sampleRow else none
  providers _ := []

theorem validColumns_sampleRow : ValidColumns sampleReferences sampleRow.toColumns where
  fullName := by decide
  preferredLocale := by decide
  preferredCurrency := by decide
  phone := .inr ⟨("+44", "5550100"), rfl, rfl, by decide, by decide⟩
  timezone := nofun
  jobTitle := by
    rintro _ ⟨⟩
    decide
  pronouns := nofun
  bio := nofun

theorem profiles_serial_overlapping : ∃ final,
    ((serving sampleReferences sampleAccounts threeClients).run readBeforeSaves).shared.users 1#128 =
      some final ∧ final.phone = none ∧ final.jobTitle = none ∧
        ValidColumns sampleReferences final.toColumns := by
  obtain ⟨saves, hsaves⟩ := profiles_serial sampleReferences threeClients (s := sampleAccounts) rfl
  refine ⟨_, rfl, rfl, rfl, ?_⟩
  exact ((hsaves readBeforeSaves).2.2.2.2 _ rfl).2 validColumns_sampleRow

end Saasmint.Profiles
