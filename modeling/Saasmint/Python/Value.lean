import Mathlib.Data.Rat.Floor

/-!
# Python values

What the services see of the outside world are decoded JSON documents.  `Json`
is such a document and the operations below are the ones Python applies to it:
indexing, `.get`, truth, `str`, `int`.  Each of them fails with the exception
Python raises.

`PyError` lists the exceptions that reach a handler's caller.  `PyError.retried`
are the ones the webhook task retries.
-/

namespace Saasmint

abbrev UUID := BitVec 128

instance : LawfulBEq UUID := inferInstance

/-- An aware UTC datetime, in microseconds since the Unix epoch. -/
abbrev Datetime := Int

/-- A float: its shortest decimal text, and its exact value. -/
structure PyFloat where
  repr : String
  value : ℚ

inductive Json
  | null
  | bool (value : Bool)
  | int (value : Int)
  | float (value : PyFloat)
  | str (value : String)
  | arr (items : List Json)
  | obj (fields : List (String × Json))

/-! ## Exceptions -/

inductive PyError
  | webhookData (message : String)
  | subscriptionNotFound (message : String)
  | seatsBelowMemberCount (message : String)
  | notFound (message : String)
  | stripe (code : Option String) (message : String)
  | connection (message : String)
  | operational (message : String)
  | integrity (message : String)
  | data (message : String)
  | doesNotExist (message : String)
  | validation (field message : String)
  | insufficientPermission (message : String)
  | permissionDenied (message : String)
  | orgNotFound (message : String)
  | orgAlreadyOwned
  | invitationExpired
  | invitationEmailExists
  | invitationPendingExists
  | invitationAddressedToOther
  | seatLimitReached
  | userNotFound (message : String)
  | database (message : String)
  | broker (message : String)
  | keyError (key : String)
  | indexError (message : String)
  | typeError (message : String)
  | attributeError (message : String)
  | valueError (message : String)
  | overflowError (message : String)
deriving DecidableEq, Repr

namespace PyError

/-- `type(exc).__name__`. -/
def typeName : PyError → String
  | webhookData _ => "WebhookDataError"
  | subscriptionNotFound _ => "SubscriptionNotFoundError"
  | seatsBelowMemberCount _ => "SeatsBelowMemberCountError"
  | notFound _ => "NotFound"
  | stripe _ _ => "StripeError"
  | connection _ => "ConnectionError"
  | operational _ => "OperationalError"
  | integrity _ => "IntegrityError"
  | data _ => "DataError"
  | doesNotExist _ => "DoesNotExist"
  | validation _ _ => "ValidationError"
  | insufficientPermission _ => "InsufficientPermissionError"
  | permissionDenied _ => "PermissionDenied"
  | orgNotFound _ => "OrgNotFoundError"
  | orgAlreadyOwned => "_OrgAlreadyOwned"
  | invitationExpired => "_InvitationExpired"
  | invitationEmailExists => "_InvitationEmailExists"
  | invitationPendingExists => "_InvitationPendingExists"
  | invitationAddressedToOther => "_InvitationAddressedToOther"
  | seatLimitReached => "_SeatLimitReached"
  | userNotFound _ => "UserNotFoundError"
  | database _ => "DatabaseError"
  | broker _ => "OperationalError"
  | keyError _ => "KeyError"
  | indexError _ => "IndexError"
  | typeError _ => "TypeError"
  | attributeError _ => "AttributeError"
  | valueError _ => "ValueError"
  | overflowError _ => "OverflowError"

/-- `str(exc)`. -/
def text : PyError → String
  | keyError key => "'" ++ key ++ "'"
  | validation _ message | stripe _ message => message
  | orgAlreadyOwned => "You already own an organization."
  | invitationExpired => "This invitation has expired."
  | invitationEmailExists => "This email is already registered."
  | invitationPendingExists => "A pending invitation already exists for this email."
  | invitationAddressedToOther => "This invitation is addressed to another account."
  | seatLimitReached =>
      "Org has reached its seat limit. Upgrade your plan to invite more members."
  | webhookData message | subscriptionNotFound message | seatsBelowMemberCount message
  | notFound message | connection message | operational message | integrity message
  | data message | doesNotExist message | insufficientPermission message
  | permissionDenied message | orgNotFound message | userNotFound message | database message
  | broker message | indexError message | typeError message | attributeError message
  | valueError message | overflowError message => message

/-- The exceptions `process_stripe_webhook` retries. -/
def retried : PyError → Bool
  | stripe _ _ | connection _ | operational _ => true
  | _ => false

end PyError

/-- A Python expression: its value, or the exception it raises. -/
abbrev Py := Except PyError

section Py

variable {α β : Type}

@[simp] theorem ok_bind (a : α) (f : α → Py β) : (Except.ok a : Py α) >>= f = f a := rfl

@[simp] theorem error_bind (e : PyError) (f : α → Py β) :
    (Except.error e : Py α) >>= f = .error e := rfl

@[simp] theorem map_ok (f : α → β) (a : α) : f <$> (Except.ok a : Py α) = .ok (f a) := rfl

@[simp] theorem map_error (f : α → β) (e : PyError) :
    f <$> (Except.error e : Py α) = .error e := rfl

@[simp] theorem throw_eq_error (e : PyError) : (throw e : Py α) = .error e := rfl

@[simp] theorem pure_eq_ok (a : α) : (pure a : Py α) = .ok a := rfl

theorem map_eq_ok {f : α → β} {x : Py α} {b : β} : f <$> x = .ok b ↔ ∃ a, x = .ok a ∧ f a = b := by
  cases x with
  | error e => simp
  | ok a => simp

theorem bind_eq_ok {x : Py α} {f : α → Py β} {b : β} :
    x >>= f = .ok b ↔ ∃ a, x = .ok a ∧ f a = .ok b := by
  cases x with
  | error e => simp
  | ok a => simp

end Py

/-! ## Text -/

/-- `str.lower` on ASCII text. -/
def lower (s : String) : String := String.ofList (s.toList.map Char.toLower)

/-- `text.replace(pat, "")`, scanning at most `fuel` characters. -/
def eraseAll (pat : List Char) : ℕ → List Char → List Char
  | 0, cs => cs
  | _ + 1, [] => []
  | fuel + 1, c :: cs =>
      if pat.isPrefixOf (c :: cs) then eraseAll pat fuel ((c :: cs).drop pat.length)
      else c :: eraseAll pat fuel cs

def erase (pat : String) (cs : List Char) : List Char := eraseAll pat.toList cs.length cs

def hexDigit? (c : Char) : Option ℕ :=
  if '0' ≤ c ∧ c ≤ '9' then some (c.toNat - '0'.toNat)
  else if 'a' ≤ c ∧ c ≤ 'f' then some (c.toNat - 'a'.toNat + 10)
  else if 'A' ≤ c ∧ c ≤ 'F' then some (c.toNat - 'A'.toNat + 10)
  else none

/-- `str.strip(chars)`. -/
def strip (chars : List Char) (cs : List Char) : List Char :=
  ((cs.dropWhile chars.contains).reverse.dropWhile chars.contains).reverse

/-- `UUID(text)`: the URN prefix, braces and hyphens are optional. -/
def parseUuid (text : String) : Py UUID :=
  let hex := erase "-" (strip ['{', '}'] (erase "uuid:" (erase "urn:" text.toList)))
  if hex.length = 32 then
    match hex.mapM hexDigit? with
    | some digits => .ok (BitVec.ofNat 128 (digits.foldl (fun n d => 16 * n + d) 0))
    | none => .error (.valueError "invalid literal for int() with base 16")
  else .error (.valueError "badly formed hexadecimal UUID string")

/-- The digits of a decimal literal, with single underscores between them. -/
def decimalDigits? : List Char → Option (List ℕ)
  | [] => none
  | [c] => (fun d => [d]) <$> (hexDigit? c).filter (· < 10)
  | c :: '_' :: cs => do return (← (hexDigit? c).filter (· < 10)) :: (← decimalDigits? cs)
  | c :: cs => do return (← (hexDigit? c).filter (· < 10)) :: (← decimalDigits? cs)

/-- `int(text)`. -/
def parseInt (text : String) : Py Int :=
  let body := strip [' ', '\t', '\n', '\r'] text.toList
  let (sign, digits) : Int × List Char :=
    match body with
    | '-' :: cs => (-1, cs)
    | '+' :: cs => (1, cs)
    | cs => (1, cs)
  match decimalDigits? digits with
  | some ds => .ok (sign * (ds.foldl (fun n d => 10 * n + d) 0 : ℕ))
  | none => .error (.valueError ("invalid literal for int() with base 10: '" ++ text ++ "'"))

namespace Json

/-! ## Reading documents -/

def typeName : Json → String
  | null => "NoneType"
  | bool _ => "bool"
  | int _ => "int"
  | float _ => "float"
  | str _ => "str"
  | arr _ => "list"
  | obj _ => "dict"

/-- `value[key]` for a string key. -/
def item (key : String) : Json → Py Json
  | obj fields =>
      match fields.lookup key with
      | some value => .ok value
      | none => .error (.keyError key)
  | arr _ => .error (.typeError "list indices must be integers or slices, not str")
  | str _ => .error (.typeError "string indices must be integers, not 'str'")
  | value => .error (.typeError ("'" ++ value.typeName ++ "' object is not subscriptable"))

/-- `value.key`, an attribute of a Stripe object. -/
def attr (key : String) : Json → Py Json
  | obj fields =>
      match fields.lookup key with
      | some value => .ok value
      | none => .error (.attributeError key)
  | value => .error
      (.attributeError ("'" ++ value.typeName ++ "' object has no attribute '" ++ key ++ "'"))

/-- `value.get(key, default)`. -/
def getD (value : Json) (key : String) (default : Json) : Py Json :=
  match value with
  | obj fields => .ok ((fields.lookup key).getD default)
  | _ => .error (.attributeError ("'" ++ value.typeName ++ "' object has no attribute 'get'"))

/-- `value.get(key)`. -/
def get (value : Json) (key : String) : Py Json := value.getD key null

/-- `bool(value)`. -/
def truthy : Json → Bool
  | null => false
  | bool value => value
  | int value => value ≠ 0
  | float value => value.value ≠ 0
  | str value => value ≠ ""
  | arr items => !items.isEmpty
  | obj fields => !fields.isEmpty

/-- `a or b`. -/
def orElse (a b : Json) : Json := if a.truthy then a else b

/-- `value[n]` for a small literal `n`. -/
def nth (n : ℕ) : Json → Py Json
  | arr items =>
      match items[n]? with
      | some value => .ok value
      | none => .error (.indexError "list index out of range")
  | str value =>
      match value.toList[n]? with
      | some c => .ok (str (String.ofList [c]))
      | none => .error (.indexError "string index out of range")
  | obj _ => .error (.keyError (toString n))
  | value => .error (.typeError ("'" ++ value.typeName ++ "' object is not subscriptable"))

/-- `len(value)`. -/
def len : Json → Py ℕ
  | arr items => .ok items.length
  | str value => .ok value.length
  | obj fields => .ok fields.length
  | value => .error (.typeError ("object of type '" ++ value.typeName ++ "' has no len()"))

/-- `isinstance(value, int)`, with the integer; a `bool` is one. -/
def asInt? : Json → Option Int
  | int value => some value
  | bool value => some (if value then 1 else 0)
  | _ => none

/-- `value < n`. -/
def ltInt (value : Json) (n : Int) : Py Bool :=
  match value, value.asInt? with
  | _, some m => .ok (m < n)
  | float x, _ => .ok (x.value < n)
  | _, _ => .error (.typeError
      ("'>' not supported between instances of 'int' and '" ++ value.typeName ++ "'"))

/-- `value == text`. -/
def isStr (value : Json) (text : String) : Bool :=
  match value with
  | str value => value == text
  | _ => false

def isNull : Json → Bool
  | null => true
  | _ => false

/-- `int(value)`. -/
def toInt : Json → Py Int
  | int value => .ok value
  | bool value => .ok (if value then 1 else 0)
  | float value => .ok (if 0 ≤ value.value then ⌊value.value⌋ else ⌈value.value⌉)
  | str value => parseInt value
  | value => .error (.typeError ("int() argument must be a string, a bytes-like object or a real" ++
      " number, not '" ++ value.typeName ++ "'"))

def apostrophe : Char := Char.ofNat 39

def quotationMark : Char := Char.ofNat 34

def backslash : Char := Char.ofNat 92

/-- `repr` of a text of printable characters, newlines and tabs. -/
def quote (s : String) : String :=
  let mark := if s.toList.contains apostrophe ∧ ¬ s.toList.contains quotationMark
    then quotationMark else apostrophe
  let escape (c : Char) : List Char :=
    if c = backslash ∨ c = mark then [backslash, c]
    else if c = '\n' then [backslash, 'n']
    else if c = '\r' then [backslash, 'r']
    else if c = '\t' then [backslash, 't']
    else [c]
  String.ofList (mark :: s.toList.flatMap escape ++ [mark])

mutual

/-- `repr(value)`. -/
def repr : Json → String
  | null => "None"
  | bool value => if value then "True" else "False"
  | int value => toString value
  | float value => value.repr
  | str value => quote value
  | arr items => "[" ++ ", ".intercalate (reprItems items) ++ "]"
  | obj fields => "\x7b" ++ ", ".intercalate (reprFields fields) ++ "\x7d"

def reprItems : List Json → List String
  | [] => []
  | value :: items => repr value :: reprItems items

def reprFields : List (String × Json) → List String
  | [] => []
  | (key, value) :: fields => (quote key ++ ": " ++ repr value) :: reprFields fields

end

/-- `str(value)`. -/
def toStr : Json → String
  | str value => value
  | value => value.repr

@[simp] theorem toStr_str (s : String) : (str s).toStr = s := rfl

end Json

/-! ## Datetimes -/

/-- `datetime.fromtimestamp(ts, tz=UTC)`: years 1 to 9999. -/
def fromTimestamp (ts : Int) : Py Datetime :=
  if -62135596800 ≤ ts ∧ ts ≤ 253402300799 then .ok (ts * 1000000)
  else .error (.valueError "year is out of range")

/-- Stripe-style Unix timestamp to datetime, `None` passthrough. -/
def tsToDt : Json → Py (Option Datetime)
  | .null => .ok none
  | value => do return some (← fromTimestamp (← value.toInt))

end Saasmint
