import Saasmint.Library.Expiring
import Saasmint.Library.Monitor

/-!
# The one-time code of an OAuth sign-in

The callback caches a token pair under a fresh code for a minute, and the exchange view
hands the pair out for the code.  A redemption first adds a marker, then reads the pair,
then deletes it; whoever finds the marker there is refused.

Pair and marker expire on their own.  The pair's minute begins before the marker's, so a
marker that is left to its time outlives the pair.  It is not always left to its time:
the code is the client's text, and the key of the pair of `code:consumed` is the key of
the marker of `code`.  Redeeming that text deletes the marker.
-/

namespace Saasmint.Auth

open Atomic Expiring

/-! ## The cache -/

structure TokenPair where
  access : String
  refresh : String
deriving DecidableEq, Repr

/-- What the exchange stores: a pair, or the `1` of a marker. -/
inductive CacheValue
  | tokens (pair : TokenPair)
  | one
deriving DecidableEq, Repr

abbrev TokenCache := Store String CacheValue

inductive CacheCall
  | set (key : String) (value : CacheValue) (timeout : ℕ)
  | add (key : String) (value : CacheValue) (timeout : ℕ)
  | get (key : String)
  | delete (key : String)
  /-- Time passes. -/
  | pass (seconds : ℕ)
  /-- The cache drops an entry before its time. -/
  | evict (key : String)
deriving DecidableEq, Repr

inductive ExchangeError
  | validation (field message : String)
  | invalidOAuthCode
  | typeError (message : String)
deriving DecidableEq, Repr

abbrev Exchange (α : Type) := Fallible ExchangeError CacheCall TokenCache α

/-! ## The two views -/

/-- `str.isspace` of one character. -/
def isSpace (c : Char) : Bool :=
  c.toNat ∈ [0x85, 0xa0, 0x1680, 0x2028, 0x2029, 0x202f, 0x205f, 0x3000] ||
    (9 ≤ c.toNat && c.toNat ≤ 13) || (28 ≤ c.toNat && c.toNat ≤ 32) ||
    (0x2000 ≤ c.toNat && c.toNat ≤ 0x200a)

/-- `str.strip`. -/
def strip (text : String) : String :=
  String.ofList ((text.toList.dropWhile isSpace).reverse.dropWhile isSpace).reverse

/-- `_OAUTH_EXCHANGE_PREFIX`, and the code. -/
def exchangeKey (code : String) : String := "oauth_exchange:" ++ code

/-- The key of the marker that a code has been used. -/
def sentinelKey (code : String) : String := exchangeKey code ++ ":consumed"

/-- `_OAUTH_EXCHANGE_TTL`, in seconds. -/
def oauthExchangeTtl : ℕ := 60

namespace Exchange

def set (key : String) (value : CacheValue) (timeout : ℕ) : Exchange Unit :=
  Fallible.atomic (.set key value timeout) fun s => (.ok (), s.set key value timeout)

def add (key : String) (value : CacheValue) (timeout : ℕ) : Exchange Bool :=
  Fallible.atomic (.add key value timeout) fun s =>
    (.ok (s.add key value timeout).1, (s.add key value timeout).2)

def get (key : String) : Exchange (Option CacheValue) :=
  Fallible.observe (.get key) fun s => s.get key

def delete (key : String) : Exchange Unit :=
  Fallible.atomic (.delete key) fun s => (.ok (), s.remove key)

/-- `_store_oauth_exchange`, of the code that it draws. -/
def storeOauthExchange (code : String) (pair : TokenPair) : Exchange String := do
  set (exchangeKey code) (.tokens pair) oauthExchangeTtl
  return code

/-- `_consume_oauth_exchange`. -/
def consumeOauthExchange (code : String) : Exchange (Option CacheValue) := do
  if ← add (sentinelKey code) .one oauthExchangeTtl then
    let data ← get (exchangeKey code)
    delete (exchangeKey code)
    return data
  else return none

/-- The `code` of `OAuthExchangeRequestSerializer`. -/
def validatedCode (posted : String) : Except ExchangeError String :=
  let code := strip posted
  if code = "" then .error (.validation "code" "This field may not be blank.")
  else if 128 < code.length then
    .error (.validation "code" "Ensure this field has no more than 128 characters.")
  else if '\x00' ∈ code.toList then
    .error (.validation "code" "Null characters are not allowed.")
  else .ok code

/-- What the view makes of the cached value: a marker is no mapping. -/
def tokenPayload : Option CacheValue → Except ExchangeError TokenPair
  | none => .error .invalidOAuthCode
  | some .one => .error (.typeError "'int' object is not subscriptable")
  | some (.tokens pair) => .ok pair

/-- `OAuthExchangeView.post`. -/
def post (posted : String) : Exchange TokenPair := do
  let code ← Fallible.ofExcept (validatedCode posted)
  let data ← consumeOauthExchange code
  Fallible.ofExcept (tokenPayload data)

end Exchange

/-- What touches the cache: a callback that stores its pair under the code it draws, a
redemption of the text a client posts, the clock, and the cache itself when it drops an
entry early. -/
inductive Actor
  | callback (code : String) (pair : TokenPair)
  | exchange (posted : String)
  | clock (seconds : ℕ)
  | eviction (key : String)
deriving DecidableEq, Repr

/-- The pair it answers with, for a redemption. -/
def Actor.visit : Actor → Exchange (Option TokenPair)
  | .callback code pair => do
      let _ ← Exchange.storeOauthExchange code pair
      return none
  | .exchange posted => do
      let pair ← Exchange.post posted
      return some pair
  | .clock seconds => Fallible.atomic (.pass seconds) fun s => (.ok none, s.pass seconds)
  | .eviction key => Fallible.atomic (.evict key) fun s => (.ok none, s.remove key)

def CacheCall.effect : CacheCall → TokenCache → TokenCache
  | set key value timeout, s => s.set key value timeout
  | add key value timeout, s => (s.add key value timeout).2
  | get _, s => s
  | delete key, s | evict key, s => s.remove key
  | pass seconds, s => s.pass seconds

/-! ## Texts of codes -/

/-- As `secrets.token_urlsafe` draws it. -/
def UrlSafe (code : String) : Prop := ':' ∉ code.toList

theorem exchangeKey_inj {code code' : String} :
    exchangeKey code = exchangeKey code' ↔ code = code' := by
  simp only [exchangeKey, ← String.toList_inj, String.toList_append, List.append_cancel_left_eq]

theorem sentinelKey_inj {code code' : String} :
    sentinelKey code = sentinelKey code' ↔ code = code' := by
  simp only [sentinelKey, exchangeKey, ← String.toList_inj, String.toList_append,
    List.append_assoc, List.append_cancel_left_eq, List.append_cancel_right_eq]

theorem sentinelKey_eq_exchangeKey {code code' : String} :
    sentinelKey code = exchangeKey code' ↔ code ++ ":consumed" = code' := by
  simp only [sentinelKey, exchangeKey, ← String.toList_inj, String.toList_append,
    List.append_assoc, List.append_cancel_left_eq]

/-- No marker is kept where the pair of a drawn code is. -/
theorem UrlSafe.sentinelKey_ne {code : String} (h : UrlSafe code) (code' : String) :
    sentinelKey code' ≠ exchangeKey code := by
  intro hsame
  rw [sentinelKey_eq_exchangeKey] at hsame
  subst hsame
  apply h
  simp

/-! ## Redemptions -/

/-- How far a redemption of a code has come: it has added the marker, it has read a
pair. -/
inductive Phase
  | outside
  | won
  | holding (pair : TokenPair)
deriving DecidableEq

namespace Phase

def track (code : String) (phase : Phase) : CacheCall → TokenCache → Phase
  | .add key _ _, s =>
      if key = sentinelKey code ∧ s.live? key = none then won else phase
  | .get key, s =>
      if key = exchangeKey code then
        match s.get key with
        | some (.tokens pair) => holding pair
        | _ => outside
      else phase
  | _, _ => phase

/-- The marker of the code is added for the whole time to live, and its pair is written
by nobody and read only by who has added the marker. -/
def Permits (code : String) (phase : Phase) : CacheCall → Prop
  | .set key _ _ => key ≠ exchangeKey code ∧ key ≠ sentinelKey code
  | .add key _ timeout =>
      key ≠ exchangeKey code ∧ (key = sentinelKey code → timeout = oauthExchangeTtl)
  | .get key => key = exchangeKey code → phase = won
  | .delete _ | .evict _ | .pass _ => True

def redeeming (code : String) : Monitor Phase CacheCall TokenCache where
  track := track code
  allow phase call effect := phase.Permits code call ∧ effect = call.effect

end Phase

variable {ι : Type} [DecidableEq ι] {code : String} {pair : TokenPair}

/-- The actors' programs. -/
def visits (s : TokenCache) (actors : ι → Actor) :
    Pool ι CacheCall TokenCache (Except ExchangeError (Option TokenPair)) where
  shared := s
  procs i := ExceptT.run (actors i).visit

/-- The text of a redemption, as the view reads it. -/
def Actor.redeems? : Actor → Option String
  | exchange posted => (Exchange.validatedCode posted).toOption
  | _ => none

/-- A redemption of the code has ended with that pair. -/
def HandsOut (actors : ι → Actor)
    (pool : Pool ι CacheCall TokenCache (Except ExchangeError (Option TokenPair)))
    (code : String) (i : ι) (pair : TokenPair) : Prop :=
  (actors i).redeems? = some code ∧ pool.procs i = .done (.ok (some pair))

/-- A callback draws another code. -/
def Actor.Apart (code : String) : Actor → Prop
  | callback code' _ => UrlSafe code' ∧ code' ≠ code
  | _ => True

/-! ### What a redemption does -/

section Obeys

theorem track_add_of_ne {key : String} (h : key ≠ sentinelKey code) (phase : Phase)
    (value : CacheValue) (timeout : ℕ) (s : TokenCache) :
    phase.track code (.add key value timeout) s = phase := by
  simp [Phase.track, h]

/-- A redemption that a monitor allows from the state it is in, and that does not move it. -/
theorem obeys_consume_of_still {μ : Type} {monitor : Monitor μ CacheCall TokenCache} {mem : μ}
    {post : μ → Except ExchangeError (Option CacheValue) → Prop}
    (hallow : ∀ call : CacheCall, call = .add (sentinelKey code) .one oauthExchangeTtl ∨
      call = .get (exchangeKey code) ∨ call = .delete (exchangeKey code) →
        monitor.allow mem call call.effect)
    (hstill : ∀ call : CacheCall, call = .add (sentinelKey code) .one oauthExchangeTtl ∨
      call = .get (exchangeKey code) ∨ call = .delete (exchangeKey code) →
        ∀ s, monitor.track mem call s = mem)
    (hpost : ∀ result, post mem result) :
    (Exchange.consumeOauthExchange code).Obeys monitor post mem := by
  unfold Exchange.consumeOauthExchange Exchange.add Exchange.get Exchange.delete
  rw [Fallible.obeys_bind, Fallible.obeys_atomic]
  refine ⟨hallow _ (Or.inl rfl), fun s => ?_⟩
  rw [hstill _ (Or.inl rfl), Fallible.heed_ok]
  cases (s.add (sentinelKey code) .one oauthExchangeTtl).1 with
  | false => exact hpost _
  | true =>
      show Fallible.Obeys _ _ (Fallible.observe _ _ >>= _) _
      rw [Fallible.obeys_bind, Fallible.obeys_observe]
      refine ⟨hallow _ (Or.inr (Or.inl rfl)), fun s' => ?_⟩
      rw [hstill _ (Or.inr (Or.inl rfl)), Fallible.heed_ok, Fallible.obeys_bind,
        Fallible.obeys_atomic]
      refine ⟨hallow _ (Or.inr (Or.inr rfl)), fun s'' => ?_⟩
      rw [hstill _ (Or.inr (Or.inr rfl))]
      exact hpost _

/-- A redemption of another code never has anything to do with this one's pair. -/
theorem obeys_consume_other {code' : String} (hcode : UrlSafe code) (hother : code' ≠ code)
    {post : Phase → Except ExchangeError (Option CacheValue) → Prop}
    (hpost : ∀ result, post .outside result) :
    (Exchange.consumeOauthExchange code').Obeys (Phase.redeeming code) post .outside := by
  have hsentinel : sentinelKey code' ≠ sentinelKey code := by rwa [Ne, sentinelKey_inj]
  have hkey : exchangeKey code' ≠ exchangeKey code := by rwa [Ne, exchangeKey_inj]
  refine obeys_consume_of_still ?_ ?_ hpost
  · rintro call (rfl | rfl | rfl)
    · exact ⟨⟨hcode.sentinelKey_ne code', fun h => absurd h hsentinel⟩, rfl⟩
    · exact ⟨fun h => absurd h hkey, rfl⟩
    · exact ⟨trivial, rfl⟩
  · rintro call (rfl | rfl | rfl) s
    · exact track_add_of_ne hsentinel .outside .one oauthExchangeTtl s
    · exact if_neg hkey
    · rfl

/-- A redemption of the code reads the pair only after it has added the marker, and
answers with what it has read. -/
theorem obeys_consume (hcode : UrlSafe code) :
    (Exchange.consumeOauthExchange code).Obeys (Phase.redeeming code) (fun phase result =>
      ∀ p, result = .ok (some (.tokens p)) → phase = .holding p) .outside := by
  unfold Exchange.consumeOauthExchange Exchange.add Exchange.get Exchange.delete
  rw [Fallible.obeys_bind, Fallible.obeys_atomic]
  refine ⟨⟨⟨hcode.sentinelKey_ne code, fun _ => rfl⟩, rfl⟩, fun s => ?_⟩
  rw [Fallible.heed_ok]
  cases hlive : s.live? (sentinelKey code) with
  | some entry =>
      rw [Store.add_of_live (by simp [hlive])]
      intro p hp
      cases hp
  | none =>
      have hwon : (Phase.redeeming code).track .outside
          (.add (sentinelKey code) .one oauthExchangeTtl) s = .won := if_pos ⟨rfl, hlive⟩
      rw [hwon, Store.add_of_absent hlive]
      show Fallible.Obeys _ _ (Fallible.observe _ _ >>= _) _
      rw [Fallible.obeys_bind, Fallible.obeys_observe]
      refine ⟨⟨fun _ => rfl, rfl⟩, fun s' => ?_⟩
      rw [Fallible.heed_ok, Fallible.obeys_bind, Fallible.obeys_atomic]
      refine ⟨⟨trivial, rfl⟩, fun _ p hp => ?_⟩
      have hread : s'.get (exchangeKey code) = some (.tokens p) := Except.ok.inj hp
      show Phase.track code .won (.get (exchangeKey code)) s' = .holding p
      rw [Phase.track, if_pos rfl, hread]

theorem obeys_post {posted : String} (hcode : UrlSafe code) :
    (Exchange.post posted).Obeys (Phase.redeeming code) (fun phase result =>
      Exchange.validatedCode posted = .ok code → ∀ p, result = .ok p → phase = .holding p)
      .outside := by
  unfold Exchange.post
  rw [Fallible.obeys_bind, Fallible.obeys_ofExcept]
  cases hvalid : Exchange.validatedCode posted with
  | error e => exact fun h => nomatch h
  | ok code' =>
      rw [Fallible.heed_ok, Fallible.obeys_bind]
      by_cases hsame : code' = code
      · subst hsame
        refine (obeys_consume hcode).mono fun phase result hread => ?_
        cases result with
        | error e => exact fun _ _ h => nomatch h
        | ok data =>
            rw [Fallible.heed_ok, Fallible.obeys_ofExcept]
            rintro - p hp
            rcases data with _ | ⟨pair⟩ | _
            · cases hp
            · cases hp
              exact hread p rfl
            · cases hp
      · refine obeys_consume_other hcode hsame fun result => ?_
        have hne : ¬ (.ok code' : Except ExchangeError String) = .ok code := by
          simpa using hsame
        cases result with
        | error e => exact fun h => absurd h hne
        | ok data => exact fun h => absurd h hne

/-- What an actor has ended with is what it has read. -/
theorem obeys_visit {actor : Actor} (hcode : UrlSafe code) (hapart : actor.Apart code) :
    actor.visit.Obeys (Phase.redeeming code) (fun phase result =>
      actor.redeems? = some code → ∀ p, result = .ok (some p) → phase = .holding p)
      .outside := by
  cases actor with
  | callback code' pair =>
      obtain ⟨hsafe, hother⟩ := hapart
      show Fallible.Obeys _ _ ((Fallible.atomic _ _ >>= _) >>= _) _
      rw [Fallible.obeys_bind, Fallible.obeys_bind, Fallible.obeys_atomic]
      have hkey : exchangeKey code' ≠ exchangeKey code := by rwa [Ne, exchangeKey_inj]
      refine ⟨⟨⟨hkey, (hsafe.sentinelKey_ne code).symm⟩, rfl⟩, fun s => ?_⟩
      exact fun h => nomatch h
  | exchange posted =>
      show Fallible.Obeys _ _ (Exchange.post posted >>= _) _
      rw [Fallible.obeys_bind]
      refine (obeys_post hcode).mono fun phase result hread => ?_
      cases result with
      | error e => exact fun _ _ h => nomatch h
      | ok p =>
          rw [Fallible.heed_ok, Fallible.obeys_pure]
          intro hredeems q hq
          have hsame : p = q := Option.some.inj (Except.ok.inj hq)
          subst hsame
          refine hread ?_ p rfl
          unfold Actor.redeems? at hredeems
          cases hvalid : Exchange.validatedCode posted with
          | error e => simp [hvalid, Except.toOption] at hredeems
          | ok code' =>
              simp only [hvalid, Except.toOption, Option.some.injEq] at hredeems
              rw [hredeems]
  | clock seconds => exact ⟨⟨trivial, rfl⟩, fun _ h => nomatch h⟩
  | eviction key => exact ⟨⟨trivial, rfl⟩, fun _ h => nomatch h⟩

end Obeys

/-! ## At most one redemption -/

/-- The pair has been read, or is still there for one who has added the marker. -/
def Hot (code : String) (s : TokenCache) (phase : Phase) : Prop :=
  (∃ p, phase = .holding p) ∨ phase = .won ∧ (s.live? (exchangeKey code)).isSome = true

/-- At most one redemption is hot, and while it is, the marker keeps all others out for
as long as the pair is there. -/
structure Guarded (code : String) (pair : TokenPair) (deadline : Int) (s : TokenCache)
    (mem : ι → Phase) : Prop where
  clock : deadline ≤ s.now + oauthExchangeTtl
  stored : ∀ entry, s.entries (exchangeKey code) = some entry →
    entry.value = .tokens pair ∧ entry.expiresAt ≤ deadline
  held : ∀ i p, mem i = .holding p → p = pair
  single : ∀ i j, Hot code s (mem i) → Hot code s (mem j) → i = j
  marked : ∀ i, Hot code s (mem i) → (s.live? (exchangeKey code)).isSome = true →
    ∃ entry, s.entries (sentinelKey code) = some entry ∧ deadline ≤ entry.expiresAt

section Guarded

variable {deadline : Int} {s t : TokenCache} {mem : ι → Phase}

omit [DecidableEq ι] in
/-- A marker that has not been removed is live as long as the pair is. -/
theorem Guarded.live_marker (h : Guarded code pair deadline s mem) {i : ι}
    (hhot : Hot code s (mem i)) (hlive : (s.live? (exchangeKey code)).isSome = true) :
    (s.live? (sentinelKey code)).isSome = true := by
  obtain ⟨entry, hentry⟩ := Option.isSome_iff_exists.mp hlive
  rw [Store.live?_eq_some] at hentry
  obtain ⟨marker, hmarker, hlater⟩ := h.marked i hhot hlive
  have hdeadline := (h.stored entry hentry.1).2
  refine Option.isSome_iff_exists.mpr ⟨marker, ?_⟩
  rw [Store.live?_eq_some]
  exact ⟨hmarker, by omega⟩

omit [DecidableEq ι] in
/-- Steps that leave the pair as it is or gone, and the marker as it is unless one of the
two has not been live. -/
theorem Guarded.of_leaves (h : Guarded code pair deadline s mem) (hnow : s.now ≤ t.now)
    (hpair : ∀ entry, t.entries (exchangeKey code) = some entry →
      s.entries (exchangeKey code) = some entry)
    (hmarker : t.entries (sentinelKey code) = s.entries (sentinelKey code) ∨
      ¬ ((s.live? (sentinelKey code)).isSome = true ∧
        (s.live? (exchangeKey code)).isSome = true)) :
    Guarded code pair deadline t mem := by
  have hlive : (t.live? (exchangeKey code)).isSome = true →
      (s.live? (exchangeKey code)).isSome = true := by
    intro ht
    obtain ⟨entry, hentry⟩ := Option.isSome_iff_exists.mp ht
    rw [Store.live?_eq_some] at hentry
    refine Option.isSome_iff_exists.mpr ⟨entry, ?_⟩
    rw [Store.live?_eq_some]
    exact ⟨hpair entry hentry.1, by omega⟩
  have hhot : ∀ i, Hot code t (mem i) → Hot code s (mem i) := by
    intro i ht
    exact ht.imp id fun ⟨hwon, ht⟩ => ⟨hwon, hlive ht⟩
  refine ⟨?_, fun entry hentry => h.stored entry (hpair entry hentry), h.held,
    fun i j hi hj => h.single i j (hhot i hi) (hhot j hj), fun i hi ht => ?_⟩
  · have := h.clock
    omega
  · rcases hmarker with hsame | hgone
    · rw [hsame]
      exact h.marked i (hhot i hi) (hlive ht)
    · exact absurd ⟨h.live_marker (hhot i hi) (hlive ht), hlive ht⟩ hgone

/-- Whoever adds the marker becomes the one hot redemption, if the pair is still there. -/
theorem Guarded.win (h : Guarded code pair deadline s mem) {i : ι} {value : CacheValue}
    (habsent : s.live? (sentinelKey code) = none) (hcode : UrlSafe code) :
    Guarded code pair deadline (s.set (sentinelKey code) value oauthExchangeTtl)
      (Function.update mem i .won) := by
  have hpair : (s.set (sentinelKey code) value oauthExchangeTtl).entries (exchangeKey code) =
      s.entries (exchangeKey code) :=
    Store.entries_set_of_ne (hcode.sentinelKey_ne code).symm
  have hlive : (s.set (sentinelKey code) value oauthExchangeTtl).live? (exchangeKey code) =
      s.live? (exchangeKey code) := Store.live?_congr rfl hpair
  -- nobody is hot while the pair is there and the marker is not
  have hcold : (s.live? (exchangeKey code)).isSome = true → ∀ j, ¬ Hot code s (mem j) := by
    intro hthere j hj
    have hmarker := h.live_marker hj hthere
    rw [habsent] at hmarker
    cases hmarker
  have hothers : ∀ j, j ≠ i → Hot code (s.set (sentinelKey code) value oauthExchangeTtl)
      (Function.update mem i Phase.won j) → Hot code s (mem j) := by
    intro j hj hhot
    rwa [Function.update_of_ne hj, Hot, hlive] at hhot
  refine ⟨h.clock, fun entry hentry => h.stored entry (hpair ▸ hentry), fun j p hj => ?_,
    fun j k hj hk => ?_, fun j _ _ => ?_⟩
  · by_cases hji : j = i
    · subst hji
      simp at hj
    · rw [Function.update_of_ne hji] at hj
      exact h.held j p hj
  · have hnew : ∀ j, j ≠ i → Hot code (s.set (sentinelKey code) value oauthExchangeTtl)
        (Function.update mem i Phase.won j) → ¬ Hot code (s.set (sentinelKey code) value
          oauthExchangeTtl) (Function.update mem i Phase.won i) := by
      intro j hji hj hi
      rw [Function.update_self, Hot, hlive] at hi
      obtain ⟨p, hp⟩ | ⟨-, hthere⟩ := hi
      · cases hp
      · exact hcold hthere j (hothers j hji hj)
    by_cases hji : j = i
    · by_cases hki : k = i
      · rw [hji, hki]
      · subst hji
        exact absurd hj (hnew k hki hk)
    · by_cases hki : k = i
      · subst hki
        exact absurd hk (hnew j hji hj)
      · exact h.single j k (hothers j hji hj) (hothers k hki hk)
  · refine ⟨_, Store.entries_set_self, ?_⟩
    exact h.clock

omit [DecidableEq ι] in
theorem Guarded.of_cooler (h : Guarded code pair deadline s mem) {mem' : ι → Phase}
    (hheld : ∀ i p, mem' i = .holding p → p = pair)
    (hhot : ∀ i, Hot code s (mem' i) → Hot code s (mem i)) :
    Guarded code pair deadline s mem' :=
  ⟨h.clock, h.stored, hheld, fun i j hi hj => h.single i j (hhot i hi) (hhot j hj),
    fun i hi => h.marked i (hhot i hi)⟩

/-- Whoever has added the marker reads the stored pair, if it is still there. -/
theorem Guarded.read (h : Guarded code pair deadline s mem) {i : ι} (hwon : mem i = .won) :
    Guarded code pair deadline s
      (Function.update mem i ((mem i).track code (.get (exchangeKey code)) s)) := by
  rw [Phase.track, if_pos rfl]
  cases hget : s.get (exchangeKey code) with
  | none =>
      refine h.of_cooler (fun j p hj => ?_) fun j hj => ?_
      · by_cases hji : j = i
        · subst hji
          simp at hj
        · rw [Function.update_of_ne hji] at hj
          exact h.held j p hj
      · by_cases hji : j = i
        · subst hji
          simp [Hot] at hj
        · rwa [Function.update_of_ne hji] at hj
  | some value =>
      obtain ⟨entry, hentry, hvalue⟩ := Store.get_eq_some.mp hget
      obtain rfl : value = .tokens pair :=
        hvalue.symm.trans (h.stored entry (Store.live?_eq_some.mp hentry).1).1
      refine h.of_cooler (fun j p hj => ?_) fun j hj => ?_
      · by_cases hji : j = i
        · subst hji
          rw [Function.update_self] at hj
          cases hj
          rfl
        · rw [Function.update_of_ne hji] at hj
          exact h.held j p hj
      · by_cases hji : j = i
        · subst hji
          exact Or.inr ⟨hwon, by simp [hentry]⟩
        · rwa [Function.update_of_ne hji] at hj

/-- Steps that keep the code's marker while its pair is there: the two that may not are a
deletion of the marker, and its eviction. -/
def KeepsMarker (code : String) (_ : ι) (call : CacheCall) (s : TokenCache) : Prop :=
  call = .delete (sentinelKey code) ∨ call = .evict (sentinelKey code) →
    ¬ ((s.live? (sentinelKey code)).isSome = true ∧ (s.live? (exchangeKey code)).isSome = true)

instance (code : String) (i : ι) (call : CacheCall) (s : TokenCache) :
    Decidable (KeepsMarker code i call s) := by
  unfold KeepsMarker
  infer_instance

omit [DecidableEq ι] in
theorem Guarded.remove (h : Guarded code pair deadline s mem) {key : String}
    (hkeeps : key = sentinelKey code → ¬ ((s.live? (sentinelKey code)).isSome = true ∧
      (s.live? (exchangeKey code)).isSome = true)) :
    Guarded code pair deadline (s.remove key) mem := by
  refine h.of_leaves (Int.le_refl _) (fun entry hentry => ?_) ?_
  · by_cases hkey : exchangeKey code = key
    · rw [hkey, Store.entries_remove_self] at hentry
      cases hentry
    · rwa [Store.entries_remove_of_ne hkey] at hentry
  · by_cases hkey : sentinelKey code = key
    · exact Or.inr (hkeeps hkey.symm)
    · exact Or.inl (Store.entries_remove_of_ne hkey)

/-- What one call does, by the calls. -/
theorem Guarded.step (hcode : UrlSafe code) (h : Guarded code pair deadline s mem) {i : ι}
    {call : CacheCall} (hpermits : (mem i).Permits code call) (hkeeps : KeepsMarker code i call s) :
    Guarded code pair deadline (call.effect s)
      (Function.update mem i ((mem i).track code call s)) := by
  have hcalm : (mem i).track code call s = mem i →
      Guarded code pair deadline (call.effect s) mem →
      Guarded code pair deadline (call.effect s)
        (Function.update mem i ((mem i).track code call s)) := by
    intro htrack hguarded
    rwa [htrack, Function.update_eq_self]
  cases call with
  | set key value timeout =>
      refine hcalm rfl (h.of_leaves (Int.le_refl _) (fun entry hentry => ?_) (Or.inl ?_))
      · rwa [CacheCall.effect, Store.entries_set_of_ne hpermits.1.symm] at hentry
      · exact Store.entries_set_of_ne hpermits.2.symm
  | add key value timeout =>
      by_cases hkey : key = sentinelKey code
      · subst hkey
        obtain rfl : timeout = oauthExchangeTtl := hpermits.2 rfl
        cases hlive : s.live? (sentinelKey code) with
        | none =>
            rw [CacheCall.effect, Store.add_of_absent hlive, Phase.track, if_pos ⟨rfl, hlive⟩]
            exact h.win hlive hcode
        | some entry =>
            refine hcalm ?_ ?_
            · simp [Phase.track, hlive]
            · rw [CacheCall.effect, Store.add_of_live (by simp [hlive])]
              exact h
      · refine hcalm (track_add_of_ne hkey _ _ _ s) (h.of_leaves ?_ (fun entry hentry => ?_) (Or.inl ?_))
        · exact Int.le_of_eq Store.now_add.symm
        · rwa [CacheCall.effect, Store.entries_add_of_ne hpermits.1.symm] at hentry
        · exact Store.entries_add_of_ne (Ne.symm hkey)
  | get key =>
      by_cases hkey : key = exchangeKey code
      · subst hkey
        exact h.read (hpermits rfl)
      · exact hcalm (if_neg hkey) h
  | delete key => exact hcalm rfl (h.remove fun hkey => hkeeps (Or.inl (by rw [hkey])))
  | evict key => exact hcalm rfl (h.remove fun hkey => hkeeps (Or.inr (by rw [hkey])))
  | pass seconds =>
      refine hcalm rfl (h.of_leaves ?_ (fun entry hentry => hentry) (Or.inl rfl))
      rw [CacheCall.effect, Store.now_pass]
      omega

omit [DecidableEq ι] in
/-- Right after the callback has stored the pair. -/
theorem guarded_stored (code : String) (pair : TokenPair) (s : TokenCache) :
    Guarded code pair (s.now + oauthExchangeTtl)
      (Fallible.exec (Exchange.storeOauthExchange code pair) s).2 fun _ : ι => .outside := by
  have hcold : ∀ t, ¬ Hot code t .outside := by
    rintro t (⟨p, hp⟩ | ⟨hwon, -⟩)
    · cases hp
    · cases hwon
  refine ⟨Int.le_refl _, fun entry hentry => ?_, fun i p hp => (nomatch hp),
    fun i j hi => absurd hi (hcold _), fun i hi => absurd hi (hcold _)⟩
  have hset : (s.set (exchangeKey code) (.tokens pair) oauthExchangeTtl).entries
      (exchangeKey code) = some entry := hentry
  rw [Store.entries_set_self] at hset
  cases hset
  exact ⟨rfl, Int.le_refl _⟩

end Guarded

/-! ### Who takes a marker away -/

/-- The key whose entry an actor may take away. -/
def Actor.removes? : Actor → Option String
  | callback _ _ | clock _ => none
  | exchange posted => (Exchange.validatedCode posted).toOption.map exchangeKey
  | eviction key => some key

/-- Leaves the entry of a key where it is. -/
def leaving (key : String) : Monitor Unit CacheCall TokenCache where
  track mem _ _ := mem
  allow _ call _ := call ≠ .delete key ∧ call ≠ .evict key

theorem obeys_leaving_consume {key : String} (hkey : exchangeKey code ≠ key)
    {post : Unit → Except ExchangeError (Option CacheValue) → Prop}
    (hpost : ∀ result, post () result) :
    (Exchange.consumeOauthExchange code).Obeys (leaving key) post () := by
  refine obeys_consume_of_still ?_ (fun _ _ _ => rfl) hpost
  rintro call (rfl | rfl | rfl)
  · simp [leaving]
  · simp [leaving]
  · simpa [leaving] using hkey

theorem obeys_leaving {actor : Actor} {key : String} (h : actor.removes? ≠ some key) :
    actor.visit.Obeys (leaving key) (fun _ _ => True) () := by
  cases actor with
  | callback code pair =>
      show Fallible.Obeys _ _ ((Fallible.atomic _ _ >>= _) >>= _) _
      rw [Fallible.obeys_bind, Fallible.obeys_bind, Fallible.obeys_atomic]
      exact ⟨by simp [leaving], fun _ => trivial⟩
  | exchange posted =>
      show Fallible.Obeys _ _ ((Fallible.ofExcept _ >>= _) >>= _) _
      rw [Fallible.obeys_bind, Fallible.obeys_bind, Fallible.obeys_ofExcept]
      cases hvalid : Exchange.validatedCode posted with
      | error e => trivial
      | ok code =>
          have hkey : exchangeKey code ≠ key := by
            intro hsame
            apply h
            simp [Actor.removes?, hvalid, Except.toOption, hsame]
          rw [Fallible.heed_ok, Fallible.obeys_bind]
          refine obeys_leaving_consume hkey fun result => ?_
          rcases result with e | _ | ⟨pair⟩ | _
          · trivial
          · trivial
          · trivial
          · trivial
  | clock seconds => exact ⟨by simp [leaving], fun _ => trivial⟩
  | eviction key' =>
      have hkey : key' ≠ key := fun hsame => h (congrArg some hsame)
      exact ⟨by simpa [leaving] using hkey, fun _ => trivial⟩

/-- A run keeps the marker of a code if nobody redeems the text of the marker's key, and
no eviction is of the marker. -/
theorem keepsMarker_of_removes (s : TokenCache) {actors : ι → Actor}
    (h : ∀ i, (actors i).removes? ≠ some (sentinelKey code)) (schedule : List ι) :
    Runs.Steps Pool.step (Pool.Finds (KeepsMarker code)) (visits s actors) schedule := by
  intro first i rest _
  have hstart : (visits s actors).Obeys (fun _ => leaving (sentinelKey code))
      (fun _ _ _ => True) fun _ => () := fun k => obeys_leaving (h k)
  obtain ⟨mem, hobeys⟩ := hstart.run first
  have hmine := hobeys i
  change Pool.Finds _ ((visits s actors).run first) i
  unfold Pool.Finds
  split
  · trivial
  next call effect next hproc =>
      rw [hproc] at hmine
      exact fun hremoves => (hremoves.elim hmine.1.1 hmine.1.2).elim

/-! ### At most one -/

/-- In a run of redemptions, whatever texts they post, beside other callbacks, the clock
and evictions, in which no step takes the code's marker away while its pair is still
there, at most one redemption of the code hands out a pair, and it is the stored one. -/
theorem exchange_code_redeemed_once (s : TokenCache) (actors : ι → Actor) (hcode : UrlSafe code)
    (hapart : ∀ i, (actors i).Apart code) {schedule : List ι}
    (hsteps : Runs.Steps Pool.step (Pool.Finds (KeepsMarker code))
      (visits (Fallible.exec (Exchange.storeOauthExchange code pair) s).2 actors) schedule)
    {i j : ι} {p q : TokenPair}
    (hi : HandsOut actors ((visits (Fallible.exec (Exchange.storeOauthExchange code pair) s).2
      actors).run schedule) code i p)
    (hj : HandsOut actors ((visits (Fallible.exec (Exchange.storeOauthExchange code pair) s).2
      actors).run schedule) code j q) :
    i = j ∧ p = pair := by
  have hstart : (visits (Fallible.exec (Exchange.storeOauthExchange code pair) s).2 actors).Obeys
      (fun _ => Phase.redeeming code) (fun k phase result => (actors k).redeems? = some code →
        ∀ r, result = .ok (some r) → phase = .holding r) fun _ => .outside :=
    fun k => obeys_visit hcode (hapart k)
  have hstep : ∀ (t : TokenCache) (mem : ι → Phase) k call (effect : TokenCache → TokenCache),
      Guarded code pair (s.now + oauthExchangeTtl) t mem →
      (Phase.redeeming code).allow (mem k) call effect → KeepsMarker code k call t →
      Guarded code pair (s.now + oauthExchangeTtl) (effect t)
        (Function.update mem k ((Phase.redeeming code).track (mem k) call t)) := by
    rintro t mem k call effect hguarded ⟨hpermits, rfl⟩ hkeeps
    exact hguarded.step hcode hpermits hkeeps
  obtain ⟨mem, hobeys, hguarded⟩ :=
    Pool.run_obeys hstep hstart (guarded_stored code pair s) hsteps
  have hheld : ∀ k r, HandsOut actors _ code k r → mem k = .holding r := fun k r hk =>
    hobeys.of_done hk.2 hk.1 r rfl
  have hmine := hheld i p hi
  exact ⟨hguarded.single i j (Or.inl ⟨p, hmine⟩) (Or.inl ⟨q, hheld j q hj⟩),
    hguarded.held i p hmine⟩

/-! ### A redemption of the marker's key -/

def issuedCode : String := "abcdefghijklmnopqrstuvwxyzABCDEFGHIJKLMNOPQ"

def issuedPair : TokenPair := ⟨"access", "refresh"⟩

/-- Right after the callback, in a cache that was empty. -/
def issuedCache : TokenCache :=
  (Fallible.exec (Exchange.storeOauthExchange issuedCode issuedPair) ⟨0, fun _ => none⟩).2

/-- Two redemptions of the code, and one of another text. -/
def redeemers (text : String) : Fin 3 → Actor
  | 0 | 1 => .exchange issuedCode
  | 2 => .exchange text

theorem apart_redeemers (text : String) (i : Fin 3) : (redeemers text i).Apart issuedCode :=
  match i with
  | 0 | 1 | 2 => trivial

theorem urlSafe_issuedCode : UrlSafe issuedCode := by
  unfold UrlSafe
  decide +kernel

/-- The first redemption has read the pair when the second is refused. -/
theorem exchange_code_redeemed_once_here :
    HandsOut (redeemers "another") ((visits issuedCache (redeemers "another")).run
      [0, 0, 2, 2, 1, 2, 0]) issuedCode 0 issuedPair ∧
    ¬ HandsOut (redeemers "another") ((visits issuedCache (redeemers "another")).run
      [0, 0, 2, 2, 1, 2, 0]) issuedCode 1 issuedPair := by
  have hsteps : Runs.Steps Pool.step (Pool.Finds (KeepsMarker issuedCode))
      (visits issuedCache (redeemers "another")) [0, 0, 2, 2, 1, 2, 0] :=
    keepsMarker_of_removes issuedCache (by decide +kernel) _
  have hfirst : HandsOut (redeemers "another") ((visits issuedCache (redeemers "another")).run
      [0, 0, 2, 2, 1, 2, 0]) issuedCode 0 issuedPair := ⟨by decide +kernel, rfl⟩
  refine ⟨hfirst, fun hsecond => ?_⟩
  have hsame := exchange_code_redeemed_once ⟨0, fun _ => none⟩ (redeemers "another")
    urlSafe_issuedCode (apart_redeemers "another") hsteps hfirst hsecond
  exact absurd hsame.1 (by decide)

/-- The first redemption has read the pair and not yet deleted it when the text of the
marker's key is redeemed; the second then adds the marker again. -/
theorem not_exchange_code_redeemed_once :
    ¬ ∀ (code : String) (pair : TokenPair) (s : TokenCache) (actors : Fin 3 → Actor),
      UrlSafe code → (∀ i, (actors i).Apart code) → ∀ (schedule : List (Fin 3)) i j p q,
      HandsOut actors ((visits (Fallible.exec (Exchange.storeOauthExchange code pair) s).2
        actors).run schedule) code i p →
      HandsOut actors ((visits (Fallible.exec (Exchange.storeOauthExchange code pair) s).2
        actors).run schedule) code j q → i = j ∧ p = pair := by
  intro hclaim
  have hboth := hclaim issuedCode issuedPair ⟨0, fun _ => none⟩
    (redeemers (issuedCode ++ ":consumed")) urlSafe_issuedCode (apart_redeemers _)
    [0, 0, 2, 2, 2, 1, 1, 0, 1] 0 1 issuedPair issuedPair ⟨by decide +kernel, rfl⟩
    ⟨by decide +kernel, rfl⟩
  exact absurd hboth.1 (by decide)

end Saasmint.Auth
