import Saasmint.Users.Rotation

/-!
# One-time tokens among each other

A redemption reads the token and then uses it with one `UPDATE` that looks at `used_at`
and at the expiry again.  A request has redeemed a token when that statement changed a
row, and it is this statement that orders the redemptions of one token.

`Redeeming` is the invariant of a server: what a request has redeemed is stored as used,
and no two requests have redeemed tokens of one model with the same hash.
-/

namespace Saasmint.Auth

open Atomic Relational

variable {τ ι : Type} {model : OneTimeModel}

/-- The row without its `used_at`. -/
def OneTimeToken.unused (token : OneTimeToken model) : OneTimeToken model :=
  { token with usedAt := none }

/-- Every row stays, and stays as it is once it is used. -/
def KeepsUsed (model : OneTimeModel) (s s' : State) : Prop :=
  ∀ row ∈ (s.db.oneTime model).rows, ∃ row' ∈ (s'.db.oneTime model).rows,
    row'.unused = row.unused ∧ (row.usedAt ≠ none → row' = row)

/-- A use or a withdrawal selects no row that is used. -/
theorem keepsUsed_of_use {s s' : State} {selected : OneTimeToken model → Bool} {now : Datetime}
    (hrows : (s'.db.oneTime model).rows = (s.db.oneTime model).rows.map (.use selected now))
    (hselected : ∀ token, selected token = true → token.usedAt = none) : KeepsUsed model s s' := by
  intro row hrow
  rw [hrows]
  refine ⟨row.use selected now, List.mem_map_of_mem hrow, rfl, fun hused => ?_⟩
  apply OneTimeToken.use_of_not_selected
  by_contra hsel
  exact hused (hselected row (by simpa using hsel))

theorem usedAt_of_redeemable {tokenHash : String} {now : Datetime} {token : OneTimeToken model}
    (h : redeemable model tokenHash now token = true) :
    token.tokenHash = tokenHash ∧ token.usedAt = none ∧ now < token.expiresAt := by
  unfold redeemable at h
  simp only [Bool.and_eq_true, beq_iff_eq, Option.isNone_iff_eq_none, decide_eq_true_eq] at h
  exact ⟨h.1.1, h.1.2, h.2⟩

theorem keepsUsed_of_touches {s s' : State} {q : Query} (h : TouchesOneTime model s s' q)
    (hq : q.deletes = false) : KeepsUsed model s s' := by
  cases h with
  | nothing hrows =>
      intro row hrow
      rw [hrows]
      exact ⟨row, hrow, rfl, fun _ => rfl⟩
  | use hrows => exact keepsUsed_of_use hrows fun token h => (usedAt_of_redeemable h).2.1
  | invalidate hrows =>
      refine keepsUsed_of_use hrows fun token h => ?_
      simp only [Bool.and_eq_true, Option.isNone_iff_eq_none] at h
      exact h.2
  | insert hrows =>
      intro row hrow
      rw [hrows]
      exact ⟨row, List.mem_append_left _ hrow, rfl, fun _ => rfl⟩
  | delete hdeletes =>
      rw [hdeletes] at hq
      cases hq

/-- The memory of a request that has redeemed a token. -/
def Memory.withRedeemed (mem : Memory) (token : OneTimeToken model) : Memory :=
  { mem with redeemed := Function.update mem.redeemed model (some token) }

/-- What such a request has redeemed: the token, or what it had redeemed before. -/
theorem Memory.of_withRedeemed {mem : Memory} {token : OneTimeToken model}
    (P : (other : OneTimeModel) → OneTimeToken other → Prop) (hnew : P model token)
    (hold : ∀ other old, mem.redeemed other = some old → P other old) {other : OneTimeModel}
    {shown : OneTimeToken other} (h : (mem.withRedeemed token).redeemed other = some shown) :
    P other shown := by
  change Function.update mem.redeemed model (some token) other = some shown at h
  by_cases hmodel : other = model
  · subst hmodel
    rw [Function.update_self] at h
    rwa [← Option.some.inj h]
  · rw [Function.update_of_ne hmodel] at h
    exact hold other shown h

/-! ## The invariant -/

/-- What the requests have read is stored, what they have redeemed is stored as used, and
each of them has redeemed a token with another hash. -/
structure Redeeming (presents : ι → Option (OneTimeModel × String)) (s : State)
    (mem : ι → Memory) : Prop where
  presents : ∀ i, (mem i).presents = presents i
  maintains : ∀ i, (mem i).maintains = false
  looked : ∀ i model token, (mem i).looked model = some token →
    ∃ row ∈ (s.db.oneTime model).rows, row.unused = token.unused
  redeemed : ∀ i model token, (mem i).redeemed model = some token →
    token ∈ (s.db.oneTime model).rows ∧ ∃ now, token.usedAt = some now ∧ now < token.expiresAt
  distinct : ∀ i j model token token', i ≠ j → (mem i).redeemed model = some token →
    (mem j).redeemed model = some token' → token.tokenHash ≠ token'.tokenHash

section Step

variable [DecidableEq ι] {presents : ι → Option (OneTimeModel × String)} {s : State}
variable {mem : ι → Memory} {i : ι} {q : Query}

/-- A query after which a request has redeemed nothing more. -/
theorem Redeeming.of_same (h : Redeeming presents s mem)
    (hkeeps : ∀ model, KeepsUsed model s (effect q s)) {mem' : Memory}
    (hpresents : mem'.presents = (mem i).presents) (hmaintains : mem'.maintains = (mem i).maintains)
    (hlooked : ∀ model token, mem'.looked model = some token →
      ∃ row ∈ ((effect q s).db.oneTime model).rows, row.unused = token.unused)
    (hredeemed : mem'.redeemed = (mem i).redeemed) :
    Redeeming presents (effect q s) (Function.update mem i mem') := by
  have hsame : ∀ j, (Function.update mem i mem' j).redeemed = (mem j).redeemed := by
    intro j
    by_cases hj : j = i
    · subst hj
      simpa using hredeemed
    · simp [Function.update_of_ne hj]
  refine ⟨fun j => ?_, fun j => ?_, fun j model token hlook => ?_, fun j model token hred => ?_, ?_⟩
  · by_cases hj : j = i
    · subst hj
      simpa [hpresents] using h.presents j
    · simpa [Function.update_of_ne hj] using h.presents j
  · by_cases hj : j = i
    · subst hj
      simpa [hmaintains] using h.maintains j
    · simpa [Function.update_of_ne hj] using h.maintains j
  · by_cases hj : j = i
    · subst hj
      exact hlooked model token (by simpa using hlook)
    · rw [Function.update_of_ne hj] at hlook
      obtain ⟨row, hrow, hunused⟩ := h.looked j model token hlook
      obtain ⟨row', hrow', hunused', _⟩ := hkeeps model row hrow
      exact ⟨row', hrow', hunused'.trans hunused⟩
  · rw [hsame] at hred
    obtain ⟨hmem, now, hused, hnow⟩ := h.redeemed j model token hred
    obtain ⟨row', hrow', _, hkept⟩ := hkeeps model token hmem
    rw [hkept (by simp [hused])] at hrow'
    exact ⟨hrow', now, hused, hnow⟩
  · intro j k model token token' hjk hj hk
    rw [hsame] at hj hk
    exact h.distinct j k model token token' hjk hj hk

omit [DecidableEq ι] in
/-- The `UPDATE` of a redemption changes the row that was read. -/
theorem Redeeming.redeemed_row (h : Redeeming presents s mem) {tokenHash : String} {now : Datetime}
    {token row : OneTimeToken model} (hlooked : (mem i).looked model = some token)
    (hhash : token.tokenHash = tokenHash) (hrow : row ∈ (s.db.oneTime model).rows)
    (hredeemable : redeemable model tokenHash now row = true) : row.unused = token.unused := by
  obtain ⟨read, hread, hunused⟩ := h.looked i model token hlooked
  have hreadHash : read.tokenHash = tokenHash :=
    (congrArg OneTimeToken.tokenHash hunused).trans hhash
  rw [← hunused, Db.oneTimeToken_eq_of_hash hrow hread
    ((usedAt_of_redeemable hredeemable).1.trans hreadHash.symm)]

/-- A redemption that changes a row is the first of its token. -/
theorem Redeeming.use (h : Redeeming presents s mem) {tokenHash : String} {now : Datetime}
    {token row : OneTimeToken model} (hlooked : (mem i).looked model = some token)
    (hhash : token.tokenHash = tokenHash) (hrow : row ∈ (s.db.oneTime model).rows)
    (hredeemable : redeemable model tokenHash now row = true) :
    Redeeming presents (effect (.useOneTimeToken model tokenHash now) s)
      (Function.update mem i ((mem i).withRedeemed { token with usedAt := some now })) := by
  obtain ⟨hrowHash, hrowUnused, hnow⟩ := usedAt_of_redeemable hredeemable
  have hunused := h.redeemed_row hlooked hhash hrow hredeemable
  have hkeeps : ∀ model', KeepsUsed model' s (effect (.useOneTimeToken model tokenHash now) s) :=
    fun model' => keepsUsed_of_touches (touches_oneTime model' _ s) rfl
  -- the row as it is stored now is the one that was read, used
  have hstored : { token with usedAt := some now } ∈
      ((effect (.useOneTimeToken model tokenHash now) s).db.oneTime model).rows := by
    have hrows : ((effect (.useOneTimeToken model tokenHash now) s).db.oneTime model).rows =
        (s.db.oneTime model).rows.map (.use (redeemable model tokenHash now) now) :=
      Db.rows_oneTime_use
    have hsame : ({ token with usedAt := some now } : OneTimeToken model) =
        { row with usedAt := some now } :=
      congrArg (fun unused : OneTimeToken model => { unused with usedAt := some now }) hunused.symm
    rw [hrows, hsame, ← OneTimeToken.use_of_selected hredeemable]
    exact List.mem_map_of_mem hrow
  -- who has redeemed a token of the hash before has left it used
  have hfresh : ∀ j token', (mem j).redeemed model = some token' → token'.tokenHash ≠ tokenHash := by
    intro j token' hj hsame
    obtain ⟨hmem, now', hused, _⟩ := h.redeemed j model token' hj
    have heq := Db.oneTimeToken_eq_of_hash hmem hrow (hsame.trans hrowHash.symm)
    rw [heq, hrowUnused] at hused
    cases hused
  have hexpires : now < token.expiresAt := by
    have hsame : row.unused.expiresAt = token.unused.expiresAt :=
      congrArg OneTimeToken.expiresAt hunused
    rwa [← show row.expiresAt = token.expiresAt from hsame]
  have hpersists : ∀ j model' token', (mem j).redeemed model' = some token' →
      token' ∈ ((effect (.useOneTimeToken model tokenHash now) s).db.oneTime model').rows ∧
        ∃ now', token'.usedAt = some now' ∧ now' < token'.expiresAt := by
    intro j model' token' hred
    obtain ⟨hmem, now', hused, hnow'⟩ := h.redeemed j model' token' hred
    obtain ⟨row', hrow', _, hkept⟩ := hkeeps model' token' hmem
    rw [hkept (by simp [hused])] at hrow'
    exact ⟨hrow', now', hused, hnow'⟩
  refine ⟨fun j => ?_, fun j => ?_, fun j model' token' hlook => ?_,
    fun j model' token' hred => ?_, ?_⟩
  · by_cases hj : j = i
    · subst hj
      simpa [Memory.withRedeemed] using h.presents j
    · simpa [Function.update_of_ne hj] using h.presents j
  · by_cases hj : j = i
    · subst hj
      simpa [Memory.withRedeemed] using h.maintains j
    · simpa [Function.update_of_ne hj] using h.maintains j
  · have hlook' : (mem j).looked model' = some token' := by
      by_cases hj : j = i
      · subst hj
        simpa [Memory.withRedeemed] using hlook
      · simpa [Function.update_of_ne hj] using hlook
    obtain ⟨read, hread, hreadUnused⟩ := h.looked j model' token' hlook'
    obtain ⟨read', hread', hunused', _⟩ := hkeeps model' read hread
    exact ⟨read', hread', hunused'.trans hreadUnused⟩
  · by_cases hj : j = i
    · subst hj
      rw [Function.update_self] at hred
      exact Memory.of_withRedeemed (fun other shown =>
        shown ∈ ((effect (.useOneTimeToken model tokenHash now) s).db.oneTime other).rows ∧
          ∃ now', shown.usedAt = some now' ∧ now' < shown.expiresAt)
        ⟨hstored, now, rfl, hexpires⟩ (hpersists j) hred
    · rw [Function.update_of_ne hj] at hred
      exact hpersists j model' token' hred
  · intro j k model' token₁ token₂ hjk hj hk
    by_cases hji : j = i
    · subst hji
      rw [Function.update_self] at hj
      rw [Function.update_of_ne (Ne.symm hjk)] at hk
      refine Memory.of_withRedeemed (fun other shown => ∀ token', (mem k).redeemed other =
        some token' → shown.tokenHash ≠ token'.tokenHash) ?_ ?_ hj token₂ hk
      · exact fun token' hk hsame => hfresh k token' hk (hsame.symm.trans hhash)
      · exact fun other shown hold token' hk => h.distinct j k other shown token' hjk hold hk
    · rw [Function.update_of_ne hji] at hj
      by_cases hki : k = i
      · subst hki
        rw [Function.update_self] at hk
        refine Memory.of_withRedeemed (fun other shown => ∀ token', (mem j).redeemed other =
          some token' → token'.tokenHash ≠ shown.tokenHash) ?_ ?_ hk token₁ hj
        · exact fun token' hj hsame => hfresh j token' hj (hsame.trans hhash)
        · exact fun other shown hold token' hj => h.distinct j k other token' shown hjk hj hold
      · rw [Function.update_of_ne hki] at hk
        exact h.distinct j k model' token₁ token₂ hjk hj hk

theorem Redeeming.step (h : Redeeming presents s mem) (hpermits : (mem i).Permits q) :
    Redeeming presents (effect q s) (Function.update mem i ((mem i).track q s)) := by
  have hdeletes := Memory.deletes_of_permits (h.maintains i) hpermits
  have hkeeps : ∀ model, KeepsUsed model s (effect q s) :=
    fun model => keepsUsed_of_touches (touches_oneTime model q s) hdeletes
  have hold : ∀ model token, (mem i).looked model = some token →
      ∃ row ∈ ((effect q s).db.oneTime model).rows, row.unused = token.unused := by
    intro model token hlooked
    obtain ⟨row, hrow, hunused⟩ := h.looked i model token hlooked
    obtain ⟨row', hrow', hunused', _⟩ := hkeeps model row hrow
    exact ⟨row', hrow', hunused'.trans hunused⟩
  cases q with
  | selectOneTimeToken other tokenHash =>
      refine h.of_same hkeeps rfl rfl (fun model token hlooked => ?_) rfl
      change Function.update (mem i).looked other (s.db.oneTimeToken? other tokenHash) model =
        some token at hlooked
      by_cases hmodel : model = other
      · subst hmodel
        rw [Function.update_self] at hlooked
        exact ⟨token, (Db.oneTimeToken?_eq_some.mp hlooked).1, rfl⟩
      · rw [Function.update_of_ne hmodel] at hlooked
        exact hold model token hlooked
  | useOneTimeToken other tokenHash now =>
      obtain ⟨_, token, hlooked, hhash⟩ := hpermits
      by_cases hany : (s.db.oneTime other).rows.any (redeemable other tokenHash now) = true
      · obtain ⟨row, hrow, hredeemable⟩ := List.any_eq_true.mp hany
        have htrack : (mem i).track (.useOneTimeToken other tokenHash now) s =
            (mem i).withRedeemed { token with usedAt := some now } := by
          show (if _ then _ else _ : Memory) = _
          rw [if_pos hany, hlooked]
          rfl
        rw [htrack]
        exact h.use hlooked hhash hrow hredeemable
      · have htrack : (mem i).track (.useOneTimeToken other tokenHash now) s = mem i := by
          show (if _ then _ else _ : Memory) = _
          rw [if_neg hany]
        rw [htrack]
        exact h.of_same hkeeps rfl rfl hold rfl
  | insertRefreshToken token origin =>
      cases origin with
      | login => exact h.of_same hkeeps rfl rfl hold rfl
      | rotation session cutoff => exact h.of_same hkeeps rfl rfl hold rfl
  | _ => exact h.of_same hkeeps rfl rfl hold rfl

omit [DecidableEq ι] in
/-- A query of a request that presents a one-time token leaves the rows with another hash
alone. -/
theorem Redeeming.frame (h : Redeeming presents s mem) (hpermits : (mem i).Permits q)
    {tokenHash : String} (hpresents : presents i ≠ none)
    (hother : presents i ≠ some (model, tokenHash)) {token : OneTimeToken model}
    (hhash : token.tokenHash = tokenHash) :
    token ∈ (s.db.oneTime model).rows ↔ token ∈ ((effect q s).db.oneTime model).rows := by
  have hmine := h.presents i
  cases htouches : touches_oneTime model q s with
  | nothing hrows => rw [hrows]
  | @use tokenHash' now hrows =>
      have hne : tokenHash ≠ tokenHash' := by
        intro hsame
        rw [← hmine, hpermits.1, hsame] at hother
        exact hother rfl
      rw [hrows, List.mem_map]
      have hkept : ∀ row : OneTimeToken model, row.tokenHash = tokenHash →
          row.use (redeemable model tokenHash' now) now = row := by
        intro row hrow
        apply OneTimeToken.use_of_not_selected
        by_contra hsel
        have hsel' : redeemable model tokenHash' now row = true := by simpa using hsel
        exact hne (hrow.symm.trans (usedAt_of_redeemable hsel').1)
      constructor
      · intro hmem
        exact ⟨token, hmem, hkept token hhash⟩
      · rintro ⟨row, hrow, rfl⟩
        rwa [hkept row hhash]
  | invalidate hrows =>
      have hnone : (mem i).presents = none := hpermits
      exact absurd (hmine.symm.trans hnone) hpresents
  | insert hrows =>
      have hnone : (mem i).presents = none := hpermits.1
      exact absurd (hmine.symm.trans hnone) hpresents
  | delete hdeletes =>
      rw [Memory.deletes_of_permits (h.maintains i) hpermits] at hdeletes
      cases hdeletes

end Step

/-! ## Runs -/

section Runs

variable [DecidableEq ι] (crypto : Crypto τ) (requests : ι → Request τ × Draws) (s : State)

/-- The invariant holds after every schedule. -/
theorem serving_redeeming (schedule : List ι) :
    ∃ mem, ((serving crypto requests s).run schedule).Obeys (fun _ => discipline)
        (fun i mem result => ∀ response, result = .ok response →
          Kept crypto (requests i).2 (requests i).1 response mem) mem ∧
      Redeeming (fun i => (requests i).1.presents crypto)
        ((serving crypto requests s).run schedule).shared mem := by
  have hstart : Redeeming (fun i => (requests i).1.presents crypto) s
      (memories crypto requests) :=
    ⟨fun _ => rfl, fun _ => rfl, fun _ _ _ => nofun, fun _ _ _ => nofun, fun _ _ _ _ _ _ => nofun⟩
  exact Pool.run_obeys (fun s mem i q action h hallow (_ : True) => hallow.1 ▸ h.step hallow.2)
    (serving_obeys crypto requests s) hstart
    (Pool.finds_of_always (fun _ _ _ => trivial) _ schedule)

/-- **One-time tokens are redeemed at most once**, among any requests, creations of newer
tokens included: of the requests that present one token at most one is answered; the
token of a request that is answered is stored under the hash of the text that was
presented, was used at the first instant the request read, before its expiry, and is the
row that the token helper returns; and no statement of a request that presents a token
changes a row with another hash. -/
theorem one_time_token_redeemed_once (schedule : List ι) :
    (∀ i j, i ≠ j → (requests i).1.presents crypto ≠ none →
      (requests i).1.presents crypto = (requests j).1.presents crypto →
      answer? ((serving crypto requests s).run schedule) i = none ∨
        answer? ((serving crypto requests s).run schedule) j = none) ∧
    (∀ i model tokenHash response,
      (requests i).1.presents crypto = some (model, tokenHash) →
      answer? ((serving crypto requests s).run schedule) i = some response →
      ∃ token ∈ (((serving crypto requests s).run schedule).shared.db.oneTime model).rows,
        token.tokenHash = tokenHash ∧ token.usedAt = some ((requests i).2.clock 0) ∧
        (requests i).2.clock 0 < token.expiresAt ∧
        ∀ rawToken, (requests i).1 = .redeem model rawToken → response = .redeemed model token) ∧
    (∀ first i rest, schedule = first ++ i :: rest →
      (requests i).1.presents crypto ≠ none → ∀ model tokenHash,
      (requests i).1.presents crypto ≠ some (model, tokenHash) →
      ∀ token : OneTimeToken model, token.tokenHash = tokenHash →
        (token ∈ (((serving crypto requests s).run first).shared.db.oneTime model).rows ↔
          token ∈ (((serving crypto requests s).run (first ++ [i])).shared.db.oneTime
            model).rows)) := by
  obtain ⟨mem, hobeys, hredeeming⟩ := serving_redeeming crypto requests s schedule
  -- a request that was answered has redeemed the token it presents
  have hkept : ∀ i model tokenHash response,
      (requests i).1.presents crypto = some (model, tokenHash) →
      answer? ((serving crypto requests s).run schedule) i = some response →
      ∃ token, (mem i).redeemed model = some token ∧ token.tokenHash = tokenHash ∧
        token.usedAt = some ((requests i).2.clock 0) ∧
        ∀ rawToken, (requests i).1 = .redeem model rawToken → response = .redeemed model token :=
    fun i model tokenHash response hpresents hanswer =>
      (hobeys.of_done (answer?_eq_some.mp hanswer) response rfl).redeemed model tokenHash hpresents
  refine ⟨fun i j hne hpresents hsame => ?_, fun i model tokenHash response hpresents hanswer => ?_,
    fun first i rest _ hpresents model tokenHash hother token hhash => ?_⟩
  · by_contra hboth
    obtain ⟨hi, hj⟩ := not_or.mp hboth
    obtain ⟨response, hresponse⟩ := Option.ne_none_iff_exists'.mp hi
    obtain ⟨response', hresponse'⟩ := Option.ne_none_iff_exists'.mp hj
    obtain ⟨⟨model, tokenHash⟩, hpresented⟩ := Option.ne_none_iff_exists'.mp hpresents
    obtain ⟨token, hred, hhash, _⟩ := hkept i model tokenHash response hpresented hresponse
    obtain ⟨token', hred', hhash', _⟩ :=
      hkept j model tokenHash response' (hsame.symm.trans hpresented) hresponse'
    exact hredeeming.distinct i j model token token' hne hred hred' (hhash.trans hhash'.symm)
  · obtain ⟨token, hred, hhash, hused, hresponse⟩ := hkept i model tokenHash response hpresents hanswer
    obtain ⟨hmem, now, hnow, hexpires⟩ := hredeeming.redeemed i model token hred
    rw [hused] at hnow
    rw [← Option.some.inj hnow] at hexpires
    exact ⟨token, hmem, hhash, hused, hexpires, hresponse⟩
  · obtain ⟨mem', hobeys', hredeeming'⟩ := serving_redeeming crypto requests s first
    rw [Pool.run_append, Pool.run_cons, Pool.run_nil]
    cases hproc : ((serving crypto requests s).run first).procs i with
    | done result => rw [Pool.step_done hproc]
    | act q action next =>
        have hallowed := hobeys' i
        rw [hproc] at hallowed
        rw [Pool.step_act hproc, hallowed.1.1]
        exact hredeeming'.frame hallowed.1.2 hpresents hother hhash

end Runs

end Saasmint.Auth
