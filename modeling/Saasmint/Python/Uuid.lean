import Saasmint.Python.Value

/-!
# UUIDs as text

`str(id)` of a UUID, which `UUID(text)` reads back: the identifiers of users,
orgs and products travel as text through Stripe's metadata.
-/

namespace Saasmint

def hexDigit (n : ℕ) : Char := "0123456789abcdef".toList.getD n '0'

/-- The hexadecimal digits of a UUID. -/
def hexDigits (id : UUID) : List Char :=
  (List.range 32).map fun i => hexDigit (id.toNat / 16 ^ (31 - i) % 16)

/-- Groups of 8, 4, 4, 4 and 12 digits. -/
def hyphenated (hex : List Char) : List Char :=
  hex.take 8 ++ '-' :: (hex.drop 8).take 4 ++ '-' :: (hex.drop 12).take 4 ++
    '-' :: (hex.drop 16).take 4 ++ '-' :: hex.drop 20

/-- `str(id)`. -/
def uuidText (id : UUID) : String := String.ofList (hyphenated (hexDigits id))

/-! ## Scanning -/

theorem hexDigit?_hexDigit {n : ℕ} (h : n < 16) : hexDigit? (hexDigit n) = some n := by
  have hall : ∀ m : Fin 16, hexDigit? (hexDigit m) = some m.val := by decide
  exact hall ⟨n, h⟩

theorem hexDigit_mem {n : ℕ} (h : n < 16) : hexDigit n ∈ "0123456789abcdef".toList := by
  have hall : ∀ m : Fin 16, hexDigit m ∈ "0123456789abcdef".toList := by decide
  exact hall ⟨n, h⟩

theorem eraseAll_of_not_mem {c : Char} (pat : List Char) {cs : List Char} (h : c ∉ cs)
    (fuel : ℕ) : eraseAll (c :: pat) fuel cs = cs := by
  induction fuel generalizing cs with
  | zero => rfl
  | succ fuel ih =>
      cases cs with
      | nil => rfl
      | cons d cs =>
          have hne : ¬ c = d := fun hsame => h (hsame ▸ List.mem_cons_self)
          have hrest : c ∉ cs := fun hmem => h (List.mem_cons_of_mem d hmem)
          have hprefix : (c :: pat).isPrefixOf (d :: cs) = false := by
            simp [List.isPrefixOf, hne]
          rw [eraseAll, hprefix]
          simp [ih hrest]

theorem eraseAll_char (c : Char) {cs : List Char} {fuel : ℕ} (h : cs.length ≤ fuel) :
    eraseAll [c] fuel cs = cs.filter (· != c) := by
  induction fuel generalizing cs with
  | zero =>
      rw [List.length_eq_zero_iff.mp (Nat.le_zero.mp h)]
      rfl
  | succ fuel ih =>
      cases cs with
      | nil => rfl
      | cons d cs =>
          have hrest : cs.length ≤ fuel := by simpa using h
          by_cases hd : d = c
          · subst hd
            simp [eraseAll, List.isPrefixOf, ih hrest]
          · have hne : ¬ c = d := fun hsame => hd hsame.symm
            simp [eraseAll, List.isPrefixOf, ih hrest, hne, hd]

theorem dropWhile_of_not {p : Char → Bool} {cs : List Char} (h : ∀ c ∈ cs, p c = false) :
    cs.dropWhile p = cs := by
  cases cs with
  | nil => rfl
  | cons c cs => simp [List.dropWhile, h c List.mem_cons_self]

theorem strip_of_not_mem {chars cs : List Char} (h : ∀ c ∈ cs, c ∉ chars) :
    strip chars cs = cs := by
  have hnone : ∀ c ∈ cs, chars.contains c = false := by
    intro c hc
    simpa using h c hc
  unfold strip
  rw [dropWhile_of_not hnone, dropWhile_of_not fun c hc => hnone c (List.mem_reverse.mp hc),
    List.reverse_reverse]

theorem foldl_digits (k x : ℕ) :
    ((List.range k).map fun i => x / 16 ^ (k - 1 - i) % 16).foldl (fun n d => 16 * n + d) 0 =
      x % 16 ^ k := by
  induction k generalizing x with
  | zero => simp [Nat.mod_one]
  | succ k ih =>
      have hshift : (List.range k).map (fun i => x / 16 ^ (k + 1 - 1 - i) % 16) =
          (List.range k).map fun i => x / 16 / 16 ^ (k - 1 - i) % 16 := by
        refine List.map_congr_left fun i hi => ?_
        rw [List.mem_range] at hi
        have hexp : k + 1 - 1 - i = (k - 1 - i) + 1 := by omega
        rw [hexp, Nat.pow_succ, Nat.mul_comm, ← Nat.div_div_eq_div_mul]
      rw [List.range_succ, List.map_append, hshift, List.foldl_append, ih]
      have hmod := Nat.mod_mul (a := 16) (b := 16 ^ k) (x := x)
      simp only [List.map_cons, List.map_nil, List.foldl_cons, List.foldl_nil]
      rw [Nat.pow_succ, Nat.mul_comm (16 ^ k), hmod]
      simp
      omega

/-! ## Round trip -/

theorem hexDigits_mem {id : UUID} {c : Char} (hc : c ∈ hexDigits id) :
    c ∈ "0123456789abcdef".toList := by
  obtain ⟨i, _, rfl⟩ := List.mem_map.mp hc
  exact hexDigit_mem (Nat.mod_lt _ (by decide))

theorem mem_hyphenated {hex : List Char} {c : Char} (hc : c ∈ hyphenated hex) :
    c ∈ hex ∨ c = '-' := by
  simp only [hyphenated, List.mem_append, List.mem_cons] at hc
  rcases hc with (((h | rfl | h) | rfl | h) | rfl | h) | rfl | h
  · exact Or.inl (List.mem_of_mem_take h)
  · exact Or.inr rfl
  · exact Or.inl (List.mem_of_mem_drop (List.mem_of_mem_take h))
  · exact Or.inr rfl
  · exact Or.inl (List.mem_of_mem_drop (List.mem_of_mem_take h))
  · exact Or.inr rfl
  · exact Or.inl (List.mem_of_mem_drop (List.mem_of_mem_take h))
  · exact Or.inr rfl
  · exact Or.inl (List.mem_of_mem_drop h)

theorem filter_hyphenated {hex : List Char} (h : '-' ∉ hex) :
    (hyphenated hex).filter (· != '-') = hex := by
  have hkeep : ∀ cs : List Char, cs ⊆ hex → cs.filter (· != '-') = cs := by
    intro cs hsub
    refine List.filter_eq_self.mpr fun c hc => ?_
    have hne : c ≠ '-' := fun hsame => h (hsame ▸ hsub hc)
    simpa using hne
  have hmiddle : ∀ m n, ((hex.drop m).take n).filter (· != '-') = (hex.drop m).take n :=
    fun m n => hkeep _ fun c hc => List.mem_of_mem_drop (List.mem_of_mem_take hc)
  have hfirst := hkeep (hex.take 8) fun c hc => List.mem_of_mem_take hc
  have hlast := hkeep (hex.drop 20) fun c hc => List.mem_of_mem_drop hc
  have hhyphen : ('-' != '-') = false := by decide
  simp only [hyphenated, List.filter_append, List.filter_cons, hfirst, hmiddle, hlast, hhyphen,
    Bool.false_eq_true, if_false]
  have hjoin : ∀ m, (hex.drop m).take 4 ++ hex.drop (m + 4) = hex.drop m := by
    intro m
    rw [← List.drop_drop]
    exact List.take_append_drop 4 _
  rw [List.append_assoc, List.append_assoc, List.append_assoc, hjoin 16, hjoin 12, hjoin 8]
  exact List.take_append_drop 8 hex

theorem hexDigits_mapM (id : UUID) : (hexDigits id).mapM hexDigit? =
    some ((List.range 32).map fun i => id.toNat / 16 ^ (32 - 1 - i) % 16) := by
  unfold hexDigits
  rw [List.mapM_map]
  have hsome : ∀ is : List ℕ,
      is.mapM (hexDigit? ∘ fun i => hexDigit (id.toNat / 16 ^ (31 - i) % 16)) =
        some (is.map fun i => id.toNat / 16 ^ (32 - 1 - i) % 16) := by
    intro is
    induction is with
    | nil => rfl
    | cons i is ih =>
        have hdigit : (hexDigit? ∘ fun i => hexDigit (id.toNat / 16 ^ (31 - i) % 16)) i =
            some (id.toNat / 16 ^ (31 - i) % 16) := hexDigit?_hexDigit (Nat.mod_lt _ (by decide))
        rw [List.mapM_cons, hdigit, ih]
        rfl
  exact hsome _

/-- A UUID is read back from its text. -/
theorem parseUuid_uuidText (id : UUID) : parseUuid (uuidText id) = .ok id := by
  have htext : ∀ c ∈ hyphenated (hexDigits id), c ∈ "0123456789abcdef-".toList := by
    intro c hc
    rcases mem_hyphenated hc with hhex | rfl
    · have hsub := hexDigits_mem hhex
      simp at hsub ⊢
      tauto
    · decide
  have habsent : ∀ c ∈ ['u', '{', '}'], c ∉ hyphenated (hexDigits id) := by
    have hnone : ∀ c ∈ ['u', '{', '}'], c ∉ "0123456789abcdef-".toList := by simp
    exact fun c hc hmem => hnone c hc (htext c hmem)
  have hhyphen : '-' ∉ hexDigits id := fun hmem => absurd (hexDigits_mem hmem) (by decide)
  have hbraces : ∀ c ∈ hyphenated (hexDigits id), c ∉ ['{', '}'] := by
    intro c hc hbrace
    exact habsent c (List.mem_cons_of_mem _ hbrace) hc
  have hhex : erase "-" (strip ['{', '}'] (erase "uuid:" (erase "urn:" (uuidText id).toList))) =
      hexDigits id := by
    have hu := habsent 'u' List.mem_cons_self
    have hall : ∀ pat fuel, eraseAll ('u' :: pat) fuel (hyphenated (hexDigits id)) =
        hyphenated (hexDigits id) := fun pat fuel => eraseAll_of_not_mem pat hu fuel
    have hurn : "urn:".toList = 'u' :: ['r', 'n', ':'] := rfl
    have huuid : "uuid:".toList = 'u' :: ['u', 'i', 'd', ':'] := rfl
    have hdash : "-".toList = ['-'] := rfl
    simp only [uuidText, erase, String.toList_ofList, hurn, huuid, hdash, hall]
    rw [strip_of_not_mem hbraces, eraseAll_char _ (Nat.le_refl _), filter_hyphenated hhyphen]
  have hlength : (hexDigits id).length = 32 := by simp [hexDigits]
  unfold parseUuid
  rw [hhex]
  dsimp only
  rw [if_pos hlength, hexDigits_mapM]
  dsimp only
  rw [foldl_digits 32 id.toNat]
  have hlt : id.toNat % 16 ^ 32 = id.toNat := Nat.mod_eq_of_lt id.isLt
  rw [hlt, BitVec.ofNat_toNat, BitVec.setWidth_eq]

end Saasmint
