import Mathlib.Data.List.DropRight
import Saasmint.Library.Search
import Saasmint.Orgs.Checkout

/-!
# Slugs

`generate_unique_slug` turns the name of an org into a slug that no org has.  The slug is
made of letters, digits and hyphens whatever `slugify` returns, as the function filters and
strips again, and it is free whatever the stored slugs are, as it counts up until it is.

It is not cut to the column.  Normalising can lengthen a name, and so does a suffix.
`good_slug_iff` says for which names and stored slugs the result fits.
-/

namespace Saasmint

variable {slugify : String → String} {name base : String} {slugs : List String}

/-! ## What a slug should be -/

def isLetterOrDigit (c : Char) : Bool := ('a' ≤ c && c ≤ 'z') || ('0' ≤ c && c ≤ '9')

/-- `[a-z0-9]`, or `[a-z0-9][a-z0-9-]*[a-z0-9]`. -/
structure SlugShape (slug : String) : Prop where
  chars : ∀ c ∈ slug.toList, isSlugChar c = true
  first : slug.toList.head?.any isLetterOrDigit = true
  last : slug.toList.getLast?.any isLetterOrDigit = true

/-- A slug that an org can get, besides those that are stored. -/
structure GoodSlug (slugs : List String) (slug : String) : Prop extends SlugShape slug where
  fresh : slug ∉ slugs
  fits : fitsVarchar 255 slug = true

/-- `f"{base}-{suffix}"`. -/
def suffixed (base : String) (suffix : ℕ) : String := base ++ "-" ++ toString suffix

/-- The loop of `generate_unique_slug`, from a suffix on to the one it ends at. -/
def SuffixLoop (base : String) (slugs : List String) : ℕ → ℕ → Prop :=
  Counting.Ends fun n => (slugs.filter (isVariant base)).contains (suffixed base n)

/-- `generate_unique_slug` ends and returns `slug`. -/
inductive Generates (slugify : String → String) (name : String) (slugs : List String) :
    String → Prop
  | free (h : baseSlug slugify name ∉ slugs.filter (isVariant (baseSlug slugify name))) :
      Generates slugify name slugs (baseSlug slugify name)
  | taken {suffix : ℕ} (h : baseSlug slugify name ∈ slugs.filter (isVariant (baseSlug slugify name)))
      (loop : SuffixLoop (baseSlug slugify name) slugs 2 suffix) :
      Generates slugify name slugs (suffixed (baseSlug slugify name) suffix)

/-- The slug of the name fits the column, and where it is taken, one of the suffixes that
leave room for it is free. -/
def SlugFits (slugify : String → String) (name : String) (slugs : List String) : Prop :=
  (baseSlug slugify name).toList.length ≤ 255 ∧ (baseSlug slugify name ∈ slugs →
    ∃ suffix, 2 ≤ suffix ∧ suffix < 10 ^ (254 - (baseSlug slugify name).toList.length) ∧
      suffixed (baseSlug slugify name) suffix ∉ slugs)

/-! ## Suffixes -/

theorem toList_suffixed (base : String) (suffix : ℕ) :
    (suffixed base suffix).toList = base.toList ++ '-' :: Nat.toDigits 10 suffix := by
  simp [suffixed]

theorem suffixed_injective (base : String) : Function.Injective (suffixed base) := by
  intro m n h
  have hlist : base.toList ++ '-' :: Nat.toDigits 10 m = base.toList ++ '-' :: Nat.toDigits 10 n := by
    rw [← toList_suffixed, h, toList_suffixed]
  have hdigits : Nat.toDigits 10 m = Nat.toDigits 10 n := by simpa using hlist
  rw [← Nat.ofDigitChars_ten_toDigits (n := m), hdigits, Nat.ofDigitChars_ten_toDigits]

/-- A hyphen and a suffix fit behind a base with room for as many digits. -/
theorem fits_suffixed {suffix : ℕ} (h : 0 < suffix) :
    fitsVarchar 255 (suffixed base suffix) = true
      ↔ suffix < 10 ^ (254 - base.toList.length) := by
  unfold fitsVarchar
  rw [decide_eq_true_eq, toList_suffixed, List.length_append, List.length_cons]
  have hpos : 0 < (Nat.toDigits 10 suffix).length := Nat.length_toDigits_pos
  by_cases hroom : base.toList.length < 254
  · rw [← Nat.length_toDigits_le_iff (by decide) (by omega)]
    omega
  · -- no room for a digit
    rw [show 254 - base.toList.length = 0 by omega]
    omega

theorem isDigit_iff {c : Char} : c.isDigit = true ↔ '0' ≤ c ∧ c ≤ '9' := by
  simp [Char.isDigit, Char.le_def, UInt32.le_iff_toNat_le]

theorem isVariant_self (base : String) : isVariant base base = true := by simp [isVariant]

theorem isVariant_suffixed (base : String) (suffix : ℕ) :
    isVariant base (suffixed base suffix) = true := by
  have hlist : (suffixed base suffix).toList
      = (base ++ "-").toList ++ Nat.toDigits 10 suffix := by simp [suffixed]
  have hdigits : ∀ c ∈ Nat.toDigits 10 suffix, '0' ≤ c ∧ c ≤ '9' := fun c hc =>
    isDigit_iff.mp (Nat.isDigit_of_mem_toDigits (by decide) (by decide) hc)
  have hstarts : (base ++ "-").toList.isPrefixOf (suffixed base suffix).toList = true := by
    rw [List.isPrefixOf_iff_prefix, hlist]
    exact List.prefix_append _ _
  have hdrop : (suffixed base suffix).toList.drop (base ++ "-").toList.length
      = Nat.toDigits 10 suffix := by rw [hlist, List.drop_left]
  unfold isVariant
  rw [hstarts, hdrop]
  have hsome : (Nat.toDigits 10 suffix).isEmpty = false := by
    rw [List.isEmpty_eq_false_iff]
    exact Nat.toDigits_ne_nil
  simpa [hsome] using Or.inr hdigits

theorem freeSuffix_eq_upFrom (existing : List String) (base : String) (fuel suffix : ℕ) :
    freeSuffix existing base fuel suffix
      = Counting.upFrom (fun n => existing.contains (suffixed base n)) fuel suffix := by
  induction fuel generalizing suffix with
  | zero => rfl
  | succ fuel ih =>
      unfold freeSuffix Counting.upFrom
      rw [ih]
      rfl

/-! ## The base -/

theorem isLetterOrDigit_of_ne {c : Char} (h : isSlugChar c = true) (hne : c ≠ '-') :
    isLetterOrDigit c = true := by
  unfold isSlugChar at h
  unfold isLetterOrDigit
  simpa [hne] using h

theorem isSlugChar_of_digit {c : Char} (h : c.isDigit = true) : isSlugChar c = true := by
  obtain ⟨hge, hle⟩ := isDigit_iff.mp h
  simp [isSlugChar, hge, hle]

theorem isLetterOrDigit_of_digit {c : Char} (h : c.isDigit = true) :
    isLetterOrDigit c = true := by
  obtain ⟨hge, hle⟩ := isDigit_iff.mp h
  simp [isLetterOrDigit, hge, hle]

theorem strip_sublist (chars cs : List Char) : (strip chars cs).Sublist cs := by
  have hright : (strip chars cs).Sublist (cs.dropWhile chars.contains) :=
    (List.rdropWhile_prefix _ (cs.dropWhile chars.contains)).sublist
  exact hright.trans (List.dropWhile_sublist _)

theorem last_strip {chars cs : List Char} {c : Char} (h : (strip chars cs).getLast? = some c) :
    c ∉ chars := by
  have hnot := List.head?_dropWhile_not chars.contains (cs.dropWhile chars.contains).reverse
  unfold strip at h
  rw [List.getLast?_reverse] at h
  rw [h] at hnot
  simpa using hnot

/-- Stripping the right end leaves the first character, unless it leaves none. -/
theorem first_strip {chars cs : List Char} {c : Char} (h : (strip chars cs).head? = some c) :
    c ∉ chars := by
  obtain ⟨rest, hrest⟩ : strip chars cs <+: cs.dropWhile chars.contains :=
    List.rdropWhile_prefix _ (cs.dropWhile chars.contains)
  have hfirst : (cs.dropWhile chars.contains).head? = some c := by
    rw [← hrest, List.head?_append, h]
    rfl
  have hnot := List.head?_dropWhile_not chars.contains cs
  rw [hfirst] at hnot
  simpa using hnot

theorem slugShape_org : SlugShape "org" where
  chars := by
    intro c hc
    obtain rfl | rfl | rfl : c = 'o' ∨ c = 'r' ∨ c = 'g' := by simpa using hc
    all_goals decide
  first := by decide
  last := by decide

/-- What is left of the name after the filter and the strip. -/
theorem slugShape_strip {cs : List Char} (h : strip ['-'] (cs.filter isSlugChar) ≠ []) :
    SlugShape (String.ofList (strip ['-'] (cs.filter isSlugChar))) := by
  have hchars : ∀ c ∈ strip ['-'] (cs.filter isSlugChar), isSlugChar c = true := fun c hc =>
    (List.mem_filter.mp ((strip_sublist _ _).subset hc)).2
  constructor
  · rwa [String.toList_ofList]
  · rw [String.toList_ofList]
    obtain ⟨c, hc⟩ := Option.ne_none_iff_exists'.mp (mt List.head?_eq_none_iff.mp h)
    rw [hc]
    exact isLetterOrDigit_of_ne (hchars c (List.mem_of_head? hc)) (by simpa using first_strip hc)
  · rw [String.toList_ofList]
    obtain ⟨c, hc⟩ := Option.ne_none_iff_exists'.mp (mt List.getLast?_eq_none_iff.mp h)
    rw [hc]
    exact isLetterOrDigit_of_ne (hchars c (List.mem_of_getLast? hc))
      (by simpa using last_strip hc)

theorem slugShape_base (slugify : String → String) (name : String) :
    SlugShape (baseSlug slugify name) := by
  unfold baseSlug
  dsimp only
  split
  · exact slugShape_org
  next hlength =>
    apply slugShape_strip
    rw [← List.length_pos_iff_ne_nil]
    omega

theorem SlugShape.suffixed (h : SlugShape base) (suffix : ℕ) :
    SlugShape (suffixed base suffix) := by
  have hdigit : ∀ c ∈ Nat.toDigits 10 suffix, c.isDigit = true := fun c hc =>
    Nat.isDigit_of_mem_toDigits (by decide) (by decide) hc
  constructor
  · rw [toList_suffixed]
    intro c hc
    rcases List.mem_append.mp hc with hbase | htail
    · exact h.chars c hbase
    · rcases List.mem_cons.mp htail with rfl | hsuffix
      · decide
      · exact isSlugChar_of_digit (hdigit c hsuffix)
  · have hfirst := h.first
    rw [toList_suffixed, List.head?_append]
    cases hhead : base.toList.head? with
    | none => simp [hhead] at hfirst
    | some c => simpa [hhead] using hfirst
  · obtain ⟨c, hc⟩ := Option.ne_none_iff_exists'.mp
      (mt List.getLast?_eq_none_iff.mp (Nat.toDigits_ne_nil (n := suffix) (b := 10)))
    rw [toList_suffixed, List.getLast?_append, List.getLast?_cons, hc]
    exact isLetterOrDigit_of_digit (hdigit c (List.mem_of_getLast? hc))

/-! ## What the generator returns -/

/-- Of one more suffix than there are slugs in the scan, one is free, so the bound of the
model is never what ends the loop. -/
theorem suffixLoop_freeSuffix (base : String) (slugs : List String) :
    SuffixLoop base slugs 2
      (freeSuffix (slugs.filter (isVariant base)) base (slugs.filter (isVariant base)).length 2) := by
  rw [freeSuffix_eq_upFrom]
  obtain ⟨k, hle, hge, hfree⟩ := Counting.exists_free (suffixed_injective base)
    (slugs.filter (isVariant base)) 2
  apply Counting.ends_upFrom
  exact ⟨k, hle, hge, by simpa using hfree⟩

/-- The suffix the loop ends at is the first that is free.  Slugs that are no variants of
the base are not in the scan, and none of them is a candidate. -/
theorem SuffixLoop.isLeast {suffix : ℕ} (h : SuffixLoop base slugs 2 suffix) :
    IsLeast {n | 2 ≤ n ∧ Saasmint.suffixed base n ∉ slugs} suffix := by
  have hleast := Counting.Ends.isLeast h
  simpa [isVariant_suffixed] using hleast

theorem generates_generateUniqueSlug (slugify : String → String) (name : String)
    (slugs : List String) :
    Generates slugify name slugs (generateUniqueSlug slugify name slugs) := by
  unfold generateUniqueSlug
  dsimp only
  split
  next htaken =>
    exact .taken (List.contains_iff_mem.mp htaken) (suffixLoop_freeSuffix _ slugs)
  next hfree => exact .free fun hmem => hfree (List.contains_iff_mem.mpr hmem)

theorem Generates.shape {slug : String} (h : Generates slugify name slugs slug) :
    SlugShape slug := by
  cases h with
  | free _ => exact slugShape_base slugify name
  | taken _ _ => exact (slugShape_base slugify name).suffixed _

theorem Generates.fresh {slug : String} (h : Generates slugify name slugs slug) :
    slug ∉ slugs := by
  cases h with
  | free h => simpa [isVariant_self] using h
  | taken _ loop => exact loop.isLeast.1.2

/-- A smaller suffix takes no more room, so the first free one fits if any does. -/
theorem Generates.fits_iff {slug : String} (h : Generates slugify name slugs slug) :
    fitsVarchar 255 slug = true ↔ SlugFits slugify name slugs := by
  unfold SlugFits
  cases h with
  | free h =>
      have hfree : baseSlug slugify name ∉ slugs := by simpa [isVariant_self] using h
      simp [fitsVarchar, hfree]
  | @taken suffix h loop =>
      have htaken : baseSlug slugify name ∈ slugs := (List.mem_filter.mp h).1
      obtain ⟨⟨htwo, hfree⟩, hleast⟩ := loop.isLeast
      rw [fits_suffixed (by omega)]
      constructor
      · intro hroom
        refine ⟨?_, fun _ => ⟨suffix, htwo, hroom, hfree⟩⟩
        by_contra hlong
        rw [show 254 - (baseSlug slugify name).toList.length = 0 by omega] at hroom
        omega
      · rintro ⟨-, hsome⟩
        obtain ⟨n, hn, hroom, hnfree⟩ := hsome htaken
        exact (hleast ⟨hn, hnfree⟩).trans_lt hroom

theorem Generates.good_iff {slug : String} (h : Generates slugify name slugs slug) :
    GoodSlug slugs slug ↔ SlugFits slugify name slugs := by
  rw [← h.fits_iff]
  constructor
  · intro hgood
    exact hgood.fits
  · intro hfits
    exact { h.shape with fresh := h.fresh, fits := hfits }

/-- The generator ends at a slug for every name and all stored slugs, and the slug is good
exactly if it fits. -/
theorem good_slug_iff (slugify : String → String) (name : String) (slugs : List String) :
    (Generates slugify name slugs (generateUniqueSlug slugify name slugs) ∧
        GoodSlug slugs (generateUniqueSlug slugify name slugs))
      ↔ SlugFits slugify name slugs := by
  have hgenerates := generates_generateUniqueSlug slugify name slugs
  rw [hgenerates.good_iff]
  exact and_iff_right hgenerates

/-! ## The slugify of Django -/

/-- `\s` of `re` within ASCII. -/
def isAsciiSpace (c : Char) : Bool :=
  c == ' ' || ('\t' ≤ c && c ≤ '\r') || ('\x1c' ≤ c && c ≤ '\x1f')

/-- `[^\w\s-]` is what is removed. -/
def isSlugifyChar (c : Char) : Bool := c.isAlphanum || c == '_' || c == '-' || isAsciiSpace c

/-- `re.sub(r"[-\s]+", "-", value)`, after a character of a run or not. -/
def collapseRuns : Bool → List Char → List Char
  | _, [] => []
  | inRun, c :: cs =>
      if c == '-' || isAsciiSpace c then
        if inRun then collapseRuns true cs else '-' :: collapseRuns true cs
      else c :: collapseRuns false cs

/-- `django.utils.text.slugify`.  `nfkd` is the decomposition of a character.  The reordering
of what it leaves concerns combining marks only, and none of them is ASCII. -/
def djangoSlugify (nfkd : Char → List Char) (value : String) : String :=
  let ascii := (value.toList.flatMap nfkd).filter fun c => c.val < 128
  let words := (ascii.map Char.toLower).filter isSlugifyChar
  String.ofList (strip ['-', '_'] (collapseRuns false words))

theorem length_collapseRuns_le (inRun : Bool) (cs : List Char) :
    (collapseRuns inRun cs).length ≤ cs.length := by
  induction cs generalizing inRun with
  | nil => rfl
  | cons c cs ih =>
      unfold collapseRuns
      have htrue := ih true
      have hfalse := ih false
      split_ifs <;> simp only [List.length_cons] <;> omega

theorem length_baseSlug_le (slugify : String → String) (name : String) :
    (baseSlug slugify name).toList.length ≤ max 3 (slugify name).toList.length := by
  have hstrip := (strip_sublist ['-'] ((slugify name).toList.filter isSlugChar)).length_le
  have hfilter := List.length_filter_le isSlugChar (slugify name).toList
  unfold baseSlug
  dsimp only
  split
  · exact le_max_left _ _
  · rw [String.toList_ofList]
    omega

/-- A name that the decomposition does not lengthen, such as one in ASCII, has a slug that
is no longer than it is, or than `org`. -/
theorem length_baseSlug_django_le {nfkd : Char → List Char} {name : String}
    (h : (name.toList.flatMap nfkd).length ≤ name.toList.length) :
    (baseSlug (djangoSlugify nfkd) name).toList.length ≤ max 3 name.toList.length := by
  refine (length_baseSlug_le _ name).trans (max_le_max_left 3 ?_)
  unfold djangoSlugify
  dsimp only
  rw [String.toList_ofList]
  have hstrip := (strip_sublist ['-', '_'] (collapseRuns false
    (List.filter isSlugifyChar (List.map Char.toLower
      ((name.toList.flatMap nfkd).filter fun c => c.val < 128))))).length_le
  refine hstrip.trans ((length_collapseRuns_le _ _).trans ?_)
  refine (List.length_filter_le _ _).trans ?_
  rw [List.length_map]
  exact (List.length_filter_le _ _).trans h

/-- Such a name gets a good slug as long as no org has the slug of the name. -/
theorem goodSlug_django {nfkd : Char → List Char} {name : String} {slugs : List String}
    (h : (name.toList.flatMap nfkd).length ≤ name.toList.length)
    (hname : fitsVarchar 255 name = true) (hfree : baseSlug (djangoSlugify nfkd) name ∉ slugs) :
    GoodSlug slugs (generateUniqueSlug (djangoSlugify nfkd) name slugs) := by
  rw [(generates_generateUniqueSlug (djangoSlugify nfkd) name slugs).good_iff]
  have hlength := length_baseSlug_django_le h
  unfold fitsVarchar at hname
  rw [decide_eq_true_eq] at hname
  exact ⟨by omega, fun htaken => absurd htaken hfree⟩

/-- `ffi` as one character decomposes to three. -/
def ligatures (c : Char) : List Char := if c = 'ﬃ' then ['f', 'f', 'i'] else [c]

/-- A name of 86 characters. -/
def ligatureName : String := String.ofList (List.replicate 86 'ﬃ')

theorem toList_ligatureName : ligatureName.toList = List.replicate 86 'ﬃ' := String.toList_ofList

theorem baseSlug_ligatureName : baseSlug (djangoSlugify ligatures) ligatureName
    = String.ofList (List.replicate 86 ['f', 'f', 'i']).flatten := by
  have hwords : strip ['-', '_'] (collapseRuns false ((List.map Char.toLower
      (((List.replicate 86 'ﬃ').flatMap ligatures).filter fun c => c.val < 128)).filter
        isSlugifyChar)) = (List.replicate 86 ['f', 'f', 'i']).flatten := by decide +kernel
  have hbase : strip ['-'] ((List.replicate 86 ['f', 'f', 'i']).flatten.filter isSlugChar)
      = (List.replicate 86 ['f', 'f', 'i']).flatten := by decide +kernel
  unfold baseSlug djangoSlugify
  simp only [toList_ligatureName, String.toList_ofList, hwords, hbase]
  exact if_neg (by decide +kernel)

/-- The slug of the first org has 258 characters. -/
theorem not_good_slug : ligatureName ≠ "" ∧ fitsVarchar 255 ligatureName = true ∧
    ¬ (Generates (djangoSlugify ligatures) ligatureName []
        (generateUniqueSlug (djangoSlugify ligatures) ligatureName []) ∧
      GoodSlug [] (generateUniqueSlug (djangoSlugify ligatures) ligatureName [])) := by
  refine ⟨?_, ?_, ?_⟩
  · intro h
    have hlist : List.replicate 86 'ﬃ' = [] := by
      rw [← toList_ligatureName, h, String.toList_empty]
    cases hlist
  · unfold fitsVarchar
    rw [toList_ligatureName, List.length_replicate]
    decide
  · rintro ⟨-, hgood⟩
    rw [(generates_generateUniqueSlug _ _ _).good_iff] at hgood
    have hlength := hgood.1
    rw [baseSlug_ligatureName, String.toList_ofList] at hlength
    revert hlength
    decide +kernel

end Saasmint
