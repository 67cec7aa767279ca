import Saasmint.Python.Url

/-!
# Redirect URLs

`_validate_redirect_url` accepts a URL whose origin is in the list of origins or whose host
is one of the allowed hosts.  The origin is compared twice, once as it is written and once
without its port, so an entry without a port lets every port of its host through.
`acceptsListed_iff` says that this is all that goes wrong.
-/

namespace Saasmint

variable (lib : UrlLibrary)

structure RedirectSettings where
  corsAllowedOrigins : List String
  allowedHosts : List String
  corsAllowAllOrigins : Bool

/-- `_host_matchers`: the hosts that are compared as a whole, and the suffixes. -/
def hostMatchers (allowedHosts : List String) : List String × List String :=
  (allowedHosts.filter fun h => h ≠ "*" && h.toList.head? ≠ some '.',
    allowedHosts.filter fun h => h.toList.head? = some '.')

/-- `f"{scheme}://{rest}"`. -/
def originText (scheme rest : List Char) : String := String.ofList (scheme ++ "://".toList ++ rest)

/-- `origin_no_port`. -/
def ParseResult.originNoPort (parsed : ParseResult) : String :=
  if parsed.hostname lib ≠ [] then originText parsed.scheme (parsed.hostname lib)
  else originText parsed.scheme parsed.netloc

/-- `_validate_redirect_url`. -/
def validateRedirectUrl (settings : RedirectSettings) (url : String) : Py String := do
  let parsed ← urlparse lib url
  if parsed.scheme ∉ httpSchemes then
    throw (.validation "" "Only HTTP(S) redirect URLs are allowed.")
  else if settings.corsAllowAllOrigins then return url
  else
    let origin := originText parsed.scheme parsed.netloc
    let hostname := parsed.hostname lib
    let (exactHosts, suffixHosts) := hostMatchers settings.allowedHosts
    if origin ∈ settings.corsAllowedOrigins ∨
        parsed.originNoPort lib ∈ settings.corsAllowedOrigins then return url
    else if String.ofList hostname ∈ exactHosts then return url
    else if suffixHosts.any fun s => s.toList.isSuffixOf hostname then return url
    else throw (.validation "" "URL domain is not in the list of allowed origins.")

/-! ## Origins and hosts -/

/-- A scheme, a host and a port. -/
structure Origin where
  scheme : List Char
  host : List Char
  port : List Char
deriving DecidableEq, Repr

def ParseResult.origin (parsed : ParseResult) : Origin :=
  ⟨parsed.scheme, parsed.hostname lib, parsed.port⟩

/-- An entry of the list has this origin. -/
def OriginListed (origins : List String) (origin : Origin) : Prop :=
  ∃ entry ∈ origins, ∃ parsed, urlparse lib entry = .ok parsed ∧ parsed.origin lib = origin

/-- An entry of the list is the host, or a suffix of it that starts with a dot. -/
def HostAllowed (hosts : List String) (host : List Char) : Prop :=
  ∃ entry ∈ hosts, entry.toList = host ∨ (entry.toList.head? = some '.' ∧ entry.toList <:+ host)

/-- With the switch off, the URL is accepted only on a listed origin or an allowed host. -/
def AcceptsListed (origins hosts : List String) (url : String) : Prop :=
  ∀ accepted, validateRedirectUrl lib ⟨origins, hosts, false⟩ url = .ok accepted →
    ∃ parsed, urlparse lib url = .ok parsed ∧ parsed.scheme ∈ httpSchemes ∧
      (OriginListed lib origins (parsed.origin lib) ∨ HostAllowed hosts (parsed.hostname lib))

/-- If the list has the URL's scheme and host without a port, it has the URL's origin, or the
host is allowed by itself. -/
def PortsListed (origins hosts : List String) (url : String) : Prop :=
  ∀ parsed, urlparse lib url = .ok parsed → parsed.scheme ∈ httpSchemes → parsed.hostname lib ≠ [] →
    originText parsed.scheme (parsed.hostname lib) ∈ origins →
      OriginListed lib origins (parsed.origin lib) ∨ HostAllowed hosts (parsed.hostname lib)

variable {lib} {origins hosts : List String} {url : String} {parsed : ParseResult}

/-- An entry that is the URL's origin as it is written has its scheme, host and port. -/
theorem originListed_of_mem (hparsed : urlparse lib url = .ok parsed)
    (hscheme : parsed.scheme ∈ httpSchemes)
    (h : originText parsed.scheme parsed.netloc ∈ origins) :
    OriginListed lib origins (parsed.origin lib) := by
  obtain ⟨hchars, hbrackets, hnetloc⟩ := netloc_of_urlparse hparsed
  exact ⟨_, h, _, urlparse_origin hscheme hchars hbrackets hnetloc, rfl⟩

theorem hostAllowed_of_mem {host : List Char} (h : String.ofList host ∈ (hostMatchers hosts).1) :
    HostAllowed hosts host :=
  ⟨_, (List.mem_filter.mp h).1, Or.inl String.toList_ofList⟩

theorem hostAllowed_of_suffix {host : List Char}
    (h : (hostMatchers hosts).2.any (fun s => s.toList.isSuffixOf host) = true) :
    HostAllowed hosts host := by
  obtain ⟨entry, hentry, hsuffix⟩ := List.any_eq_true.mp h
  obtain ⟨hmem, hdot⟩ := List.mem_filter.mp hentry
  exact ⟨entry, hmem, Or.inr ⟨of_decide_eq_true hdot, List.isSuffixOf_iff_suffix.mp hsuffix⟩⟩

/-- An accepted URL is of the web, and one of the comparisons has let it through. -/
theorem accepted_cases {accepted : String}
    (h : validateRedirectUrl lib ⟨origins, hosts, false⟩ url = .ok accepted) :
    ∃ parsed, urlparse lib url = .ok parsed ∧ parsed.scheme ∈ httpSchemes ∧
      (originText parsed.scheme parsed.netloc ∈ origins ∨
        (parsed.hostname lib ≠ [] ∧ originText parsed.scheme (parsed.hostname lib) ∈ origins) ∨
        HostAllowed hosts (parsed.hostname lib)) := by
  unfold validateRedirectUrl at h
  obtain ⟨parsed, hparsed, h⟩ := bind_eq_ok.mp h
  refine ⟨parsed, hparsed, ?_⟩
  split at h
  next => cases h
  next hscheme =>
    refine ⟨not_not.mp hscheme, ?_⟩
    rw [if_neg Bool.false_ne_true] at h
    dsimp only at h
    split at h
    next horigin =>
      rcases horigin with horigin | hstripped
      · exact Or.inl horigin
      · unfold ParseResult.originNoPort at hstripped
        split at hstripped
        next hhost => exact Or.inr (Or.inl ⟨hhost, hstripped⟩)
        next => exact Or.inl hstripped
    next =>
      split at h
      next hexact => exact Or.inr (Or.inr (hostAllowed_of_mem hexact))
      next =>
        split at h
        next hsuffix => exact Or.inr (Or.inr (hostAllowed_of_suffix hsuffix))
        next => cases h

/-- A listed scheme and host let the URL through, whatever its port. -/
theorem accepted_of_stripped (hparsed : urlparse lib url = .ok parsed)
    (hscheme : parsed.scheme ∈ httpSchemes) (hhost : parsed.hostname lib ≠ [])
    (h : originText parsed.scheme (parsed.hostname lib) ∈ origins) :
    validateRedirectUrl lib ⟨origins, hosts, false⟩ url = .ok url := by
  unfold validateRedirectUrl
  rw [hparsed, ok_bind, if_neg (not_not.mpr hscheme), if_neg Bool.false_ne_true]
  dsimp only
  have hstripped : parsed.originNoPort lib ∈ origins := by
    rw [ParseResult.originNoPort, if_pos hhost]
    exact h
  rw [if_pos (Or.inr hstripped)]
  rfl

/-- **The check holds** exactly where a scheme and host that are listed without a port do not
stand for another port. -/
theorem acceptsListed_iff (lib : UrlLibrary) (origins hosts : List String) (url : String) :
    AcceptsListed lib origins hosts url ↔ PortsListed lib origins hosts url := by
  constructor
  · intro haccepts parsed hparsed hscheme hhost hstripped
    obtain ⟨parsed', hparsed', -, hallowed⟩ :=
      haccepts url (accepted_of_stripped hparsed hscheme hhost hstripped)
    obtain rfl := Except.ok.inj (hparsed.symm.trans hparsed')
    exact hallowed
  · intro hports accepted haccepted
    obtain ⟨parsed, hparsed, hscheme, hcases⟩ := accepted_cases haccepted
    refine ⟨parsed, hparsed, hscheme, ?_⟩
    rcases hcases with horigin | ⟨hhost, hstripped⟩ | hallowed
    · exact Or.inl (originListed_of_mem hparsed hscheme horigin)
    · exact hports parsed hparsed hscheme hhost hstripped
    · exact Or.inr hallowed

theorem not_acceptsListed : ¬ AcceptsListed asciiLibrary ["https://app.example.com"]
    ["api.example.com"] "https://app.example.com:9999/phish" := by
  intro haccepts
  obtain ⟨parsed, hparsed, -, hallowed⟩ := haccepts "https://app.example.com:9999/phish" rfl
  obtain rfl := Except.ok.inj hparsed
  rcases hallowed with ⟨entry, hentry, listed, hlisted, horigin⟩ | ⟨entry, hentry, hhost⟩
  · obtain rfl := List.mem_singleton.mp hentry
    obtain rfl := Except.ok.inj hlisted
    revert horigin
    decide
  · obtain rfl := List.mem_singleton.mp hentry
    revert hhost
    decide

end Saasmint
