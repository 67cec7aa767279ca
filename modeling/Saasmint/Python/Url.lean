import Mathlib.Data.List.TakeDrop
import Mathlib.Data.List.TakeWhile
import Saasmint.Python.Value

/-!
# URLs

`urllib.parse.urlparse`, over all texts: leading controls and blanks go, and so do tabs and
newlines anywhere; what stands before the first colon is the scheme if it can be one; the
authority runs from `//` to the first `/`, `?` or `#`.  Nothing is decoded.

The host of an authority is what follows its last `@`, up to the first colon, in lower
case.  An address in brackets may contain colons.

The texts that make up a URL are lists of characters.  Which texts are IPv6 addresses,
`unicodedata.normalize` and `str.lower` beyond ASCII are the fields of a `UrlLibrary`.
-/

namespace Saasmint

/-- What the parser leaves to other modules. -/
structure UrlLibrary where
  /-- `str.lower`. -/
  lower : List Char → List Char
  /-- `unicodedata.normalize("NFKC", text)`. -/
  nfkc : List Char → List Char
  /-- `_check_bracketed_host`: the text is an IPv6 address, or one of a future version. -/
  checkBracketedHost : List Char → Py Unit

/-- The result of `urlparse`. -/
structure ParseResult where
  scheme : List Char
  netloc : List Char
  path : List Char
  params : List Char
  query : List Char
  fragment : List Char
deriving DecidableEq, Repr

/-- A library for ASCII texts without addresses in brackets. -/
def asciiLibrary : UrlLibrary where
  lower text := text.map Char.toLower
  nfkc text := text
  checkBracketedHost _ := .error (.valueError "does not appear to be an IPv4 or IPv6 address")

/-! ## Splitting -/

/-- `text.partition(sep)`: what stands before the first separator, whether there is one, and
what stands after it. -/
def partition (sep : Char) (text : List Char) : List Char × Bool × List Char :=
  match text.span (· ≠ sep) with
  | (before, []) => (before, false, [])
  | (before, _ :: after) => (before, true, after)

/-- `text.rpartition(sep)[2]`. -/
def afterLast (sep : Char) (text : List Char) : List Char :=
  (text.reverse.takeWhile (· ≠ sep)).reverse

/-- `scheme_chars`. -/
def isSchemeChar (c : Char) : Bool := c.isAlphanum || c == '+' || c == '-' || c == '.'

/-- The scheme, if the text starts with one, and the rest. -/
def splitScheme (url : List Char) : List Char × List Char :=
  match url.span (· ≠ ':') with
  | (c :: cs, _ :: rest) =>
      if c.isAlpha && (c :: cs).all isSchemeChar then ((c :: cs).map Char.toLower, rest)
      else ([], url)
  | _ => ([], url)

def isNetlocDelimiter (c : Char) : Bool := c == '/' || c == '?' || c == '#'

/-- The authority, if there is one, and the rest. -/
def splitNetloc : List Char → List Char × List Char
  | '/' :: '/' :: rest => rest.span fun c => !isNetlocDelimiter c
  | url => ([], url)

/-- `uses_params`. -/
def schemesUsingParams : List String :=
  ["", "ftp", "hdl", "prospero", "http", "https", "shttp", "rtsp", "rtsps", "rtspu", "sip",
    "sips", "mms", "sftp", "tel"]

/-- `_splitparams`: the parameters of the last segment. -/
def splitParams (path : List Char) : List Char × List Char :=
  let last := afterLast '/' path
  let (before, _, params) := partition ';' last
  (path.take (path.length - last.length) ++ before, params)

/-! ## Checks -/

section Checks

variable (lib : UrlLibrary)

/-- `_check_bracketed_netloc`. -/
def checkBracketedNetloc (netloc : List Char) : Py Unit :=
  let hostnameAndPort := afterLast '@' netloc
  match partition '[' hostnameAndPort with
  | (before, true, bracketed) =>
      let (hostname, _, port) := partition ']' bracketed
      if before ≠ [] ∨ (port ≠ [] ∧ port.head? ≠ some ':') then
        .error (.valueError "Invalid IPv6 URL")
      else lib.checkBracketedHost hostname
  | _ => lib.checkBracketedHost (partition ':' hostnameAndPort).1

def checkBrackets (netloc : List Char) : Py Unit :=
  if netloc.contains '[' ≠ netloc.contains ']' then .error (.valueError "Invalid IPv6 URL")
  else if netloc.contains '[' then checkBracketedNetloc lib netloc
  else .ok ()

/-- `_checknetloc`. -/
def checkNetloc (netloc : List Char) : Py Unit :=
  let n := netloc.filter fun c => !(c == '@' || c == ':' || c == '#' || c == '?')
  if netloc.all (·.toNat < 128) ∨ lib.nfkc n = n then .ok ()
  else if (lib.nfkc n).any fun c => c == '/' || c == '?' || c == '#' || c == '@' || c == ':' then
    .error (.valueError ("netloc '" ++ String.ofList netloc ++ "' contains invalid characters" ++
      " under NFKC normalization"))
  else .ok ()

end Checks

/-! ## Parsing -/

/-- What is read of a text: no controls or blanks in front, no tabs and newlines. -/
def cleanUrl (url : List Char) : List Char :=
  (url.dropWhile (·.toNat ≤ 32)).filter fun c => !(c == '\t' || c == '\r' || c == '\n')

variable (lib : UrlLibrary)

def urlparse (url : String) : Py ParseResult := do
  let (scheme, rest) := splitScheme (cleanUrl url.toList)
  let (netloc, rest) := splitNetloc rest
  checkBrackets lib netloc
  let (rest, _, fragment) := partition '#' rest
  let (path, _, query) := partition '?' rest
  checkNetloc lib netloc
  let (path, params) :=
    if schemesUsingParams.contains (String.ofList scheme) then splitParams path else (path, [])
  return { scheme, netloc, path, params, query, fragment }

namespace ParseResult

/-- `_hostinfo`: the host and the port of the authority. -/
def hostinfo (parsed : ParseResult) : List Char × List Char :=
  let info := afterLast '@' parsed.netloc
  match partition '[' info with
  | (_, true, bracketed) =>
      let (hostname, _, port) := partition ']' bracketed
      let (_, _, port) := partition ':' port
      (hostname, port)
  | _ =>
      let (hostname, _, port) := partition ':' info
      (hostname, port)

/-- `parsed.hostname or ""`: the zone of an IPv6 address keeps its case. -/
def hostname (parsed : ParseResult) : List Char :=
  let (host, zoned, zone) := partition '%' parsed.hostinfo.1
  if parsed.hostinfo.1 = [] then [] else lib.lower host ++ (if zoned then '%' :: zone else [])

/-- The port as it is written; empty if there is none. -/
def port (parsed : ParseResult) : List Char := parsed.hostinfo.2

end ParseResult

/-! ## What a parsed authority is -/

/-- A character of an authority is no delimiter, and nothing that is dropped. -/
def isNetlocChar (c : Char) : Bool :=
  !isNetlocDelimiter c && !(c == '\t' || c == '\r' || c == '\n')

variable {lib : UrlLibrary}

theorem mem_splitScheme {url : List Char} {c : Char} (h : c ∈ (splitScheme url).2) : c ∈ url := by
  unfold splitScheme at h
  split at h
  next first cs sep rest hsplit =>
    split at h
    · rw [List.span_eq_takeWhile_dropWhile, Prod.mk.injEq] at hsplit
      refine (List.dropWhile_sublist (· ≠ ':')).subset ?_
      rw [hsplit.2]
      exact List.mem_cons_of_mem _ h
    · exact h
  next => exact h

theorem mem_splitNetloc {url : List Char} {c : Char} (h : c ∈ (splitNetloc url).1) :
    c ∈ url ∧ isNetlocDelimiter c = false := by
  unfold splitNetloc at h
  split at h
  next rest =>
    rw [List.span_eq_takeWhile_dropWhile] at h
    have hmem : c ∈ rest := (List.takeWhile_sublist _).subset h
    refine ⟨List.mem_cons_of_mem _ (List.mem_cons_of_mem _ hmem), ?_⟩
    simpa using List.mem_takeWhile_imp h
  next => cases h

/-- The authority of a parsed URL consists of its characters and has passed the checks. -/
theorem netloc_of_urlparse {url : String} {parsed : ParseResult}
    (h : urlparse lib url = .ok parsed) : (∀ c ∈ parsed.netloc, isNetlocChar c = true) ∧
      checkBrackets lib parsed.netloc = .ok () ∧ checkNetloc lib parsed.netloc = .ok () := by
  unfold urlparse at h
  dsimp only at h
  obtain ⟨_, hbrackets, h⟩ := bind_eq_ok.mp h
  obtain ⟨_, hnetloc, h⟩ := bind_eq_ok.mp h
  obtain rfl := Except.ok.inj h
  refine ⟨fun c hc => ?_, hbrackets, hnetloc⟩
  obtain ⟨hmem, hdelimiter⟩ := mem_splitNetloc hc
  have hclean := (List.mem_filter.mp (mem_splitScheme hmem)).2
  rw [isNetlocChar, hdelimiter]
  exact hclean

/-- The schemes of the web. -/
def httpSchemes : List (List Char) := ["http".toList, "https".toList]

/-- An authority with its scheme is parsed into the two. -/
theorem urlparse_origin {scheme netloc : List Char} (hscheme : scheme ∈ httpSchemes)
    (hchars : ∀ c ∈ netloc, isNetlocChar c = true) (hbrackets : checkBrackets lib netloc = .ok ())
    (hnetloc : checkNetloc lib netloc = .ok ()) :
    urlparse lib (String.ofList (scheme ++ "://".toList ++ netloc)) =
      .ok ⟨scheme, netloc, [], [], [], []⟩ := by
  have hdelimiter : ∀ c ∈ netloc, (!isNetlocDelimiter c) = true := fun c hc =>
    (Bool.and_eq_true _ _ ▸ hchars c hc).1
  have hkept : netloc.filter (fun c => !(c == '\t' || c == '\r' || c == '\n')) = netloc :=
    List.filter_eq_self.mpr fun c hc => (Bool.and_eq_true _ _ ▸ hchars c hc).2
  have hclean : cleanUrl (scheme ++ "://".toList ++ netloc) = scheme ++ ':' :: '/' :: '/' :: netloc := by
    rcases List.mem_pair.mp hscheme with rfl | rfl
    · exact congrArg ("http://".toList ++ ·) hkept
    · exact congrArg ("https://".toList ++ ·) hkept
  have hsplit : splitScheme (scheme ++ ':' :: '/' :: '/' :: netloc) = (scheme, '/' :: '/' :: netloc) := by
    rcases List.mem_pair.mp hscheme with rfl | rfl
    · rfl
    · rfl
  have hauthority : splitNetloc ('/' :: '/' :: netloc) = (netloc, []) := by
    show netloc.span _ = _
    rw [List.span_eq_takeWhile_dropWhile, List.takeWhile_eq_self_iff.mpr hdelimiter,
      List.dropWhile_eq_nil_iff.mpr hdelimiter]
  unfold urlparse
  rw [String.toList_ofList, hclean, hsplit]
  dsimp only
  rw [hauthority]
  dsimp only
  rw [hbrackets, hnetloc]
  rcases List.mem_pair.mp hscheme with rfl | rfl
  · rfl
  · rfl

end Saasmint
