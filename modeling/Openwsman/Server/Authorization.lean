import Openwsman.Authenticators.File
import Openwsman.Libu.Base64
import Openwsman.Server.Listener

/-!
# Who is served

`decide_what_to_do` passes a request on to `server_callback` if its URI is registered and
`_shttpd_check_authorization` accepts it. `create_shttpd_context` registers and protects the path of
the service and all paths below the one of the listener for indications.

A URI is protected if a protected path begins with it, not if it begins with a protected path. So
the service is protected, and no URI that the listener is registered for is.

The URI is what is left of it without query, decoded and without double dots. Strings are lists of
bytes without their terminator, and the header is followed by the end of its line.
-/

namespace Openwsman

open List FileAuth Base64

def ascii (s : String) : Bytes := s.toList.map Char.toUInt8

def colon : UInt8 := ':'.toUInt8

/-! ## Credentials -/

def lowerByte (c : UInt8) : UInt8 := if 'A'.toUInt8 ≤ c ∧ c ≤ 'Z'.toUInt8 then c + 32 else c

/-- `auth_vec->len > 10 && !strncasecmp(auth_vec->ptr, "Basic ", 6)`. -/
def isBasic (auth : Bytes) : Bool :=
  10 < auth.length && (auth.take 6).map lowerByte == ascii "basic "

def isBlankByte (c : UInt8) : Bool := c ∈ ascii " \t"

def endsToken (c : UInt8) : Bool := c ∈ ascii " \t\r\n" || c == 0

def beforeColon (s : CStr) : CStr :=
  s.sub (s.bytes.takeWhile (· != colon)) (takeWhile_sublist _).subset

def behindColon (s : CStr) : CStr :=
  s.sub (s.bytes.dropWhile (· != colon)).tail ((tail_sublist _).trans (dropWhile_sublist _)).subset

/-- The user name and the password of a header for Basic authentication. -/
def basicCredentials (auth : Bytes) : CResult (Option (CStr × CStr)) :=
  let text := ((auth.drop 5).dropWhile isBlankByte).takeWhile (!endsToken ·)
  if text.isEmpty then .value none
  else
    (wsBase64Decode text 4095).bind fun (l, buf) ↦
      if l = 0 then .value none
      else
        let buf := CStr.ofBuffer buf
        .value (if colon ∈ buf.bytes then some (beforeColon buf, behindColon buf) else none)

/-! ## Protected and registered URIs -/

/-- How a URI is protected. A digest is never accepted. -/
inductive UriAuthType where
  | basic (callback : CStr → CStr → Bool)
  | digest

structure UriAuth where
  uri : Bytes
  type : UriAuthType

def authorizeBasic (callback : CStr → CStr → Bool) (auth : Bytes) : CResult Bool :=
  if isBasic auth then
    (basicCredentials auth).bind fun credentials ↦
      .value (credentials.any fun (user, pwd) ↦ callback user pwd)
  else .value false

/-- The comparison runs over the length of the URI of the request. -/
def shttpdCheckAuthorization (uriAuths : List UriAuth) (uri auth : Bytes) : CResult Bool :=
  match uriAuths.find? fun a ↦ uri.isPrefixOf a.uri with
  | none => .value true
  | some ⟨_, .digest⟩ => .value false
  | some ⟨_, .basic callback⟩ => authorizeBasic callback auth

/-- The loop of `match_regexp` at a `*`. Behind it the text is read beyond its end. -/
def matchStar (matchRest : Bytes → CResult Bool) : Bytes → CResult Bool
  | [] => (matchRest []).bind fun found ↦ if found then .value true else .undefined
  | c :: text =>
    (matchRest (c :: text)).bind fun found ↦ if found then .value true else matchStar matchRest text

def matchRegexp : Bytes → Bytes → CResult Bool
  | [], text => .value text.isEmpty
  | r :: regexp, text =>
    if r = '*'.toUInt8 then matchStar (matchRegexp regexp) text
    else if text.head? = some r then matchRegexp regexp text.tail
    else .value false

def shttpdIsRegisteredUri (uri : Bytes) : List Bytes → CResult Bool
  | [] => .value false
  | regUri :: regUris =>
    (matchRegexp regUri uri).bind fun found ↦
      if found then .value true else shttpdIsRegisteredUri uri regUris

/-! ## The server -/

structure ServerOptions where
  servicePath : Bytes := ascii defaultServicePath
  digestPasswordFile : Bool
  basicCallback : Option (CStr → CStr → Bool)

/-- What is protected later comes first. -/
def protectUri (opts : ServerOptions) (uri : Bytes) (uriAuths : List UriAuth) : List UriAuth :=
  (opts.basicCallback.map fun callback ↦ ⟨uri, .basic callback⟩).toList ++
    ((if opts.digestPasswordFile then [⟨uri, .digest⟩] else []) ++ uriAuths)

def protectedUris (opts : ServerOptions) : List UriAuth :=
  protectUri opts (ascii defaultCimindicationPath) (protectUri opts opts.servicePath [])

def registeredUris (opts : ServerOptions) : List Bytes :=
  [opts.servicePath, ascii anonIdentifyPath, ascii (defaultCimindicationPath ++ "/*")]

inductive HttpDecision where
  | authorizationRequest | callback | forbidden
  deriving DecidableEq

def decideWhatToDo (opts : ServerOptions) (uri auth : Bytes) : CResult HttpDecision :=
  (shttpdCheckAuthorization (protectedUris opts) uri auth).bind fun authorized ↦
    if authorized then
      (shttpdIsRegisteredUri uri (registeredUris opts)).bind fun registered ↦
        .value (if registered then .callback else .forbidden)
    else .value .authorizationRequest

/-! ## Which requests are served -/

theorem matchRegexp_append {regexp : Bytes} (hstar : '*'.toUInt8 ∉ regexp) (rest text : Bytes) :
    matchRegexp (regexp ++ rest) text =
      if regexp <+: text then matchRegexp rest (text.drop regexp.length) else .value false := by
  induction regexp generalizing text with
  | nil => simp
  | cons r regexp ih =>
    rw [mem_cons, not_or] at hstar
    rw [cons_append, matchRegexp, if_neg (Ne.symm hstar.1)]
    cases text with
    | nil => simp
    | cons c text =>
      rw [head?_cons, tail_cons, ih hstar.2, length_cons, drop_succ_cons]
      simp only [cons_prefix_cons]
      split_ifs <;> simp_all

theorem matchRegexp_literal {regexp : Bytes} (hstar : '*'.toUInt8 ∉ regexp) (text : Bytes) :
    matchRegexp regexp text = .value (decide (text = regexp)) := by
  have happend := matchRegexp_append hstar [] text
  rw [append_nil] at happend
  rw [happend]
  split_ifs with hprefix
  · obtain ⟨rest, rfl⟩ := hprefix
    cases rest <;> simp [matchRegexp]
  · simp only [CResult.value.injEq, Bool.false_eq, decide_eq_false_iff_not]
    rintro rfl
    exact hprefix prefix_rfl

theorem matchStar_matchRegexp_nil (text : Bytes) :
    matchStar (matchRegexp []) text = .value true := by
  induction text with
  | nil => rfl
  | cons c text ih => rw [matchStar, ih]; rfl

theorem matchRegexp_below {path : Bytes} (hstar : '*'.toUInt8 ∉ path) (text : Bytes) :
    matchRegexp (path ++ ['*'.toUInt8]) text = .value (decide (path <+: text)) := by
  rw [matchRegexp_append hstar, matchRegexp, if_pos rfl, matchStar_matchRegexp_nil]
  split_ifs <;> simp_all

/-- The URIs that `create_shttpd_context` registers. -/
def Registered (opts : ServerOptions) (uri : Bytes) : Prop :=
  uri = opts.servicePath ∨ uri = ascii anonIdentifyPath ∨
    ascii (defaultCimindicationPath ++ "/") <+: uri

instance (opts : ServerOptions) (uri : Bytes) : Decidable (Registered opts uri) :=
  inferInstanceAs (Decidable (_ ∨ _ ∨ _))

variable {opts : ServerOptions} {callback : CStr → CStr → Bool}

theorem shttpdIsRegisteredUri_registeredUris (hstar : '*'.toUInt8 ∉ opts.servicePath)
    (uri : Bytes) :
    shttpdIsRegisteredUri uri (registeredUris opts) = .value (decide (Registered opts uri)) := by
  have hbelow : ascii (defaultCimindicationPath ++ "/*") =
      ascii (defaultCimindicationPath ++ "/") ++ ['*'.toUInt8] := by decide
  rw [registeredUris, hbelow]
  simp only [shttpdIsRegisteredUri, matchRegexp_literal hstar,
    matchRegexp_literal (show '*'.toUInt8 ∉ ascii anonIdentifyPath by decide),
    matchRegexp_below (show '*'.toUInt8 ∉ ascii (defaultCimindicationPath ++ "/") by decide),
    CResult.value_bind, Registered]
  split_ifs <;> simp_all

theorem shttpdCheckAuthorization_protectedUris (hcallback : opts.basicCallback = some callback)
    (uri auth : Bytes) :
    shttpdCheckAuthorization (protectedUris opts) uri auth =
      if uri <+: ascii defaultCimindicationPath ∨ uri <+: opts.servicePath then
        authorizeBasic callback auth
      else .value true := by
  rw [shttpdCheckAuthorization, protectedUris, protectUri, protectUri, hcallback]
  by_cases hcim : uri <+: ascii defaultCimindicationPath
  · simp [hcim]
  · by_cases hservice : uri <+: opts.servicePath <;> cases opts.digestPasswordFile <;>
      simp [hcim, hservice]

/-- **Which requests are served.** A registered URI needs credentials only if the path of the
service begins with it, so one below the path of the listener usually needs none. -/
theorem decideWhatToDo_eq_callback_iff (hstar : '*'.toUInt8 ∉ opts.servicePath)
    (hcallback : opts.basicCallback = some callback) (uri auth : Bytes) :
    decideWhatToDo opts uri auth = .value .callback ↔
      Registered opts uri ∧
        (uri <+: opts.servicePath → authorizeBasic callback auth = .value true) := by
  have hcim (h : uri <+: ascii defaultCimindicationPath) (hreg : Registered opts uri) :
      uri <+: opts.servicePath := by
    rcases hreg with rfl | rfl | hbelow
    · exact prefix_rfl
    · exact absurd h (by decide)
    · exact absurd (hbelow.trans h) (by decide)
  rw [decideWhatToDo, shttpdCheckAuthorization_protectedUris hcallback,
    shttpdIsRegisteredUri_registeredUris hstar]
  by_cases hreg : Registered opts uri
  · by_cases hprotected : uri <+: opts.servicePath
    · cases authorizeBasic callback auth with
      | undefined => simp [hprotected]
      | value b => cases b <;> simp [hprotected, hreg]
    · rw [if_neg fun h ↦ hprotected (h.elim (hcim · hreg) id)]
      simp [hprotected, hreg]
  · simp only [hreg, CResult.bind_eq_value, false_and, iff_false, not_exists, not_and]
    rintro (_ | _) - <;> simp

/-- An indication needs no credentials, whatever the authenticator says. -/
theorem decideWhatToDo_indication :
    decideWhatToDo { digestPasswordFile := true, basicCallback := some fun _ _ ↦ false }
      (ascii "/cimindicationlistener/1") [] = .value .callback :=
  (decideWhatToDo_eq_callback_iff (by decide) rfl _ _).mpr
    ⟨by decide, fun h ↦ absurd h (by decide)⟩

/-! ## Logging in -/

def credentials (user pwd : CStr) : Bytes := user.bytes ++ colon :: pwd.bytes

/-- The header of Basic authentication. -/
def basicHeader (user pwd : CStr) : Bytes := ascii "Basic " ++ canonical (credentials user pwd)

variable (user pwd : CStr)

theorem isBasic_basicHeader :
    isBasic (basicHeader user pwd) = decide (4 ≤ (credentials user pwd).length) := by
  have htake : ((basicHeader user pwd).take 6).map lowerByte = ascii "basic " := by
    rw [basicHeader, take_left' (by decide)]
    decide
  have hlength : 10 < (basicHeader user pwd).length ↔ 4 ≤ (credentials user pwd).length := by
    rw [basicHeader, length_append, length_canonical]
    have hbasic : (ascii "Basic ").length = 6 := by decide
    omega
  simp [isBasic, htake, hlength]

/-- No symbol of the encoding is skipped in front of the token or ends it. -/
theorem endsToken_of_stops {c : UInt8} (hc : stops c = false) :
    endsToken c = false ∧ isBlankByte c = false := by
  have hstops : (ascii " \t\r\n" ++ [0]).all stops = true := by decide
  have hnot : c ∉ ascii " \t\r\n" ++ [0] := by
    intro hmem
    rw [all_eq_true.mp hstops c hmem] at hc
    contradiction
  rw [mem_append, mem_singleton, not_or] at hnot
  have hblank : c ∉ ascii " \t" := fun h ↦ hnot.1 (mem_append_left (ascii "\r\n") h)
  simp [endsToken, isBlankByte, hnot, hblank]

theorem token_basicHeader : (((basicHeader user pwd).drop 5).dropWhile isBlankByte).takeWhile
    (!endsToken ·) = canonical (credentials user pwd) := by
  have htoken := stops_canonical (credentials user pwd)
  have hdrop : (basicHeader user pwd).drop 5 =
      ' '.toUInt8 :: canonical (credentials user pwd) := rfl
  rw [hdrop, dropWhile_cons_of_pos (by decide)]
  generalize canonical (credentials user pwd) = text at htoken
  rw [dropWhile_eq_self_iff.mpr, takeWhile_eq_self_iff.mpr]
  · intro x hx
    simp [endsToken_of_stops (htoken x hx)]
  · intro hpos
    simp [endsToken_of_stops (htoken _ (getElem_mem hpos))]

theorem split_credentials (hcolon : colon ∉ user.bytes) :
    let buf := CStr.ofBuffer (credentials user pwd)
    colon ∈ buf.bytes ∧ beforeColon buf = user ∧ behindColon buf = pwd := by
  have hbytes : (CStr.ofBuffer (credentials user pwd)).bytes = credentials user pwd := by
    have hnul : 0 ∉ credentials user pwd := by
      simp [credentials, user.noNul, pwd.noNul, show (0 : UInt8) ≠ colon by decide]
    rw [CStr.ofBuffer, takeWhile_eq_self_iff]
    exact fun c hc ↦ bne_iff_ne.mpr (ne_of_mem_of_not_mem hc hnul)
  have hbefore : ∀ c ∈ user.bytes, (c != colon) = true :=
    fun c hc ↦ bne_iff_ne.mpr (ne_of_mem_of_not_mem hc hcolon)
  have htake : (credentials user pwd).takeWhile (· != colon) = user.bytes := by
    rw [credentials, takeWhile_append_of_pos hbefore]
    simp
  have hdrop : (credentials user pwd).dropWhile (· != colon) = colon :: pwd.bytes := by
    rw [credentials, dropWhile_append_of_pos hbefore]
    simp
  simp only [beforeColon, behindColon, CStr.sub, hbytes, htake, hdrop, tail_cons, and_self,
    and_true]
  exact mem_append_right _ mem_cons_self

theorem basicCredentials_basicHeader (hcolon : colon ∉ user.bytes) :
    basicCredentials (basicHeader user pwd) =
      .value (if (credentials user pwd).length ≤ 4095 then some (user, pwd) else none) := by
  obtain ⟨hmem, huser, hpwd⟩ := split_credentials user pwd hcolon
  have hne : credentials user pwd ≠ [] := by simp [credentials]
  have hempty : (canonical (credentials user pwd)).isEmpty = false := by
    rw [isEmpty_eq_false_iff, ← length_pos_iff, length_canonical]
    have := length_pos_iff.mpr hne
    omega
  rw [basicCredentials, token_basicHeader, hempty, wsBase64Decode_canonical _ 1365]
  split_ifs <;> simp_all

/-- **Logging in.** Credentials in the encoding of RFC 4648 reach the authenticator as they are,
unless they have fewer than four bytes or more than 4095. -/
theorem decideWhatToDo_basicHeader (hstar : '*'.toUInt8 ∉ opts.servicePath)
    (hcallback : opts.basicCallback = some callback) (hcolon : colon ∉ user.bytes) :
    decideWhatToDo opts opts.servicePath (basicHeader user pwd) =
      .value (if 4 ≤ (credentials user pwd).length ∧ (credentials user pwd).length ≤ 4095 ∧
          callback user pwd then .callback else .authorizationRequest) := by
  rw [decideWhatToDo, shttpdCheckAuthorization_protectedUris hcallback, if_pos (.inr prefix_rfl),
    shttpdIsRegisteredUri_registeredUris hstar, authorizeBasic, isBasic_basicHeader,
    basicCredentials_basicHeader user pwd hcolon]
  have hreg : Registered opts opts.servicePath := .inl rfl
  by_cases h4 : 4 ≤ (credentials user pwd).length <;>
    by_cases hmax : (credentials user pwd).length ≤ 4095 <;>
      cases hverdict : callback user pwd <;> simp [h4, hmax, hverdict, hreg]

/-- **Logging in with a password file.** The credentials of the header decide as they are listed in
the file, at the first line that is comparable with the user name. -/
theorem decideWhatToDo_file_iff {crypt : CStr → CStr → CStr} {file : Bytes}
    (hstar : '*'.toUInt8 ∉ opts.servicePath) (hcolon : colon ∉ user.bytes)
    (hfile : opts.basicCallback = some fun u p ↦ authorize crypt (some file) (some u) (some p)) :
    decideWhatToDo opts opts.servicePath (basicHeader user pwd) = .value .callback ↔
      4 ≤ (credentials user pwd).length ∧ (credentials user pwd).length ≤ 4095 ∧
        ∃ e, firstComparable file user = some e ∧
          PrefixOrder.Comparable (crypt pwd e.passwd).bytes e.passwd.bytes := by
  rw [← authorize_iff, decideWhatToDo_basicHeader user pwd hstar hfile hcolon, CResult.value.injEq]
  split_ifs with hserved <;> simp [hserved]

/-- The file is the line `bobby:HASH`, and `bob` logs in with the password of `bobby`. -/
theorem decideWhatToDo_bob :
    decideWhatToDo
        { digestPasswordFile := false
          basicCallback := some fun u p ↦
            authorize (fun _ salt ↦ salt) (some (ascii "bobby:HASH\n")) (some u) (some p) }
        (ascii defaultServicePath)
        (basicHeader ⟨ascii "bob", by decide⟩ ⟨ascii "secret", by decide⟩) = .value .callback :=
  (decideWhatToDo_file_iff _ _ (by decide) (by decide) rfl).mpr
    ⟨by decide, by decide, ⟨⟨ascii "bobby", by decide⟩, ⟨ascii "HASH", by decide⟩⟩, by decide,
      PrefixOrder.Comparable.refl _⟩

end Openwsman
