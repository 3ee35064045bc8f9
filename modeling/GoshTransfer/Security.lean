import GoshTransfer.Lib.InodeStore

set_option autoImplicit false

namespace GoshTransfer

open InodeStore

-- The variants of EngineError that the engine's own operations return.
inductive ControlError where
  | serverAlreadyRunning
  | invalidConfig (message : String)
  | network (message : String)
  | fileIo (message : String)
deriving DecidableEq, Repr

def ControlError.toString : ControlError → String
  | .serverAlreadyRunning => "Server already running"
  | .invalidConfig message => "Invalid configuration: " ++ message
  | .network message => "Network error: " ++ message
  | .fileIo message => "File I/O error: " ++ message

structure TlsIdentity where
  certificate : String
  privateKey : String
deriving DecidableEq, Repr

-- The fields that the receiving side reads.
structure SecurityConfig where
  identity : Option TlsIdentity
  authToken : Option String
  allowedOrigins : List String
deriving DecidableEq, Repr

-- What Url::parse, which is not part of the repository, makes of a text.
structure Url where
  scheme : String
  asciiOrigin : String

abbrev UrlParser := String → Option Url

def validateOrigin (urls : UrlParser) (origin : String) : Except ControlError Unit :=
  match urls origin with
  | none => .error (.invalidConfig "Invalid browser origin")
  | some url =>
      if ¬ (url.scheme = "http" ∨ url.scheme = "https") ∨ url.asciiOrigin ≠ origin then
        .error (.invalidConfig "Use an exact http(s) origin without a trailing slash or wildcard")
      else .ok ()

def validateOrigins (urls : UrlParser) : List String → Except ControlError Unit
  | [] => .ok ()
  | origin :: rest =>
      match validateOrigin urls origin with
      | .error error => .error error
      | .ok () => validateOrigins urls rest

def weakToken (security : SecurityConfig) (token : String) : Bool :=
    token.utf8ByteSize < 32 || security.identity.isNone

def SecurityConfig.validateServer (urls : UrlParser) (security : SecurityConfig) : Except ControlError Unit :=
  if security.authToken.any (weakToken security) = true then
    .error (.invalidConfig "Incoming authentication requires TLS and a token of at least 32 bytes")
  else if security.allowedOrigins ≠ [] ∧ (security.authToken = none ∨ security.identity = none) then
    .error (.invalidConfig "Browser access requires authenticated HTTPS")
  else validateOrigins urls security.allowedOrigins

-- Says whether the listener will speak TLS. The identity's files are read and
-- parsed outside of the repository.
def SecurityConfig.serverTls (urls : UrlParser) (security : SecurityConfig)
    (files : Except ControlError Unit) : Except ControlError Bool :=
  match security.validateServer urls with
  | .error error => .error error
  | .ok () =>
      match security.identity with
      | none => .ok false
      | some _ =>
          match files with
          | .error error => .error error
          | .ok () => .ok true

-- A header value is a text, or bytes for which to_str fails.
inductive HeaderValue where
  | text (value : String)
  | bytes (value : Bytes)
deriving DecidableEq, Repr

def HeaderValue.toStr : HeaderValue → Option String
  | .text value => some value
  | .bytes _ => none

-- Names are in lower case, as the http crate keeps them.
abbrev Headers := List (String × HeaderValue)

def Headers.get (headers : Headers) (name : String) : Option HeaderValue :=
    (headers.find? (·.1 == name)).map (·.2)

def Headers.insert (headers : Headers) (name : String) (value : HeaderValue) : Headers :=
  headers.filter (·.1 ≠ name) ++ [(name, value)]

structure HttpRequest where
  method : String
  headers : Headers
deriving DecidableEq, Repr

structure HttpResponse where
  status : Nat
  body : String
  headers : Headers
deriving DecidableEq, Repr

def HttpResponse.insertHeader (response : HttpResponse) (name : String) (value : HeaderValue) :
    HttpResponse :=
  { response with headers := response.headers.insert name value }

def HttpResponse.allowOrigin (response : HttpResponse) (origin : Option HeaderValue) : HttpResponse :=
  match origin with
  | none => response
  | some origin => (response.insertHeader "access-control-allow-origin" origin).insertHeader "vary"
      (.text "Origin")

def HttpResponse.allowAccess (response : HttpResponse) (origin : Option HeaderValue) : HttpResponse :=
  match origin with
  | none => response
  | some _ =>
      ((response.allowOrigin origin).insertHeader "access-control-allow-methods"
        (.text "GET, POST, OPTIONS")).insertHeader "access-control-allow-headers"
        (.text "Authorization, Content-Type, X-Transfer-Token")

-- Either the answer of the middleware itself, or the verified principal with
-- which the request goes on to its endpoint.
inductive Gate where
  | answer (response : HttpResponse)
  | next (principal : Option String)
deriving DecidableEq, Repr

def stripPrefixText (front text : String) : Option String :=
  if front.toList.isPrefixOf text.toList then some (.ofList (text.toList.drop front.length)) else none

def suppliedToken (request : HttpRequest) : String :=
  (((request.headers.get "authorization").bind HeaderValue.toStr).bind (stripPrefixText "Bearer ")).getD ""

def asBytes (text : String) : Bytes := text.toByteArray.data.toList

def originAllowed (security : SecurityConfig) (origin : HeaderValue) : Bool :=
  origin.toStr.any fun text => security.allowedOrigins.any (· == text)

-- The listener's flag is read only behind a configured token.
def authorize (urls : UrlParser) (sha256 : Bytes → String) (security : SecurityConfig) (listenerTls : Bool)
    (request : HttpRequest) : Gate :=
  if security.validateServer urls ≠ .ok () ∨ (security.authToken.isSome = true ∧ listenerTls = false) then
    .answer ⟨503, "Invalid live security configuration", []⟩
  else
    let origin := request.headers.get "origin"
    if origin.any (fun value => !originAllowed security value) = true then .answer
      ⟨403, "Browser origin is not allowed", []⟩
    else if request.method = "OPTIONS" ∧
      origin.isSome = true then .answer (HttpResponse.allowAccess ⟨204, "", []⟩ origin)
    else
      match security.authToken with
      | none => .next none
      | some expected =>
          let digest := sha256 (asBytes (suppliedToken request))
          if digest = sha256 (asBytes expected) then .next (some ("token:" ++ digest))
          else
            .answer (HttpResponse.allowOrigin
              (HttpResponse.insertHeader ⟨401, "Bearer authentication required", []⟩ "www-authenticate"
              (.text "Bearer")) origin)

-- The middleware with the endpoint behind it.
def respond (urls : UrlParser) (sha256 : Bytes → String) (security : SecurityConfig) (listenerTls : Bool)
    (request : HttpRequest) (endpoint : Option String → HttpResponse) : HttpResponse :=
  match authorize urls sha256 security listenerTls request with
  | .answer response => response
  | .next principal => (endpoint principal).allowAccess (request.headers.get "origin")

-- What a request must show to be let through a listener.
structure Authentic (urls : UrlParser) (security : SecurityConfig) (tls : Bool) (request : HttpRequest) :
    Prop where
  valid : security.validateServer urls = .ok ()
  bearer : ∀ token, security.authToken = some token →
    tls = true ∧ request.headers.get "authorization" = some (.text ("Bearer " ++ token))
  origin : ∀ value, request.headers.get "origin" = some value → ∃ text token, value = .text text ∧
    text ∈ security.allowedOrigins ∧
    security.authToken = some token ∧ tls = true ∧
      request.headers.get "authorization" = some (.text ("Bearer " ++ token))

theorem as_bytes_injective : Function.Injective asBytes := by
  intro a b same
  have arrays : a.toByteArray.data = b.toByteArray.data := Array.toList_inj.mp same
  exact String.toByteArray_inj.mp (ByteArray.ext arrays)

theorem strip_prefix_text (front text rest : String) (stripped : stripPrefixText front text = some rest) :
    text = front ++ rest := by
  simp only [stripPrefixText] at stripped
  split at stripped
  · next leads =>
    obtain ⟨after, whole⟩ := List.isPrefixOf_iff_prefix.mp leads
    rw [Option.some.injEq, ← whole, ← String.length_toList, List.drop_left] at stripped
    rw [← String.toList_inj, String.toList_append, ← stripped, String.toList_ofList, whole]
  · simp at stripped

theorem valid_token_strong (urls : UrlParser) (security : SecurityConfig) (token : String)
    (valid : security.validateServer urls = .ok ()) (configured : security.authToken = some token) :
    32 ≤ token.utf8ByteSize := by
  simp only [SecurityConfig.validateServer, configured, Option.any_some] at valid
  split at valid
  · simp at valid
  · next strong =>
    simp only [weakToken, Bool.or_eq_true, decide_eq_true_eq, not_or] at strong
    omega

theorem valid_origins_authenticated (urls : UrlParser) (security : SecurityConfig)
    (valid : security.validateServer urls = .ok ()) (browsers : security.allowedOrigins ≠ []) :
    ∃ token, security.authToken = some token := by
  simp only [SecurityConfig.validateServer] at valid
  split at valid
  · simp at valid
  · split at valid
    · simp at valid
    · next _ guarded =>
      simp only [browsers, ne_eq, not_false_eq_true, true_and, not_or] at guarded
      exact Option.ne_none_iff_exists'.mp guarded.1

theorem supplied_token_sent (request : HttpRequest) (token : String) (sent : suppliedToken request = token)
    (some_token : token ≠ "") :
    request.headers.get "authorization" = some (.text ("Bearer " ++ token)) := by
  simp only [suppliedToken] at sent
  cases found : request.headers.get "authorization" with
  | none => exact absurd (by simpa [found] using sent.symm) some_token
  | some value =>
    cases value with
    | bytes value => exact absurd (by simpa [found, HeaderValue.toStr] using sent.symm) some_token
    | text value =>
      cases stripped : stripPrefixText "Bearer " value with
      | none => exact absurd (by simpa [found, HeaderValue.toStr, stripped] using sent.symm) some_token
      | some rest =>
        have same : rest = token := by simpa [found, HeaderValue.toStr, stripped] using sent
        rw [strip_prefix_text _ _ _ stripped, same]

theorem origin_allowed (security : SecurityConfig) (origin : HeaderValue)
    (allowed : originAllowed security origin = true) :
    ∃ text, origin = .text text ∧ text ∈ security.allowedOrigins := by
  cases origin with
  | bytes value => simp [originAllowed, HeaderValue.toStr] at allowed
  | text value => exact ⟨value, rfl, by simpa [originAllowed, HeaderValue.toStr] using allowed⟩

theorem passed_authentic (urls : UrlParser) (sha256 : Bytes → String)
    (collisionFree : ∀ a b, sha256 a = sha256 b → a = b) (security : SecurityConfig) (tls : Bool)
    (request : HttpRequest) (principal : Option String)
    (passed : authorize urls sha256 security tls request = .next principal) :
      Authentic urls security tls request := by
  simp only [authorize] at passed
  split at passed
  · simp at passed
  · next accepted =>
    simp only [ne_eq, not_or, not_not, not_and, Bool.not_eq_false] at accepted
    obtain ⟨valid, speaks⟩ := accepted
    split at passed
    · simp at passed
    · next origins =>
      split at passed
      · simp at passed
      · have bearer : ∀ token, security.authToken = some token →
            tls = true ∧ request.headers.get "authorization" = some (.text ("Bearer " ++ token)) := by
          intro token configured
          simp only [configured] at passed
          split at passed
          · next equal =>
            have sent := as_bytes_injective (collisionFree _ _ equal)
            have strong := valid_token_strong urls security token valid configured
            refine ⟨speaks (by simp [configured]), supplied_token_sent request token sent ?_⟩
            rintro rfl
            simp at strong
          · simp at passed
        refine ⟨valid, bearer, ?_⟩
        intro value present
        have allowed : originAllowed security value = true := by simpa [present] using origins
        obtain ⟨text, rfl, listed⟩ := origin_allowed security value allowed
        obtain ⟨token, configured⟩ :=
          valid_origins_authenticated urls security valid (List.ne_nil_of_mem listed)
        exact ⟨text, token, rfl, listed, configured, bearer token configured⟩

end GoshTransfer
