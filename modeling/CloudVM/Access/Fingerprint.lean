import CloudVM.Common
import CloudVM.Framework.Text

/-!
# Tokens and fingerprints

What an access token claims, where a socket presents it, and the fingerprint of a client: the hash
of its address and its user agent, read from the headers in one way for HTTP requests and in
another for sockets. The hash is a parameter.
-/

namespace CloudVM.Access

open Text

section Headers

inductive HeaderValue where
  | one (value : String)
  | many (values : List String)
deriving DecidableEq, Repr

/-- What the services read of an HTTP request. -/
structure Request where
  forwardedFor : Option HeaderValue
  realIp : Option HeaderValue
  userAgent : Option String
  ip : Option String
  remoteAddress : Option String
deriving DecidableEq, Repr

/-- What the gateways read of the handshake of a socket. -/
structure Handshake where
  token : Option String
  authorization : Option String
  cookie : Option String
  forwardedFor : Option HeaderValue
  realIp : Option HeaderValue
  userAgent : Option String
  remoteAddress : Option String
  address : Option String
deriving DecidableEq, Repr

def truthy (value : Option String) : Option String := value.filter (· ≠ "")

/-- `s.replace(old, new)` for strings: the first occurrence. -/
def replaceFirst (old new : List Char) : List Char → List Char
  | [] => if old = [] then new else []
  | c :: cs =>
      if old.isPrefixOf (c :: cs) then new ++ (c :: cs).drop old.length
      else c :: replaceFirst old new cs

def replace (s old new : String) : String :=
  String.ofList (replaceFirst old.toList new.toList s.toList)

/-- `s.split(",")[0]`. -/
def beforeComma (s : String) : String := String.ofList (s.toList.takeWhile (· ≠ ','))

def normalizeIp (rawIp : String) : String :=
  let normalized := jsTrim (replace rawIp "::ffff:" "")
  if normalized = "::1" ∨ normalized = "127.0.0.1" then "127.0.0.1" else normalized

end Headers

section Requests

def firstHeaderValue : Option HeaderValue → Option String
  | none => none
  | some (.many values) => truthy (values.head?.map jsTrim)
  | some (.one value) => truthy (some (jsTrim value))

def getClientIp (req : Request) : String :=
  let forwardedFor := (firstHeaderValue req.forwardedFor).map beforeComma
  normalizeIp ((((truthy forwardedFor).or (firstHeaderValue req.realIp)).or (truthy req.ip)).or
    (truthy req.remoteAddress) |>.getD "unknown")

def getUserAgent (req : Request) : String :=
  (truthy (req.userAgent.map jsTrim)).getD "unknown"

def buildRequestFingerprint (sha256 : String → String) (req : Request) : String :=
  sha256 (getClientIp req ++ "|" ++ getUserAgent req)

end Requests

section Sockets

def headerString : Option HeaderValue → Option String
  | none => none
  | some (.many values) => values.head?
  | some (.one value) => some value

def getSocketClientIp (client : Handshake) : String :=
  let forwardedFor := (headerString client.forwardedFor).filter fun value => jsTrim value ≠ ""
  normalizeIp ((((truthy (forwardedFor.map beforeComma)).or
    (truthy (headerString client.realIp))).or (truthy client.remoteAddress)).or
    (truthy client.address) |>.getD "unknown")

/-- A user agent of white space only stays empty here. -/
def buildSocketFingerprint (sha256 : String → String) (client : Handshake) : String :=
  sha256 (getSocketClientIp client ++ "|" ++ jsTrim (client.userAgent.getD "unknown"))

def hexDigit (c : Char) : Option ℕ :=
  if '0' ≤ c ∧ c ≤ '9' then some (c.toNat - 48)
  else if 'a' ≤ c ∧ c ≤ 'f' then some (c.toNat - 87)
  else if 'A' ≤ c ∧ c ≤ 'F' then some (c.toNat - 55)
  else none

/-- The bytes a text stands for; an escape without two hexadecimal digits stands for none. -/
def percentBytes : List Char → Option (List UInt8)
  | '%' :: a :: b :: rest => do
      let high ← hexDigit a
      let low ← hexDigit b
      let bytes ← percentBytes rest
      pure (UInt8.ofNat (16 * high + low) :: bytes)
  | '%' :: _ => none
  | c :: rest => do
      let bytes ← percentBytes rest
      pure (c.toString.toUTF8.toList ++ bytes)
  | [] => some []

/-- `decodeURIComponent`, which throws on what is no UTF-8. -/
def decodeURIComponent (s : String) : Option String := do
  let bytes ← percentBytes s.toList
  String.fromUTF8? (ByteArray.mk bytes.toArray)

/-- The first cookie of the name, decoded; missing as a whole if that throws. -/
def extractCookieValue (rawCookie : Option String) (cookieName : String) :
    Option (Option String) :=
  match truthy rawCookie with
  | none => some none
  | some raw =>
      let parts := (raw.toList.splitOn ';').map fun part => (jsTrim (String.ofList part)).toList
      match parts.find? fun part => String.ofList (part.takeWhile (· ≠ '=')) = cookieName with
      | none => some none
      | some part =>
          (decodeURIComponent (String.ofList ((part.dropWhile (· ≠ '=')).drop 1))).map some

def presentedToken (client : Handshake) : Option (Option String) :=
  match truthy client.token, truthy (client.authorization.map fun a => replace a "Bearer " "") with
  | some token, _ => some (some token)
  | none, some token => some (some token)
  | none, none => (extractCookieValue client.cookie "accessToken").map truthy

end Sockets

section Tokens

/-- What an access token or a websocket ticket claims. -/
structure Claims where
  sub : String
  email : String
  role : String
  fp : Option String
deriving DecidableEq, Repr

structure CurrentUser where
  userId : String
  email : String
  role : String
deriving DecidableEq, Repr

def Claims.user (claims : Claims) : CurrentUser := ⟨claims.sub, claims.email, claims.role⟩

/-- `!payload.fp || payload.fp !== expected`. -/
def Claims.unbound (claims : Claims) (expected : String) : Bool :=
  (truthy claims.fp).isNone || claims.fp ≠ some expected

theorem Claims.unbound_of_ne {claims : Claims} {expected : String}
    (h : claims.fp ≠ some expected) : claims.unbound expected = true := by
  simp [unbound, h]

theorem Claims.not_unbound_iff {claims : Claims} {expected : String} :
    claims.unbound expected = false ↔ claims.fp = some expected ∧ expected ≠ "" := by
  unfold unbound truthy
  constructor
  · intro h
    simp only [Bool.or_eq_false_iff, decide_eq_false_iff_not, not_not, Option.isNone_eq_false_iff,
      ne_eq] at h
    obtain ⟨hs, hfp⟩ := h
    refine ⟨hfp, ?_⟩
    rintro rfl
    rw [hfp] at hs
    simp at hs
  · rintro ⟨hfp, hne⟩
    simp [hfp, hne]

end Tokens

end CloudVM.Access
