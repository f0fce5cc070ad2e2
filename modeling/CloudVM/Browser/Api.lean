import CloudVM.Framework.Promises
import CloudVM.Framework.Run
import CloudVM.Framework.Text

/-!
# The API client of a page

`api.ts` in one page: requests, their interceptor and the shared promise of a refresh. A response
is a task of the event loop and comes only when no job is waiting. Waiting jobs run in any order:
that takes in the order of the browser, with whatever idle jobs lie between ours.
-/

namespace CloudVM.Browser

open Promises Text

section State

inductive Method where
  | get
  | post
  | put
  | patch
  | delete
deriving DecidableEq, Repr

/-- A request that the page makes with `api`; refreshing is left to `refreshSession`. -/
structure Call where
  method : Method
  url : String
  other : ¬ (method = .post ∧ url = "/auth/refresh")
deriving DecidableEq, Repr

/-- Where the chain of a request is: its response is awaited, the interceptor is to run on a
rejection with this status, it awaits a refresh, or it has ended. -/
inductive Progress where
  | sent
  | rejected (status : Option ℕ)
  | awaiting (refresh : ℕ)
  | ended
deriving DecidableEq, Repr

structure Request where
  call : Call
  retry : Bool := false
  progress : Progress := .sent
deriving DecidableEq, Repr

/-- The callbacks of `refreshSession`. -/
inductive RefreshCallback where
  | setCookies
  | logout
  | release
deriving DecidableEq, Repr

/-- What goes over the wire, and the event `auth:logout`. -/
inductive Entry where
  | request (id : ℕ) (call : Call)
  | resend (id : ℕ)
  | response (id : ℕ) (status : ℕ)
  | refresh (k : ℕ)
  | refreshed (k : ℕ) (outcome : Outcome)
  | logout
deriving DecidableEq, Repr

/-- Requests and refreshes are known by their place; the log has the newest entry first. -/
structure Page where
  refreshPromise : Option ℕ := none
  refreshes : List (Promise RefreshCallback) := []
  requests : List Request := []
  rememberMe : Option String := none
  log : List Entry := []
deriving DecidableEq, Repr

end State

section Code

/-- `REMEMBER_ME_COOKIE` is `"1"`. -/
def isRememberMeEnabled (s : Page) : Bool := s.rememberMe = some "1"

def setAuthCookies (rememberMe : Bool) (s : Page) : Page :=
  { s with rememberMe := some (if rememberMe then "1" else "0") }

def clearAuthCookies (s : Page) : Page := { s with rememberMe := none }

/-- The callback of `catch` throws the error again. -/
def perform : RefreshCallback → Page → Outcome × Page
  | .setCookies, s => (.fulfilled, setAuthCookies (isRememberMeEnabled s) s)
  | .logout, s =>
    let s := clearAuthCookies s
    (.rejected, { s with log := .logout :: s.log })
  | .release, s => (.fulfilled, { s with refreshPromise := none })

/-- `axios.post(..).then(..).catch(..).finally(..)`. -/
def refreshChain : Promise RefreshCallback :=
  (((Promise.pending []).attach (.onFulfilled .setCookies)).attach (.onRejected .logout)).attach
    (.always .release)

def refreshSession (s : Page) : ℕ × Page :=
  match s.refreshPromise with
  | some k => (k, s)
  | none =>
    let k := s.refreshes.length
    (k, { s with
      refreshes := s.refreshes ++ [refreshChain]
      refreshPromise := some k
      log := .refresh k :: s.log })

def isAuthFlowRequest (requestUrl : String) : Bool :=
  contains requestUrl "/auth/login" || contains requestUrl "/auth/mfa/verify" ||
    contains requestUrl "/auth/register" || contains requestUrl "/auth/refresh"

def Page.put (s : Page) (id : ℕ) (r : Request) : Page := { s with requests := s.requests.set id r }

/-- The request is settled as `axios` does: only a status of 2xx fulfils it. -/
def received (s : Page) (id : ℕ) (r : Request) (status : ℕ) : Page :=
  let s := { s with log := .response id status :: s.log }
  if 200 ≤ status ∧ status < 300 then s.put id { r with progress := .ended }
  else s.put id { r with progress := .rejected (some status) }

/-- The interceptor, up to its `await`. -/
def onRejected (s : Page) (id : ℕ) (original : Request) (status : Option ℕ) : Page :=
  if isAuthFlowRequest original.call.url then s.put id { original with progress := .ended }
  else if status = some 401 ∧ original.retry = false then
    let original := { original with retry := true }
    let (k, s) := refreshSession s
    s.put id { original with progress := .awaiting k }
  else s.put id { original with progress := .ended }

/-- The interceptor after its `await`: `api(original)`, or the error goes to the caller. -/
def resume (s : Page) (id : ℕ) (original : Request) : Outcome → Page
  | .fulfilled =>
    let s := { s with log := .resend id :: s.log }
    s.put id { original with progress := .sent }
  | .rejected => s.put id { original with progress := .ended }

def Page.issue (s : Page) (call : Call) : Page :=
  { s with
    requests := s.requests ++ [{ call }]
    log := .request s.requests.length call :: s.log }

def Page.job (s : Page) (k : ℕ) (p : Promise RefreshCallback) : Page :=
  let (p, s) := p.job perform s
  { s with refreshes := s.refreshes.set k p }

end Code

section Steps

def Page.due (s : Page) (r : Request) : Bool :=
  match r.progress with
  | .rejected _ => true
  | .awaiting k =>
    match s.refreshes[k]? with
    | some (.settled _) => true
    | _ => false
  | _ => false

def Page.quiet (s : Page) : Bool := s.refreshes.all (!·.busy) && s.requests.all (!s.due ·)

inductive Event where
  | issue (call : Call)
  | fail (id : ℕ)
  | respond (id : ℕ) (status : ℕ)
  | answer (k : ℕ) (outcome : Outcome)
  | intercept (id : ℕ)
  | job (k : ℕ)
  | resume (id : ℕ)
  | setCookie (value : Option String)
deriving DecidableEq, Repr

/-- Only the two answers from the network are tasks. A request may also fail without an answer, as
one does that is aborted, and the rest of the page may do its part at any time. -/
inductive Step : Page → Event → Page → Prop
  | issue {s : Page} (call : Call) : Step s (.issue call) (s.issue call)
  | fail {s : Page} {id : ℕ} {r : Request} (hr : s.requests[id]? = some r)
      (hsent : r.progress = .sent) :
      Step s (.fail id) (s.put id { r with progress := .rejected none })
  | respond {s : Page} {id : ℕ} {r : Request} (hquiet : s.quiet = true)
      (hr : s.requests[id]? = some r) (hsent : r.progress = .sent) (status : ℕ) :
      Step s (.respond id status) (received s id r status)
  | answer {s : Page} {k : ℕ} {callbacks : List (Callback RefreshCallback)}
      (hquiet : s.quiet = true) (hk : s.refreshes[k]? = some (.pending callbacks)) (o : Outcome) :
      Step s (.answer k o)
        { s with
          refreshes := s.refreshes.set k (.settling o callbacks)
          log := .refreshed k o :: s.log }
  | intercept {s : Page} {id : ℕ} {r : Request} {status : Option ℕ}
      (hr : s.requests[id]? = some r) (hrejected : r.progress = .rejected status) :
      Step s (.intercept id) (onRejected s id r status)
  | job {s : Page} {k : ℕ} {p : Promise RefreshCallback} (hk : s.refreshes[k]? = some p)
      (hbusy : p.busy = true) : Step s (.job k) (s.job k p)
  | resume {s : Page} {id k : ℕ} {r : Request} {o : Outcome} (hr : s.requests[id]? = some r)
      (hawaiting : r.progress = .awaiting k) (hk : s.refreshes[k]? = some (.settled o)) :
      Step s (.resume id) (resume s id r o)
  | setCookie {s : Page} (value : Option String) :
      Step s (.setCookie value) { s with rememberMe := value }

def opened (rememberMe : Option String) : Page := { rememberMe }

end Steps

end CloudVM.Browser
