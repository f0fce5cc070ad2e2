import CloudVM.Framework.Pieces
import CloudVM.Framework.Records
import CloudVM.Framework.Table
import CloudVM.Guest.RsaKey

/-!
# The registry of keys

Users register their own keys or have a pair generated, list their keys and delete them. Requests
of any number of users interleave over one table, connections break, and users are deleted with
their keys.
-/

namespace CloudVM.SshKeyService

open Text Process

section Texts

/-- The parts of `text.trim().split(/\s+/)`. A blank text, which has one empty part, has none here. -/
def words (text : String) : List (List Char) :=
  ((jsTrim text).toList.splitOnP jsSpace).filter fun part => !part.isEmpty

/-- `[a-zA-Z0-9-_ ]`. -/
def keyNameChar (c : Char) : Bool := c.isAlphanum || c = '-' || c = '_' || c = ' '

/-- `replace(/\s+/g, "-")`, for a text whose only space is the blank. -/
def joinBlanks : List Char → List Char
  | [] => []
  | c :: cs =>
    if c = ' ' then if cs.head? = some ' ' then joinBlanks cs else '-' :: joinBlanks cs
    else c :: joinBlanks cs

/-- `base` in `sanitizeKeyName`. -/
def keyBase (named : String) : List Char :=
  Pieces.sliceTo 48 (joinBlanks ((jsTrim named).toList.filter keyNameChar))

def sanitizeKeyName (input : String) : String :=
  let base := keyBase (if input = "" then "generated-key" else input)
  if 0 < base.length then String.ofList base else "generated-key"

/-- What is left to the runtime: SHA-256, and how `Buffer.from` reads a text as base64. -/
structure KeyEnv where
  sha256 : List UInt8 → List UInt8
  fromBase64 : List Char → List UInt8

def keyData (env : KeyEnv) (publicKey : String) : Option (List UInt8) :=
  (words publicKey)[1]?.map env.fromBase64

def generateFingerprint (env : KeyEnv) (publicKey : String) : Except Failure String :=
  match keyData env publicKey with
  | none => .error ⟨.badRequest, "Invalid SSH public key format"⟩
  | some data =>
    let hash := Base64.encode (env.sha256 data)
    .ok ("SHA256:" ++ String.ofList (hash.reverse.dropWhile fun c => c = '=').reverse)

/-- A name that is safe in the name of a file. -/
structure SafeName (name : String) : Prop where
  chars : ∀ c ∈ name.toList, c.isAlphanum = true ∨ c = '-' ∨ c = '_'
  nonempty : name ≠ ""
  short : name.toList.length ≤ 48

theorem mem_joinBlanks {cs : List Char} {c : Char} (h : c ∈ joinBlanks cs) :
    c = '-' ∨ c ∈ cs ∧ c ≠ ' ' := by
  induction cs with
  | nil => cases h
  | cons d ds ih =>
    have htail : c ∈ joinBlanks ds → c = '-' ∨ c ∈ d :: ds ∧ c ≠ ' ' :=
      fun hm => (ih hm).imp_right fun hds => ⟨List.mem_cons_of_mem _ hds.1, hds.2⟩
    rw [joinBlanks] at h
    split at h
    · split at h
      · exact htail h
      · rcases List.mem_cons.mp h with rfl | h
        · exact .inl rfl
        · exact htail h
    · rename_i hd
      rcases List.mem_cons.mp h with rfl | h
      · exact .inr ⟨List.mem_cons_self, hd⟩
      · exact htail h

theorem keyBase_safe (named : String) :
    (∀ c ∈ keyBase named, c.isAlphanum = true ∨ c = '-' ∨ c = '_') ∧ (keyBase named).length ≤ 48 := by
  generalize hjoined : joinBlanks ((jsTrim named).toList.filter keyNameChar) = joined
  have hsafe : ∀ c ∈ joined, c.isAlphanum = true ∨ c = '-' ∨ c = '_' := by
    intro c hc
    rw [← hjoined] at hc
    rcases mem_joinBlanks hc with rfl | ⟨hm, hblank⟩
    · exact .inr (.inl rfl)
    · have hchar := (List.mem_filter.mp hm).2
      simpa [keyNameChar, hblank, or_assoc] using hchar
  have hsmall : ∀ c ∈ joined, c.toNat < 0x10000 := by
    intro c hc
    rcases hsafe c hc with h | rfl | rfl
    · have hrange := isAlphanum_iff.mp h
      omega
    · decide
    · decide
  rw [keyBase, hjoined, Pieces.sliceTo_eq_take hsmall]
  exact ⟨fun c hc => hsafe c (List.mem_of_mem_take hc), List.length_take_le _ _⟩

theorem sanitizeKeyName_safe (input : String) : SafeName (sanitizeKeyName input) := by
  rw [sanitizeKeyName]
  generalize (if input = "" then "generated-key" else input) = named
  obtain ⟨hsafe, hshort⟩ := keyBase_safe named
  generalize keyBase named = base at hsafe hshort
  cases base with
  | nil => exact ⟨List.forall_iff_forall_mem.mp (by decide), by decide, by decide⟩
  | cons c cs =>
    show SafeName (String.ofList (c :: cs))
    constructor
    · rw [String.toList_ofList]
      exact hsafe
    · intro hempty
      rw [String.ofList_eq_empty_iff] at hempty
      cases hempty
    · rw [String.toList_ofList]
      exact hshort

end Texts

section Calls

/-- A row of `ssh_keys`. -/
structure SshKey where
  id : String
  name : String
  publicKey : String
  fingerprint : String
  userId : String
  createdAt : ℕ
deriving DecidableEq, Repr

structure CreateSshKeyDto where
  name : String
  publicKey : String
deriving DecidableEq, Repr

/-- `data` of `sshKey.create`. -/
structure NewKey where
  name : String
  publicKey : String
  fingerprint : String
  userId : String
deriving DecidableEq, Repr

def NewKey.row (data : NewKey) (id : String) (createdAt : ℕ) : SshKey where
  id := id
  name := data.name
  publicKey := data.publicKey
  fingerprint := data.fingerprint
  userId := data.userId
  createdAt := createdAt

/-- What `generateKeyPairSync` makes: the numbers of the public key, and the private key. -/
structure KeyPair where
  n : Option String
  e : Option String
  privateKey : String
deriving DecidableEq, Repr

/-- `P2002`, or any other error. -/
inductive CreateError where
  | duplicate
  | other (e : Failure)
deriving DecidableEq, Repr

inductive KeyCall where
  | findMany (userId : String)
  | create (data : NewKey)
  | generateKeyPair
  | today
  | findUnique (id : String)
  | delete (id : String)
deriving DecidableEq, Repr

@[reducible] def KeyCall.Answer : KeyCall → Type
  | .findMany _ => Except Failure (List SshKey)
  | .create _ => Except CreateError SshKey
  | .generateKeyPair => KeyPair
  | .today => String
  | .findUnique _ => Except Failure (Option SshKey)
  | .delete _ => Except Failure Unit

@[reducible] def keyInterface : Interface where
  Call := KeyCall
  Answer := KeyCall.Answer

abbrev KeyProcess (α : Type) := Process keyInterface Failure α

abbrev KeyLog := List (Event keyInterface)

end Calls

section Handlers

/-- The key that is shown once. -/
structure GeneratedKey where
  key : SshKey
  privateKey : String
  filename : String
  notice : String
deriving DecidableEq, Repr

/-- `sshKey.create` with its errors. -/
def createKey (data : NewKey) : KeyProcess SshKey :=
  .call (.create data) fun
    | .ok key => .ret key
    | .error .duplicate =>
      .raise ⟨.conflict, "This SSH key is already registered to your account"⟩
    | .error (.other e) => .raise e

def findAllByUser (userId : String) : KeyProcess (List SshKey) :=
  .call (.findMany userId) .ofExcept

variable (env : KeyEnv)

def create (userId : String) (dto : CreateSshKeyDto) : KeyProcess SshKey := do
  let fingerprint ← .ofExcept (generateFingerprint env dto.publicKey)
  createKey { name := dto.name, publicKey := dto.publicKey, fingerprint, userId }

/-- `||` of a name that may be missing. -/
def nameOr (desiredName : Option String) (other : String) : String :=
  if desiredName.getD "" = "" then other else desiredName.getD ""

/-- `generateAndCreate` with the pair it has generated. -/
def registerPair (userId safeName : String) (pair : KeyPair) : KeyProcess GeneratedKey :=
  match pair.n.filter fun n => n ≠ "", pair.e.filter fun e => e ≠ "" with
  | some n, some e => do
    let sshPublicKey ← .ofExcept (buildSshRsaPublicKeyFromJwk n e)
    let fingerprint ← .ofExcept (generateFingerprint env sshPublicKey)
    let created ← createKey { name := safeName, publicKey := sshPublicKey, fingerprint, userId }
    let timestamp ← .call .today .ret
    pure
      { key := created
        privateKey := pair.privateKey
        filename := "cloudvm-" ++ safeName ++ "-" ++ timestamp ++ ".pem"
        notice := "This private key is shown once. Save it securely now." }
  | _, _ => throw ⟨.badRequest, "Unable to generate SSH key pair"⟩

def generateAndCreate (userId : String) (desiredName : Option String) :
    KeyProcess GeneratedKey := do
  let safeName := sanitizeKeyName (nameOr desiredName "My Generated Key")
  let pair ← .call .generateKeyPair .ret
  registerPair env userId safeName pair

def delete (id userId : String) : KeyProcess String := do
  match ← .call (.findUnique id) .ofExcept with
  | none => throw ⟨.notFound, "SSH key not found"⟩
  | some sshKey =>
    if sshKey.userId ≠ userId then throw ⟨.forbidden, "You do not own this SSH key"⟩
    else
      .call (.delete id) .ofExcept
      pure "SSH key deleted successfully"

/-- A request of the controller, with the user of its token. -/
inductive KeyRequest where
  | findAll (userId : String)
  | create (userId : String) (dto : CreateSshKeyDto)
  | generate (userId : String) (name : Option String)
  | delete (id userId : String)
deriving DecidableEq, Repr

inductive KeyReply where
  | keys (list : List SshKey)
  | key (created : SshKey)
  | generated (result : GeneratedKey)
  | message (text : String)
deriving DecidableEq, Repr

def KeyRequest.handle : KeyRequest → KeyProcess KeyReply
  | .findAll userId => do pure (.keys (← findAllByUser userId))
  | .create userId dto => do pure (.key (← SshKeyService.create env userId dto))
  | .generate userId name => do pure (.generated (← generateAndCreate env userId name))
  | .delete id userId => do pure (.message (← SshKeyService.delete id userId))

end Handlers

section Store

/-- The table with its constraints, the users there are, the ids given out and the users gone. -/
structure KeyStore where
  keys : Table SshKey.id
  unique : (keys.rows.map fun key => (key.userId, key.fingerprint)).Nodup
  issued : List String
  known : ∀ key ∈ keys.rows, key.id ∈ issued
  users : List String
  gone : List String
  clock : ℕ

namespace KeyStore

variable (s : KeyStore)

def insertKey (key : SshKey) (hid : key.id ∉ s.keys.rows.map SshKey.id)
    (hfree : (key.userId, key.fingerprint) ∉
      s.keys.rows.map fun key => (key.userId, key.fingerprint)) : KeyStore where
  keys := s.keys.insert key hid
  unique := Table.nodup_map_concat s.unique hfree
  issued := key.id :: s.issued
  known := by
    intro k hk
    rcases List.mem_append.mp hk with hk | hk
    · exact List.mem_cons_of_mem _ (s.known k hk)
    · obtain rfl := List.mem_singleton.mp hk
      exact List.mem_cons_self
  users := s.users
  gone := s.gone
  clock := s.clock

def eraseKeys (p : SshKey → Bool) : KeyStore where
  keys := s.keys.erase p
  unique := s.unique.sublist (List.filter_sublist.map _)
  issued := s.issued
  known := fun key hk => s.known key ((Table.mem_erase _ _ _).mp hk).1
  users := s.users
  gone := s.gone
  clock := s.clock

/-- A user is deleted, and the keys with the user. -/
def deleteUser (userId : String) : KeyStore :=
  { s.eraseKeys fun key => key.userId = userId with
    users := s.users.filter fun u => u ≠ userId
    gone := userId :: s.gone }

def NewestFirst (list : List SshKey) : Prop := list.Pairwise fun a b => b.createdAt ≤ a.createdAt

/-- How a call is answered while the database works. -/
def serve : (c : KeyCall) → KeyStore → c.Answer → KeyStore → Prop
  | .findMany userId, s, r, s' =>
      s' = s ∧ ∃ list, r = .ok list ∧ NewestFirst list ∧
        list.Perm (s.keys.rows.filter fun key => key.userId = userId)
  | .create data, s, r, s' =>
      ((data.userId, data.fingerprint) ∈ s.keys.rows.map (fun key => (key.userId, key.fingerprint)) ∧
        r = .error .duplicate ∧ s' = s) ∨
      (data.userId ∉ s.users ∧ (∃ e, r = .error (.other e)) ∧ s' = s) ∨
      (data.userId ∈ s.users ∧ ∃ id hid hfree, id ∉ s.issued ∧ r = .ok (data.row id s.clock) ∧
        s' = s.insertKey (data.row id s.clock) hid hfree)
  | .generateKeyPair, s, _, s' => s' = s
  | .today, s, _, s' => s' = s
  | .findUnique id, s, r, s' => r = .ok (s.keys.find? id) ∧ s' = s
  | .delete id, s, r, s' =>
      (s.keys.find? id = none ∧ (∃ e, r = .error e) ∧ s' = s) ∨
      (s.keys.find? id ≠ none ∧ r = .ok () ∧ s' = s.eraseKeys fun key => key.id = id)

def Fails : (c : KeyCall) → c.Answer → Prop
  | .findMany _, r => ∃ e, r = .error e
  | .create _, r => ∃ e, r = .error (.other e)
  | .generateKeyPair, _ => False
  | .today, _ => False
  | .findUnique _, r => ∃ e, r = .error e
  | .delete _, r => ∃ e, r = .error e

def mayServe (c : KeyCall) (s : KeyStore) (r : c.Answer) (s' : KeyStore) : Prop :=
  serve c s r s' ∨ (Fails c r ∧ (s' = s ∨ ∃ r', serve c s r' s'))

/-- Time passes and users come, or one is deleted. -/
inductive Changes (s : KeyStore) : KeyStore → Prop
  | passes (users : List String) (clock : ℕ) (hc : s.clock ≤ clock) :
      Changes s { s with users := users, clock := clock }
  | deleted (userId : String) : Changes s (s.deleteUser userId)

end KeyStore

def keyServer (env : KeyEnv) : Server keyInterface Failure KeyReply KeyRequest KeyStore where
  handler := KeyRequest.handle env
  effect := fun _ _ => KeyStore.mayServe
  change := KeyStore.Changes

abbrev KeyStage := Stage keyInterface Failure KeyReply KeyRequest KeyStore

abbrev KeyLabel := StageLabel keyInterface KeyRequest

end Store

section Served

variable {s s' : KeyStore} {c : KeyCall} {r : c.Answer}

/-- What one call does to the table: nothing, a new row under a new id, or one id less. -/
inductive Moves (c : KeyCall) (s : KeyStore) : KeyStore → Prop
  | stays : Moves c s s
  | inserts (data : NewKey) (id : String) (hc : c = .create data) (hid) (hfree) (hnew : id ∉ s.issued) :
      Moves c s (s.insertKey (data.row id s.clock) hid hfree)
  | erases (id : String) (hc : c = .delete id) : Moves c s (s.eraseKeys fun key => key.id = id)

theorem moves_of_serve (h : KeyStore.serve c s r s') : Moves c s s' := by
  cases c with
  | findMany userId =>
    obtain ⟨rfl, -⟩ := h
    exact .stays
  | create data =>
    rcases h with ⟨-, -, rfl⟩ | ⟨-, -, rfl⟩ | ⟨-, id, hid, hfree, hnew, -, rfl⟩
    · exact .stays
    · exact .stays
    · exact .inserts data id rfl hid hfree hnew
  | generateKeyPair =>
    obtain rfl := h
    exact .stays
  | today =>
    obtain rfl := h
    exact .stays
  | findUnique id =>
    obtain ⟨-, rfl⟩ := h
    exact .stays
  | delete id =>
    rcases h with ⟨-, -, rfl⟩ | ⟨-, -, rfl⟩
    · exact .stays
    · exact .erases id rfl

theorem moves_of_mayServe (h : KeyStore.mayServe c s r s') : Moves c s s' := by
  rcases h with h | ⟨-, rfl | ⟨r', h⟩⟩
  · exact moves_of_serve h
  · exact .stays
  · exact moves_of_serve h

theorem found_of_mayServe {id : String} {key : SshKey}
    (h : KeyStore.mayServe (.findUnique id) s (.ok (some key)) s') :
    s' = s ∧ key ∈ s.keys.rows ∧ key.id = id := by
  rcases h with ⟨hfind, rfl⟩ | ⟨⟨e, hfail⟩, -⟩
  · exact ⟨rfl, (Table.find?_eq_some _).mp (Except.ok.inj hfind).symm⟩
  · cases hfail

theorem deleted_of_mayServe {id : String} (h : KeyStore.mayServe (.delete id) s (.ok ()) s') :
    id ∈ s.issued ∧ ∀ row ∈ s'.keys.rows, row.id ≠ id := by
  rcases h with (⟨-, ⟨e, hfail⟩, -⟩ | ⟨hthere, -, rfl⟩) | ⟨⟨e, hfail⟩, -⟩
  · cases hfail
  · obtain ⟨key, hfind⟩ := Option.ne_none_iff_exists'.mp hthere
    obtain ⟨hkey, rfl⟩ := (Table.find?_eq_some _).mp hfind
    refine ⟨s.known key hkey, fun row hrow heq => ?_⟩
    simpa [heq] using ((Table.mem_erase _ _ _).mp hrow).2
  · cases hfail

end Served

section Contract

/-- The user of the token that came with the request. -/
def KeyRequest.user : KeyRequest → String
  | .findAll userId => userId
  | .create userId _ => userId
  | .generate userId _ => userId
  | .delete _ userId => userId

/-- The request has generated the pair, and this is its public key. -/
def Paired (log : KeyLog) (pair : KeyPair) (publicKey : String) : Prop :=
  (⟨KeyCall.generateKeyPair, pair⟩ : Event keyInterface) ∈ log ∧
    ∃ n e, pair.n = some n ∧ pair.e = some e ∧ buildSshRsaPublicKeyFromJwk n e = .ok publicKey

/-- A name and a public key as the request gives them. -/
def Submitted (log : KeyLog) (name publicKey : String) : KeyRequest → Prop
  | .create _ dto => name = dto.name ∧ publicKey = dto.publicKey
  | .generate _ desiredName =>
      name = sanitizeKeyName (nameOr desiredName "My Generated Key") ∧
        ∃ pair, Paired log pair publicKey
  | _ => False

def Deleted (log : KeyLog) (id : String) : Prop :=
  (⟨KeyCall.delete id, .ok ()⟩ : Event keyInterface) ∈ log

def Found (log : KeyLog) (id : String) (key : SshKey) : Prop :=
  (⟨KeyCall.findUnique id, .ok (some key)⟩ : Event keyInterface) ∈ log

variable (env : KeyEnv)

/-- What a request writes: a key of its own user with its fingerprint; it deletes what it has found
to be its user's. -/
def Permitted (q : KeyRequest) (log : KeyLog) : KeyCall → Prop
  | .create data => data.userId = q.user ∧
      generateFingerprint env data.publicKey = .ok data.fingerprint ∧
      Submitted log data.name data.publicKey q
  | .delete id => ∃ key, Found log id key ∧ q = .delete id key.userId
  | _ => True

def KeyAnswer : (c : KeyCall) → c.Answer → Prop
  | .findMany userId, r =>
      ∀ list, r = .ok list → KeyStore.NewestFirst list ∧ ∀ key ∈ list, key.userId = userId
  | .create data, r => ∀ key, r = .ok key → ∃ id createdAt, key = data.row id createdAt
  | _, _ => True

/-- A reply shows keys of the user of the request, and a private key with its public key. -/
def Returned (q : KeyRequest) (reply : KeyReply) (log : KeyLog) : Prop :=
  match q, reply with
  | .findAll userId, .keys list =>
      KeyStore.NewestFirst list ∧ ∀ key ∈ list, key.userId = userId
  | .create userId _, .key created => created.userId = userId
  | .generate userId _, .generated result => result.key.userId = userId ∧ SafeName result.key.name ∧
      (∃ timestamp, result.filename = "cloudvm-" ++ result.key.name ++ "-" ++ timestamp ++ ".pem") ∧
      ∃ pair, Paired log pair result.key.publicKey ∧ pair.privateKey = result.privateKey
  | .delete id _, .message _ => Deleted log id
  | _, _ => False

theorem keyAnswer_of_serve {c : KeyCall} {s s' : KeyStore} {r : c.Answer}
    (h : KeyStore.serve c s r s') : KeyAnswer c r := by
  cases c with
  | findMany userId =>
    obtain ⟨-, list, rfl, hnewest, hperm⟩ := h
    rintro list' ⟨⟩
    refine ⟨hnewest, fun key hkey => ?_⟩
    simpa using (List.mem_filter.mp (hperm.mem_iff.mp hkey)).2
  | create data =>
    rintro key rfl
    rcases h with ⟨-, hr, -⟩ | ⟨-, ⟨e, hr⟩, -⟩ | ⟨-, id, -, -, -, hr, -⟩
    · cases hr
    · cases hr
    · exact ⟨id, s.clock, Except.ok.inj hr⟩
  | generateKeyPair | today | findUnique | delete => trivial

theorem keyAnswer_of_mayServe {c : KeyCall} {s s' : KeyStore} {r : c.Answer}
    (h : KeyStore.mayServe c s r s') : KeyAnswer c r := by
  rcases h with h | ⟨hfail, -⟩
  · exact keyAnswer_of_serve h
  · cases c with
    | findMany userId =>
      obtain ⟨e, rfl⟩ := hfail
      exact fun list hr => nomatch hr
    | create data =>
      obtain ⟨e, rfl⟩ := hfail
      exact fun key hr => nomatch hr
    | generateKeyPair | today | findUnique | delete => trivial

/-- The process keeps to the contract of the request. -/
structure KeepsTo (q : KeyRequest) (p : KeyProcess KeyReply) (log : KeyLog) : Prop where
  wp : p.Wp (Permitted env q) (logged KeyAnswer) (Post (Returned q) fun _ _ => True) log

variable {env}

theorem createKey_keeps {q : KeyRequest} {log : KeyLog} {data : NewKey}
    {f : SshKey → KeyProcess KeyReply} (hp : Permitted env q log (.create data))
    (hf : ∀ id createdAt r, KeepsTo env q (f (data.row id createdAt))
      (log ++ [⟨KeyCall.create data, r⟩])) :
    KeepsTo env q (createKey data >>= f) log := by
  refine ⟨(wp_bind _ _ _ _).mpr ⟨hp, ?_⟩⟩
  rintro (e | key) log' ⟨hfits, rfl⟩
  · cases e <;> trivial
  · obtain ⟨id, createdAt, rfl⟩ := hfits key rfl
    exact (hf id createdAt _).wp

theorem create_keeps (userId : String) (dto : CreateSshKeyDto) :
    KeepsTo env (.create userId dto) (KeyRequest.handle env (.create userId dto)) [] := by
  cases hprint : generateFingerprint env dto.publicKey with
  | error e => exact ⟨by simp [KeyRequest.handle, create, hprint]⟩
  | ok fingerprint =>
    have hhandle : KeyRequest.handle env (.create userId dto) =
        createKey ⟨dto.name, dto.publicKey, fingerprint, userId⟩ >>= fun key => pure (.key key) := by
      simp [KeyRequest.handle, create, hprint]
    rw [hhandle]
    apply createKey_keeps
    · exact ⟨rfl, hprint, rfl, rfl⟩
    · exact fun id createdAt r => ⟨rfl⟩

theorem registerPair_keeps {userId safeName : String} {desiredName : Option String}
    (hname : safeName = sanitizeKeyName (nameOr desiredName "My Generated Key")) (pair : KeyPair) :
    KeepsTo env (.generate userId desiredName)
      (registerPair env userId safeName pair >>= fun result => pure (.generated result))
      [⟨KeyCall.generateKeyPair, pair⟩] := by
  unfold registerPair
  split
  · rename_i n e hn he
    have hpn : pair.n = some n := (Option.filter_eq_some_iff.mp hn).1
    have hpe : pair.e = some e := (Option.filter_eq_some_iff.mp he).1
    cases hbuild : buildSshRsaPublicKeyFromJwk n e with
    | error failure => exact ⟨trivial⟩
    | ok sshPublicKey =>
      have hpaired : ∀ {log : KeyLog}, ⟨KeyCall.generateKeyPair, pair⟩ ∈ log →
          Paired log pair sshPublicKey := fun hm => ⟨hm, n, e, hpn, hpe, hbuild⟩
      cases hprint : generateFingerprint env sshPublicKey with
      | error failure => exact ⟨by simp [hprint]⟩
      | ok fingerprint =>
        simp only [Process.ofExcept_ok, Process.ret_bind, hprint, Process.bind_assoc]
        apply createKey_keeps
        · exact ⟨rfl, hprint, hname, pair, hpaired (List.mem_singleton_self _)⟩
        · intro id createdAt r
          refine ⟨(wp_bind _ _ _ _).mpr ⟨trivial, ?_⟩⟩
          rintro timestamp log ⟨-, rfl⟩
          refine ⟨rfl, ?_, ⟨timestamp, rfl⟩, pair, hpaired ?_, rfl⟩
          · show SafeName safeName
            rw [hname]
            exact sanitizeKeyName_safe _
          · simp
  · exact ⟨trivial⟩

theorem generate_keeps (userId : String) (desiredName : Option String) :
    KeepsTo env (.generate userId desiredName)
      (KeyRequest.handle env (.generate userId desiredName)) [] := by
  constructor
  rw [KeyRequest.handle, wp_bind, generateAndCreate, wp_bind]
  refine ⟨trivial, ?_⟩
  rintro pair log ⟨-, rfl⟩
  rw [wp_ret, post_ok]
  exact (wp_bind _ _ _ _).mp (registerPair_keeps rfl pair).wp

theorem delete_keeps (id userId : String) :
    KeepsTo env (.delete id userId) (KeyRequest.handle env (.delete id userId)) [] := by
  constructor
  rw [KeyRequest.handle, wp_bind, delete, wp_bind]
  refine ⟨trivial, ?_⟩
  rintro (e | found) log ⟨-, rfl⟩
  · trivial
  · rw [wp_ofExcept, post_ok]
    cases found with
    | none => trivial
    | some sshKey =>
      by_cases hu : sshKey.userId = userId
      · simp only [ne_eq, hu, not_true_eq_false, if_false]
        rw [wp_bind]
        refine ⟨⟨sshKey, List.mem_singleton_self _, by rw [hu]⟩, ?_⟩
        rintro (e | u) log' ⟨-, rfl⟩
        · trivial
        · exact List.mem_concat_self
      · simp [hu]

theorem findAll_keeps (userId : String) :
    KeepsTo env (.findAll userId) (KeyRequest.handle env (.findAll userId)) [] := by
  constructor
  rw [KeyRequest.handle, wp_bind, findAllByUser]
  refine ⟨trivial, ?_⟩
  rintro (e | list) log ⟨hfits, rfl⟩
  · trivial
  · exact hfits list rfl

theorem handle_keeps (q : KeyRequest) : KeepsTo env q (KeyRequest.handle env q) [] := by
  cases q with
  | findAll userId => exact findAll_keeps userId
  | create userId dto => exact create_keeps userId dto
  | generate userId name => exact generate_keeps userId name
  | delete id userId => exact delete_keeps id userId

variable (env) in
def registryContract : (keyServer env).Contract where
  fits := KeyAnswer
  permits := Permitted env
  returns := Returned
  sound := fun _ _ _ _ _ _ h => keyAnswer_of_mayServe h
  holds := fun q => (handle_keeps q).wp

end Contract

section Runs

variable {env : KeyEnv} {s : KeyStore} {x y : KeyStage} {l : KeyLabel}

/-- A request of the owner has submitted the key. -/
def Registers (key : SshKey) (q : KeyRequest) (log : KeyLog) : Prop :=
  q.user = key.userId ∧ Submitted log key.name key.publicKey q

theorem lasting_registers (key : SshKey) : Lasting (Registers key) := by
  rintro q log log' hsub ⟨hu, hs⟩
  refine ⟨hu, ?_⟩
  cases q with
  | findAll userId => exact hs
  | create userId dto => exact hs
  | generate userId name =>
    obtain ⟨hname, pair, hpair, hbuild⟩ := hs
    exact ⟨hname, pair, hsub hpair, hbuild⟩
  | delete id userId => exact hs

theorem issued_of_step (h : (keyServer env).Step x l y) : x.state.issued ⊆ y.state.issued := by
  cases h with
  | begin q => exact fun _ hid => hid
  | act hi he =>
    cases moves_of_mayServe he with
    | stays => exact fun _ hid => hid
    | inserts => exact fun _ hid => List.mem_cons_of_mem _ hid
    | erases => exact fun _ hid => hid
  | crash e hi hl => exact fun _ hid => hid
  | change hc => cases hc <;> exact fun _ hid => hid

theorem new_row (h : (keyServer env).Step x l y) {key : SshKey} (hkey : key ∈ y.state.keys.rows) :
    key ∈ x.state.keys.rows ∨ key.id ∉ x.state.issued ∧ ∃ i data r,
      key = data.row key.id x.state.clock ∧ l = .act i (KeyCall.create data) r := by
  cases h with
  | begin q => exact .inl hkey
  | act hi he =>
    cases moves_of_mayServe he with
    | stays => exact .inl hkey
    | inserts data id hc hid hfree hnew =>
      subst hc
      rcases List.mem_append.mp hkey with hkey | hkey
      · exact .inl hkey
      · obtain rfl := List.mem_singleton.mp hkey
        exact .inr ⟨hnew, _, data, _, rfl, rfl⟩
    | erases id hc => exact .inl ((Table.mem_erase _ _ _).mp hkey).1
  | crash e hi hl => exact .inl hkey
  | change hc =>
    cases hc with
    | passes => exact .inl hkey
    | deleted userId => exact .inl ((Table.mem_erase _ _ _).mp hkey).1

theorem lost_row (h : (keyServer env).Step x l y) {key : SshKey} (hkey : key ∈ x.state.keys.rows) :
    key ∈ y.state.keys.rows ∨ key.userId ∈ y.state.gone ∨
      ∃ i r, l = .act i (KeyCall.delete key.id) r := by
  cases h with
  | begin q => exact .inl hkey
  | act hi he =>
    cases moves_of_mayServe he with
    | stays => exact .inl hkey
    | inserts => exact .inl (List.mem_append_left _ hkey)
    | erases id hc =>
      subst hc
      by_cases hid : key.id = id
      · subst hid
        exact .inr (.inr ⟨_, _, rfl⟩)
      · exact .inl ((Table.mem_erase _ _ _).mpr ⟨hkey, by simpa using hid⟩)
  | crash e hi hl => exact .inl hkey
  | change hc =>
    cases hc with
    | passes => exact .inl hkey
    | deleted userId =>
      by_cases hu : key.userId = userId
      · exact .inr (.inl (hu ▸ List.mem_cons_self))
      · exact .inl ((Table.mem_erase _ _ _).mpr ⟨hkey, by simpa using hu⟩)

theorem gone_of_step (h : (keyServer env).Step x l y) : x.state.gone ⊆ y.state.gone := by
  cases h with
  | begin q => exact fun _ hu => hu
  | act hi he => cases moves_of_mayServe he <;> exact fun _ hu => hu
  | crash e hi hl => exact fun _ hu => hu
  | change hc =>
    cases hc with
    | passes => exact fun _ hu => hu
    | deleted userId => exact fun _ hu => List.mem_cons_of_mem _ hu

/-- What is in the table has its fingerprint and was put there by its owner, unless it was there at
first. What a request has seen of an id stays true: ids are given out once. -/
structure Sound (env : KeyEnv) (s : KeyStore) (x : KeyStage) : Prop where
  printed : ∀ key ∈ x.state.keys.rows,
    generateFingerprint env key.publicKey = .ok key.fingerprint
  origin : ∀ key ∈ x.state.keys.rows, key ∈ s.keys.rows ∨ x.Recorded (Registers key)
  found : ∀ task ∈ x.tasks, ∀ id key, Found task.log id key →
    id ∈ x.state.issued ∧ ∀ row ∈ x.state.keys.rows, row.id = id → row = key
  deleted : ∀ task ∈ x.tasks, ∀ id, Deleted task.log id →
    id ∈ x.state.issued ∧ ∀ row ∈ x.state.keys.rows, row.id ≠ id

theorem new_row_permitted (hk : ∀ task ∈ x.tasks, (registryContract env).Kept task)
    (h : (keyServer env).Step x l y) {key : SshKey} (hkey : key ∈ y.state.keys.rows) :
    key ∈ x.state.keys.rows ∨ key.id ∉ x.state.issued ∧
      generateFingerprint env key.publicKey = .ok key.fingerprint ∧ y.Recorded (Registers key) := by
  rcases new_row h hkey with hold | ⟨hnew, i, data, r, hdata, rfl⟩
  · exact .inl hold
  · obtain ⟨q, log, k, hi⟩ := h.act_inv
    have hm := List.mem_of_getElem? hi
    have hpermitted : Permitted env q log (.create data) := (hk _ hm).1
    obtain ⟨huser, hprint, hsubmitted⟩ := hpermitted
    refine .inr ⟨hnew, ?_, Stage.Recorded.of_task hm (lasting_registers key) ?_ h⟩
    · rw [hdata]
      exact hprint
    · rw [hdata]
      exact ⟨huser.symm, hsubmitted⟩

theorem row_of_issued (h : (keyServer env).Step x l y) {id : String} (hid : id ∈ x.state.issued)
    {key : SshKey} (hkey : key ∈ y.state.keys.rows) (hrow : key.id = id) :
    key ∈ x.state.keys.rows := by
  rcases new_row h hkey with hold | ⟨hnew, -⟩
  · exact hold
  · rw [hrow] at hnew
    exact (hnew hid).elim

theorem sound_step (x : KeyStage) (l : KeyLabel) (y : KeyStage)
    (hx : Sound env s x ∧ ∀ task ∈ x.tasks, (registryContract env).Kept task)
    (h : (keyServer env).Step x l y) :
    Sound env s y ∧ ∀ task ∈ y.tasks, (registryContract env).Kept task := by
  obtain ⟨hsound, hk⟩ := hx
  refine ⟨⟨?_, ?_, ?_, ?_⟩, (registryContract env).kept_step x l y hk h⟩
  · intro key hkey
    rcases new_row_permitted hk h hkey with hold | ⟨-, hprint, -⟩
    · exact hsound.printed key hold
    · exact hprint
  · intro key hkey
    rcases new_row_permitted hk h hkey with hold | ⟨-, -, hrecorded⟩
    · exact (hsound.origin key hold).imp_right fun hr => hr.step (lasting_registers key) h
    · exact .inr hrecorded
  · intro task htask id key hfound
    rcases h.mem_log htask hfound with ⟨old, hold, hfound⟩ | ⟨q, log, heffect⟩
    · obtain ⟨hid, hrows⟩ := hsound.found old hold id key hfound
      refine ⟨issued_of_step h hid, fun row hrow heq => ?_⟩
      exact hrows row (row_of_issued h hid hrow heq) heq
    · obtain ⟨hsame, hkey, rfl⟩ := found_of_mayServe heffect
      refine ⟨issued_of_step h (x.state.known key hkey), fun row hrow heq => ?_⟩
      rw [hsame] at hrow
      exact x.state.keys.eq_of_key_eq hrow hkey heq
  · intro task htask id hdeleted
    rcases h.mem_log htask hdeleted with ⟨old, hold, hdeleted⟩ | ⟨q, log, heffect⟩
    · obtain ⟨hid, hrows⟩ := hsound.deleted old hold id hdeleted
      refine ⟨issued_of_step h hid, fun row hrow heq => ?_⟩
      exact hrows row (row_of_issued h hid hrow heq) heq
    · obtain ⟨hid, hrows⟩ := deleted_of_mayServe heffect
      exact ⟨issued_of_step h hid, hrows⟩

/-- A row that is gone went with its user, or by a request of its owner to delete it. -/
theorem removed_by_owner (hx : Sound env s x)
    (hk : ∀ task ∈ x.tasks, (registryContract env).Kept task) (h : (keyServer env).Step x l y)
    {key : SshKey} (hkey : key ∈ x.state.keys.rows) :
    key ∈ y.state.keys.rows ∨ key.userId ∈ y.state.gone ∨
      ∃ task ∈ y.tasks, task.request = .delete key.id key.userId := by
  rcases lost_row h hkey with hstays | hgone | ⟨i, r, rfl⟩
  · exact .inl hstays
  · exact .inr (.inl hgone)
  · obtain ⟨q, log, k, hi, hi'⟩ := h.act_logs
    have hm := List.mem_of_getElem? hi
    have hpermitted : Permitted env q log (.delete key.id) := (hk _ hm).1
    obtain ⟨found, hfound, hq⟩ := hpermitted
    have hsame : key = found := (hx.found _ hm key.id found hfound).2 key hkey rfl
    exact .inr (.inr ⟨_, List.mem_of_getElem? hi', hsame ▸ hq⟩)

theorem removed_by_owner_run {trace : List (KeyLabel × KeyStage)}
    (hx : Sound env s x ∧ ∀ task ∈ x.tasks, (registryContract env).Kept task)
    (h : Run (keyServer env).Step x trace y) {key : SshKey} (hkey : key ∈ x.state.keys.rows) :
    key ∈ y.state.keys.rows ∨ key.userId ∈ y.state.gone ∨
      ∃ task ∈ y.tasks, task.request = .delete key.id key.userId := by
  induction h with
  | nil => exact .inl hkey
  | snoc hr hs ih =>
    rcases ih with hthere | hgone | ⟨task, htask, hq⟩
    · obtain ⟨hy, hky⟩ := hr.invariant hx sound_step
      exact removed_by_owner hy hky hs hthere
    · exact .inr (.inl (gone_of_step hs hgone))
    · obtain ⟨task', htask', hq', -⟩ := hs.grows htask
      exact .inr (.inr ⟨task', htask', hq'.trans hq⟩)

/-- What holds of the registry at every stage, after a start from `s`. -/
structure Owned (env : KeyEnv) (s : KeyStore) (x : KeyStage) : Prop where
  printed : ∀ key ∈ x.state.keys.rows, generateFingerprint env key.publicKey = .ok key.fingerprint
  origin : ∀ key ∈ x.state.keys.rows, key ∈ s.keys.rows ∨ x.Recorded (Registers key)
  distinct : ∀ key ∈ x.state.keys.rows, ∀ key' ∈ x.state.keys.rows, key.userId = key'.userId →
    keyData env key.publicKey = keyData env key'.publicKey → key = key'
  replies : ∀ task ∈ x.tasks, ∀ reply, task.rest = .ret reply →
    Returned task.request reply task.log
  deleted : ∀ task ∈ x.tasks, ∀ reply id userId, task.rest = .ret reply →
    task.request = .delete id userId → ∀ key ∈ x.state.keys.rows, key.id ≠ id

/-- Keys with one fingerprint for the user are one key. -/
theorem distinct_of_sound (hx : Sound env s x) {key key' : SshKey} (hkey : key ∈ x.state.keys.rows)
    (hkey' : key' ∈ x.state.keys.rows) (hu : key.userId = key'.userId)
    (hdata : keyData env key.publicKey = keyData env key'.publicKey) : key = key' := by
  have hprint := hx.printed key hkey
  have hprint' := hx.printed key' hkey'
  rw [generateFingerprint, hdata, ← generateFingerprint, hprint'] at hprint
  have hfingerprint : key'.fingerprint = key.fingerprint := Except.ok.inj hprint
  apply List.inj_on_of_nodup_map x.state.unique hkey hkey'
  rw [hu, hfingerprint]

theorem owned_of_sound (hx : Sound env s x)
    (hk : ∀ task ∈ x.tasks, (registryContract env).Kept task) : Owned env s x := by
  have hreplies : ∀ task ∈ x.tasks, ∀ reply, task.rest = .ret reply →
      Returned task.request reply task.log := by
    rintro ⟨q, log, rest⟩ htask reply hret
    obtain rfl : rest = .ret reply := hret
    exact hk _ htask
  refine ⟨hx.printed, hx.origin, ?_, hreplies, ?_⟩
  · exact fun key hkey key' hkey' => distinct_of_sound hx hkey hkey'
  · intro task htask reply id userId hret hq
    have hreturned := hreplies task htask reply hret
    rw [hq] at hreturned
    cases reply with
    | message text => exact (hx.deleted task htask id hreturned).2
    | keys | key | generated => exact hreturned.elim

/-- In every interleaving each key was put there by its user, under its fingerprint, and once for
each user however it is written; replies show only the keys of who asks; a key goes only with its user or when its user
asks, and what was reported as deleted is gone for good. -/
theorem keys_belong_to_their_users
    (hs : ∀ key ∈ s.keys.rows, generateFingerprint env key.publicKey = .ok key.fingerprint)
    {before after : List (KeyLabel × KeyStage)} (h : Run (keyServer env).Step ⟨s, []⟩ before x)
    (h' : Run (keyServer env).Step x after y) :
    Owned env s y ∧ ∀ key ∈ x.state.keys.rows, key ∈ y.state.keys.rows ∨
      key.userId ∈ y.state.gone ∨ ∃ task ∈ y.tasks, task.request = .delete key.id key.userId := by
  have hstart : Sound env s ⟨s, []⟩ := ⟨hs, fun key hkey => .inl hkey, by simp, by simp⟩
  have hx := h.invariant ⟨hstart, by simp⟩ sound_step
  obtain ⟨hy, hky⟩ := h'.invariant hx sound_step
  exact ⟨owned_of_sound hy hky, fun key hkey => removed_by_owner_run hx h' hkey⟩

end Runs

section Sample

private def sampleEnv : KeyEnv where
  sha256 data :=
    if data = [0, 0, 0, 7, 115, 115, 104] then
      [73, 108, 236, 182, 237, 246, 104, 225, 178, 18, 7, 4, 102, 141, 135, 23, 160, 49, 24, 215,
        149, 156, 215, 215, 41, 239, 187, 28, 153, 184, 51, 54]
    else List.replicate 32 0
  fromBase64 := Base64.decode

private def laptopKey : SshKey where
  id := "k"
  name := "laptop"
  publicKey := " ssh-rsa  AAAAB3NzaA== me@laptop"
  fingerprint := "SHA256:SWzstu32aOGyEgcEZo2HF6AxGNeVnNfXKe+7HJm4MzY"
  userId := "u"
  createdAt := 7

private def laptopStore : KeyStore where
  keys := ⟨[laptopKey], by decide⟩
  unique := by decide
  issued := ["k"]
  known := by simp [laptopKey]
  users := ["u", "v"]
  gone := []
  clock := 9

private theorem foreign_deletion : ∃ trace, Run (keyServer sampleEnv).Step ⟨laptopStore, []⟩ trace
    ⟨laptopStore, [⟨.delete "k" "v", [⟨KeyCall.findUnique "k", .ok (some laptopKey)⟩],
      .raise ⟨.forbidden, "You do not own this SSH key"⟩⟩]⟩ := by
  have hbegin : (keyServer sampleEnv).Step ⟨laptopStore, []⟩ _ _ := .begin (.delete "k" "v")
  refine ⟨_, (Run.single hbegin).snoc
    (l := .act 0 (KeyCall.findUnique "k") (.ok (some laptopKey))) ?_⟩
  exact Server.Step.act_last (S := keyServer sampleEnv) (c := KeyCall.findUnique "k")
    (r := .ok (some laptopKey)) rfl (.inl ⟨rfl, rfl⟩)

/-- Another user asks for the key to be deleted; it stays. -/
theorem keys_belong_to_their_users_once : ∃ trace y,
    Run (keyServer sampleEnv).Step ⟨laptopStore, []⟩ trace y ∧
    (y.tasks.map fun task => task.request) = [.delete "k" "v"] ∧ Owned sampleEnv laptopStore y ∧
    laptopKey ∈ y.state.keys.rows := by
  obtain ⟨trace, hrun⟩ := foreign_deletion
  have hprinted : ∀ key ∈ laptopStore.keys.rows,
      generateFingerprint sampleEnv key.publicKey = .ok key.fingerprint := by
    intro key hkey
    obtain rfl := List.mem_singleton.mp hkey
    decide +kernel
  obtain ⟨howned, hkeys⟩ := keys_belong_to_their_users hprinted .nil hrun
  refine ⟨trace, _, hrun, rfl, howned, ?_⟩
  rcases hkeys laptopKey (List.mem_singleton_self _) with hthere | hgone | ⟨task, htask, hq⟩
  · exact hthere
  · cases hgone
  · obtain rfl := List.mem_singleton.mp htask
    simp [laptopKey] at hq

end Sample

end CloudVM.SshKeyService
