import CloudVM.Billing.Server
import CloudVM.Framework.Csv
import CloudVM.Framework.Lines
import CloudVM.Worker.Template

/-!
# The reconciliation script

`reconcile_paid_subscriptions.py` reads the latest paid plan of each user out of the payment
database and means to give the user the quota of that plan. It speaks to both databases through
`psql --csv`, and takes the second character of what psql prints for the answer to whether a user
exists. That character belongs to the header, so every user is taken for missing and nothing is
written: a run repairs the databases exactly when they need no repair.
-/

namespace CloudVM

open Process Text PaymentService UserService

namespace Reconcile

section Model

/-- A row of `payments` with its `createdAt`, in milliseconds. -/
structure DatedPayment extends PaymentRow where
  createdAt : Nat
deriving DecidableEq, Repr

/-- The payment database and the user database. -/
structure Databases where
  payments : Table fun p : DatedPayment => p.id
  subs : SubscriptionDb

/-- A value that `json.loads` hands over; `NaN` and the infinities are floats without a value. -/
inductive PyJson where
  | null
  | bool (b : Bool)
  | int (n : Int)
  | float (x : Option Rat)
  | str (s : String)
  | list (values : List PyJson)
  | dict (entries : List (String × PyJson))

/-- What is taken from the runtimes: `json.loads` without its exception, `str.lower`, and `lower`
of Postgres. -/
structure ScriptEnv where
  loads : String → Option PyJson
  lower : String → String
  sqlLower : String → String

/-- What `str.lower` makes of ASCII. -/
def AsciiLower (lower : String → String) : Prop :=
  ∀ s, (∀ c ∈ s.toList, c.toNat < 128) → lower s = String.ofList (s.toList.map Char.toLower)

/-- The statements of the script, each in a run of psql. -/
inductive PsqlCall where
  | latestPaidPlans
  | userExists (userId : String)
  | applyQuota (userId : String) (quota : QuotaLimits)

/-- The text on stdout, or the text on stderr of a run that failed. -/
abbrev psqlInterface : Interface := ⟨PsqlCall, fun _ => Except String String⟩

abbrev ScriptProcess (α : Type) := Process psqlInterface Failure α

end Model

section Settings

/-- The characters at which `str.splitlines` cuts; what it leaves between `\r` and `\n` is blank. -/
def lineEnd (c : Char) : Bool :=
  let n := c.toNat
  (10 ≤ n && n ≤ 13) || (28 ≤ n && n ≤ 30) || n == 0x85 || n == 0x2028 || n == 0x2029

/-- One line of the file; `none` is skipped. -/
def parseLine (raw : String) : Option (String × String) :=
  let line := pyStrip raw
  if line = "" ∨ startsWith line "#" ∨ '=' ∉ line.toList then none
  else
    let key := line.toList.takeWhile (· ≠ '=')
    some (pyStrip (String.ofList key), pyStrip (String.ofList (line.toList.drop (key.length + 1))))

/-- The values in `.env`, the last line first; there may be no file. -/
def parseDotenv (file : Option String) : List (String × String) :=
  ((Lines.whole lineEnd (file.getD "").toList).filterMap fun line => parseLine (String.ofList line)).reverse

/-- `values.get(key, default)`. -/
def value (values : List (String × String)) (key default : String) : String :=
  (values.lookup key).getD default

/-- `url.rsplit("/", 1)[-1] or default`. -/
def databaseName (url default : String) : String :=
  let name := String.ofList (url.toList.reverse.takeWhile (· ≠ '/')).reverse
  if name = "" then default else name

structure DbSettings where
  paymentDb : String
  userDb : String

def dbSettings (values : List (String × String)) : DbSettings where
  paymentDb := databaseName (value values "PAYMENT_DATABASE_URL" "") "cloudvm_payment"
  userDb := databaseName (value values "USER_DATABASE_URL" "") "cloudvm_user"

end Settings

section Catalog

/-- `DEFAULT_PLAN_CATALOG`. -/
def defaultPlanCatalog : ManagedPlanId → QuotaLimits
  | .student => { maxVms := 2, maxCpu := 2, maxRamMb := 4096, maxDiskGb := 40 }
  | .pro => { maxVms := 6, maxCpu := 8, maxRamMb := 16384, maxDiskGb := 120 }
  | .enterprise => { maxVms := 20, maxCpu := 32, maxRamMb := 65536, maxDiskGb := 400 }

/-- `UNLIMITED_QUOTA`. -/
def unlimitedQuota : QuotaLimits :=
  { maxVms := 9999, maxCpu := 9999, maxRamMb := 999999, maxDiskGb := 99999 }

def PyJson.truthy : PyJson → Bool
  | .null => false
  | .bool b => b
  | .int n => n ≠ 0
  | .float x => x ≠ some 0
  | .str s => s ≠ ""
  | .list values => !values.isEmpty
  | .dict entries => !entries.isEmpty

/-- `value.get(key)`; only a dictionary has the method. -/
def PyJson.get? (key : String) : PyJson → Except Failure (Option PyJson)
  | .dict entries => .ok (entries.lookup key)
  | _ => .error ⟨.other, "object has no attribute 'get'"⟩

/-- `value or {}`. -/
def orEmpty (x : Option PyJson) : PyJson := (x.filter PyJson.truthy).getD (.dict [])

/-- `int(value)`, which cuts off the fraction of a float. -/
def pyInt : PyJson → Except Failure Int
  | .int n => .ok n
  | .bool b => .ok (if b then 1 else 0)
  | .float (some x) => .ok (if x < 0 then x.ceil else x.floor)
  | .float none => .error ⟨.value, "cannot convert float to integer"⟩
  | .str s =>
    match Worker.pyInt? s with
    | some n => .ok n
    | none => .error ⟨.value, "invalid literal for int()"⟩
  | _ => .error ⟨.other, "int() argument must be a string or a real number"⟩

/-- `int(q.get(key, default))`. -/
def limit (q : PyJson) (key : String) (default : Int) : Except Failure Int := do
  let x ← q.get? key
  pyInt (x.getD (.int default))

/-- The quota of a plan in the parsed catalog, with the default for each limit. -/
def planQuota (parsed : PyJson) (plan : ManagedPlanId) : Except Failure QuotaLimits := do
  let config ← parsed.get? plan.name
  let quota ← (orEmpty config).get? "quota"
  let q := orEmpty quota
  let maxVms ← limit q "maxVms" (defaultPlanCatalog plan).maxVms
  let maxCpu ← limit q "maxCpu" (defaultPlanCatalog plan).maxCpu
  let maxRamMb ← limit q "maxRamMb" (defaultPlanCatalog plan).maxRamMb
  let maxDiskGb ← limit q "maxDiskGb" (defaultPlanCatalog plan).maxDiskGb
  pure { maxVms, maxCpu, maxRamMb, maxDiskGb }

def quotasOf (student pro enterprise : QuotaLimits) : SubscriptionPlanId → QuotaLimits
  | .managed .student => student
  | .managed .pro => pro
  | .managed .enterprise => enterprise
  | .unlimited => unlimitedQuota

def defaultQuotas : SubscriptionPlanId → QuotaLimits :=
  quotasOf (defaultPlanCatalog .student) (defaultPlanCatalog .pro) (defaultPlanCatalog .enterprise)

@[irreducible] def loadPlanCatalog (env : ScriptEnv) (values : List (String × String)) :
    Except Failure (SubscriptionPlanId → QuotaLimits) :=
  let raw := pyStrip (value values "PLAN_CATALOG_JSON" "")
  if raw = "" then .ok defaultQuotas
  else
    match env.loads raw with
    | none => .ok defaultQuotas
    | some parsed => do
      let student ← planQuota parsed .student
      let pro ← planQuota parsed .pro
      let enterprise ← planQuota parsed .enterprise
      pure (quotasOf student pro enterprise)

end Catalog

section Text

def psqlMarks : Csv.Marks Char where
  comma := ','
  quote := '"'
  newline := '\n'
  comma_ne_quote := by decide
  comma_ne_newline := by decide
  newline_ne_quote := by decide

def psqlQuotes (field : List Char) : Bool :=
  field.any (fun c => c == ',' || c == '"' || c == '\r' || c == '\n') || field == ['\\', '.']

/-- The line ends of a text as `text=True` hands them over. -/
def universalNewlines : List Char → List Char
  | [] => []
  | '\r' :: '\n' :: text => '\n' :: universalNewlines text
  | '\r' :: text => '\n' :: universalNewlines text
  | c :: text => c :: universalNewlines text

/-- The output of `psql --csv`, as the script gets it. -/
def psqlText (header : List String) (rows : List (List String)) : String :=
  String.ofList (universalNewlines
    (Csv.write psqlMarks psqlQuotes ((header :: rows).map fun row => row.map String.toList)))

/-- `csv.DictReader`. -/
def dictReader (out : String) : List (List (String × String)) :=
  match (Csv.read psqlMarks out.toList).map fun row => row.map String.ofList with
  | [] => []
  | header :: rows => (rows.filter (· ≠ [])).map header.zip

end Text

section Script

variable (env : ScriptEnv) (settings : DbSettings)

def runPsql (db : String) (c : PsqlCall) : ScriptProcess String :=
  .call c fun
    | .ok out => pure out
    | .error stderr =>
      throw ⟨.other, if pyStrip stderr = "" then s!"psql failed for database '{db}'" else pyStrip stderr⟩

/-- What the loop makes of a row; `none` is skipped. -/
def paidPlan (row : List (String × String)) : Option (String × SubscriptionPlanId) :=
  let userId := pyStrip ((row.lookup "userId").getD "")
  let planId := env.lower (pyStrip ((row.lookup "plan_id").getD ""))
  if userId = "" then none else (SubscriptionPlanId.ofName? planId).map fun p => (userId, p)

def fetchLatestPaidPlans : ScriptProcess (List (String × SubscriptionPlanId)) := do
  let out ← runPsql settings.paymentDb .latestPaidPlans
  pure ((dictReader out).filterMap (paidPlan env))

/-- `out[1].strip().lower() in {"t", "true", "1"}`. -/
def saysTrue (out : String) : Bool :=
  match out.toList with
  | _ :: c :: _ => ["t", "true", "1"].contains (env.lower (pyStrip (String.singleton c)))
  | _ => false

def userExists (userId : String) : ScriptProcess Bool := do
  let out ← runPsql settings.userDb (.userExists userId)
  pure (saysTrue env out)

def applyQuota (userId : String) (quota : QuotaLimits) : ScriptProcess Unit := do
  let _ ← runPsql settings.userDb (.applyQuota userId quota)
  pure ()

def foundLine (n : Nat) : String := s!"Found {n} paid subscriptions to reconcile."

def skipLine (userId : String) (planId : SubscriptionPlanId) : String :=
  let plan := planId.name
  s!"- SKIP user not found in user DB: {userId} ({plan})"

def dryRunLine (userId : String) (planId : SubscriptionPlanId) (quota : QuotaLimits) : String :=
  let plan := planId.name
  let vms := quota.maxVms
  let cpu := quota.maxCpu
  let ram := quota.maxRamMb
  let disk := quota.maxDiskGb
  s!"- DRY-RUN user={userId} plan={plan} quota=({vms} vms, {cpu} cpu, {ram} ramMb, {disk} diskGb)"

def updatedLine (userId : String) (planId : SubscriptionPlanId) : String :=
  let plan := planId.name
  s!"- UPDATED user={userId} plan={plan}"

def doneLine (dryRun : Bool) (updated skipped : Nat) : String :=
  let mode := if dryRun then "DRY-RUN" else "APPLY"
  s!"Done [{mode}]. updated={updated}, skipped_missing_users={skipped}"

variable (quotas : SubscriptionPlanId → QuotaLimits) (dryRun : Bool)

/-- The loop over the subscriptions, with the two counters; the lines are those it prints. -/
def reconcileEach : List (String × SubscriptionPlanId) → Nat → Nat → ScriptProcess (List String)
  | [], updated, skipped => pure [doneLine dryRun updated skipped]
  | (userId, planId) :: rest, updated, skipped => do
    if !(← userExists env settings userId) then
      let lines ← reconcileEach rest updated (skipped + 1)
      pure (skipLine userId planId :: lines)
    else if dryRun then
      let lines ← reconcileEach rest updated skipped
      pure (dryRunLine userId planId (quotas planId) :: lines)
    else
      applyQuota settings userId (quotas planId)
      let lines ← reconcileEach rest (updated + 1) skipped
      pure (updatedLine userId planId :: lines)

/-- `main`; `dotenv` is the text of `.env`, and the lines are those that are printed. -/
def main (dotenv : Option String) : ScriptProcess (List String) := do
  let values := parseDotenv dotenv
  let quotas ← .ofExcept (loadPlanCatalog env values)
  let latest ← fetchLatestPaidPlans env (dbSettings values)
  if latest = [] then pure ["No paid subscriptions found. Nothing to reconcile."]
  else
    let lines ← reconcileEach env (dbSettings values) quotas dryRun latest 0 0
    pure (foundLine latest.length :: lines)

end Script

section Server

variable (env : ScriptEnv)

/-- A latest one among the settled payments of its user. -/
def LatestPaid (payments : List DatedPayment) (p : DatedPayment) : Prop :=
  p ∈ payments ∧ p.status.settled = true ∧
    ∀ q ∈ payments, q.status.settled = true → q.userId = p.userId → q.createdAt ≤ p.createdAt

/-- The rows of `SELECT DISTINCT ON ("userId")`, in the order of the collation, which is left open
as is the choice among payments of one time. -/
structure Selected (payments rows : List DatedPayment) : Prop where
  latest : ∀ p ∈ rows, LatestPaid payments p
  distinct : (rows.map fun p => p.userId).Nodup
  complete : ∀ p ∈ payments, p.status.settled = true → ∃ r ∈ rows, r.userId = p.userId

/-- The column `plan_id` of the query: `planId`, or the plan named in `method`. -/
def planColumn (p : DatedPayment) : Option String :=
  (truthy p.planId).or ((planMatch (env.sqlLower (p.method.getD ""))).map SubscriptionPlanId.name)

/-- A `NULL` is printed as an empty field. -/
def paidRecord (p : DatedPayment) : List String := [p.userId, (planColumn env p).getD ""]

/-- The row after `ON CONFLICT ("userId") DO UPDATE`: a plan that is there stays. -/
def limitsRow (s : SubscriptionDb) (userId : String) (quota : QuotaLimits) : UserQuota where
  userId := userId
  planId := (s.quotas.find? userId).bind UserQuota.planId
  limits := quota

/-- An `INTEGER` column takes numbers of 32 bits. -/
def fitsInteger (n : Int) : Bool := -2147483648 ≤ n && n ≤ 2147483647

def fitsColumns (quota : QuotaLimits) : Bool :=
  fitsInteger quota.maxVms && fitsInteger quota.maxCpu && fitsInteger quota.maxRamMb &&
    fitsInteger quota.maxDiskGb

/-- What psql prints for a statement that is carried out, and the databases after it. -/
def PsqlCall.serve (c : PsqlCall) (s : Databases) (out : String) (s' : Databases) : Prop :=
  match c with
  | .latestPaidPlans => ∃ rows, Selected s.payments.rows rows ∧
      out = psqlText ["userId", "plan_id"] (rows.map (paidRecord env)) ∧ s' = s
  | .userExists userId =>
      out = psqlText ["exists"] [[if (s.subs.users.find? userId).isSome then "t" else "f"]] ∧ s' = s
  | .applyQuota userId quota => ∃ h, fitsColumns quota = true ∧ out = "INSERT 0 1\n" ∧
      s' = { s with subs := s.subs.putQuota (limitsRow s.subs userId quota) h }

/-- A statement may also fail, whether or not it was carried out. -/
def PsqlCall.mayServe (c : PsqlCall) (s : Databases) (r : Except String String) (s' : Databases) :
    Prop :=
  (∃ out, r = .ok out ∧ c.serve env s out s') ∨
    ((∃ stderr, r = .error stderr) ∧ (s' = s ∨ ∃ out, c.serve env s out s'))

/-- A run of the script from one state of the databases to another. -/
structure Runs (dotenv : Option String) (dryRun : Bool) (s : Databases)
    (out : Except Failure (List String)) (t : Databases) : Prop where
  ends : (main env dryRun dotenv).Ends (PsqlCall.mayServe env) s out t

end Server

section Repair

variable (jsLower : String → String) (quotas : SubscriptionPlanId → QuotaLimits)

/-- A user of the user database whose latest settled payment resolves to a plan. -/
def Entitled (s : Databases) (userId : String) (planId : SubscriptionPlanId) : Prop :=
  (∃ a, s.subs.users.find? userId = some a) ∧
    ∃ p, LatestPaid s.payments.rows p ∧ p.userId = userId ∧
      extractPlanFromPayment jsLower p.toPaymentRow = some planId

/-- `getInternalQuotaSnapshot` answers that the plan is active. -/
def ReportsPlan (s : SubscriptionDb) (userId : String) (planId : SubscriptionPlanId) : Prop :=
  ∃ snapshot, (getInternalQuotaSnapshot userId).Ends SubscriptionCall.serve s
      (.ok (.snapshot snapshot)) s ∧
    snapshot.hasActiveSubscription = true ∧ snapshot.planId = some planId

def HasLimits (s : SubscriptionDb) (userId : String) (limits : QuotaLimits) : Prop :=
  ∃ q, s.quotas.find? userId = some q ∧ q.limits = limits

/-- What is asked of a run from `s` to `t`. -/
structure Repaired (s t : Databases) : Prop where
  paying : ∀ userId planId, Entitled jsLower s userId planId →
    HasLimits t.subs userId (quotas planId) ∧ ReportsPlan t.subs userId planId
  others : ∀ userId, (∀ planId, ¬ Entitled jsLower s userId planId) →
    t.subs.quotas.find? userId = s.subs.quotas.find? userId

/-- The plan stands in the quota row; an admin has the unlimited plan whatever the row says. -/
def PlanStored (s : SubscriptionDb) (userId : String) (planId : SubscriptionPlanId) : Prop :=
  ∃ a, s.users.find? userId = some a ∧
    if a.role = .admin then planId = .unlimited
    else ∃ q, s.quotas.find? userId = some q ∧ q.planId = some planId

/-- Every paying user has the limits and the plan already. -/
def InStep (s : Databases) : Prop :=
  ∀ userId planId, Entitled jsLower s userId planId →
    HasLimits s.subs userId (quotas planId) ∧ PlanStored s.subs userId planId

end Repair

section Reading

theorem universalNewlines_cons {c : Char} (h : c ≠ '\r') (text : List Char) :
    universalNewlines (c :: text) = c :: universalNewlines text := by
  simp [universalNewlines, h]

theorem universalNewlines_plain {text : List Char} (h : '\r' ∉ text) :
    universalNewlines text = text := by
  induction text with
  | nil => rfl
  | cons c text ih =>
    have hc : c ≠ '\r' := by
      rintro rfl
      exact h (by simp)
    have hrest : '\r' ∉ text := fun hm => h (List.mem_cons_of_mem c hm)
    rw [universalNewlines_cons hc, ih hrest]

theorem careful_psqlQuotes : Csv.Careful psqlMarks psqlQuotes := by
  intro text h c hc
  have hany : ∀ d ∈ text, (d == ',' || d == '"' || d == '\r' || d == '\n') = false := by
    simp only [psqlQuotes, Bool.or_eq_false_iff, List.any_eq_false] at h
    intro d hd
    simpa using h.1 d hd
  have hmark := hany c hc
  simp only [Bool.or_eq_false_iff, beq_eq_false_iff_ne] at hmark
  exact ⟨hmark.1.1.1, hmark.1.1.2, hmark.2⟩

theorem dictReader_psqlText {header : List String} {rows : List (List String)}
    (hheader : 2 ≤ header.length) (hrows : ∀ row ∈ rows, 2 ≤ row.length)
    (hplain : ∀ row ∈ header :: rows, ∀ field ∈ row, '\r' ∉ field.toList) :
    dictReader (psqlText header rows) = rows.map header.zip := by
  have hmarks : '\r' ∉ Csv.write psqlMarks psqlQuotes
      ((header :: rows).map fun row => row.map String.toList) := by
    intro hc
    rcases Csv.mem_write hc with hc | hc | hc | ⟨texts, htexts, text, htext, hc⟩
    · exact absurd hc (by decide)
    · exact absurd hc (by decide)
    · exact absurd hc (by decide)
    · obtain ⟨row, hrow, rfl⟩ := List.mem_map.mp htexts
      obtain ⟨field, hfield, rfl⟩ := List.mem_map.mp htext
      exact hplain row hrow field hfield hc
  have hlen : ∀ texts ∈ (header :: rows).map fun row => row.map String.toList, 2 ≤ texts.length := by
    intro texts htexts
    obtain ⟨row, hrow, rfl⟩ := List.mem_map.mp htexts
    rw [List.length_map]
    rcases List.mem_cons.mp hrow with rfl | hrow
    · exact hheader
    · exact hrows row hrow
  have hread : (Csv.read psqlMarks (psqlText header rows).toList).map
      (fun row => row.map String.ofList) = header :: rows := by
    rw [psqlText, String.toList_ofList, universalNewlines_plain hmarks,
      Csv.read_write careful_psqlQuotes hlen, List.map_map]
    have hback : ∀ row ∈ header :: rows,
        ((fun row => row.map String.ofList) ∘ fun row => row.map String.toList) row = id row := by
      intro row _
      simp
    rw [List.map_congr_left hback, List.map_id]
  have hkeep : rows.filter (· ≠ []) = rows := by
    apply List.filter_eq_self.mpr
    intro row hrow
    have hpos := hrows row hrow
    apply decide_eq_true
    rintro rfl
    simp at hpos
  rw [dictReader, hread]
  simp only [hkeep]

end Reading

section Answers

variable {env : ScriptEnv}

private theorem exists_text (answer : String) :
    ∃ rest, (psqlText ["exists"] [[answer]]).toList = 'e' :: 'x' :: rest := by
  have hfield : Csv.writeField psqlMarks psqlQuotes "exists".toList = "exists".toList := by decide
  have hrecord : Csv.writeRecord psqlMarks psqlQuotes ["exists".toList] = "exists\n".toList := by
    rw [Csv.writeRecord, hfield]
    rfl
  rw [psqlText, String.toList_ofList]
  simp only [List.map_cons, List.map_nil, Csv.write, List.flatMap_cons, hrecord]
  exact ⟨_, rfl⟩

/-- No answer about a user is taken for a yes. -/
theorem saysTrue_exists (hlower : AsciiLower env.lower) (answer : String) :
    saysTrue env (psqlText ["exists"] [[answer]]) = false := by
  obtain ⟨rest, htext⟩ := exists_text answer
  have hstrip : pyStrip (String.singleton 'x') = "x" := by decide
  have hascii : ∀ c ∈ "x".toList, c.toNat < 128 := by
    intro c hc
    obtain rfl : c = 'x' := List.mem_singleton.mp hc
    decide
  have hx : env.lower "x" = "x" := hlower "x" hascii
  simp only [saysTrue, htext, hstrip, hx]
  decide

end Answers

section Run

variable {env : ScriptEnv} {settings : DbSettings} {s : Databases}

def IsRead : PsqlCall → Prop
  | .latestPaidPlans => True
  | .userExists _ => True
  | .applyQuota _ _ => False

theorem read_unchanged {c : PsqlCall} {r : Except String String} {t : Databases} (hc : IsRead c)
    (h : c.mayServe env s r t) : t = s := by
  have hserve : ∀ out, c.serve env s out t → t = s := by
    intro out hout
    cases c with
    | latestPaidPlans =>
      obtain ⟨rows, -, -, ht⟩ := hout
      exact ht
    | userExists userId => exact hout.2
    | applyQuota userId quota => exact hc.elim
  rcases h with ⟨out, -, hout⟩ | ⟨-, ht | ⟨out, hout⟩⟩
  · exact hserve out hout
  · exact ht
  · exact hserve out hout

theorem runPsql_wp {db : String} {c : PsqlCall} (hc : IsRead c) :
    (runPsql db c).Wp (fun _ => IsRead) (PsqlCall.mayServe env)
      (Post (fun out t => t = s ∧ c.serve env s out s) fun _ t => t = s) s := by
  refine ⟨hc, ?_⟩
  intro r t h
  obtain rfl := read_unchanged hc h
  cases r with
  | error stderr => rfl
  | ok out =>
    rcases h with ⟨out', hout, hserve⟩ | ⟨⟨e, he⟩, -⟩
    · cases hout
      exact ⟨rfl, hserve⟩
    · cases he

/-- Every user is taken for missing. -/
theorem userExists_wp (hlower : AsciiLower env.lower) (userId : String) :
    (userExists env settings userId).Wp (fun _ => IsRead) (PsqlCall.mayServe env)
      (Post (fun found t => t = s ∧ found = false) fun _ t => t = s) s := by
  apply (runPsql_wp (c := .userExists userId) trivial).bind
  · intro e t h
    exact h
  · intro out t h
    obtain ⟨rfl, rfl, -⟩ := h
    exact ⟨rfl, saysTrue_exists hlower _⟩

/-- What is printed for subscriptions whose users are all taken for missing. -/
def skippedLines (dryRun : Bool) (latest : List (String × SubscriptionPlanId))
    (updated skipped : Nat) : List String :=
  latest.map (fun x => skipLine x.1 x.2) ++ [doneLine dryRun updated (skipped + latest.length)]

theorem reconcileEach_wp (hlower : AsciiLower env.lower)
    (quotas : SubscriptionPlanId → QuotaLimits) (dryRun : Bool)
    (latest : List (String × SubscriptionPlanId)) (updated skipped : Nat) :
    (reconcileEach env settings quotas dryRun latest updated skipped).Wp (fun _ => IsRead)
      (PsqlCall.mayServe env)
      (Post (fun lines t => t = s ∧ lines = skippedLines dryRun latest updated skipped)
        fun _ t => t = s) s := by
  induction latest generalizing skipped with
  | nil => exact ⟨rfl, rfl⟩
  | cons x rest ih =>
    obtain ⟨userId, planId⟩ := x
    rw [reconcileEach]
    apply (userExists_wp hlower userId).bind
    · intro e t h
      exact h
    · intro found t h
      obtain ⟨rfl, rfl⟩ := h
      apply (ih (skipped + 1)).bind
      · intro e t h
        exact h
      · intro lines t h
        obtain ⟨rfl, rfl⟩ := h
        refine ⟨rfl, ?_⟩
        simp [skippedLines, Nat.add_assoc, Nat.add_comm 1]

/-- What the script prints for the subscriptions it has read. -/
def report (dryRun : Bool) (latest : List (String × SubscriptionPlanId)) : List String :=
  if latest = [] then ["No paid subscriptions found. Nothing to reconcile."]
  else foundLine latest.length :: skippedLines dryRun latest 0 0

/-- The subscriptions that the script reads out of the rows of the query. -/
def subscriptions (env : ScriptEnv) (rows : List DatedPayment) :
    List (String × SubscriptionPlanId) :=
  (dictReader (psqlText ["userId", "plan_id"] (rows.map (paidRecord env)))).filterMap (paidPlan env)

theorem fetchLatestPaidPlans_wp :
    (fetchLatestPaidPlans env settings).Wp (fun _ => IsRead) (PsqlCall.mayServe env)
      (Post (fun latest t => t = s ∧
          ∃ rows, Selected s.payments.rows rows ∧ latest = subscriptions env rows)
        fun _ t => t = s) s := by
  apply (runPsql_wp (c := .latestPaidPlans) trivial).bind
  · intro e t h
    exact h
  · intro out t h
    obtain ⟨ht, rows, hrows, hout, -⟩ := h
    exact ⟨ht, rows, hrows, by rw [hout, subscriptions]⟩

theorem main_wp (hlower : AsciiLower env.lower) (dotenv : Option String) (dryRun : Bool) :
    (main env dryRun dotenv).Wp (fun _ => IsRead) (PsqlCall.mayServe env)
      (Post (fun lines t => t = s ∧
          ∃ rows, Selected s.payments.rows rows ∧ lines = report dryRun (subscriptions env rows))
        fun _ t => t = s) s := by
  rw [main, wp_bind, wp_ofExcept]
  cases loadPlanCatalog env (parseDotenv dotenv) with
  | error e => rfl
  | ok quotas =>
    rw [post_ok]
    apply fetchLatestPaidPlans_wp.bind
    · intro e t h
      exact h
    · intro latest t h
      obtain ⟨rfl, rows, hrows, hlatest⟩ := h
      by_cases hnil : latest = []
      · rw [if_pos hnil]
        exact ⟨rfl, rows, hrows, by rw [← hlatest, report, if_pos hnil]⟩
      · rw [if_neg hnil]
        apply (reconcileEach_wp hlower quotas dryRun latest 0 0).bind
        · intro e t h
          exact h
        · intro lines t h
          obtain ⟨rfl, rfl⟩ := h
          exact ⟨rfl, rows, hrows, by rw [← hlatest, report, if_neg hnil]⟩

end Run

section Lines

variable {env : ScriptEnv}

def subscription (env : ScriptEnv) (p : DatedPayment) : Option (String × SubscriptionPlanId) :=
  let userId := pyStrip p.userId
  let planId := env.lower (pyStrip ((planColumn env p).getD ""))
  if userId = "" then none else (SubscriptionPlanId.ofName? planId).map fun p => (userId, p)

/-- Neither the user id nor the plan has a carriage return, which `text=True` would replace. -/
def Plain (env : ScriptEnv) (p : DatedPayment) : Prop :=
  '\r' ∉ p.userId.toList ∧ '\r' ∉ ((planColumn env p).getD "").toList

/-- Through SQL, the text of psql and the reader the script gets the subscriptions of the table. -/
theorem subscriptions_plain {rows : List DatedPayment} (h : ∀ p ∈ rows, Plain env p) :
    subscriptions env rows = rows.filterMap (subscription env) := by
  have hheader : 2 ≤ ["userId", "plan_id"].length := Nat.le_refl 2
  have hlen : ∀ row ∈ rows.map (paidRecord env), 2 ≤ row.length := by
    intro row hrow
    obtain ⟨p, -, rfl⟩ := List.mem_map.mp hrow
    exact Nat.le_refl 2
  have hplain : ∀ row ∈ ["userId", "plan_id"] :: rows.map (paidRecord env), ∀ field ∈ row,
      '\r' ∉ field.toList := by
    intro row hrow
    rcases List.mem_cons.mp hrow with rfl | hrow
    · decide
    · obtain ⟨p, hp, rfl⟩ := List.mem_map.mp hrow
      simpa [paidRecord, Plain] using h p hp
  rw [subscriptions, dictReader_psqlText hheader hlen hplain, List.map_map, List.filterMap_map]
  apply List.filterMap_congr
  intro p _
  simp [paidPlan, paidRecord, subscription, List.lookup_cons]

theorem lines_of_runs (hlower : AsciiLower env.lower) {dotenv : Option String} {dryRun : Bool}
    {s t : Databases} {lines : List String} (hplain : ∀ p ∈ s.payments.rows, Plain env p)
    (h : Runs env dotenv dryRun s (.ok lines) t) :
    ∃ rows, Selected s.payments.rows rows ∧
      lines = report dryRun (rows.filterMap (subscription env)) := by
  obtain ⟨-, rows, hrows, hlines⟩ := Wp.ends (main_wp hlower dotenv dryRun) h.ends
  refine ⟨rows, hrows, ?_⟩
  rw [hlines, subscriptions_plain fun p hp => hplain p (hrows.latest p hp).1]

theorem unchanged_of_runs (hlower : AsciiLower env.lower) {dotenv : Option String} {dryRun : Bool}
    {s t : Databases} {out : Except Failure (List String)} (h : Runs env dotenv dryRun s out t) :
    t = s := by
  have hout := Wp.ends (main_wp hlower dotenv dryRun) h.ends
  cases out with
  | error e => exact hout
  | ok lines => exact hout.1

end Lines

section Complete

variable {env : ScriptEnv} {settings : DbSettings} {s : Databases}

theorem runPsql_ends {db : String} {c : PsqlCall} {out : String} (h : c.serve env s out s) :
    (runPsql db c).Ends (PsqlCall.mayServe env) s (.ok out) s :=
  ⟨.ok out, s, .inl ⟨out, rfl, h⟩, rfl, rfl⟩

theorem reconcileEach_ends (hlower : AsciiLower env.lower)
    (quotas : SubscriptionPlanId → QuotaLimits) (dryRun : Bool)
    (latest : List (String × SubscriptionPlanId)) (updated skipped : Nat) :
    (reconcileEach env settings quotas dryRun latest updated skipped).Ends (PsqlCall.mayServe env) s
      (.ok (skippedLines dryRun latest updated skipped)) s := by
  induction latest generalizing skipped with
  | nil => exact ⟨rfl, rfl⟩
  | cons x rest ih =>
    obtain ⟨userId, planId⟩ := x
    have hexists : (userExists env settings userId).Ends (PsqlCall.mayServe env) s (.ok false) s := by
      apply (runPsql_ends (c := .userExists userId) ⟨rfl, rfl⟩).bind
      rw [saysTrue_exists hlower]
      exact ⟨rfl, rfl⟩
    have hlines : skippedLines dryRun ((userId, planId) :: rest) updated skipped =
        skipLine userId planId :: skippedLines dryRun rest updated (skipped + 1) := by
      simp [skippedLines, Nat.add_assoc, Nat.add_comm 1]
    rw [reconcileEach, hlines]
    apply hexists.bind
    apply (ih (skipped + 1)).bind
    exact ⟨rfl, rfl⟩

/-- When psql carries out every statement, the script gets to its end. -/
theorem runs_complete (hlower : AsciiLower env.lower) {dotenv : Option String} (dryRun : Bool)
    {quotas : SubscriptionPlanId → QuotaLimits}
    (hquotas : loadPlanCatalog env (parseDotenv dotenv) = .ok quotas) {rows : List DatedPayment}
    (hrows : Selected s.payments.rows rows) :
    Runs env dotenv dryRun s (.ok (report dryRun (subscriptions env rows))) s := by
  have hfetch : (fetchLatestPaidPlans env (dbSettings (parseDotenv dotenv))).Ends
      (PsqlCall.mayServe env) s (.ok (subscriptions env rows)) s := by
    apply (runPsql_ends (c := .latestPaidPlans) ⟨rows, hrows, rfl, rfl⟩).bind
    exact ⟨by rw [subscriptions], rfl⟩
  generalize hlatest : subscriptions env rows = latest at hfetch
  constructor
  rw [main, hquotas, ofExcept_ok, ret_bind]
  apply hfetch.bind
  by_cases hnil : latest = []
  · rw [if_pos hnil, report, if_pos hnil]
    exact ⟨rfl, rfl⟩
  · rw [if_neg hnil, report, if_neg hnil]
    apply (reconcileEach_ends hlower quotas dryRun latest 0 0).bind
    exact ⟨rfl, rfl⟩

end Complete

section Snapshot

variable {s : SubscriptionDb} {userId : String} {planId : SubscriptionPlanId}

theorem snapshot_ends {a : Account} (h : s.users.find? userId = some a) {snapshot : QuotaSnapshot} :
    (getInternalQuotaSnapshot userId).Ends SubscriptionCall.serve s (.ok (.snapshot snapshot)) s ↔
      snapshot = quotaSnapshot a.role (s.quotas.find? userId) := by
  have hlookup : s.lookup userId = some (a, s.quotas.find? userId) := by
    simp [SubscriptionDb.lookup, h]
  constructor
  · rintro ⟨r, u, ⟨rfl, rfl⟩, hend⟩
    rw [hlookup] at hend
    have hreply := hend.1
    simp only [Except.ok.injEq, SubscriptionReply.snapshot.injEq] at hreply
    exact hreply
  · rintro rfl
    refine ⟨_, s, ⟨rfl, rfl⟩, ?_⟩
    rw [hlookup]
    exact ⟨rfl, rfl⟩

theorem not_snapshot_ends (h : s.users.find? userId = none) {snapshot : QuotaSnapshot} :
    ¬ (getInternalQuotaSnapshot userId).Ends SubscriptionCall.serve s
      (.ok (.snapshot snapshot)) s := by
  rintro ⟨r, u, ⟨rfl, rfl⟩, hend⟩
  have hlookup : u.lookup userId = none := by simp [SubscriptionDb.lookup, h]
  rw [hlookup] at hend
  cases hend.1

/-- The plan is reported exactly when it is stored, or the user is an admin. -/
theorem reportsPlan_iff : ReportsPlan s userId planId ↔ PlanStored s userId planId := by
  cases hfind : s.users.find? userId with
  | none =>
    constructor
    · rintro ⟨snapshot, hend, -⟩
      exact (not_snapshot_ends hfind hend).elim
    · rintro ⟨a, ha, -⟩
      rw [hfind] at ha
      cases ha
  | some a =>
    have hstored : PlanStored s userId planId ↔ if a.role = .admin then planId = .unlimited
        else ∃ q, s.quotas.find? userId = some q ∧ q.planId = some planId := by
      simp [PlanStored, hfind]
    rw [hstored]
    simp only [ReportsPlan, snapshot_ends hfind, exists_eq_left]
    by_cases hrole : a.role = .admin
    · simp [quotaSnapshot, hrole, eq_comm]
    · cases hquota : s.quotas.find? userId with
      | none => simp [quotaSnapshot, hrole]
      | some q =>
        simp only [quotaSnapshot, hrole, if_false, Option.some.injEq, exists_eq_left']
        constructor
        · intro h
          exact h.2
        · intro h
          exact ⟨by rw [h]; rfl, h⟩

end Snapshot

/-- A run without `--dry-run` repairs the databases exactly when every paying user has the limits
and the plan already. -/
theorem reconcile_repairs_iff {env : ScriptEnv} (hlower : AsciiLower env.lower)
    {dotenv : Option String} {quotas : SubscriptionPlanId → QuotaLimits}
    (_hquotas : loadPlanCatalog env (parseDotenv dotenv) = .ok quotas) (jsLower : String → String)
    {s t : Databases} {out : Except Failure (List String)} (h : Runs env dotenv false s out t) :
    Repaired jsLower quotas s t ↔ InStep jsLower quotas s := by
  obtain rfl := unchanged_of_runs hlower h
  constructor
  · intro hrepaired userId planId hentitled
    obtain ⟨hlimits, hplan⟩ := hrepaired.paying userId planId hentitled
    exact ⟨hlimits, reportsPlan_iff.mp hplan⟩
  · intro hstep
    refine ⟨?_, fun _ _ => rfl⟩
    intro userId planId hentitled
    obtain ⟨hlimits, hplan⟩ := hstep userId planId hentitled
    exact ⟨hlimits, reportsPlan_iff.mpr hplan⟩

private def asciiLower (s : String) : String := String.ofList (s.toList.map Char.toLower)

private def runtime : ScriptEnv := ⟨fun _ => none, asciiLower, asciiLower⟩

private theorem asciiLower_runtime : AsciiLower runtime.lower := fun _ _ => rfl

private theorem runtime_catalog : loadPlanCatalog runtime (parseDotenv none) = .ok defaultQuotas := by
  have hblank : pyStrip (value (parseDotenv none) "PLAN_CATALOG_JSON" "") = "" := by decide
  rw [loadPlanCatalog, hblank]
  rfl

private def proPayment : DatedPayment where
  id := "p1"
  userId := "u"
  planId := some "pro"
  amount := 79
  status := .paid
  method := some "stripe:cs_1"
  createdAt := 0

private theorem proPayment_resolves (planId : SubscriptionPlanId) :
    extractPlanFromPayment asciiLower proPayment.toPaymentRow = some planId ↔
      planId = .managed .pro := by
  have hpro : extractPlanFromPayment asciiLower proPayment.toPaymentRow = some (.managed .pro) := by
    decide
  rw [hpro, Option.some.injEq, eq_comm]

private def paidBy (subs : SubscriptionDb) : Databases := ⟨⟨[proPayment], List.nodup_singleton _⟩, subs⟩

private theorem latest_proPayment {subs : SubscriptionDb} {p : DatedPayment} :
    LatestPaid (paidBy subs).payments.rows p ↔ p = proPayment := by
  constructor
  · intro h
    exact List.mem_singleton.mp h.1
  · rintro rfl
    refine ⟨List.mem_singleton.mpr rfl, rfl, ?_⟩
    intro q hq _ _
    rw [List.mem_singleton.mp hq]

private theorem selected_proPayment (subs : SubscriptionDb) :
    Selected (paidBy subs).payments.rows [proPayment] := by
  refine ⟨?_, List.nodup_singleton _, ?_⟩
  · intro p hp
    exact latest_proPayment.mpr (List.mem_singleton.mp hp)
  · intro p hp _
    exact ⟨p, hp, rfl⟩

private theorem subscriptions_proPayment :
    subscriptions runtime [proPayment] = [("u", .managed .pro)] := by
  have hplain : ∀ p ∈ [proPayment], Plain runtime p := by
    intro p hp
    rw [List.mem_singleton.mp hp]
    exact ⟨by decide, by decide⟩
  have hone : subscription runtime proPayment = some ("u", .managed .pro) := by decide
  rw [subscriptions_plain hplain, List.filterMap_cons_some hone]
  rfl

private theorem paidBy_runs (subs : SubscriptionDb) :
    Runs runtime none false (paidBy subs) (.ok [foundLine 1, skipLine "u" (.managed .pro), doneLine false 0 1])
      (paidBy subs) := by
  have hrun := runs_complete asciiLower_runtime false runtime_catalog (selected_proPayment subs)
  rw [subscriptions_proPayment] at hrun
  exact hrun

private theorem entitled_paidBy {subs : SubscriptionDb} {userId : String} {planId : SubscriptionPlanId}
    (h : Entitled asciiLower (paidBy subs) userId planId) : userId = "u" ∧ planId = .managed .pro := by
  obtain ⟨-, p, hp, hid, hplan⟩ := h
  obtain rfl := latest_proPayment.mp hp
  exact ⟨hid.symm, (proPayment_resolves planId).mp hplan⟩

private def granted : SubscriptionDb :=
  SubscriptionDb.sample.putQuota ⟨"u", some (.managed .pro), defaultQuotas (.managed .pro)⟩
    ⟨_, .head _, rfl⟩

theorem reconcile_repairs_iff_granted :
    Repaired asciiLower defaultQuotas (paidBy granted) (paidBy granted) := by
  have hstep : InStep asciiLower defaultQuotas (paidBy granted) := by
    intro userId planId h
    obtain ⟨rfl, rfl⟩ := entitled_paidBy h
    exact ⟨⟨_, rfl, rfl⟩, _, rfl, _, rfl, rfl⟩
  exact (reconcile_repairs_iff asciiLower_runtime runtime_catalog asciiLower (paidBy_runs granted)).mpr
    hstep

/-- A user who has paid and has no quota row is skipped. -/
theorem paying_user_skipped : ∃ t,
    loadPlanCatalog runtime (parseDotenv none) = .ok defaultQuotas ∧
    Runs runtime none false (paidBy .sample)
      (.ok [foundLine 1, skipLine "u" (.managed .pro), doneLine false 0 1]) t ∧
    ¬ Repaired asciiLower defaultQuotas (paidBy .sample) t := by
  refine ⟨_, runtime_catalog, paidBy_runs .sample, ?_⟩
  intro h
  have hentitled : Entitled asciiLower (paidBy .sample) "u" (.managed .pro) :=
    ⟨⟨_, rfl⟩, proPayment, latest_proPayment.mpr rfl, rfl, (proPayment_resolves _).mpr rfl⟩
  obtain ⟨⟨q, hq, -⟩, -⟩ := h.paying "u" (.managed .pro) hentitled
  cases hq

end Reconcile

end CloudVM
