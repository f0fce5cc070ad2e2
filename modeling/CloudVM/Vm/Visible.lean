import CloudVM.Framework.Logic
import CloudVM.Vm.Service
import Mathlib.Algebra.BigOperators.Group.List.Basic
import Mathlib.Algebra.Ring.Int.Defs

/-!
# What a caller sees

`listVms`, `getVmSshPrivateKey` and `getStats`, and who is shown or drives which VM. A query
of Prisma is given by its arguments; the rows it may answer are those of the table that match,
in any order that `orderBy` allows. A number that is not an integer is `none`.
-/

namespace CloudVM

/-- The filter on `status`; `named` is a text the caller has sent. -/
inductive StatusFilter where
  | named (text : String)
  | isNot (s : VmStatus)
  | oneOf (ss : List VmStatus)
deriving DecidableEq, Repr

/-- `where` of a query on `virtual_machines`; `search` stands for the `OR` over the texts. -/
structure VmWhere where
  userId : Option String := none
  status : StatusFilter
  search : Option String := none
deriving DecidableEq, Repr

/-- What the query of `getVmSshPrivateKey` selects. -/
structure VmKeyRow where
  id : String
  name : String
  userId : String
  sshPrivateKeyEncrypted : Option String
deriving DecidableEq, Repr

/-- `_sum` of an aggregate, without a value when no row matches. -/
structure VmSums where
  cpu : Option Int
  ramMb : Option Int
  diskGb : Option Int
deriving DecidableEq, Repr

inductive QueryCall where
  | findMany (filter : VmWhere) (skip take : Option Int)
  | count (filter : VmWhere)
  | aggregate (filter : VmWhere)
  | findKey (vmId : String)

@[reducible] def QueryCall.Answer : QueryCall → Type
  | .findMany _ _ _ => Except Failure (List VmRow)
  | .count _ => Except Failure Nat
  | .aggregate _ => Except Failure VmSums
  | .findKey _ => Except Failure (Option VmKeyRow)

@[reducible] def queryInterface : Interface where
  Call := QueryCall
  Answer := QueryCall.Answer

abbrev QueryProcess (α : Type) := Process queryInterface Failure α

/-- The query string of `GET /vms`. -/
structure VmListQuery where
  status : Option String := none
  search : Option String := none
  page : Option (Option Int) := none
  limit : Option (Option Int) := none
deriving DecidableEq, Repr

structure VmPageMeta where
  total : Nat
  page : Option Int
  limit : Option Int
  totalPages : Option Int
deriving DecidableEq, Repr

structure VmPage where
  data : List VmRow
  pageMeta : VmPageMeta
deriving DecidableEq, Repr

structure VmPrivateKey where
  vmId : String
  vmName : String
  privateKey : String
deriving DecidableEq, Repr

structure VmStats where
  total : Nat
  running : Nat
  stopped : Nat
  pending : Nat
  error : Nat
  totalCpu : Int
  totalRamMb : Int
  totalDiskGb : Int
deriving DecidableEq, Repr

section Database

/-- Prisma refuses a text that is not a value of the enumeration. -/
def StatusFilter.Known : StatusFilter → Prop
  | .named text => ∃ s : VmStatus, s.name = text
  | _ => True

def StatusFilter.keeps : StatusFilter → VmStatus → Bool
  | .named text, s => s.name == text
  | .isNot t, s => s != t
  | .oneOf ts, s => ts.contains s

/-- The rows of a `where`. `contains` is the database's search for a text without regard to
case. -/
def VmWhere.keeps (contains : String → String → Bool) (filter : VmWhere) (r : VmRow) : Bool :=
  filter.userId.all (· == r.userId) && filter.status.keeps r.status &&
    filter.search.all fun s => contains s r.name || r.ipAddress.any (contains s)

/-- The part of the sorted rows that `skip` and `take` choose; a negative `take` counts from
the end. -/
def window (skip : Nat) (take : Int) (rows : List VmRow) : List VmRow :=
  if take < 0 then ((rows.reverse.drop skip).take take.natAbs).reverse
  else (rows.drop skip).take take.natAbs

variable (contains : String → String → Bool)

/-- The rows that match, as one of the lists the query may read. -/
def Matching (filter : VmWhere) (db : VmTable) (rows : List VmRow) : Prop :=
  filter.status.Known ∧ rows.Perm (db.rows.filter (filter.keeps contains))

/-- `orderBy: { createdAt: "desc" }`. -/
def NewestFirst (rows : List VmRow) : Prop := rows.Pairwise fun a b => b.createdAt ≤ a.createdAt

def sumOf (f : VmRow → Int) (rows : List VmRow) : Option Int :=
  if rows.isEmpty then none else some (rows.map f).sum

def QueryCall.Fits (db : VmTable) : (c : QueryCall) → c.Answer → Prop
  | .findMany filter skip take, r => ∃ rows k n, Matching contains filter db rows ∧
      NewestFirst rows ∧ skip = some ((k : Nat) : Int) ∧ take = some n ∧ r = .ok (window k n rows)
  | .count filter, r => ∃ rows, Matching contains filter db rows ∧ r = .ok rows.length
  | .aggregate filter, r => ∃ rows, Matching contains filter db rows ∧
      r = .ok ⟨sumOf VmRow.cpu rows, sumOf VmRow.ramMb rows, sumOf VmRow.diskGb rows⟩
  | .findKey vmId, r => r = .ok ((db.find? vmId).map fun vm =>
      ⟨vm.id, vm.name, vm.userId, vm.sshPrivateKeyEncrypted⟩)

def QueryCall.Fails : (c : QueryCall) → c.Answer → Prop
  | .findMany _ _ _, r | .count _, r | .aggregate _, r | .findKey _, r => ∃ e, r = .error e

def queryEffect (c : QueryCall) (db : VmTable) (r : c.Answer) (db' : VmTable) : Prop :=
  db' = db ∧ (c.Fits contains db r ∨ c.Fails r)

/-- The request may end with this outcome when the table is `db`. -/
def Yields {α : Type} (p : QueryProcess α) (db : VmTable) (out : Except Failure α) : Prop :=
  p.May (queryEffect contains) (fun o _ => o = out) db

/-- The answers of the table to the requests that drive a VM; all others are arbitrary. -/
def tableEffect : (c : VmCall) → VmTable → c.Answer → VmTable → Prop
  | .findVm vmId, db, r, db' => db' = db ∧ (r = .ok (db.find? vmId) ∨ ∃ e, r = .error e)
  | _, db, _, db' => db' = db

end Database

namespace VmService

section Requests

def queryRows (filter : VmWhere) (skip take : Option Int) : QueryProcess (List VmRow) :=
  .call (.findMany filter skip take) .ofExcept

def queryCount (filter : VmWhere) : QueryProcess Nat := .call (.count filter) .ofExcept

/-- `where.userId` of a list or a count. -/
def ownerFilter (userId : String) (role : Role) : Option String :=
  if role = .admin then none else some userId

/-- `where` of `listVms`; an empty text is no filter. -/
def listFilter (userId : String) (role : Role) (query : VmListQuery) : VmWhere where
  userId := ownerFilter userId role
  status := match truthyText query.status with
    | some s => .named s
    | none => .isNot .deleted
  search := truthyText query.search

/-- `Math.ceil(total / limit)`. -/
def totalPages (total : Nat) (limit : Option Int) : Option Int :=
  match limit with
  | none | some 0 => none
  | some n => some (-(-(total : Int)).fdiv n)

def listVms (userId : String) (role : Role) (query : VmListQuery) : QueryProcess VmPage := do
  let page := query.page.getD (some 1)
  let limit := (query.limit.getD (some 20)).map fun n => min n 100
  let skip := page.bind fun p => limit.map fun n => (p - 1) * n
  let filter := listFilter userId role query
  let vms ← queryRows filter skip limit
  let total ← queryCount filter
  pure ⟨vms, ⟨total, page, limit, totalPages total limit⟩⟩

def getVmSshPrivateKey (decryptVmPrivateKey : String → Except Failure String) (vmId : String)
    (userId : String) (role : Role) : QueryProcess VmPrivateKey := do
  match ← .call (.findKey vmId) .ofExcept with
  | none => throw ⟨.notFound, "Virtual machine not found"⟩
  | some vm =>
    if role ≠ .admin ∧ vm.userId ≠ userId then throw ⟨.forbidden, "Access denied"⟩
    else match truthyText vm.sshPrivateKeyEncrypted with
      | none => throw ⟨.notFound, "SSH private key is not available for this VM"⟩
      | some cipherPayload =>
        match decryptVmPrivateKey cipherPayload with
        | .error _ => throw ⟨.internal, "Failed to decrypt SSH private key"⟩
        | .ok privateKey => pure ⟨vm.id, vm.name, privateKey⟩

def getStats (userId : String) (role : Role) : QueryProcess VmStats := do
  let owner := ownerFilter userId role
  let total ← queryCount { userId := owner, status := .isNot .deleted }
  let running ← queryCount { userId := owner, status := .named "RUNNING" }
  let stopped ← queryCount { userId := owner, status := .named "STOPPED" }
  let pending ← queryCount { userId := owner, status := .named "PENDING" }
  let error ← queryCount { userId := owner, status := .named "ERROR" }
  let sums ← .call (.aggregate
    { userId := owner, status := .oneOf [.running, .stopped, .pending] }) .ofExcept
  pure ⟨total, running, stopped, pending, error,
    sums.cpu.getD 0, sums.ramMb.getD 0, sums.diskGb.getD 0⟩

end Requests

section Answers

variable {contains : String → String → Bool} {db : VmTable} {userId : String} {role : Role}

private theorem queryRows_wp (filter : VmWhere) (skip take : Option Int) :
    (queryRows filter skip take).Wp (fun _ _ => True) (queryEffect contains)
      (Process.Post (fun rows t => t = db ∧
        (QueryCall.findMany filter skip take).Fits contains db (.ok rows)) fun _ _ => True) db := by
  refine ⟨trivial, ?_⟩
  rintro r t ⟨rfl, hfits | ⟨e, rfl⟩⟩
  · cases r with
    | error e => trivial
    | ok rows => exact ⟨rfl, hfits⟩
  · trivial

private theorem queryCount_wp (filter : VmWhere) :
    (queryCount filter).Wp (fun _ _ => True) (queryEffect contains)
      (Process.Post (fun n t => t = db ∧
        n = (db.rows.filter (filter.keeps contains)).length) fun _ _ => True) db := by
  refine ⟨trivial, ?_⟩
  rintro r t ⟨rfl, ⟨rows, hrows, rfl⟩ | ⟨e, rfl⟩⟩
  · exact ⟨rfl, hrows.2.length_eq⟩
  · trivial

/-- `listVms` has read `rows` and answers with the part from place `k` on, `n` rows at most. -/
structure Lists (contains : String → String → Bool) (userId : String) (role : Role)
    (query : VmListQuery) (db : VmTable) (page : VmPage) (rows : List VmRow) (k : Nat) (n : Int) :
    Prop where
  rows_match : Matching contains (listFilter userId role query) db rows
  newest : NewestFirst rows
  limit : (query.limit.getD (some 20)).map (fun n => min n 100) = some n
  skip : (query.page.getD (some 1)).map (fun p => (p - 1) * n) = some (k : Int)
  page_eq : page = ⟨window k n rows,
    ⟨rows.length, query.page.getD (some 1), some n, totalPages rows.length (some n)⟩⟩

private theorem listVms_wp (query : VmListQuery) :
    (listVms userId role query).Wp (fun _ _ => True) (queryEffect contains)
      (Process.Post (fun page _ => ∃ rows k n, Lists contains userId role query db page rows k n)
        fun _ _ => True) db := by
  unfold listVms
  simp only [Process.wp_bind]
  apply (queryRows_wp _ _ _).mono
  rintro (e | vms) t
  · intro _
    trivial
  rintro ⟨rfl, rows, k, n, hmatch, hnewest, hskip, htake, hvms⟩
  apply (queryCount_wp _).mono
  rintro (e | total) t
  · intro _
    trivial
  rintro ⟨rfl, htotal⟩
  have hlen : total = rows.length := htotal.trans hmatch.2.length_eq.symm
  have hdata : vms = window k n rows := Except.ok.inj hvms
  have hk : (query.page.getD (some 1)).map (fun p => (p - 1) * n) = some (k : Int) := by
    rw [htake] at hskip
    cases hp : query.page.getD (some 1) <;> rw [hp] at hskip <;> exact hskip
  exact ⟨rows, k, n, hmatch, hnewest, htake, hk, by rw [htake, hlen, hdata]⟩

theorem listVms_yields {query : VmListQuery} {page : VmPage}
    (h : Yields contains (listVms userId role query) db (.ok page)) :
    ∃ rows k n, Lists contains userId role query db page rows k n := by
  obtain ⟨out, t, he, rfl⟩ := h
  exact (listVms_wp query).ends he

theorem sumOf_perm {f : VmRow → Int} {rows rows' : List VmRow} (h : rows.Perm rows') :
    sumOf f rows = sumOf f rows' := by
  have hempty : rows.isEmpty = rows'.isEmpty := by
    rw [Bool.eq_iff_iff, List.isEmpty_iff, List.isEmpty_iff]
    constructor
    · rintro rfl
      exact h.nil_eq.symm
    · rintro rfl
      exact h.eq_nil
  have hsum : (rows.map f).sum = (rows'.map f).sum := (h.map f).sum_eq
  rw [sumOf, sumOf, hempty, hsum]

/-- The counts and sums of `getStats` over the rows of a table. -/
def statsOf (contains : String → String → Bool) (userId : String) (role : Role) (db : VmTable) :
    VmStats :=
  let rowsOf (status : StatusFilter) :=
    db.rows.filter (VmWhere.keeps contains { userId := ownerFilter userId role, status := status })
  let used := rowsOf (.oneOf [.running, .stopped, .pending])
  ⟨(rowsOf (.isNot .deleted)).length, (rowsOf (.named "RUNNING")).length,
    (rowsOf (.named "STOPPED")).length, (rowsOf (.named "PENDING")).length,
    (rowsOf (.named "ERROR")).length, (sumOf VmRow.cpu used).getD 0, (sumOf VmRow.ramMb used).getD 0,
    (sumOf VmRow.diskGb used).getD 0⟩

private theorem getStats_wp :
    (getStats userId role).Wp (fun _ _ => True) (queryEffect contains)
      (Process.Post (fun stats _ => stats = statsOf contains userId role db) fun _ _ => True) db := by
  unfold getStats
  simp only [Process.wp_bind]
  iterate 5
    apply (queryCount_wp _).mono
    rintro (e | n) t
    · intro _
      trivial
    rintro ⟨rfl, rfl⟩
  refine ⟨trivial, ?_⟩
  rintro r t' ⟨rfl, ⟨rows, hrows, rfl⟩ | ⟨e, rfl⟩⟩
  case inr => trivial
  simp only [statsOf, sumOf_perm hrows.2]
  rfl

theorem getStats_yields {stats : VmStats}
    (h : Yields contains (getStats userId role) db (.ok stats)) :
    stats = statsOf contains userId role db := by
  obtain ⟨out, t, he, rfl⟩ := h
  exact getStats_wp.ends he

theorem mem_window {k : Nat} {n : Int} {rows : List VmRow} {vm : VmRow} (h : vm ∈ window k n rows) :
    vm ∈ rows := by
  unfold window at h
  split at h
  · have hr := List.mem_of_mem_drop (List.mem_of_mem_take (List.mem_reverse.mp h))
    exact List.mem_reverse.mp hr
  · exact List.mem_of_mem_drop (List.mem_of_mem_take h)

theorem ownerFilter_user (userId : String) (hrole : role ≠ .admin) :
    ownerFilter userId role = some userId := by
  simp [ownerFilter, hrole]

theorem matching_own {filter : VmWhere} {rows : List VmRow}
    (h : Matching contains filter db rows) (hf : filter.userId = some userId) {vm : VmRow}
    (hvm : vm ∈ rows) : vm ∈ db.rows ∧ vm.userId = userId := by
  have hmem : vm ∈ db.rows.filter (filter.keeps contains) := h.2.mem_iff.mp hvm
  obtain ⟨hrow, hkeeps⟩ := List.mem_filter.mp hmem
  have howner : userId = vm.userId := by
    simp only [VmWhere.keeps, hf, Option.all_some, Bool.and_eq_true, beq_iff_eq] at hkeeps
    exact hkeeps.1.1
  exact ⟨hrow, howner.symm⟩

private theorem getVmSshPrivateKey_wp (decryptVmPrivateKey : String → Except Failure String)
    (vmId : String) (hrole : role ≠ .admin) :
    (getVmSshPrivateKey decryptVmPrivateKey vmId userId role).Wp (fun _ _ => True)
      (queryEffect contains)
      (Process.Post (fun key _ => ∃ vm ∈ db.rows, vm.userId = userId ∧ vm.id = key.vmId ∧
        vm.name = key.vmName ∧ ∃ cipherPayload, vm.sshPrivateKeyEncrypted = some cipherPayload ∧
          decryptVmPrivateKey cipherPayload = .ok key.privateKey) fun _ _ => True) db := by
  unfold getVmSshPrivateKey
  rw [Process.wp_bind]
  refine ⟨trivial, ?_⟩
  rintro r t ⟨rfl, hfits | ⟨e, rfl⟩⟩
  case inr => trivial
  have hr : r = .ok ((t.find? vmId).map fun vm =>
    ⟨vm.id, vm.name, vm.userId, vm.sshPrivateKeyEncrypted⟩) := hfits
  rw [hr]
  cases hfind : t.find? vmId with
  | none => trivial
  | some vm =>
    have hmem := (t.find?_eq_some.mp hfind).1
    simp only [Option.map_some, Process.ofExcept_ok, Process.wp_ret, Process.post_ok]
    by_cases hu : vm.userId = userId
    · simp only [hu, ne_eq, not_true, and_false, if_false]
      cases hkey : truthyText vm.sshPrivateKeyEncrypted with
      | none => trivial
      | some cipherPayload =>
        have hstored := (Option.filter_eq_some_iff.mp hkey).1
        cases hdecrypt : decryptVmPrivateKey cipherPayload with
        | error e =>
          simp only [hdecrypt]
          trivial
        | ok privateKey =>
          simp only [hdecrypt]
          exact ⟨vm, hmem, hu, rfl, rfl, cipherPayload, hstored, hdecrypt⟩
    · simp only [hrole, hu, ne_eq, not_false_eq_true, and_self, if_true]
      trivial

private theorem getVm_wp (P : VmTable → VmCall → Prop) (vmId : String) (hrole : role ≠ .admin)
    (hP : P db (.findVm vmId)) :
    (getVm vmId userId role).Wp P tableEffect
      (Process.Post (fun vm t => t = db ∧ vm ∈ db.rows ∧ vm.userId = userId) fun _ _ => True) db := by
  unfold getVm findVm
  rw [Process.wp_bind]
  refine ⟨hP, ?_⟩
  rintro r t ⟨rfl, rfl | ⟨e, rfl⟩⟩
  case inr => trivial
  cases hfind : t.find? vmId with
  | none => trivial
  | some vm =>
    have hmem := (t.find?_eq_some.mp hfind).1
    by_cases hu : vm.userId = userId
    · simp [hu, hmem]
    · simp [hrole, hu]

/-- A message of the request names a VM of the user. -/
def DrivesOwn (userId : String) (db : VmTable) (c : VmCall) : Prop :=
  ∀ subject data, c = .publish subject data → ∃ vm ∈ db.rows, vm.userId = userId ∧
    data.get? "vmId" = some (.str vm.id) ∧ data.get? "oneVmId" = some (.ofOptionInt vm.oneVmId)

private theorem publishOwn_wp {α : Type} {vm : VmRow} (hmem : vm ∈ db.rows)
    (hu : vm.userId = userId) (subject : Subject) {data : Dict} (a : α)
    (hid : data.get? "vmId" = some (.str vm.id))
    (hone : data.get? "oneVmId" = some (.ofOptionInt vm.oneVmId)) :
    (publish subject data >>= fun _ => (pure a : VmProcess α)).Wp (DrivesOwn userId) tableEffect
      (fun _ _ => True) db := by
  unfold publish
  rw [Process.wp_bind]
  refine ⟨?_, ?_⟩
  · intro subject' data' h
    cases h
    exact ⟨vm, hmem, hu, hid, hone⟩
  · intro r t _
    cases r <;> trivial

private theorem checkHours_wp :
    (checkHours userId).Wp (DrivesOwn userId) tableEffect
      (Process.Post (fun _ t => t = db) fun _ _ => True) db := by
  unfold checkHours fetchInternalSubscriptionAccessSnapshot
  rw [Process.wp_bind]
  refine ⟨?_, ?_⟩
  · intro subject data h
    cases h
  rintro (e | access) t rfl
  · trivial
  cases access with
  | none => trivial
  | some a =>
    simp only [Process.ofExcept_ok, Process.wp_ret, Process.post_ok]
    split
    · trivial
    · trivial
    · by_cases hh : hourLimitReached a = true
      · simp [hh]
      · simp [hh]

theorem vmAction_drivesOwn (vmId : String) (action : VmAction) (hrole : role ≠ .admin) :
    (vmAction vmId action userId role).Wp (DrivesOwn userId) tableEffect (fun _ _ => True) db := by
  have hfind : DrivesOwn userId db (.findVm vmId) := by
    intro subject data h
    cases h
  unfold vmAction
  rw [Process.wp_bind]
  apply (getVm_wp (DrivesOwn userId) vmId hrole hfind).mono
  rintro (e | vm) t
  · intro _
    trivial
  rintro ⟨rfl, hmem, hu⟩
  have hqueue : (queueAction vm action userId).Wp (DrivesOwn userId) tableEffect
      (fun _ _ => True) t := by
    unfold queueAction
    split
    · exact publishOwn_wp hmem hu .vmAction _ (by rfl) (by rfl)
    · trivial
  by_cases hstart : action = .start ∨ action = .restart
  · simp only [Process.post_ok, hrole, hstart, ne_eq, not_false_eq_true, and_self, if_true]
    rw [Process.wp_bind]
    apply checkHours_wp.mono
    rintro (e | u) t'
    · intro _
      trivial
    rintro rfl
    exact hqueue
  · simp only [Process.post_ok, hstart, and_false, if_false]
    exact hqueue

theorem deleteVm_drivesOwn (vmId : String) (hrole : role ≠ .admin) :
    (deleteVm vmId userId role).Wp (DrivesOwn userId) tableEffect (fun _ _ => True) db := by
  have hfind : DrivesOwn userId db (.findVm vmId) := by
    intro subject data h
    cases h
  unfold deleteVm
  rw [Process.wp_bind]
  apply (getVm_wp (DrivesOwn userId) vmId hrole hfind).mono
  rintro (e | vm) t
  · intro _
    trivial
  rintro ⟨rfl, hmem, hu⟩
  by_cases hs : vm.status = .deleted
  · simp [hs]
  · simp only [Process.post_ok, hs, if_false]
    exact publishOwn_wp hmem hu .vmDelete _ (by rfl) (by rfl)

end Answers

section TwoStates

variable {contains : String → String → Bool} {userId : String} {role : Role} {db db' : VmTable}

def AgreeOn (userId : String) (db db' : VmTable) : Prop :=
  ∀ r : VmRow, r.userId = userId → (r ∈ db.rows ↔ r ∈ db'.rows)

theorem AgreeOn.symm (h : AgreeOn userId db db') : AgreeOn userId db' db :=
  fun r hr => (h r hr).symm

theorem AgreeOn.matching (h : AgreeOn userId db db') {filter : VmWhere}
    (hf : filter.userId = some userId) {rows : List VmRow}
    (hm : Matching contains filter db rows) : Matching contains filter db' rows := by
  refine ⟨hm.1, hm.2.trans ?_⟩
  have hnodup : ∀ t : VmTable, (t.rows.filter (filter.keeps contains)).Nodup :=
    fun t => t.nodup.of_map.filter _
  rw [List.perm_ext_iff_of_nodup (hnodup db) (hnodup db')]
  intro r
  simp only [List.mem_filter]
  have howner : filter.keeps contains r = true → r.userId = userId := by
    intro hk
    simp only [VmWhere.keeps, hf, Option.all_some, Bool.and_eq_true, beq_iff_eq] at hk
    exact hk.1.1.symm
  constructor
  · intro hr
    exact ⟨(h r (howner hr.2)).mp hr.1, hr.2⟩
  · intro hr
    exact ⟨(h r (howner hr.2)).mpr hr.1, hr.2⟩

/-- The queries that ask for the rows of one user. -/
def QueryCall.About (userId : String) : QueryCall → Prop
  | .findMany filter _ _ | .count filter | .aggregate filter => filter.userId = some userId
  | .findKey _ => False

theorem AgreeOn.fits (h : AgreeOn userId db db') {c : QueryCall} (hc : QueryCall.About userId c)
    {r : c.Answer} (hr : c.Fits contains db r) : c.Fits contains db' r := by
  cases c with
  | findMany filter skip take =>
    obtain ⟨rows, k, n, hm, hrest⟩ := hr
    exact ⟨rows, k, n, h.matching hc hm, hrest⟩
  | count filter =>
    obtain ⟨rows, hm, hrest⟩ := hr
    exact ⟨rows, h.matching hc hm, hrest⟩
  | aggregate filter =>
    obtain ⟨rows, hm, hrest⟩ := hr
    exact ⟨rows, h.matching hc hm, hrest⟩
  | findKey vmId => exact absurd hc id

/-- A request that asks for the rows of one user only cannot tell the tables apart. -/
theorem AgreeOn.yields {α : Type} (h : AgreeOn userId db db') {p : QueryProcess α}
    (hp : p.Only (QueryCall.About userId)) (out : Except Failure α) :
    Yields contains p db out ↔ Yields contains p db' out := by
  have hone : ∀ {a b : VmTable}, AgreeOn userId a b → Yields contains p a out →
      Yields contains p b out := by
    rintro a b hab ⟨out', t, he, rfl⟩
    have hsame : ∀ (c : QueryCall) (r : c.Answer) (s s' t : VmTable), QueryCall.About userId c →
        AgreeOn userId s t → queryEffect contains c s r s' →
        ∃ t', queryEffect contains c t r t' ∧ AgreeOn userId s' t' := by
      rintro c r s s' t hc hst ⟨rfl, hr⟩
      exact ⟨t, ⟨rfl, hr.imp (hst.fits hc) id⟩, hst⟩
    obtain ⟨t', he', -⟩ := hp.ends_agree hsame hab he
    exact ⟨out', t', he', rfl⟩
  exact ⟨hone h, hone h.symm⟩

private theorem queryCount_about {filter : VmWhere} (hf : filter.userId = some userId) :
    (queryCount filter).Only (QueryCall.About userId) :=
  ⟨hf, fun _ => Process.only_ofExcept _⟩

theorem listVms_about (query : VmListQuery) (hrole : role ≠ .admin) :
    (listVms userId role query).Only (QueryCall.About userId) := by
  have howner := ownerFilter_user userId hrole
  apply Process.only_bind
  · exact ⟨howner, fun _ => Process.only_ofExcept _⟩
  · intro vms
    apply Process.only_bind (queryCount_about howner)
    intro total
    trivial

theorem getStats_about (hrole : role ≠ .admin) :
    (getStats userId role).Only (QueryCall.About userId) := by
  have howner := ownerFilter_user userId hrole
  unfold getStats
  iterate 5
    apply Process.only_bind (queryCount_about howner)
    intro n
  apply Process.only_bind
  · exact ⟨howner, fun _ => Process.only_ofExcept _⟩
  · intro sums
    trivial

/-- Rows with creation times of their own come in one order only. -/
theorem newestFirst_unique {rows rows' : List VmRow} (hp : rows.Perm rows')
    (h : NewestFirst rows) (h' : NewestFirst rows')
    (hd : ∀ a ∈ rows, ∀ b ∈ rows, a.createdAt = b.createdAt → a = b) : rows = rows' := by
  apply List.Perm.eq_of_pairwise _ h h' hp
  intro a b ha hb hab hba
  exact hd a ha b (hp.mem_iff.mpr hb) (by omega)

theorem Lists.unique {query : VmListQuery} {page page' : VmPage} {rows rows' : List VmRow}
    {k k' : Nat} {n n' : Int} (h : Lists contains userId role query db page rows k n)
    (h' : Lists contains userId role query db page' rows' k' n') (hrole : role ≠ .admin)
    (hd : ∀ a ∈ db.rows, ∀ b ∈ db.rows, a.userId = userId → b.userId = userId →
      a.createdAt = b.createdAt → a = b) : page = page' := by
  have howner : (listFilter userId role query).userId = some userId := ownerFilter_user userId hrole
  have hperm : rows.Perm rows' := h.rows_match.2.trans h'.rows_match.2.symm
  have hrows : rows = rows' := by
    apply newestFirst_unique hperm h.newest h'.newest
    intro a ha b hb hab
    have hown := matching_own h.rows_match howner ha
    have hown' := matching_own h.rows_match howner hb
    exact hd a hown.1 b hown'.1 hown.2 hown'.2 hab
  have hn : n = n' := Option.some.inj (h.limit.symm.trans h'.limit)
  subst hn
  have hk : (k : Int) = k' := Option.some.inj (h.skip.symm.trans h'.skip)
  have hkk : k = k' := by omega
  rw [h.page_eq, h'.page_eq, hrows, hkk]

end TwoStates

section OwnVms

/-- **Own VMs only.** What a caller without the role of an admin is shown and drives is his, and
his lists and counts do not depend on the rows of others: every outcome that one table allows is
allowed by the other, counts are equal, and so are lists where no two of his VMs were created in
the same millisecond. -/
theorem callers_see_own_vms (contains : String → String → Bool)
    (decryptVmPrivateKey : String → Except Failure String) (userId : String) (role : Role)
    (hrole : role ≠ .admin) :
    (∀ db query page, Yields contains (listVms userId role query) db (.ok page) →
      ∀ vm ∈ page.data, vm ∈ db.rows ∧ vm.userId = userId) ∧
    (∀ (db : VmTable) vmId vm t, (getVm vmId userId role).Ends tableEffect db (.ok vm) t →
      vm ∈ db.rows ∧ vm.userId = userId) ∧
    (∀ db vmId key,
      Yields contains (getVmSshPrivateKey decryptVmPrivateKey vmId userId role) db (.ok key) →
      ∃ vm ∈ db.rows, vm.userId = userId ∧ vm.id = key.vmId ∧ vm.name = key.vmName ∧
        ∃ cipherPayload, vm.sshPrivateKeyEncrypted = some cipherPayload ∧
          decryptVmPrivateKey cipherPayload = .ok key.privateKey) ∧
    (∀ db vmId action, (vmAction vmId action userId role).Wp (DrivesOwn userId) tableEffect
      (fun _ _ => True) db) ∧
    (∀ db vmId, (deleteVm vmId userId role).Wp (DrivesOwn userId) tableEffect
      (fun _ _ => True) db) ∧
    ∀ db db', AgreeOn userId db db' →
      (∀ query out, Yields contains (listVms userId role query) db out ↔
        Yields contains (listVms userId role query) db' out) ∧
      (∀ out, Yields contains (getStats userId role) db out ↔
        Yields contains (getStats userId role) db' out) ∧
      (∀ a b, Yields contains (getStats userId role) db (.ok a) →
        Yields contains (getStats userId role) db' (.ok b) → a = b) ∧
      ((∀ a ∈ db.rows, ∀ b ∈ db.rows, a.userId = userId → b.userId = userId →
          a.createdAt = b.createdAt → a = b) →
        ∀ query a b, Yields contains (listVms userId role query) db (.ok a) →
          Yields contains (listVms userId role query) db' (.ok b) → a = b) := by
  refine ⟨?_, ?_, ?_, ?_, ?_, ?_⟩
  · intro db query page h vm hvm
    obtain ⟨rows, k, n, hl⟩ := listVms_yields h
    rw [hl.page_eq] at hvm
    have howner : (listFilter userId role query).userId = some userId := ownerFilter_user userId hrole
    exact matching_own hl.rows_match howner (mem_window hvm)
  · intro db vmId vm t h
    have hwp := (getVm_wp (fun _ _ => True) vmId hrole trivial).ends h
    exact hwp.2
  · rintro db vmId key ⟨out, t, he, rfl⟩
    exact (getVmSshPrivateKey_wp decryptVmPrivateKey vmId hrole).ends he
  · intro db vmId action
    exact vmAction_drivesOwn vmId action hrole
  · intro db vmId
    exact deleteVm_drivesOwn vmId hrole
  · intro db db' hagree
    refine ⟨?_, ?_, ?_, ?_⟩
    · intro query out
      exact hagree.yields (listVms_about query hrole) out
    · intro out
      exact hagree.yields (getStats_about hrole) out
    · intro a b ha hb
      have ha' := (hagree.yields (getStats_about hrole) _).mp ha
      exact (getStats_yields ha').trans (getStats_yields hb).symm
    · intro hd query a b ha hb
      have hb' := (hagree.yields (listVms_about query hrole) _).mpr hb
      obtain ⟨rows, k, n, hl⟩ := listVms_yields ha
      obtain ⟨rows', k', n', hl'⟩ := listVms_yields hb'
      exact hl.unique hl' hrole hd

def ownVm : VmRow where
  id := "vm-1"
  name := "web"
  status := .running
  cpu := 2
  ramMb := 2048
  diskGb := 20
  osTemplate := "ubuntu"
  userId := "u"
  createdAt := 5
  updatedAt := 5

def ownTable : VmTable := ⟨[ownVm], by decide⟩

/-- The same table after another user has made a VM. -/
def sharedTable : VmTable :=
  ⟨[{ ownVm with id := "vm-2", userId := "v", createdAt := 7 }, ownVm], by decide⟩

theorem callers_see_own_vms_shared :
    Yields (fun _ _ => false) (listVms "u" .user {}) sharedTable
      (.ok ⟨[ownVm], ⟨1, some 1, some 20, some 1⟩⟩) := by
  have hagree : AgreeOn "u" ownTable sharedTable := by
    intro r hr
    have hne : r ≠ { ownVm with id := "vm-2", userId := "v", createdAt := 7 } := by
      rintro rfl
      revert hr
      decide
    simp [ownTable, sharedTable, hne]
  have hmatch : Matching (fun _ _ => false) (listFilter "u" .user {}) ownTable [ownVm] :=
    ⟨trivial, by decide⟩
  have hnewest : NewestFirst [ownVm] := List.pairwise_singleton _ _
  have hown : Yields (fun _ _ => false) (listVms "u" .user {}) ownTable
      (.ok ⟨[ownVm], ⟨1, some 1, some 20, some 1⟩⟩) :=
    ⟨_, _, ⟨.ok [ownVm], ownTable, ⟨rfl, .inl ⟨[ownVm], 0, 20, hmatch, hnewest, rfl, rfl, rfl⟩⟩,
      .ok 1, ownTable, ⟨rfl, .inl ⟨[ownVm], hmatch, rfl⟩⟩, rfl, rfl⟩, rfl⟩
  have hsame := (callers_see_own_vms (fun _ _ => false) (fun _ => .error ⟨.other, ""⟩) "u" .user
    (by decide)).2.2.2.2.2 ownTable sharedTable hagree
  exact (hsame.1 {} _).mp hown

end OwnVms

end VmService

end CloudVM
