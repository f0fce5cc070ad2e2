import CloudVM.Framework.Logic
import CloudVM.Worker.Handler

/-!
# What the worker deletes in OpenNebula

Every template and image of the cloud was made for at most one VM: the clones of a persistent
instantiation belong to the VM it was for, base templates to none. `create_vm` and `delete_vm`
are followed call by call against such a cloud; database, Redis and the bus answer at will.
-/

namespace CloudVM.Worker

open Process Text

section Cloud

/-- What `one.vm.info` says of a machine's clone. -/
structure Machine where
  templateId : Option IntText
  diskImageIds : List (Option IntText)

/-- The template pool, the machines, and the VM that each template and image was made for. -/
structure Cloud where
  pool : List OneTemplate
  owner : Int → Option String
  imageOwner : Int → Option String
  machines : Int → Option Machine
  cache : Option (List OneTemplate)

/-- A persistent instantiation for `v`: new ids for the clone of the template, its image and the
machine; the clone bears the machine's name. -/
def Cloud.Clones (v : String) (templateId : Int) (name : String) (s : Cloud) (oneVmId : Int)
    (s' : Cloud) : Prop :=
  ∃ (t : Int) (image : Int) (flag : Option String), t ∉ s.pool.map OneTemplate.id ∧ t ≠ templateId ∧
    s.owner t = none ∧ s.imageOwner image = none ∧ s.machines oneVmId = none ∧
    s' = { s with
      pool := s.pool ++ [{ id := t, name, cloudvmBase := flag }]
      owner := Function.update s.owner t (some v)
      imageOwner := Function.update s.imageOwner image (some v)
      machines := Function.update s.machines oneVmId
        (some { templateId := some (.int t), diskImageIds := [some (.int image)] }) }

/-- The answers of the cloud while the worker serves a message for `v`. An instantiation that
fails may leave its clone behind. -/
def cloudEffect (v : String) : (c : VmCall) → Cloud → VmCall.Answer c → Cloud → Prop
  | .readTemplateCache, s, r, s' => r = s.cache ∧ s' = s
  | .writeTemplateCache templates, s, _, s' => s' = { s with cache := templates }
  | .templatePoolInfo, s, r, s' => s' = s ∧ (r = .ok s.pool ∨ ∃ e, r = .error e)
  | .templateInstantiate templateId name _, s, r, s' =>
      (∃ oneVmId, s.Clones v templateId name oneVmId s' ∧ (r = .ok oneVmId ∨ ∃ e, r = .error e)) ∨
      (∃ e, r = .error e ∧ s' = s)
  | .templateDelete templateId _, s, r, s' =>
      s' = { s with pool := s.pool.filter fun t => t.id ≠ templateId } ∨ (s' = s ∧ ∃ e, r = .error e)
  | .oneVmInfo oneVmId, s, r, s' => s' = s ∧
      ((∃ m vm, s.machines oneVmId = some m ∧ r = .ok vm ∧ vm.templateId = m.templateId ∧
        vm.diskImageIds = m.diskImageIds) ∨ ∃ e, r = .error e)
  | _, s, _, s' => s' = s

/-- Nothing is deleted but what was made for `v`. -/
def OwnOnly (v : String) (s : Cloud) : VmCall → Prop
  | .templateDelete templateId _ => s.owner templateId = some v
  | .imageDelete imageId => s.imageOwner imageId = some v
  | _ => True

/-- Run for `v` from `s`, the process asks OpenNebula to delete only objects made for `v`. -/
def DeletesOwn (v : String) {α : Type} (p : VmProcess α) (s : Cloud) : Prop :=
  p.Wp (OwnOnly v) (cloudEffect v) (fun _ _ => True) s

end Cloud

section Create

/-- The base template `create_vm` would take: out of the cache, or the pool if there is none. -/
def templateFor (cfg : WorkerConfig) (s : Cloud) (osTemplate : String) : Option Int :=
  findTemplateIn cfg (s.cache.getD (s.pool.filter isCloudvmBaseTemplate)) osTemplate

/-- Every template of the pool with the VM's name, the chosen base template apart, is the VM's. -/
def OwnNames (v name : String) (templateId : Int) (s : Cloud) : Prop :=
  ∀ t ∈ s.pool, t.name = name → t.id ≠ templateId → s.owner t.id = some v

variable {v : String}

private theorem keeps_plain {α : Type} {J : Cloud → Prop} {c : VmCall} {k : c.Answer → VmProcess α}
    (hP : ∀ s, OwnOnly v s c) (he : ∀ s r s', cloudEffect v c s r s' → s' = s)
    (hk : ∀ r, (k r).Keeps (OwnOnly v) (cloudEffect v) J) :
    (Process.call c k : VmProcess α).Keeps (OwnOnly v) (cloudEffect v) J := by
  apply keeps_call
  · intro s _
    exact hP s
  · intro r s s' hs h
    have heq := he s r s' h
    subst heq
    exact ⟨hs, hk r⟩

private theorem ownNames_delete {name : String} {templateId id : Int} {s : Cloud}
    (h : OwnNames v name templateId s) :
    OwnNames v name templateId { s with pool := s.pool.filter fun t => t.id ≠ id } := by
  intro t ht
  exact h t (List.mem_of_mem_filter ht)

private theorem ownNames_clones {name : String} {templateId oneVmId : Int} {s s' : Cloud}
    (h : OwnNames v name templateId s) (hc : s.Clones v templateId name oneVmId s') :
    OwnNames v name templateId s' := by
  obtain ⟨t, image, flag, hfresh, -, -, -, -, rfl⟩ := hc
  intro x hx hname hid
  rcases List.mem_append.mp hx with hx | hx
  · have hne : x.id ≠ t := fun he => hfresh (List.mem_map.mpr ⟨x, hx, he⟩)
    change Function.update s.owner t (some v) x.id = some v
    rw [Function.update_of_ne hne]
    exact h x hx hname hid
  · rw [List.mem_singleton] at hx
    subst hx
    exact Function.update_self ..

private theorem keeps_cleanupLoop {name : String} {templateId : Int} (owner : Int → Option String)
    {pool : List OneTemplate}
    (h : ∀ t ∈ pool, t.name = name → t.id ≠ templateId → owner t.id = some v) :
    (Process.forEach (deleteStale name templateId) pool).Keeps (OwnOnly v) (cloudEffect v)
      fun s => s.owner = owner ∧ OwnNames v name templateId s := by
  apply keeps_forEach
  intro t ht
  unfold deleteStale
  by_cases hcond : t.name = name ∧ t.id ≠ templateId
  · rw [if_pos hcond]
    apply keeps_call
    · intro s hs
      change s.owner t.id = some v
      rw [hs.1]
      exact h t ht hcond.1 hcond.2
    · intro r s s' hs he
      refine ⟨?_, keeps_ofExcept r⟩
      rcases he with rfl | ⟨rfl, -⟩
      · exact ⟨hs.1, ownNames_delete hs.2⟩
      · exact hs
  · rw [if_neg hcond]
    exact keeps_ret ()

private theorem keeps_cleanupStale (name : String) (templateId : Int) :
    (cleanupStale name templateId).Keeps (OwnOnly v) (cloudEffect v)
      (OwnNames v name templateId) := by
  intro s hs
  unfold cleanupStale ignoring
  rw [wp_tryCatch, wp_bind]
  refine ⟨trivial, fun r s' he => ?_⟩
  obtain ⟨rfl, rfl | ⟨e, rfl⟩⟩ := he
  · have hloop := keeps_cleanupLoop s'.owner hs s' ⟨rfl, hs⟩
    apply hloop.mono
    intro r t ht
    cases r <;> exact ht.2
  · exact hs

private theorem keeps_templateInstantiate (templateId : Int) (name text : String) :
    (templateInstantiate templateId name text).Keeps (OwnOnly v) (cloudEffect v)
      (OwnNames v name templateId) := by
  apply keeps_call
  · intro s _
    trivial
  · intro r s s' hs he
    refine ⟨?_, keeps_ofExcept r⟩
    rcases he with ⟨oneVmId, hc, -⟩ | ⟨e, -, rfl⟩
    · exact ownNames_clones hs hc
    · exact hs

private theorem keeps_instantiate (d : VmCreateData) (templateId : Int) (keys : List String) :
    (instantiate d templateId keys).Keeps (OwnOnly v) (cloudEffect v)
      (OwnNames v d.name templateId) := by
  have hclean : (cleanupStale d.name templateId).Keeps (OwnOnly v) (cloudEffect v)
      (OwnNames v d.name templateId) := keeps_cleanupStale _ _
  apply keeps_bind hclean
  intro _
  apply keeps_tryCatch (keeps_templateInstantiate _ _ _)
  intro _
  apply keeps_bind hclean
  intro _
  exact keeps_templateInstantiate _ _ _

private theorem keeps_collectSshKeys (cfg : WorkerConfig) (d : VmCreateData) (J : Cloud → Prop) :
    (collectSshKeys cfg d).Keeps (OwnOnly v) (cloudEffect v) J := by
  have hkeys : (getUserSshKeys d.userId).Keeps (OwnOnly v) (cloudEffect v) J := by
    refine keeps_plain (c := .selectUserSshKeys d.userId) (fun _ => trivial) (fun _ _ _ h => h) ?_
    intro r
    cases r <;> exact keeps_ret _
  unfold collectSshKeys
  simp only
  split
  · exact keeps_bind (keeps_ret _) fun _ => keeps_ret _
  · exact keeps_bind hkeys fun _ => keeps_ret _

private theorem keeps_clearBaseFlag (oneVmId templateId : Int) (J : Cloud → Prop) :
    (clearBaseFlag oneVmId templateId).Keeps (OwnOnly v) (cloudEffect v) J := by
  have hinfo : (oneVmInfo oneVmId).Keeps (OwnOnly v) (cloudEffect v) J :=
    keeps_plain (fun _ => trivial) (fun _ _ _ h => h.1) keeps_ofExcept
  apply keeps_tryCatch _ fun _ => keeps_ret ()
  apply keeps_bind hinfo
  intro cloned
  split
  · exact keeps_ret ()
  · exact keeps_raise _
  · split
    · exact keeps_plain (fun _ => trivial) (fun _ _ _ h => h) keeps_ofExcept
    · exact keeps_ret ()

private theorem keeps_report (w : StatusWrite) (m : StatusUpdate) (J : Cloud → Prop) :
    (report w m).Keeps (OwnOnly v) (cloudEffect v) J := by
  apply keeps_bind
  · exact keeps_plain (fun _ => trivial) (fun _ _ _ h => h) keeps_ofExcept
  · intro _
    exact keeps_plain (fun _ => trivial) (fun _ _ _ h => h) keeps_ofExcept

private theorem keeps_createTask (t : PollTask) (J : Cloud → Prop) :
    (createTask t).Keeps (OwnOnly v) (cloudEffect v) J :=
  keeps_plain (fun _ => trivial) (fun _ _ _ h => h) keeps_ret

private theorem findTemplate_wp (cfg : WorkerConfig) {s : Cloud} {osTemplate : String}
    {Q : Except Failure (Option Int) → Cloud → Prop}
    (hQ : ∀ r s', s'.pool = s.pool → s'.owner = s.owner →
      (r = templateFor cfg s osTemplate ∨ r = none) → Q (.ok r) s') :
    (findTemplate cfg osTemplate).Wp (OwnOnly v) (cloudEffect v) Q s := by
  refine (wp_bind _ _ _ _).mpr ⟨trivial, fun r s1 he => ?_⟩
  obtain ⟨rfl, rfl⟩ := he
  cases hc : s1.cache with
  | some cache =>
    refine (wp_bind _ _ _ _).mpr ⟨trivial, fun r s2 he => ?_⟩
    obtain ⟨rfl, rfl⟩ := he
    apply hQ _ _ rfl rfl
    left
    rw [templateFor, hc]
    rfl
  | none =>
    refine (wp_bind _ _ _ _).mpr ((wp_tryCatch _ _ _ _).mpr ((wp_bind _ _ _ _).mpr
      ⟨trivial, fun r s2 he => ?_⟩))
    obtain ⟨rfl, rfl | ⟨e, rfl⟩⟩ := he
    · refine ⟨trivial, fun r s3 he => ?_⟩
      obtain rfl := he
      refine (wp_bind _ _ _ _).mpr ⟨trivial, fun r s4 he => ?_⟩
      obtain ⟨rfl, rfl⟩ := he
      refine hQ _ { s2 with cache := some (s2.pool.filter isCloudvmBaseTemplate) } rfl rfl (.inl ?_)
      rw [templateFor, hc]
      rfl
    · refine ⟨trivial, fun r s3 he => ?_⟩
      obtain rfl := he
      refine (wp_bind _ _ _ _).mpr ⟨trivial, fun r s4 he => ?_⟩
      obtain ⟨rfl, rfl⟩ := he
      exact hQ _ { s2 with cache := none } rfl rfl (.inr rfl)

private theorem findTemplate_ends (cfg : WorkerConfig) (s : Cloud) (osTemplate : String) :
    ∃ s', (findTemplate cfg osTemplate).Ends (cloudEffect v) s (.ok (templateFor cfg s osTemplate)) s' ∧
      s'.pool = s.pool ∧ s'.owner = s.owner := by
  cases hc : s.cache with
  | some cache =>
    refine ⟨s, ⟨some cache, s, ⟨hc.symm, rfl⟩, some cache, s, ⟨hc.symm, rfl⟩, ?_, rfl⟩, rfl, rfl⟩
    rw [templateFor, hc]
    rfl
  | none =>
    refine ⟨{ s with cache := some (s.pool.filter isCloudvmBaseTemplate) },
      ⟨none, s, ⟨hc.symm, rfl⟩, .ok s.pool, s, ⟨rfl, .inl rfl⟩, (), _, rfl, _, _, ⟨rfl, rfl⟩, ?_, rfl⟩,
      rfl, rfl⟩
    rw [templateFor, hc]
    rfl

private theorem collectSshKeys_ends (cfg : WorkerConfig) (d : VmCreateData) (s : Cloud) :
    ∃ keys, (collectSshKeys cfg d).Ends (cloudEffect v) s (.ok keys) s := by
  unfold collectSshKeys
  simp only
  split
  · exact ⟨_, rfl, rfl⟩
  · exact ⟨_, .ok [], s, rfl, rfl, rfl⟩

/-- The condition on a message and the cloud: see `OwnNames`, for the template that is found. -/
def OwnNamesFor (cfg : WorkerConfig) (d : VmCreateData) (s : Cloud) : Prop :=
  ∀ templateId, templateFor cfg s d.osTemplate = some templateId →
    OwnNames d.vmId d.name templateId s

private theorem keeps_launchFrom (cfg : WorkerConfig) (d : VmCreateData) (templateId : Int) :
    (launchFrom cfg d templateId).Keeps (OwnOnly d.vmId) (cloudEffect d.vmId)
      (OwnNames d.vmId d.name templateId) := by
  apply keeps_bind (keeps_collectSshKeys cfg d _)
  intro keys
  apply keeps_bind (keeps_instantiate d templateId keys)
  intro oneVmId
  apply keeps_bind (keeps_clearBaseFlag oneVmId templateId _)
  intro _
  apply keeps_bind (keeps_report _ _ _)
  intro _
  exact keeps_createTask _ _

private theorem launch_own {cfg : WorkerConfig} {d : VmCreateData} {s : Cloud}
    (h : OwnNamesFor cfg d s) : DeletesOwn d.vmId (launch cfg d) s := by
  refine (wp_bind _ _ _ _).mpr (findTemplate_wp cfg fun r s' hpool howner hr => ?_)
  cases r with
  | none => trivial
  | some templateId =>
    have hown : OwnNames d.vmId d.name templateId s' := by
      have hfound : templateFor cfg s d.osTemplate = some templateId := by
        rcases hr with hr | hr
        · exact hr.symm
        · cases hr
      unfold OwnNames
      rw [hpool, howner]
      exact h templateId hfound
    exact (keeps_launchFrom cfg d templateId s' hown).mono fun _ _ _ => trivial

private theorem ownNames_of_cleanupLoop {name : String} {templateId : Int} {pool : List OneTemplate}
    {s : Cloud} (h : DeletesOwn v (Process.forEach (deleteStale name templateId) pool) s) :
    ∀ t ∈ pool, t.name = name → t.id ≠ templateId → s.owner t.id = some v := by
  induction pool generalizing s with
  | nil => simp
  | cons x pool ih =>
    intro t ht hname hid
    by_cases hcond : x.name = name ∧ x.id ≠ templateId
    · have hx : DeletesOwn v (templateDelete x.id true >>= fun _ =>
          Process.forEach (deleteStale name templateId) pool) s := by
        simpa [Process.forEach, deleteStale, hcond] using h
      have hrest := ih (hx.2 (.ok ()) { s with pool := s.pool.filter fun t => t.id ≠ x.id } (.inl rfl))
      rcases List.mem_cons.mp ht with rfl | ht
      · exact hx.1
      · exact hrest t ht hname hid
    · have hx : DeletesOwn v (Process.forEach (deleteStale name templateId) pool) s := by
        simpa [Process.forEach, deleteStale, hcond] using h
      rcases List.mem_cons.mp ht with rfl | ht
      · exact absurd ⟨hname, hid⟩ hcond
      · exact ih hx t ht hname hid

private theorem launch_own_iff {cfg : WorkerConfig} {d : VmCreateData} {s : Cloud} :
    DeletesOwn d.vmId (launch cfg d) s ↔ OwnNamesFor cfg d s := by
  refine ⟨fun h templateId hfound => ?_, launch_own⟩
  obtain ⟨s1, hfind, hpool, howner⟩ := findTemplate_ends (v := d.vmId) cfg s d.osTemplate
  rw [hfound] at hfind
  have hlaunch := h.bind_ends hfind
  obtain ⟨keys, hkeys⟩ := collectSshKeys_ends (v := d.vmId) cfg d s1
  have hclean := (hlaunch.bind_ends hkeys).of_bind.of_bind
  have hloop : DeletesOwn d.vmId _ s1 :=
    hclean.of_tryCatch.bind_ends (a := s1.pool) ⟨.ok s1.pool, s1, ⟨rfl, .inl rfl⟩, rfl, rfl⟩
  have hnames := ownNames_of_cleanupLoop hloop
  rw [hpool, howner] at hnames
  exact hnames

private theorem provision_own_iff {cfg : WorkerConfig} {d : VmCreateData} {s : Cloud}
    (hname : vmNameOk d.name = true) :
    DeletesOwn d.vmId (provision cfg d) s ↔ OwnNamesFor cfg d s := by
  rw [← launch_own_iff]
  constructor
  · intro h
    have hnone := h.2 (.ok none) s rfl
    simp only [bind_def, ret_bind, hname, if_true] at hnone
    exact hnone
  · intro h
    refine ⟨trivial, fun r s' he => ?_⟩
    obtain rfl := he
    have hlaunch : DeletesOwn d.vmId
        (if vmNameOk d.name = true then launch cfg d
          else throw ⟨.value, "VM name contains invalid chars"⟩) s' := by
      rw [if_pos hname]
      exact h
    cases r with
    | error e => exact hlaunch
    | ok existing =>
      cases existing with
      | none => exact hlaunch
      | some n => exact (keeps_createTask _ (fun _ => True) s' trivial)

private theorem createVm_own_iff {cfg : WorkerConfig} {d : VmCreateData} {s : Cloud}
    (hname : vmNameOk d.name = true) :
    DeletesOwn d.vmId (createVm cfg d) s ↔ OwnNamesFor cfg d s := by
  have hfailed : (provisionFailed d.vmId).Keeps (OwnOnly d.vmId) (cloudEffect d.vmId)
      fun _ => True := keeps_report _ _ _
  have hrelease : (releaseCreateLock d.vmId).Keeps (OwnOnly d.vmId) (cloudEffect d.vmId)
      fun _ => True :=
    keeps_tryCatch (keeps_plain (fun _ => trivial) (fun _ _ _ h => h) keeps_ofExcept)
      fun _ => keeps_ret ()
  rw [← provision_own_iff hname]
  constructor
  · intro h
    have hlocked : DeletesOwn d.vmId (Process.andFinally
        (tryCatch (provision cfg d) fun _ => provisionFailed d.vmId) (releaseCreateLock d.vmId)) s :=
      h.2 (.ok true) s rfl
    exact ((wp_attempt _ _ _).mp hlocked.of_bind).of_tryCatch
  · intro h
    refine ⟨trivial, fun r s' he => ?_⟩
    obtain rfl := he
    rcases r with e | acquired
    · exact hfailed s' trivial
    · cases acquired with
      | false => trivial
      | true =>
        have hbody : (tryCatch (provision cfg d) fun _ => provisionFailed d.vmId).Wp
            (OwnOnly d.vmId) (cloudEffect d.vmId) (fun _ _ => True) s' := by
          rw [wp_tryCatch]
          apply h.mono
          intro r t _
          cases r with
          | ok u => trivial
          | error e => exact hfailed t trivial
        apply Wp.andFinally
        exact hbody.mono fun _ t _ => hrelease t trivial

end Create

section Delete

variable {v : String}

/-- The clone of the machine in the message, as far as `delete_vm` would delete it, is the VM's. -/
def OwnCloneFor (d : VmDeleteData) (s : Cloud) : Prop :=
  ∀ oneVmId m image, d.oneVmId = some oneVmId → s.machines oneVmId = some m →
    firstImage m.diskImageIds = some image → image ≠ 0 →
    s.imageOwner image = some d.vmId ∧
      ∀ t, intOf m.templateId = some t → t ≠ 0 → s.owner t = some d.vmId

private theorem keeps_waitForImage (cfg : WorkerConfig) (imageId : Int) (rounds : Nat)
    (J : Cloud → Prop) : (waitForImage cfg imageId rounds).Keeps (OwnOnly v) (cloudEffect v) J := by
  induction rounds with
  | zero => exact keeps_ret _
  | succ rounds ih =>
    have hagain : (do sleep 2; waitForImage cfg imageId rounds).Keeps (OwnOnly v) (cloudEffect v) J := by
      apply keeps_bind _ fun _ => ih
      exact keeps_plain (fun _ => trivial) (fun _ _ _ h => h) keeps_ret
    unfold waitForImage
    apply keeps_bind
    · exact keeps_plain (c := .imageInfo imageId) (fun _ => trivial) (fun _ _ _ h => h) keeps_ret
    · intro r
      split
      · exact keeps_ret _
      · exact hagain
      · simp only
        split
        · exact keeps_ret _
        · exact hagain

private theorem removeClone_own {cfg : WorkerConfig} {image : Int} {templateId : Option Int}
    {s : Cloud} (himage : s.imageOwner image = some v)
    (htemplate : ∀ t, templateId = some t → t ≠ 0 → s.owner t = some v) :
    DeletesOwn v (removeClone cfg (some image) templateId) s := by
  have hremove : (removeImage cfg image).Keeps (OwnOnly v) (cloudEffect v) fun s' => s' = s := by
    apply keeps_bind (keeps_waitForImage cfg image 30 _)
    intro r
    cases r with
    | gone => exact keeps_ret _
    | inUse => exact keeps_ret _
    | ready =>
      apply keeps_bind
      · unfold VmCall.perform
        apply keeps_call
        · intro s' hs
          subst hs
          exact himage
        · intro r s1 s2 hs he
          obtain rfl := he
          exact ⟨hs, keeps_ret _⟩
      · intro r
        split <;> exact keeps_ret _
  unfold removeClone
  simp only
  split
  · exact trivial
  · refine (wp_bind _ _ _ _).mpr ((hremove s rfl).mono fun r t ht => ?_)
    subst ht
    cases r with
    | error e => trivial
    | ok deleted =>
      simp only [post_ok]
      split
      · trivial
      · rename_i t
        split
        · rename_i hcond
          simp only [Bool.and_eq_true, bne_iff_ne, ne_eq] at hcond
          refine (wp_tryCatch _ _ _ _).mpr ⟨htemplate t rfl hcond.2, fun r s' _ => ?_⟩
          cases r <;> trivial
        · trivial

private theorem own_of_removeClone {cfg : WorkerConfig} {image : Int} {templateId : Option Int}
    {s : Cloud} (h : DeletesOwn v (removeClone cfg (some image) templateId) s) (hi : image ≠ 0) :
    s.imageOwner image = some v ∧ ∀ t, templateId = some t → t ≠ 0 → s.owner t = some v := by
  have hwait : (waitForImage cfg image 30).Ends (cloudEffect v) s (.ok .ready) s :=
    ⟨.ok (some 1), s, rfl, rfl, rfl⟩
  have hgone : (removeImage cfg image).Ends (cloudEffect v) s (.ok true) s :=
    ⟨.ok (some 1), s, rfl, .ok (), s, rfl, rfl, rfl⟩
  simp only [removeClone, hi, if_false] at h
  refine ⟨(h.of_bind.bind_ends hwait).1, fun t ht ht0 => ?_⟩
  subst ht
  have htemplate := h.bind_ends hgone
  simp only [Bool.true_and, bne_iff_ne, ne_eq, ht0, not_false_eq_true, if_true] at htemplate
  exact htemplate.of_tryCatch.1

private theorem reportDeleted_own (d : VmDeleteData) (s : Cloud) :
    DeletesOwn v (reportDeleted d) s := by
  have hkeeps : (reportDeleted d).Keeps (OwnOnly v) (cloudEffect v) fun _ => True := by
    apply keeps_bind
    · exact keeps_plain (fun _ => trivial) (fun _ _ _ h => h) keeps_ofExcept
    · intro _
      exact keeps_plain (fun _ => trivial) (fun _ _ _ h => h) keeps_ofExcept
  exact hkeeps s trivial

private theorem terminate_own {cfg : WorkerConfig} {d : VmDeleteData} {oneVmId : Int}
    {image templateId : Option Int} {s : Cloud}
    (h : DeletesOwn v (removeClone cfg image templateId) s) :
    DeletesOwn v (do
      oneVmAction "terminate" oneVmId
      removeClone cfg image templateId
      reportDeleted d) s := by
  refine (wp_bind _ _ _ _).mpr ⟨trivial, fun r s' he => ?_⟩
  obtain rfl := he
  cases r with
  | error e => trivial
  | ok u =>
    refine (wp_bind _ _ _ _).mpr (h.mono fun r t _ => ?_)
    cases r with
    | error e => trivial
    | ok u => exact reportDeleted_own d t

private theorem deleteVm_own_iff {cfg : WorkerConfig} {d : VmDeleteData} {s : Cloud} :
    DeletesOwn d.vmId (deleteVm cfg d) s ↔ OwnCloneFor d s := by
  unfold deleteVm
  cases hone : d.oneVmId with
  | none =>
    refine iff_of_true (reportDeleted_own d s) ?_
    intro oneVmId m image hid
    rw [hone] at hid
    cases hid
  | some oneVmId =>
    constructor
    · intro h oneVmId' m image hid hm himage hi
      rw [hone] at hid
      cases hid
      have hread : (readClone oneVmId).Ends (cloudEffect d.vmId) s
          (.ok (some image, intOf m.templateId)) s := by
        refine ⟨.ok { templateId := m.templateId, diskImageIds := m.diskImageIds }, s,
          ⟨rfl, .inl ⟨m, _, hm, rfl, rfl, rfl⟩⟩, ?_, rfl⟩
        rw [himage]
      have hclone := (h.of_tryCatch.bind_ends hread).bind_ends (a := ()) ⟨.ok (), s, rfl, rfl, rfl⟩
      exact own_of_removeClone hclone.of_bind hi
    · intro h
      have hclone : ∀ m, s.machines oneVmId = some m →
          DeletesOwn d.vmId (removeClone cfg (firstImage m.diskImageIds) (intOf m.templateId)) s := by
        intro m hm
        cases himage : firstImage m.diskImageIds with
        | none => trivial
        | some image =>
          by_cases hi : image = 0
          · simp only [removeClone, hi, if_true]
            exact trivial
          · obtain ⟨hown, htemplate⟩ := h oneVmId m image hone hm himage hi
            exact removeClone_own hown htemplate
      have hfailed : (report { vmId := d.vmId, status := .error }
          { vmId := d.vmId, status := .row .error, oneVmId := some oneVmId,
            error := some "VM deletion failed. Please retry." }).Keeps (OwnOnly d.vmId)
          (cloudEffect d.vmId) fun _ => True := keeps_report _ _ _
      have hbody : DeletesOwn d.vmId (readClone oneVmId >>= fun clone =>
          oneVmAction "terminate" oneVmId >>= fun _ => removeClone cfg clone.1 clone.2 >>= fun _ =>
          reportDeleted d) s := by
        refine (wp_bind _ _ _ _).mpr ⟨trivial, fun r s' he => ?_⟩
        obtain ⟨rfl, ⟨m, vm, hm, rfl, htemplate, hdisks⟩ | ⟨e, rfl⟩⟩ := he
        · change DeletesOwn d.vmId _ s'
          apply terminate_own
          rw [htemplate, hdisks]
          exact hclone m hm
        · exact terminate_own trivial
      refine (wp_tryCatch _ _ _ _).mpr (hbody.mono fun r t _ => ?_)
      cases r with
      | ok u => trivial
      | error e => exact hfailed t trivial

end Delete

section Messages

private theorem subscriber_own_iff {v : String} {δ : Type} {accepted : Except String Unit}
    {data : Option δ} {handle : δ → VmProcess Unit} {d : δ} {s : Cloud} (ha : accepted = .ok ())
    (hd : data = some d) :
    DeletesOwn v (subscriber accepted data handle) s ↔ DeletesOwn v (handle d) s := by
  subst ha hd
  constructor
  · intro h
    exact h.of_tryCatch.of_bind
  · intro h
    refine (wp_tryCatch _ _ _ _).mpr ((wp_bind _ _ _ _).mpr (h.mono fun r t _ => ?_))
    cases r with
    | error e => exact ⟨trivial, fun _ _ _ => trivial⟩
    | ok u => exact ⟨trivial, fun _ _ _ => trivial⟩

private theorem vmNameOk_of_accepted {data : Dict} {d : VmCreateData}
    (ha : validateVmCreate data = .ok ()) (hd : VmCreateData.ofDict? data = some d) :
    vmNameOk d.name = true := by
  obtain ⟨d', hd', hname⟩ := createData_of_accepted ha
  rw [hd, Option.some.injEq] at hd'
  rw [hd']
  exact hname

private theorem handleVmCreate_own_iff {cfg : WorkerConfig} {data : Dict} {d : VmCreateData}
    {s : Cloud} (ha : validateVmCreate data = .ok ()) (hd : VmCreateData.ofDict? data = some d) :
    DeletesOwn d.vmId (handleVmCreate cfg data) s ↔ OwnNamesFor cfg d s :=
  (subscriber_own_iff ha hd).trans (createVm_own_iff (vmNameOk_of_accepted ha hd))

/-- For every cloud and every accepted message, the worker deletes only objects that were made
for the VM of the message exactly if: on `vm.create`, every template of the pool with the VM's
name, the chosen base template apart, was made for that VM; on `vm.delete`, the image and the
template of the machine named in the message were. -/
theorem deletes_own_iff (cfg : WorkerConfig) (s : Cloud) (data : Dict) :
    (∀ d, validateVmCreate data = .ok () → VmCreateData.ofDict? data = some d →
      (DeletesOwn d.vmId (handleVmCreate cfg data) s ↔ OwnNamesFor cfg d s)) ∧
    (∀ d, validateVmDelete data = .ok () → VmDeleteData.ofDict? data = some d →
      (DeletesOwn d.vmId (handleVmDelete cfg data) s ↔ OwnCloneFor d s)) := by
  constructor
  · intro d ha hd
    exact handleVmCreate_own_iff ha hd
  · intro d ha hd
    exact (subscriber_own_iff ha hd).trans deleteVm_own_iff

private def plainConfig : WorkerConfig := { lower := id, asciiFold := id }

private def tenantA : String := "5c0a9d1e-77b1-4f0e-8a53-3d9c2f6b1e40"

private def tenantB : String := "0b0e3c1a-5d2f-4f6a-9c3e-1a2b3c4d5e6f"

/-- The pool holds a base template and the clone of tenant A's VM `web-1`. -/
private def sharedCloud : Cloud where
  pool := [⟨1, "Ubuntu 24.04", some "YES"⟩, ⟨5, "web-1", some "NO"⟩]
  owner := fun t => if t = 5 then some tenantA else none
  imageOwner := fun i => if i = 9 then some tenantA else none
  machines := fun n => if n = 7 then some ⟨some (.int 5), [some (.int 9)]⟩ else none
  cache := none

private def createOf (vmId name : String) : Dict :=
  [("vmId", .str vmId), ("name", .str name), ("cpu", .int 2), ("ramMb", .int 2048),
    ("diskGb", .int 20), ("osTemplate", .str "Ubuntu 24.04"),
    ("userId", .str "7f1d6c1e-3a52-4c8b-9d07-5b1f0e2a6c34")]

private def dataOf (vmId name : String) : VmCreateData :=
  ⟨vmId, name, 2, 2048, 20, "Ubuntu 24.04", "7f1d6c1e-3a52-4c8b-9d07-5b1f0e2a6c34", none, "cloudvm", none⟩

/-- Tenant B creates a VM that is also called `web-1`; tenant A's template is deleted for it. -/
theorem create_deletes_other_tenant :
    validateVmCreate (createOf tenantB "web-1") = .ok () ∧ sharedCloud.owner 5 = some tenantA ∧
    ¬ DeletesOwn tenantB (handleVmCreate plainConfig (createOf tenantB "web-1")) sharedCloud := by
  have ha : validateVmCreate (createOf tenantB "web-1") = .ok () := by rfl
  have hd : VmCreateData.ofDict? (createOf tenantB "web-1") = some (dataOf tenantB "web-1") := by rfl
  refine ⟨ha, rfl, fun h => ?_⟩
  have hown := (handleVmCreate_own_iff ha hd).mp h 1 rfl ⟨5, "web-1", some "NO"⟩ (by simp [sharedCloud])
    rfl (by decide)
  revert hown
  decide

/-- Under another name the same message deletes nothing that is not its own. -/
theorem deletes_own_iff_other_name :
    DeletesOwn tenantB (handleVmCreate plainConfig (createOf tenantB "web-2")) sharedCloud := by
  have ha : validateVmCreate (createOf tenantB "web-2") = .ok () := by rfl
  have hd : VmCreateData.ofDict? (createOf tenantB "web-2") = some (dataOf tenantB "web-2") := by rfl
  apply ((deletes_own_iff plainConfig sharedCloud _).1 _ ha hd).mpr
  intro templateId _ t ht hname
  simp only [sharedCloud, List.mem_cons, List.not_mem_nil, or_false] at ht
  rcases ht with rfl | rfl
  · exact absurd hname (by decide)
  · exact absurd hname (by decide)

end Messages

end CloudVM.Worker
