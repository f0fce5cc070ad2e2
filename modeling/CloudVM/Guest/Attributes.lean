import CloudVM.Framework.Attributes
import CloudVM.Guest.Keys
import CloudVM.Worker.Aside

/-!
# The attributes of a machine

What OpenNebula reads off the texts that `create_vm` passes to `template.instantiate`, whatever the
message says and whatever the calls before are answered.
-/

namespace CloudVM.Guest

open Worker Process Attributes

section Values

def machineAttributes (cpu ramMb : Int) (keys : List String) : List (String × String) :=
  [("CPU", toString cpu), ("VCPU", toString cpu), ("MEMORY", toString ramMb)] ++
    if keys = [] then [] else [("SSH_PUBLIC_KEY", keysForTemplate keys)]

/-- The name, or the default for a blank one, and the password if there is one. -/
def credentials (username password : Option Value) : List (String × String) :=
  ("USERNAME", usernameOf username) :: (strippedText password).toList.map fun p => ("PASSWORD", p)

/-- The keys of the configuration, of the user and of the message that remain. -/
def remainingKeys (cfg : WorkerConfig) (data : Dict) (dbKeys : List String) : List String :=
  sanitizeSshPublicKeys ((if cfg.injectExtraSshKeys then cfg.extraSshKeys else []) ++ dbKeys ++
    (strippedText (data.get? "sshPublicKey")).toList)

end Values

section Texts

private def numberLine (name : String) (n : Int) (h : name ≠ "" ∧ name.toList.all nameChar = true) :
    Line where
  name := name
  value := toString n
  quoted := false
  named := ⟨h.1, List.all_eq_true.mp h.2⟩
  plain := by
    intro _
    refine ⟨not_mem_repr rfl (by decide) n, ?_⟩
    intro hhead
    exact not_mem_repr (c := '"') rfl (by decide) n (List.mem_of_mem_head? hhead)

private def quotedLine (name value : String) (h : name ≠ "" ∧ name.toList.all nameChar = true) :
    Line where
  name := name
  value := value
  quoted := true
  named := ⟨h.1, List.all_eq_true.mp h.2⟩
  plain := by simp

private def machineLines (cpu ramMb : Int) (keys : List String) : List Line :=
  [numberLine "CPU" cpu (by decide), numberLine "VCPU" cpu (by decide),
    numberLine "MEMORY" ramMb (by decide)] ++
    if keys = [] then [] else [quotedLine "SSH_PUBLIC_KEY" (keysForTemplate keys) (by decide)]

private def credentialLines (username : String) (password : Option String) : List Line :=
  quotedLine "USERNAME" username (by decide) ::
    password.toList.map fun p => quotedLine "PASSWORD" p (by decide)

private theorem quote_eq : quote = escapeChar := rfl

private theorem text_quotedLine {head name : String} (value : String)
    (h : name ≠ "" ∧ name.toList.all nameChar = true) (hhead : head = name ++ "=\"") :
    (head ++ escapeOneTemplateValue value ++ "\"\n").toList = (quotedLine name value h).chars := by
  rw [hhead]
  simp [Line.chars, quotedLine, escapeOneTemplateValue_eq, quote_eq]

private theorem intercalate_eq_empty {keys : List String} (h : ∀ k ∈ keys, k ≠ "") :
    String.intercalate "\n" keys = "" ↔ keys = [] := by
  constructor
  · intro hempty
    cases keys with
    | nil => rfl
    | cons k keys =>
      have hk := h k (by simp)
      have hlist : (String.intercalate "\n" (k :: keys)).toList = [] := by rw [hempty]; rfl
      rw [String.toList_intercalate] at hlist
      cases keys with
      | nil => simp_all
      | cons k' keys => simp_all
  · intro hnil
    rw [hnil]
    rfl

private theorem machineLines_text (cpu ramMb : Int) {keys : List String} (h : ∀ k ∈ keys, k ≠ "") :
    (extraTemplateBase cpu ramMb keys).toList = (machineLines cpu ramMb keys).flatMap Line.chars := by
  have hnumbers : (s!"CPU={cpu}\nVCPU={cpu}\nMEMORY={ramMb}\n").toList =
      [numberLine "CPU" cpu (by decide), numberLine "VCPU" cpu (by decide),
        numberLine "MEMORY" ramMb (by decide)].flatMap Line.chars := by
    simp [Line.chars, numberLine]
    rfl
  rw [extraTemplateBase_eq, machineLines, List.flatMap_append, ← hnumbers, String.toList_append]
  congr 1
  by_cases hkeys : keys = []
  · subst hkeys
    rfl
  · have hsome : String.intercalate "\n" keys ≠ "" := mt (intercalate_eq_empty h).mp hkeys
    rw [if_neg hsome, if_neg hkeys, List.flatMap_singleton]
    exact text_quotedLine _ _ rfl

private theorem credsSnippet_some (username : String) {p : String} (h : p ≠ "") :
    credsSnippet username (some p) = "USERNAME=\"" ++ escapeOneTemplateValue username ++ "\"\n" ++
      ("PASSWORD=\"" ++ escapeOneTemplateValue p ++ "\"\n") := by
  unfold credsSnippet
  split
  · contradiction
  · simp_all
  · simp_all

private theorem credentialLines_text (username : String) {password : Option String}
    (h : password ≠ some "") :
    (credsSnippet username password).toList =
      (credentialLines username password).flatMap Line.chars := by
  have hname : ("USERNAME=\"" ++ escapeOneTemplateValue username ++ "\"\n").toList =
      (quotedLine "USERNAME" username (by decide)).chars := text_quotedLine _ _ rfl
  rw [credentialLines, List.flatMap_cons, ← hname]
  cases password with
  | none =>
    have hempty : credsSnippet username none =
        "USERNAME=\"" ++ escapeOneTemplateValue username ++ "\"\n" ++ "" := rfl
    rw [hempty, String.append_empty, Option.toList_none, List.map_nil, List.flatMap_nil,
      List.append_nil]
  | some p =>
    have hp : p ≠ "" := fun he => h (by rw [he])
    have hpassword : ("PASSWORD=\"" ++ escapeOneTemplateValue p ++ "\"\n").toList =
        (quotedLine "PASSWORD" p (by decide)).chars := text_quotedLine _ _ rfl
    rw [credsSnippet_some username hp, Option.toList_some, List.map_singleton,
      List.flatMap_singleton, ← hpassword, String.toList_append]

private theorem machineLines_pairs (cpu ramMb : Int) (keys : List String) :
    (machineLines cpu ramMb keys).map (fun l => (l.name, l.value)) =
      machineAttributes cpu ramMb keys := by
  by_cases hkeys : keys = []
  · simp [machineLines, machineAttributes, hkeys, numberLine]
  · simp [machineLines, machineAttributes, hkeys, numberLine, quotedLine]

theorem parse_machine (cpu ramMb : Int) {keys : List String} (h : ∀ k ∈ keys, k ≠ "") :
    parse (extraTemplateBase cpu ramMb keys) = some (machineAttributes cpu ramMb keys) := by
  rw [← String.ofList_toList (s := extraTemplateBase cpu ramMb keys), machineLines_text cpu ramMb h,
    parse_lines, machineLines_pairs]

private theorem strippedText_ne_empty (v : Option Value) : strippedText v ≠ some "" := by
  unfold strippedText
  split
  · split
    · simp
    · rename_i hs
      simpa using hs
  · simp

theorem parse_withCredentials (cpu ramMb : Int) {keys : List String} (h : ∀ k ∈ keys, k ≠ "")
    (username password : Option Value) :
    parse (extraTemplateBase cpu ramMb keys ++
        credsSnippet (usernameOf username) (strippedText password)) =
      some (machineAttributes cpu ramMb keys ++ credentials username password) := by
  have htext : (extraTemplateBase cpu ramMb keys ++
      credsSnippet (usernameOf username) (strippedText password)).toList =
      (machineLines cpu ramMb keys ++
        credentialLines (usernameOf username) (strippedText password)).flatMap Line.chars := by
    rw [String.toList_append, List.flatMap_append, machineLines_text cpu ramMb h,
      credentialLines_text _ (strippedText_ne_empty password)]
  have hpairs : (credentialLines (usernameOf username) (strippedText password)).map
      (fun l => (l.name, l.value)) = credentials username password := by
    simp [credentialLines, credentials, quotedLine, Function.comp_def]
  rw [← String.ofList_toList (s := extraTemplateBase cpu ramMb keys ++ _), htext, parse_lines,
    List.map_append, machineLines_pairs, hpairs]

end Texts

section Calls

/-- What the calls have been answered: the keys of the user, and a refused instantiation. -/
structure Answered where
  dbKeys : List String := []
  refused : Bool := false

def answered : (c : VmCall) → Answered → c.Answer → Answered → Prop
  | .selectUserSshKeys _, s, r, s' => s' = { s with dbKeys := r.toOption.getD [] }
  | .templateInstantiate _ _ _, s, r, s' =>
      s' = { s with refused := s.refused || r.toOption.isNone }
  | _, s, _, s' => s' = s

/-- The text of an instantiation holds the attributes of the message and nothing else; once an
instantiation was refused, it holds no credentials. -/
def Exact (cfg : WorkerConfig) (data : Dict) (s : Answered) : VmCall → Prop
  | .templateInstantiate _ _ extraTemplate =>
      ∃ cpu ramMb, intField data "cpu" = some cpu ∧ intField data "ramMb" = some ramMb ∧
        parse extraTemplate = some (machineAttributes cpu ramMb (remainingKeys cfg data s.dbKeys) ++
          if s.refused then []
          else credentials (data.get? "vmUsername") (data.get? "vmPassword"))
  | _ => True

variable {cfg : WorkerConfig} {data : Dict}

private theorem stays_templates {α : Type} {p : VmProcess α} (h : p.Only Templates) (s : Answered) :
    p.Wp (Exact cfg data) answered (fun _ t => t = s) s := by
  apply h.stays
  · intro c hc
    cases c <;> trivial
  · intro c r t hc ht
    cases c <;> first | exact ht | cases hc

private def MakesNone : VmCall → Prop
  | .templateInstantiate _ _ _ => False
  | _ => True

private theorem permitted {α : Type} {p : VmProcess α} (h : p.Only MakesNone) (s : Answered) :
    p.Wp (Exact cfg data) answered (fun _ _ => True) s := by
  have hkeeps : p.Keeps (Exact cfg data) answered fun _ => True := by
    apply h.keeps
    · intro s c hc
      cases c <;> first | exact hc.elim | trivial
    · intros
      trivial
  exact hkeeps s trivial

private theorem permitted_aside {α : Type} {p : VmProcess α} (h : p.Only Aside) (s : Answered) :
    p.Wp (Exact cfg data) answered (fun _ _ => True) s :=
  permitted (h.mono fun c hc => by cases c <;> trivial) s

private theorem permitted_report (w : StatusWrite) (m : StatusUpdate) (s : Answered) :
    (report w m).Wp (Exact cfg data) answered (fun _ _ => True) s := by
  have honly : (report w m).Only MakesNone :=
    only_bind (only_request trivial) fun _ => only_request trivial
  exact permitted honly s

private theorem permitted_createTask (t : PollTask) (s : Answered) :
    (createTask t).Wp (Exact cfg data) answered (fun _ _ => True) s := by
  have honly : (createTask t).Only MakesNone := ⟨trivial, fun _ => trivial⟩
  exact permitted honly s

private theorem ofDict_fields {d : VmCreateData} (hd : VmCreateData.ofDict? data = some d) :
    intField data "cpu" = some d.cpu ∧ intField data "ramMb" = some d.ramMb ∧
      d.sshPublicKey = strippedText (data.get? "sshPublicKey") ∧
      d.vmUsername = usernameOf (data.get? "vmUsername") ∧
      d.vmPassword = strippedText (data.get? "vmPassword") := by
  simp only [VmCreateData.ofDict?, Option.bind_eq_bind, Option.bind_eq_some_iff,
    Option.some.injEq] at hd
  obtain ⟨_, -, _, -, cpu, hcpu, ramMb, hram, _, -, _, -, _, -, rfl⟩ := hd
  exact ⟨hcpu, hram, rfl, rfl, rfl⟩

private theorem collectSshKeys_wp {d : VmCreateData} (hd : VmCreateData.ofDict? data = some d) :
    (collectSshKeys cfg d).Wp (Exact cfg data) answered
      (Post (fun keys t => keys = remainingKeys cfg data t.dbKeys ∧ t.refused = false)
        fun _ _ => True) {} := by
  obtain ⟨-, -, hkey, -, -⟩ := ofDict_fields hd
  simp only [remainingKeys, ← hkey]
  unfold collectSshKeys
  simp only
  by_cases huser : d.userId = ""
  · rw [if_pos huser]
    exact ⟨rfl, rfl⟩
  · rw [if_neg huser]
    refine ⟨trivial, ?_⟩
    intro r t ht
    subst ht
    cases r with
    | error e => exact ⟨rfl, rfl⟩
    | ok keys => exact ⟨rfl, rfl⟩

private theorem templateInstantiate_wp {templateId : Int} {name text : String} {s : Answered}
    (h : Exact cfg data s (.templateInstantiate templateId name text)) :
    (templateInstantiate templateId name text).Wp (Exact cfg data) answered
      (Post (fun _ _ => True) fun _ t => t = { s with refused := true }) s := by
  refine ⟨h, ?_⟩
  intro r t ht
  cases r with
  | error e => simpa [answered, Except.toOption] using ht
  | ok oneVmId => trivial

private theorem instantiate_wp {d : VmCreateData} (hd : VmCreateData.ofDict? data = some d)
    (templateId : Int) {s : Answered} (hs : s.refused = false) :
    (instantiate d templateId (remainingKeys cfg data s.dbKeys)).Wp (Exact cfg data) answered
      (fun _ _ => True) s := by
  obtain ⟨hcpu, hram, -, hname, hpassword⟩ := ofDict_fields hd
  have hkeys : ∀ k ∈ remainingKeys cfg data s.dbKeys, k ≠ "" := fun k hk =>
    (sanitised _ k hk).ne_empty
  have hfirst := parse_withCredentials d.cpu d.ramMb hkeys (data.get? "vmUsername")
    (data.get? "vmPassword")
  have hagain := parse_machine d.cpu d.ramMb hkeys
  rw [← hname, ← hpassword] at hfirst
  simp only [instantiate]
  apply (stays_templates (cleanupStale_templates d.name templateId) s).bind
  · intro e t _
    trivial
  · intro _ t ht
    subst ht
    apply (templateInstantiate_wp ⟨d.cpu, d.ramMb, hcpu, hram, by simpa [hs] using hfirst⟩).recover
    · intro oneVmId u _
      trivial
    · intro e u hu
      simp only [post_error] at hu
      subst hu
      apply (stays_templates (cleanupStale_templates d.name templateId) _).bind
      · intro e v _
        trivial
      · intro _ v hv
        subst hv
        apply (templateInstantiate_wp ⟨d.cpu, d.ramMb, hcpu, hram, by simpa using hagain⟩).mono
        intro _ _ _
        trivial

private theorem launchFrom_wp {d : VmCreateData} (hd : VmCreateData.ofDict? data = some d)
    (templateId : Int) :
    (launchFrom cfg d templateId).Wp (Exact cfg data) answered (fun _ _ => True) {} := by
  simp only [launchFrom]
  apply (collectSshKeys_wp hd).bind
  · intro e s _
    trivial
  · intro keys s hs
    simp only [post_ok] at hs
    rw [hs.1]
    apply (instantiate_wp hd templateId hs.2).bind
    · intro e t _
      trivial
    · intro oneVmId t _
      apply (permitted_aside (clearBaseFlag_aside oneVmId templateId) t).bind
      · intro e u _
        trivial
      · intro _ u _
        apply (permitted_report _ _ u).bind
        · intro e v _
          trivial
        · intro _ v _
          exact permitted_createTask _ v

private theorem provision_wp {d : VmCreateData} (hd : VmCreateData.ofDict? data = some d) :
    (provision cfg d).Wp (Exact cfg data) answered (fun _ _ => True) {} := by
  have hlaunch : (launch cfg d).Wp (Exact cfg data) answered (fun _ _ => True) {} := by
    unfold launch
    apply (stays_templates (findTemplate_templates cfg d.osTemplate) {}).bind
    · intro e s _
      trivial
    · intro found s hs
      subst hs
      cases found with
      | none => trivial
      | some templateId => exact launchFrom_wp hd templateId
  refine ⟨trivial, ?_⟩
  intro r s hs
  subst hs
  match r with
  | .ok (some existing) => exact permitted_createTask _ _
  | .ok none | .error _ =>
    by_cases hname : vmNameOk d.name = true
    · simpa [hname] using hlaunch
    · simp [hname]

private theorem createVm_wp {d : VmCreateData} (hd : VmCreateData.ofDict? data = some d) :
    (createVm cfg d).Wp (Exact cfg data) answered (fun _ _ => True) {} := by
  refine ⟨trivial, ?_⟩
  intro r s hs
  subst hs
  match r with
  | .error _ => exact permitted_report _ _ _
  | .ok false => trivial
  | .ok true =>
    have hrelease : (releaseCreateLock d.vmId).Only MakesNone :=
      only_ignoring (only_request trivial)
    apply Wp.andFinally
    rw [wp_tryCatch]
    apply (provision_wp hd).mono
    intro r t _
    cases r with
    | ok _ => exact permitted hrelease t
    | error e => exact (permitted_report _ _ t).mono fun _ u _ => permitted hrelease u

/-- Whatever the message says and whatever is answered, no text of the user's leads out of its
attribute. -/
theorem instantiated_attributes (cfg : WorkerConfig) (data : Dict) :
    (handleVmCreate cfg data).Wp (Exact cfg data) answered (fun _ _ => True) {} := by
  have hack : Worker.ack.Only MakesNone := ⟨trivial, fun _ => trivial⟩
  unfold handleVmCreate subscriber
  split
  · rename_i d _ hd
    rw [wp_tryCatch, wp_bind]
    apply (createVm_wp hd).mono
    intro r s _
    cases r with
    | ok _ =>
      simp only [post_ok]
      apply (permitted hack s).mono
      intro r t _
      cases r with
      | ok _ => trivial
      | error e => exact permitted hack t
    | error e => exact permitted hack s
  · exact permitted hack _

/-- The attributes with every value as it was given: a blank name is not replaced, and only the
ends of lines of the keys are encoded. -/
def givenAttributes (cpu ramMb : Int) (keys : List String) (username : String)
    (password : Option String) : List (String × String) :=
  [("CPU", toString cpu), ("VCPU", toString cpu), ("MEMORY", toString ramMb)] ++
    (if keys = [] then []
      else [("SSH_PUBLIC_KEY", String.ofList ((String.intercalate "\n" keys).toList.flatMap fun c =>
        if c = '\n' then ['\\', 'n'] else [c]))]) ++
    ("USERNAME", Text.pyStrip username) :: password.toList.map fun p => ("PASSWORD", p)

/-- Every text of an instantiation holds all that was given. -/
def AsGiven (cpu ramMb : Int) (keys : List String) (username : String) (password : Option String) :
    VmCall → Prop
  | .templateInstantiate _ _ extraTemplate =>
      parse extraTemplate = some (givenAttributes cpu ramMb keys username password)
  | _ => True

private def sampleMessage (username key : String) : Dict :=
  [("vmId", .str "7f1d6c1e-3a52-4c8b-9d07-5b1f0e2a6c34"), ("name", .str "web"), ("cpu", .int 2),
    ("ramMb", .int 2048), ("diskGb", .int 20), ("osTemplate", .str "debian"),
    ("userId", .str "7f1d6c1e-3a52-4c8b-9d07-5b1f0e2a6c34"), ("sshPublicKey", .str key),
    ("vmUsername", .str username)]

private def sampleData (username key : String) : VmCreateData :=
  ⟨"7f1d6c1e-3a52-4c8b-9d07-5b1f0e2a6c34", "web", 2, 2048, 20, "debian",
    "7f1d6c1e-3a52-4c8b-9d07-5b1f0e2a6c34", some key, username, none⟩

private def sampleConfig : WorkerConfig := ⟨0, false, [], id, id⟩

private theorem sample_texts {P : VmCall → Prop} (username key : String)
    (h : (createVm sampleConfig (sampleData username key)).Wp (fun _ => P) answered
      (fun _ _ => True) {}) :
    P (.templateInstantiate 7 "web"
        (extraTemplateBase 2 2048 (sanitizeSshPublicKeys [key]) ++ credsSnippet username none)) ∧
      P (.templateInstantiate 7 "web" (extraTemplateBase 2 2048 (sanitizeSshPublicKeys [key]))) := by
  have hname : vmNameOk "web" = true := by decide
  have hlock : ((tryCatch (provision sampleConfig (sampleData username key)) fun _ =>
      provisionFailed (sampleData username key).vmId).andFinally
        (releaseCreateLock (sampleData username key).vmId)).Wp (fun _ => P) answered
          (fun _ _ => True) {} := h.2 (.ok true) {} rfl
  have hprovision : (provision sampleConfig (sampleData username key)).Wp (fun _ => P) answered
      (fun _ _ => True) {} := hlock.of_bind.of_tryCatch.of_bind.of_tryCatch
  have hlaunch : (launch sampleConfig (sampleData username key)).Wp (fun _ => P) answered
      (fun _ _ => True) {} := by
    have hnone := hprovision.2 (.ok none) {} rfl
    simpa [sampleData, hname] using hnone
  have hfound : (findTemplate sampleConfig "debian").Ends answered {} (.ok (some 7)) {} := by
    refine ⟨some [⟨7, "debian", some "YES"⟩], {}, rfl, some [⟨7, "debian", some "YES"⟩], {}, rfl, ?_⟩
    exact ⟨by decide, rfl⟩
  have hfrom : (launchFrom sampleConfig (sampleData username key) 7).Wp (fun _ => P) answered
      (fun _ _ => True) {} := hlaunch.bind_ends hfound
  have hkeys := hfrom.2 (.ok []) {} rfl
  have hpool := hkeys.2 (.error ⟨.other, ""⟩) {} rfl
  refine ⟨hpool.1, ?_⟩
  have hrefused := hpool.2 (.error ⟨.other, ""⟩) { refused := true } rfl
  exact (hrefused.2 (.error ⟨.other, ""⟩) { refused := true } rfl).1

private theorem sample_createVm {P : VmCall → Prop} {username key : String}
    (hd : VmCreateData.ofDict? (sampleMessage username key) =
      some (sampleData (usernameOf (some (.str username))) key))
    (ha : validateVmCreate (sampleMessage username key) = .ok ())
    (h : (handleVmCreate sampleConfig (sampleMessage username key)).Wp (fun _ => P) answered
      (fun _ _ => True) {}) :
    (createVm sampleConfig (sampleData (usernameOf (some (.str username))) key)).Wp (fun _ => P)
      answered (fun _ _ => True) {} := by
  rw [handleVmCreate, ha, hd] at h
  exact h.of_tryCatch.of_bind

/-- A refused text is sent again without the name, a blank name is replaced, and a carriage return
inside a key is dropped. -/
theorem given_values_changed :
    ¬ (handleVmCreate sampleConfig (sampleMessage "root" "ssh-rsa A")).Wp
        (fun _ => AsGiven 2 2048 ["ssh-rsa A"] "root" none) answered (fun _ _ => True) {} ∧
      ¬ (handleVmCreate sampleConfig (sampleMessage " " "ssh-rsa A")).Wp
        (fun _ => AsGiven 2 2048 ["ssh-rsa A"] " " none) answered (fun _ _ => True) {} ∧
      ¬ (handleVmCreate sampleConfig (sampleMessage "root" "ssh-rsa A\rB")).Wp
        (fun _ => AsGiven 2 2048 ["ssh-rsa A\rB"] "root" none) answered (fun _ _ => True) {} := by
  refine ⟨fun h => ?_, fun h => ?_, fun h => ?_⟩
  · have htext := (sample_texts _ _ (sample_createVm (by rfl) (by rfl) h)).2
    exact absurd htext (by unfold AsGiven; decide)
  · have htext := (sample_texts _ _ (sample_createVm (by rfl) (by rfl) h)).1
    exact absurd htext (by unfold AsGiven; decide)
  · have htext := (sample_texts _ _ (sample_createVm (by rfl) (by rfl) h)).1
    exact absurd htext (by unfold AsGiven; decide)

end Calls

end CloudVM.Guest
