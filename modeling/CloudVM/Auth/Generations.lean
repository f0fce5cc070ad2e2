import CloudVM.Auth.Guesses
import CloudVM.Auth.SingleUse

/-!
# Recovery codes of an earlier generation

A renewal that has returned has replaced the stored list at one of its steps. No text that was
stored up to then comes back, and no request that begins later takes one out.
-/

namespace CloudVM.Recovery

open Process AuthService

section Renewals

variable {env : RecoveryEnv} {plainOf : String → Option String} {userId : String}
  {x y : RecoveryStage} {l : StageLabel recoveryInterface RecoveryRequest}

private theorem spent_before {task task' : CodeTask} {text : String}
    (hq : task'.request = task.request)
    (hsame : codePhase env plainOf userId task' = codePhase env plainOf userId task)
    (h : Spent env plainOf userId task' text) : Spent env plainOf userId task text := by
  obtain ⟨code, hcode, htext, hspent⟩ := h
  exact ⟨code, hq ▸ hcode, htext, hsame ▸ hspent⟩

theorem written_step (hk : (codePhases env plainOf userId).Kept x)
    (h : (recoveryServer env plainOf userId).Step x l y) :
    ∀ text ∈ x.state.written, text ∈ y.state.written := by
  cases l with
  | act i c r =>
    obtain ⟨task, task', -, -, -, hstep⟩ := codeStep_of_act hk h
    intro text ht
    generalize x.state = s at hstep ht
    generalize y.state = s' at hstep ⊢
    generalize codePhase env plainOf userId task = φ at hstep
    generalize codePhase env plainOf userId task' = φ' at hstep
    cases hstep with
    | renews => exact List.mem_append_left _ ht
    | _ => exact ht
  | begin q =>
    cases h
    exact fun text => id
  | crash =>
    cases h
    exact fun text => id
  | change =>
    cases h with
    | change hc =>
      intro text ht
      rw [hc.2.2]
      exact ht

/-- A step stores no text that was stored before, and takes out none but a stored one. -/
structure Forward (env : RecoveryEnv) (plainOf : String → Option String) (userId : String)
    (x y : RecoveryStage) : Prop where
  texts : ∀ text ∈ textsOf plainOf userId y.state,
    text ∈ textsOf plainOf userId x.state ∨ text ∉ x.state.written
  spent : ∀ (j : ℕ) (b : CodeTask) text, y.tasks[j]? = some b → Spent env plainOf userId b text →
    (∃ a, x.tasks[j]? = some a ∧ Spent env plainOf userId a text) ∨
      text ∈ textsOf plainOf userId x.state

private theorem spent_set {s : RecoveryStore} {tasks : List CodeTask} {i : ℕ} {task task' : CodeTask}
    (hi : tasks[i]? = some task)
    (h : ∀ text, Spent env plainOf userId task' text → Spent env plainOf userId task text ∨
      text ∈ textsOf plainOf userId s) (j : ℕ) (b : CodeTask) (text : String)
    (hb : (tasks.set i task')[j]? = some b) (hs : Spent env plainOf userId b text) :
    (∃ a, tasks[j]? = some a ∧ Spent env plainOf userId a text) ∨
      text ∈ textsOf plainOf userId s := by
  rcases getElem?_set_cases hb with ⟨rfl, rfl⟩ | ⟨-, hb'⟩
  · exact (h text hs).imp_left fun hold => ⟨task, hi, hold⟩
  · exact .inl ⟨b, hb', hs⟩

private theorem forward_act {s s' : RecoveryStore} {tasks : List CodeTask} {i : ℕ}
    {task task' : CodeTask} {c : RecoveryCall} (hx : Sound env plainOf userId ⟨s, tasks⟩)
    (hexact : ∀ text hash, env.bcryptCompare text hash = true ↔ plainOf hash = some text)
    (hi : tasks[i]? = some task) (hq : task'.request = task.request)
    (hread : ∀ read hashes, c = .auth (.setRecoveryHashes userId hashes) →
      codePhase env plainOf userId task = .looked read → s.hashesOf userId = read)
    (h : CodeStep env plainOf userId task.request c (codePhase env plainOf userId task) s
      (codePhase env plainOf userId task') s') :
    Forward env plainOf userId ⟨s, tasks⟩ ⟨s', tasks.set i task'⟩ := by
  have hfresh := hx.fresh task (List.mem_of_getElem? hi)
  generalize hφ : codePhase env plainOf userId task = φ at h hread hfresh
  generalize hφ' : codePhase env plainOf userId task' = φ' at h
  have hother : ∀ text, φ' ≠ .spent → ¬ Spent env plainOf userId task' text := by
    rintro text hne ⟨code, -, -, hs⟩
    exact hne (hφ'.symm.trans hs)
  cases h with
  | aside =>
    constructor
    · exact fun text => .inl
    · apply spent_set hi
      exact fun text hs => .inl (spent_before hq (hφ'.trans hφ.symm) hs)
  | @spends _ code read hashes _ hc hconsume hspend hrow hend =>
    have hhere := hread read hashes hc rfl
    subst hhere
    obtain ⟨hstored, -, hmem⟩ := spendHash_mem hexact hx.distinct hspend
    constructor
    · intro text ht
      rw [textsOf, hashesOf_setHashes hrow] at ht
      obtain ⟨hash, hhash, hplain⟩ := List.mem_filterMap.mp ht
      exact .inl (List.mem_filterMap.mpr ⟨hash, ((hmem hash).mp hhash).1, hplain⟩)
    · apply spent_set hi
      rintro text ⟨code', hcode', rfl, -⟩
      obtain rfl : code = code' := by simpa using hconsume.symm.trans (hq.symm.trans hcode')
      exact .inr hstored
  | @renews _ _ _ data hc hnew hrow hend =>
    constructor
    · intro text ht
      rw [textsOf, hashesOf_renew hrow] at ht
      rcases hnew with rfl | ⟨-, hnone⟩
      · exact .inr (hfresh.2 text ht).2
      · rw [hnone] at ht
        cases ht
    · apply spent_set hi
      intro text hs
      apply absurd hs
      apply hother
      rcases hend with rfl | rfl <;> simp
  | looks | draws | hashes | fails =>
    constructor
    · exact fun text => .inl
    · apply spent_set hi
      exact fun text hs => absurd hs (hother text (by simp))

theorem forward_step
    (hexact : ∀ text hash, env.bcryptCompare text hash = true ↔ plainOf hash = some text)
    (hk : (codePhases env plainOf userId).Kept x) (hx : Sound env plainOf userId x)
    (hread : Undisturbed env plainOf userId x l)
    (h : (recoveryServer env plainOf userId).Step x l y) : Forward env plainOf userId x y := by
  cases l with
  | act i c r =>
    obtain ⟨task, task', hi, htasks, hq, hstep⟩ := codeStep_of_act hk h
    have hforward := forward_act (s := x.state) hx hexact hi hq ?_ hstep
    · rw [← htasks] at hforward
      exact hforward
    · rintro read hashes rfl hlooked
      exact hread i userId hashes r rfl task read hi hlooked
  | begin q =>
    cases h
    constructor
    · exact fun text => .inl
    · intro j b text hb hs
      rcases getElem?_append_cases hb with ⟨-, rfl⟩ | hb'
      · obtain ⟨code, -, -, hspent⟩ := hs
        cases hspent
      · exact .inl ⟨b, hb', hs⟩
  | crash =>
    cases h with
    | crash e hi hl =>
      constructor
      · exact fun text => .inl
      · apply spent_set hi
        exact fun text => .inl
  | change =>
    cases h with
    | change hc =>
      constructor
      · intro text ht
        rw [textsOf, hc.1] at ht
        exact .inl ht
      · exact fun j b text hb hs => .inl ⟨b, hb, hs⟩

/-- The texts of `older` are gone, and no request from the `n`th on takes one out. -/
structure Superseded (env : RecoveryEnv) (plainOf : String → Option String) (userId : String)
    (older : List String) (n : ℕ) (x : RecoveryStage) : Prop where
  written : ∀ text ∈ older, text ∈ x.state.written
  gone : ∀ text ∈ older, text ∉ textsOf plainOf userId x.state
  refused : ∀ (j : ℕ) (task : CodeTask) text, n ≤ j → x.tasks[j]? = some task →
    Spent env plainOf userId task text → text ∉ older

variable {older : List String} {n : ℕ}

theorem superseded_step
    (hexact : ∀ text hash, env.bcryptCompare text hash = true ↔ plainOf hash = some text)
    (hk : (codePhases env plainOf userId).Kept x) (hx : Sound env plainOf userId x)
    (hs : Superseded env plainOf userId older n x) (hread : Undisturbed env plainOf userId x l)
    (h : (recoveryServer env plainOf userId).Step x l y) :
    Superseded env plainOf userId older n y := by
  have hforward := forward_step hexact hk hx hread h
  constructor
  · intro text ht
    exact written_step hk h text (hs.written text ht)
  · intro text ht hstored
    rcases hforward.texts text hstored with hold | hnew
    · exact hs.gone text ht hold
    · exact hnew (hs.written text ht)
  · intro j task text hj htask hspent ht
    rcases hforward.spent j task text htask hspent with ⟨a, ha, hold⟩ | hstored
    · exact hs.refused j a text hj ha hold ht
    · exact hs.gone text ht hstored

theorem superseded_of_update {k : ℕ} {w : String} {data : MfaUpdate}
    (hk : (codePhases env plainOf userId).Kept x) (hx : Sound env plainOf userId x)
    (h : (recoveryServer env plainOf userId).Step x (.act k (RecoveryCall.updateMfa w data) (.ok ())) y) :
    Superseded env plainOf userId x.state.written y.tasks.length y := by
  have hwritten := written_step hk h
  obtain ⟨task, task', hi, -, -, -, hpermits, -, heffect⟩ := hk.act h
  obtain ⟨rfl, -, hnew⟩ := hpermits
  have hfresh := (hx.fresh task (List.mem_of_getElem? hi)).2
  rcases heffect with ⟨-, ⟨e, he⟩, -⟩ | ⟨hrow, ⟨-, hstate⟩ | ⟨⟨e, he⟩, -⟩⟩
  · cases he
  · constructor
    · exact hwritten
    · intro text ht hstored
      rw [hstate, textsOf, hashesOf_renew hrow] at hstored
      rcases hnew with hφ | ⟨-, hnone⟩
      · apply (hfresh text _).2 ht
        have hφ' : codePhase env plainOf w task = .hashed data.mfaRecoveryCodeHashes := hφ
        rw [hφ']
        exact hstored
      · rw [hnone] at hstored
        cases hstored
    · intro j b text hj hb
      rw [List.getElem?_eq_none hj] at hb
      cases hb
  · cases he

private theorem stored_of_advance {q : RecoveryRequest} {φ : CodePhase} {c : RecoveryCall}
    {r : c.Answer} (h : φ.advance env q c r = .stored) :
    φ = .stored ∨ ∃ w data, (⟨c, r⟩ : Event recoveryInterface) = ⟨.updateMfa w data, .ok ()⟩ := by
  cases c with
  | auth c =>
    cases c with
    | findUserById w =>
      simp only [CodePhase.advance] at h
      split at h
      · cases h
      · exact .inl h
    | setRecoveryHashes w hashes => cases r <;> cases h
    | _ => exact .inl h
  | updateMfa w data =>
    cases r with
    | ok u => exact .inr ⟨w, data, rfl⟩
    | error e => cases h
  | randomHex | hashAll => cases h
  | getSetup | delSetup => exact .inl h

theorem update_mem_log {q : RecoveryRequest} {log : List (Event recoveryInterface)}
    (h : (codePhases env plainOf userId).phaseOf q log = .stored) :
    ∃ w data, (⟨.updateMfa w data, .ok ()⟩ : Event recoveryInterface) ∈ log := by
  induction log using List.reverseRecOn with
  | nil => cases h
  | append_singleton log e ih =>
    have hlast : CodePhase.advance env q ((codePhases env plainOf userId).phaseOf q log) e.1 e.2 =
        .stored := by
      rw [← h]
      simp [Server.Phased.phaseOf, codePhases]
    rcases stored_of_advance hlast with hbefore | ⟨w, data, he⟩
    · obtain ⟨w, data, hmem⟩ := ih hbefore
      exact ⟨w, data, List.mem_append_left _ hmem⟩
    · exact ⟨w, data, List.mem_append_right _ (by rw [← he]; exact List.mem_singleton_self e)⟩

end Renewals

section Claim

/-- The stored codes are all different, and all of them were generated and stored before. -/
structure Enrolled (plainOf : String → Option String) (userId : String) (s : RecoveryStore) :
    Prop where
  distinct : (textsOf plainOf userId s).Nodup
  known : ∀ text ∈ textsOf plainOf userId s, text ∈ s.written
  drawn : ∀ text ∈ s.written, text ∈ s.generated

/-- The `j`th request has accepted a code with this text. -/
def Accepted (env : RecoveryEnv) (x : RecoveryStage) (j : ℕ) (text : String) : Prop :=
  ∃ task code, x.tasks[j]? = some task ∧ task.request = .consume code ∧ codeText env code = text ∧
    task.rest = .ret (.consumed true)

variable {env : RecoveryEnv} {plainOf : String → Option String} {userId : String} {s : RecoveryStore}
  {x y : RecoveryStage}
  {trace trace' : List (StageLabel recoveryInterface RecoveryRequest × RecoveryStage)}

theorem sound_enrolled (hs : Enrolled plainOf userId s) : Sound env plainOf userId ⟨s, []⟩ := by
  constructor
  · exact hs.distinct
  · exact hs.known
  · exact hs.drawn
  all_goals simp

theorem spent_of_accepted (hk : (codePhases env plainOf userId).Kept x) {j : ℕ} {text : String}
    (h : Accepted env x j text) :
    ∃ task, x.tasks[j]? = some task ∧ Spent env plainOf userId task text := by
  obtain ⟨task, code, hj, hcode, htext, hrest⟩ := h
  have hspent := (hk.returns (List.mem_of_getElem? hj) hrest).1 rfl
  exact ⟨task, hj, code, hcode, htext, hspent⟩

/-- What holds all along a run that is not disturbed. -/
structure Steady (env : RecoveryEnv) (plainOf : String → Option String) (userId : String)
    (x : RecoveryStage) : Prop where
  kept : (codePhases env plainOf userId).Kept x
  sound : Sound env plainOf userId x

theorem steady_run
    (hexact : ∀ text hash, env.bcryptCompare text hash = true ↔ plainOf hash = some text)
    (hx : Steady env plainOf userId x)
    (h : Run (recoveryServer env plainOf userId).Step x trace y)
    (hread : Along (Undisturbed env plainOf userId) x trace) : Steady env plainOf userId y := by
  apply h.invariant_along (J := Steady env plainOf userId) _ hx hread
  intro t l u ht hl hstep
  exact ⟨(codePhases env plainOf userId).kept_step ht.kept hstep,
    sound_step hexact ht.kept ht.sound hl hstep⟩

theorem written_run (h : Run (recoveryServer env plainOf userId).Step ⟨s, []⟩ trace x) :
    ∀ text ∈ s.written, text ∈ x.state.written := by
  have hstart : (codePhases env plainOf userId).Kept ⟨s, []⟩ ∧
      ∀ text ∈ s.written, text ∈ s.written := ⟨by simp [Server.Phased.Kept], fun _ => id⟩
  apply (h.invariant (J := fun z => (codePhases env plainOf userId).Kept z ∧
    ∀ text ∈ s.written, text ∈ z.state.written) hstart _).2
  intro t l u ht hstep
  refine ⟨(codePhases env plainOf userId).kept_step ht.1 hstep, ?_⟩
  intro text hw
  exact written_step ht.1 hstep text (ht.2 text hw)

theorem superseded_of_returned
    (hexact : ∀ text hash, env.bcryptCompare text hash = true ↔ plainOf hash = some text)
    (hs : Enrolled plainOf userId s)
    (h : Run (recoveryServer env plainOf userId).Step ⟨s, []⟩ trace x)
    (h' : Run (recoveryServer env plainOf userId).Step x trace' y)
    (hread : Along (Undisturbed env plainOf userId) ⟨s, []⟩ (trace ++ trace'))
    {k : ℕ} {task : CodeTask} {reply : RecoveryReply} (hk : x.tasks[k]? = some task)
    (hq : task.request.isConsume = false) (hrest : task.rest = .ret reply) :
    ∃ before t data v after,
      trace = before ++ (.act k (RecoveryCall.updateMfa userId data) (.ok ()), v) :: after ∧
      Run (recoveryServer env plainOf userId).Step ⟨s, []⟩ before t ∧
      Superseded env plainOf userId t.state.written x.tasks.length y := by
  have hstart : Steady env plainOf userId ⟨s, []⟩ :=
    ⟨by simp [Server.Phased.Kept], sound_enrolled hs⟩
  rw [h.along_append] at hread
  have hx := steady_run hexact hstart h hread.1
  have hstored : codePhase env plainOf userId task = .stored :=
    (hx.kept.returns (List.mem_of_getElem? hk) hrest).2 hq
  obtain ⟨w, data, hlog⟩ := update_mem_log hstored
  obtain ⟨before, t, v, after, rfl, hbefore, hstep, hafter⟩ := h.of_log hk hlog
  obtain ⟨hread', hlater⟩ := hread
  rw [hbefore.along_append] at hread'
  have ht := steady_run hexact hstart hbefore hread'.1
  obtain ⟨b, b', -, -, -, -, ⟨hw, -⟩, -⟩ := ht.kept.act hstep
  subst w
  have hv : Steady env plainOf userId v ∧ Superseded env plainOf userId t.state.written
      v.tasks.length v :=
    ⟨steady_run hexact ht (.single hstep) ⟨hread'.2.1, trivial⟩,
      superseded_of_update ht.kept ht.sound hstep⟩
  have hrun : Run (recoveryServer env plainOf userId).Step v (after ++ trace') y :=
    hafter.append h'
  have hend : Steady env plainOf userId y ∧ Superseded env plainOf userId t.state.written
      v.tasks.length y := by
    apply hrun.invariant_along (J := fun z => Steady env plainOf userId z ∧
      Superseded env plainOf userId t.state.written v.tasks.length z) _ hv
    · rw [hafter.along_append]
      exact ⟨hread'.2.2, hlater⟩
    · intro z l z' hz hl hz'
      exact ⟨steady_run hexact hz.1 (.single hz') ⟨hl, trivial⟩,
        superseded_step hexact hz.1.kept hz.1.sound hz.2 hl hz'⟩
  refine ⟨before, t, data, v, after, rfl, hbefore, hend.2.written, hend.2.gone, ?_⟩
  intro j b text hj
  exact hend.2.refused j b text (hafter.tasks_length.trans hj)

/-- **Recovery codes.** Where every call that takes a code out writes while the stored list is
still the one it has read, no code is accepted twice or stored again once accepted, an accepted
code alone is taken out, and a renewal that has returned leaves no earlier code to the requests
that begin after it. -/
theorem recovery_codes_are_used_once
    (hexact : ∀ text hash, env.bcryptCompare text hash = true ↔ plainOf hash = some text)
    (hs : Enrolled plainOf userId s)
    (h : Run (recoveryServer env plainOf userId).Step ⟨s, []⟩ trace x)
    (h' : Run (recoveryServer env plainOf userId).Step x trace' y)
    (hread : Along (Undisturbed env plainOf userId) ⟨s, []⟩ (trace ++ trace')) :
    (∀ j k text, Accepted env y j text → Accepted env y k text → j = k) ∧
    (∀ j text, Accepted env y j text → text ∉ textsOf plainOf userId y.state) ∧
    (∀ i hashes z, Undisturbed env plainOf userId y
        (.act i (RecoveryCall.auth (.setRecoveryHashes userId hashes)) (.ok ())) →
      (recoveryServer env plainOf userId).Step y
        (.act i (RecoveryCall.auth (.setRecoveryHashes userId hashes)) (.ok ())) z →
      ∃ task code, y.tasks[i]? = some task ∧ task.request = .consume code ∧
        codeText env code ∈ textsOf plainOf userId y.state ∧
        ∀ hash, hash ∈ z.state.hashesOf userId ↔
          hash ∈ y.state.hashesOf userId ∧ plainOf hash ≠ some (codeText env code)) ∧
    (∀ k task reply, x.tasks[k]? = some task → task.request.isConsume = false →
      task.rest = .ret reply →
      ∃ before t data v after,
        trace = before ++ (.act k (RecoveryCall.updateMfa userId data) (.ok ()), v) :: after ∧
        Run (recoveryServer env plainOf userId).Step ⟨s, []⟩ before t ∧
        ∀ j text, x.tasks.length ≤ j → Accepted env y j text → text ∉ t.state.written) := by
  have hstart : Steady env plainOf userId ⟨s, []⟩ :=
    ⟨by simp [Server.Phased.Kept], sound_enrolled hs⟩
  have hy := steady_run hexact hstart (h.append h') hread
  refine ⟨?_, ?_, ?_, ?_⟩
  · intro j k text hj hk
    obtain ⟨a, ha, hsa⟩ := spent_of_accepted hy.kept hj
    obtain ⟨b, hb, hsb⟩ := spent_of_accepted hy.kept hk
    exact hy.sound.once j k a b text ha hb hsa hsb
  · intro j text hj
    obtain ⟨a, ha, hsa⟩ := spent_of_accepted hy.kept hj
    exact (hy.sound.spent a (List.mem_of_getElem? ha) text hsa).2
  · intro i hashes z hone hstep
    obtain ⟨task, task', hi, -, -, -, hpermits, -, heffect⟩ := hy.kept.act hstep
    obtain ⟨-, code, read, hcode, hlooked, hspend⟩ := hpermits
    obtain rfl := hone i userId hashes _ rfl task read hi hlooked
    obtain ⟨hstored, -, hmem⟩ := spendHash_mem hexact hy.sound.distinct hspend
    refine ⟨task, code, hi, hcode, hstored, ?_⟩
    rcases heffect with ⟨-, ⟨e, he⟩, -⟩ | ⟨hrow, ⟨-, hstate⟩ | ⟨⟨e, he⟩, -⟩⟩
    · cases he
    · rw [hstate, hashesOf_setHashes hrow]
      exact hmem
    · cases he
  · intro k task reply hk hq hrest
    obtain ⟨before, t, data, v, after, htrace, hbefore, hend⟩ :=
      superseded_of_returned hexact hs h h' hread hk hq hrest
    refine ⟨before, t, data, v, after, htrace, hbefore, ?_⟩
    intro j text hj haccepted ht
    obtain ⟨b, hb, hsb⟩ := spent_of_accepted hy.kept haccepted
    exact hend.refused j b text hj hb hsb ht

/-- Where a hash is the text with a word before it, this is the text again. -/
def plainText (hash : String) : Option String :=
  (hash.toList.dropPrefix? "hash of ".toList).map String.ofList

theorem plainText_eq_some (text hash : String) :
    AuthEnv.sample.bcryptCompare text hash = true ↔ plainText hash = some text := by
  simp only [AuthEnv.sample, decide_eq_true_eq, plainText, Option.map_eq_some_iff,
    List.dropPrefix?_eq_some_iff, beq_iff_eq]
  constructor
  · rintro rfl
    exact ⟨text.toList, ⟨_, String.toList_append, rfl⟩, String.ofList_toList⟩
  · rintro ⟨rest, ⟨_, hhash, rfl⟩, rfl⟩
    apply String.toList_injective
    simp [hhash]

def freshRaws (env : RecoveryEnv) (s : RecoveryStore) : List String :=
  let raws := ["CCCC3333", "DDDD4444"]
  let texts := raws.map fun raw => codeText env (formatCode env raw)
  if texts.Nodup ∧ ∀ text ∈ texts, text ∉ s.generated then raws else []

def readyAnswer (env : RecoveryEnv) : (c : RecoveryCall) → RecoveryStore → c.Answer × RecoveryStore
  | .auth (.setRecoveryHashes userId hashes), s =>
      if s.users.find? userId = none then (.error ⟨.database, "Record to update not found."⟩, s)
      else (.ok (), s.setHashes userId hashes)
  | .auth c, s => ((Guessing.promptAnswer c ⟨s.users, fun _ => none, 100⟩).1, s)
  | .randomHex _, s =>
      let raws := freshRaws env s
      (raws, { s with generated := s.generated ++ raws.map fun raw => codeText env (formatCode env raw) })
  | .hashAll texts, s => (texts.map fun text => "hash of " ++ text, s)
  | .updateMfa userId data, s =>
      if s.users.find? userId = none then (.error ⟨.database, "Record to update not found."⟩, s)
      else (.ok (), s.renew plainText userId data)
  | .getSetup _, s => (.ok none, s)
  | .delSetup _, s => (.ok (), s)

def recoveryEnv : RecoveryEnv := { AuthEnv.sample with mfaRecoveryCodesCount := 2 }

theorem readyAnswer_allowed (userId : String) (q : RecoveryRequest)
    (log : List (Event recoveryInterface)) (c : RecoveryCall) (s : RecoveryStore) :
    (recoveryServer recoveryEnv plainText userId).effect q log c s
      (readyAnswer recoveryEnv c s).1 (readyAnswer recoveryEnv c s).2 := by
  cases c with
  | auth c =>
    cases c with
    | findUserById userId => exact ⟨rfl, .inl rfl⟩
    | setRecoveryHashes userId hashes =>
      by_cases h : s.users.find? userId = none
      · simp only [readyAnswer, h, if_true]
        exact .inl ⟨h, ⟨_, rfl⟩, rfl⟩
      · simp only [readyAnswer, h, if_false]
        exact .inr ⟨h, .inl ⟨rfl, rfl⟩⟩
    | _ => rfl
  | randomHex count =>
    simp only [readyAnswer, freshRaws]
    split
    case isTrue h => exact ⟨h.1, h.2, rfl⟩
    case isFalse h => exact ⟨by simp, by simp, rfl⟩
  | hashAll texts =>
    refine ⟨?_, rfl⟩
    simp only [readyAnswer, List.map_map]
    apply List.map_congr_left
    intro text _
    exact (plainText_eq_some _ _).mp (decide_eq_true rfl)
  | updateMfa userId data =>
    by_cases h : s.users.find? userId = none
    · simp only [readyAnswer, h, if_true]
      exact .inl ⟨h, ⟨_, rfl⟩, rfl⟩
    · simp only [readyAnswer, h, if_false]
      exact .inr ⟨h, .inl ⟨rfl, rfl⟩⟩
  | getSetup => rfl
  | delSetup => rfl

def enrolledUser : AuthUser :=
  { Guessing.adminUser with
    mfaEnabled := true
    mfaRecoveryCodeHashes := ["hash of AAAA1111", "hash of BBBB2222"] }

def enrolledStore : RecoveryStore where
  users := ⟨[enrolledUser], by decide⟩
  generated := ["AAAA1111", "BBBB2222"]
  written := ["AAAA1111", "BBBB2222"]

theorem enrolled_enrolledStore : Enrolled plainText "u" enrolledStore := by
  have htexts : textsOf plainText "u" enrolledStore = ["AAAA1111", "BBBB2222"] := by rfl
  constructor
  · rw [htexts]
    decide
  · rw [htexts]
    exact fun text => id
  · exact fun text => id

/-- The text of the code that a request has accepted. -/
def acceptedText (env : RecoveryEnv) (task : CodeTask) : Option String :=
  match task.request, task.rest with
  | .consume code, .ret (.consumed true) => some (codeText env code)
  | _, _ => none

theorem accepted_of_text {env : RecoveryEnv} {x : RecoveryStage} {j : ℕ} {text : String}
    (h : (x.tasks.map (acceptedText env))[j]? = some (some text)) : Accepted env x j text := by
  rw [List.getElem?_map, Option.map_eq_some_iff] at h
  obtain ⟨task, htask, h⟩ := h
  unfold acceptedText at h
  split at h
  · rename_i code hcode hrest
    exact ⟨task, code, htask, hcode, Option.some.inj h, hrest⟩
  · cases h

def firstCode : RecoveryRequest := .consume "AAAA-1111"

/-- One request takes one of two codes out. -/
theorem recovery_codes_are_used_once_accepted : ∃ y : RecoveryStage,
    Accepted recoveryEnv y 0 "AAAA1111" ∧ "AAAA1111" ∉ textsOf plainText "u" y.state := by
  have hbegin : (recoveryServer recoveryEnv plainText "u").Step ⟨enrolledStore, []⟩
      (.begin firstCode) ⟨enrolledStore, [⟨firstCode, [], firstCode.handle recoveryEnv "u"⟩]⟩ :=
    .begin firstCode
  obtain ⟨x, y, hlooks, hspends, hread, haccepted⟩ : ∃ x y,
      (recoveryServer recoveryEnv plainText "u").Step
        ⟨enrolledStore, [⟨firstCode, [], firstCode.handle recoveryEnv "u"⟩]⟩
        (.act 0 (RecoveryCall.auth (.findUserById "u")) (.ok (some enrolledUser))) x ∧
      (recoveryServer recoveryEnv plainText "u").Step x
        (.act 0 (RecoveryCall.auth (.setRecoveryHashes "u" ["hash of BBBB2222"])) (.ok ())) y ∧
      Undisturbed recoveryEnv plainText "u" x
        (.act 0 (RecoveryCall.auth (.setRecoveryHashes "u" ["hash of BBBB2222"])) (.ok ())) ∧
      Accepted recoveryEnv y 0 "AAAA1111" := by
    refine ⟨_, _, .act rfl ⟨rfl, .inl rfl⟩, .act rfl (.inr ⟨by decide, .inl ⟨rfl, rfl⟩⟩), ?_,
      ⟨_, _, rfl, rfl, rfl, rfl⟩⟩
    rintro i w hashes r ⟨⟩ task read ⟨⟩ hlooked
    cases hlooked
    rfl
  have hrun := Run.head hbegin (.head hlooks (.single hspends))
  have hclaim := recovery_codes_are_used_once plainText_eq_some enrolled_enrolledStore hrun .nil
    ⟨by rintro i w hashes r ⟨⟩, by rintro i w hashes r ⟨⟩, hread, trivial⟩
  exact ⟨y, haccepted, hclaim.2.1 0 _ haccepted⟩

/-- The stored list is read by two requests before either of them writes it back. -/
def overlap : List (Move RecoveryRequest) :=
  [.begin (.consume "AAAA-1111"), .begin (.consume "BBBB-2222"), .act 0, .act 1, .act 0, .act 1]

def again : List (Move RecoveryRequest) := [.begin (.consume "AAAA-1111"), .act 2, .act 2]

/-- A request has read the list when the codes are renewed. -/
def renewed : List (Move RecoveryRequest) :=
  [.begin (.consume "AAAA-1111"), .act 0, .begin (.regenerate "pw")] ++ List.replicate 5 (.act 1)

/-- It writes, and another request presents an old code. -/
def late : List (Move RecoveryRequest) :=
  [.act 0, .begin (.consume "BBBB-2222"), .act 2, .act 2]

def isRenewed (task : CodeTask) : Bool :=
  match task.rest with
  | .ret _ => !task.request.isConsume
  | _ => false

theorem renewed_task {j : ℕ} (h : (x.tasks.map isRenewed)[j]? = some true) : ∃ task reply,
    x.tasks[j]? = some task ∧ task.request.isConsume = false ∧ task.rest = .ret reply := by
  rw [List.getElem?_map, Option.map_eq_some_iff] at h
  obtain ⟨task, htask, h⟩ := h
  unfold isRenewed at h
  split at h
  · rename_i reply hrest
    exact ⟨task, reply, htask, by simpa using h, hrest⟩
  · cases h

/-- Lists that are written back over another write bring codes back. -/
theorem overlapping_codes :
    (¬ ∀ (env : RecoveryEnv) (plainOf : String → Option String) (userId : String)
      (s : RecoveryStore)
      (trace : List (StageLabel recoveryInterface RecoveryRequest × RecoveryStage))
      (x : RecoveryStage),
      (∀ text hash, env.bcryptCompare text hash = true ↔ plainOf hash = some text) →
      Enrolled plainOf userId s → Run (recoveryServer env plainOf userId).Step ⟨s, []⟩ trace x →
      ∀ j k text, Accepted env x j text → Accepted env x k text → j = k) ∧
    (¬ ∀ (env : RecoveryEnv) (plainOf : String → Option String) (userId : String)
      (s : RecoveryStore)
      (trace : List (StageLabel recoveryInterface RecoveryRequest × RecoveryStage))
      (x : RecoveryStage),
      (∀ text hash, env.bcryptCompare text hash = true ↔ plainOf hash = some text) →
      Enrolled plainOf userId s → Run (recoveryServer env plainOf userId).Step ⟨s, []⟩ trace x →
      ∀ j text, Accepted env x j text → text ∉ textsOf plainOf userId x.state) ∧
    ¬ ∀ (env : RecoveryEnv) (plainOf : String → Option String) (userId : String)
      (s : RecoveryStore)
      (trace trace' : List (StageLabel recoveryInterface RecoveryRequest × RecoveryStage))
      (x y : RecoveryStage),
      (∀ text hash, env.bcryptCompare text hash = true ↔ plainOf hash = some text) →
      Enrolled plainOf userId s → Run (recoveryServer env plainOf userId).Step ⟨s, []⟩ trace x →
      Run (recoveryServer env plainOf userId).Step x trace' y →
      ∀ k task reply, x.tasks[k]? = some task → task.request.isConsume = false →
      task.rest = .ret reply →
      ∃ before t data v after,
        trace = before ++ (.act k (RecoveryCall.updateMfa userId data) (.ok ()), v) :: after ∧
        Run (recoveryServer env plainOf userId).Step ⟨s, []⟩ before t ∧
        ∀ j text, x.tasks.length ≤ j → Accepted env y j text → text ∉ t.state.written := by
  refine ⟨?_, ?_, ?_⟩
  · intro hall
    have hplay : (play (recoveryServer recoveryEnv plainText "u") (readyAnswer recoveryEnv)
        ⟨enrolledStore, []⟩ (overlap ++ again)).map
          (fun x => x.tasks.map (acceptedText recoveryEnv)) =
        some [some "AAAA1111", some "BBBB2222", some "AAAA1111"] := by rfl
    obtain ⟨x, hx, htexts⟩ := Option.map_eq_some_iff.mp hplay
    obtain ⟨trace, hrun⟩ := run_of_play (readyAnswer_allowed "u") hx
    have hsame := hall recoveryEnv plainText "u" enrolledStore trace x plainText_eq_some
      enrolled_enrolledStore hrun 0 2 "AAAA1111" (accepted_of_text (by rw [htexts]; rfl))
      (accepted_of_text (by rw [htexts]; rfl))
    cases hsame
  · intro hall
    have hplay : (play (recoveryServer recoveryEnv plainText "u") (readyAnswer recoveryEnv)
        ⟨enrolledStore, []⟩ overlap).map
          (fun x => (x.tasks.map (acceptedText recoveryEnv), textsOf plainText "u" x.state)) =
        some ([some "AAAA1111", some "BBBB2222"], ["AAAA1111"]) := by rfl
    obtain ⟨x, hx, hend⟩ := Option.map_eq_some_iff.mp hplay
    obtain ⟨htexts, hstored⟩ := Prod.mk.inj hend
    obtain ⟨trace, hrun⟩ := run_of_play (readyAnswer_allowed "u") hx
    have hgone := hall recoveryEnv plainText "u" enrolledStore trace x plainText_eq_some
      enrolled_enrolledStore hrun 0 "AAAA1111" (accepted_of_text (by rw [htexts]; rfl))
    rw [hstored] at hgone
    exact hgone List.mem_cons_self
  · intro hall
    have hplay : (play (recoveryServer recoveryEnv plainText "u") (readyAnswer recoveryEnv)
        ⟨enrolledStore, []⟩ renewed).bind (fun x =>
          (play (recoveryServer recoveryEnv plainText "u") (readyAnswer recoveryEnv) x late).map
            (fun y => (x.tasks.map isRenewed, y.tasks.map (acceptedText recoveryEnv)))) =
        some ([false, true], [some "AAAA1111", none, some "BBBB2222"]) := by rfl
    obtain ⟨x, hx, hlate⟩ := Option.bind_eq_some_iff.mp hplay
    obtain ⟨y, hy, hend⟩ := Option.map_eq_some_iff.mp hlate
    obtain ⟨hrenewed, htexts⟩ := Prod.mk.inj hend
    obtain ⟨trace, hrun⟩ := run_of_play (readyAnswer_allowed "u") hx
    obtain ⟨trace', hrun'⟩ := run_of_play (readyAnswer_allowed "u") hy
    obtain ⟨task, reply, hk, hq, hrest⟩ :=
      renewed_task (j := 1) (by rw [hrenewed]; rfl)
    obtain ⟨before, t, data, v, after, -, hbefore, hrefused⟩ := hall recoveryEnv plainText "u"
      enrolledStore trace trace' x y plainText_eq_some enrolled_enrolledStore hrun hrun' 1 task reply
      hk hq hrest
    have hlen : x.tasks.length = 2 := by simpa using congrArg List.length hrenewed
    have haccepted : Accepted recoveryEnv y 2 "BBBB2222" := accepted_of_text (by rw [htexts]; rfl)
    apply hrefused 2 "BBBB2222" (le_of_eq hlen) haccepted
    exact written_run hbefore "BBBB2222" (by decide)

end Claim

end CloudVM.Recovery
