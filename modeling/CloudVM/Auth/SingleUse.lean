import CloudVM.Auth.Recovery

/-!
# Recovery codes are used once

The stored hashes stand for texts. A renewal puts a set of new texts in their place; a call that
accepts a code takes one text out, provided that the list it writes back is still the stored one
with that text taken out.
-/

namespace CloudVM.Recovery

open Process AuthService

section Texts

variable {env : RecoveryEnv} {plainOf : String → Option String} {userId : String}
  {s s' : RecoveryStore}

def textsOf (plainOf : String → Option String) (userId : String) (s : RecoveryStore) : List String :=
  (s.hashesOf userId).filterMap plainOf

theorem hashesOf_updateUser {f : AuthUser → AuthUser} {hf : ∀ u, (f u).id = u.id}
    {hashes : List String} (hrow : s.users.find? userId ≠ none)
    (hhashes : ∀ u, (f u).mfaRecoveryCodeHashes = hashes) :
    (s.updateUser userId f hf).hashesOf userId = hashes := by
  obtain ⟨user, huser⟩ := Option.ne_none_iff_exists'.mp hrow
  have hid : user.id = userId := (s.users.find?_eq_some.mp huser).2
  simp only [RecoveryStore.hashesOf, RecoveryStore.updateUser, Table.find?_modify, huser,
    Option.map_some, Option.getD_some, hid, decide_true, if_true]
  exact hhashes user

theorem hashesOf_setHashes {hashes : List String} (hrow : s.users.find? userId ≠ none) :
    (s.setHashes userId hashes).hashesOf userId = hashes :=
  hashesOf_updateUser hrow fun _ => rfl

theorem hashesOf_renew {data : MfaUpdate} (hrow : s.users.find? userId ≠ none) :
    (s.renew plainOf userId data).hashesOf userId = data.mfaRecoveryCodeHashes :=
  @hashesOf_updateUser _ s data.apply (fun _ => rfl) _ hrow fun _ => rfl

theorem eq_hashesOf {user : AuthUser} (h : s.users.find? userId = some user) :
    user.mfaRecoveryCodeHashes = s.hashesOf userId := by
  simp [RecoveryStore.hashesOf, h]

theorem mem_eraseIdx_of_nodup {α β : Type} {f : α → Option β} {xs : List α} {i : ℕ} {a : α} {b : β}
    (hd : (xs.filterMap f).Nodup) (hi : xs[i]? = some a) (ha : f a = some b) (x : α) :
    x ∈ xs.eraseIdx i ↔ x ∈ xs ∧ f x ≠ some b := by
  induction xs generalizing i with
  | nil => cases hi
  | cons y ys ih =>
    cases i with
    | zero =>
      obtain rfl := Option.some.inj hi
      rw [List.filterMap_cons_some ha, List.nodup_cons, List.mem_filterMap] at hd
      rw [List.eraseIdx_cons_zero, List.mem_cons]
      constructor
      · intro hx
        exact ⟨.inr hx, fun hb => hd.1 ⟨x, hx, hb⟩⟩
      · rintro ⟨rfl | hx, hb⟩
        · exact absurd ha hb
        · exact hx
    | succ i =>
      have hi' : ys[i]? = some a := hi
      have hmem : a ∈ ys := List.mem_of_getElem? hi'
      have htail : (ys.filterMap f).Nodup ∧ f y ≠ some b := by
        cases hy : f y with
        | none => simpa [List.filterMap_cons_none hy] using hd
        | some c =>
          rw [List.filterMap_cons_some hy, List.nodup_cons, List.mem_filterMap] at hd
          refine ⟨hd.2, ?_⟩
          intro hc
          apply hd.1
          exact ⟨a, hmem, by rw [ha, hc]⟩
      rw [List.eraseIdx_cons_succ, List.mem_cons, List.mem_cons, ih htail.1 hi']
      constructor
      · rintro (rfl | ⟨hx, hb⟩)
        · exact ⟨.inl rfl, htail.2⟩
        · exact ⟨.inr hx, hb⟩
      · rintro ⟨rfl | hx, hb⟩
        · exact .inl rfl
        · exact .inr ⟨hx, hb⟩

theorem spendHash_mem (hexact : ∀ text hash, env.bcryptCompare text hash = true ↔
      plainOf hash = some text) {text : String} {read hashes : List String}
    (hd : (read.filterMap plainOf).Nodup)
    (h : spendHash env.toAuthEnv text read = some hashes) :
    text ∈ read.filterMap plainOf ∧ (hashes.filterMap plainOf).Nodup ∧
      ∀ hash, hash ∈ hashes ↔ hash ∈ read ∧ plainOf hash ≠ some text := by
  unfold spendHash at h
  split at h
  case h_1 => cases h
  case h_2 i hi =>
    obtain rfl := Option.some.inj h
    obtain ⟨hlt, hcompare, -⟩ := List.findIdx?_eq_some_iff_getElem.mp hi
    have hplain : plainOf read[i] = some text := (hexact _ _).mp hcompare
    refine ⟨?_, ?_, ?_⟩
    · exact List.mem_filterMap.mpr ⟨read[i], List.getElem_mem hlt, hplain⟩
    · exact hd.sublist ((List.eraseIdx_sublist read i).filterMap plainOf)
    · exact mem_eraseIdx_of_nodup hd (List.getElem?_eq_getElem hlt) hplain

end Texts

section Steps

variable {env : RecoveryEnv} {plainOf : String → Option String} {userId : String}
  {q : RecoveryRequest} {s s' : RecoveryStore}

/-- One step of a request and what it does to the codes. -/
inductive CodeStep (env : RecoveryEnv) (plainOf : String → Option String) (userId : String)
    (q : RecoveryRequest) (c : RecoveryCall) :
    CodePhase → RecoveryStore → CodePhase → RecoveryStore → Prop
  | aside {φ : CodePhase} {s : RecoveryStore} : CodeStep env plainOf userId q c φ s φ s
  | looks {s : RecoveryStore} (hq : q.isConsume = true) :
      CodeStep env plainOf userId q c .idle s (.looked (s.hashesOf userId)) s
  | draws {s : RecoveryStore} {texts : List String} (hd : texts.Nodup)
      (hnew : ∀ text ∈ texts, text ∉ s.generated) :
      CodeStep env plainOf userId q c .idle s (.generated texts)
        { s with generated := s.generated ++ texts }
  | hashes {s : RecoveryStore} {texts hashes : List String}
      (h : hashes.filterMap plainOf = texts) :
      CodeStep env plainOf userId q c (.generated texts) s (.hashed hashes) s
  | spends {s : RecoveryStore} {code : String} {read hashes : List String} {φ' : CodePhase}
      (hc : c = .auth (.setRecoveryHashes userId hashes)) (hq : q = .consume code)
      (hspend : spendHash env.toAuthEnv (codeText env code) read = some hashes)
      (hrow : s.users.find? userId ≠ none) (hφ' : φ' = .spent ∨ φ' = .gaveUp) :
      CodeStep env plainOf userId q c (.looked read) s φ' (s.setHashes userId hashes)
  | renews {s : RecoveryStore} {φ φ' : CodePhase} {data : MfaUpdate}
      (hc : c = .updateMfa userId data)
      (hφ : φ = .hashed data.mfaRecoveryCodeHashes ∨
        (φ = .idle ∧ data.mfaRecoveryCodeHashes = []))
      (hrow : s.users.find? userId ≠ none) (hφ' : φ' = .stored ∨ φ' = .gaveUp) :
      CodeStep env plainOf userId q c φ s φ' (s.renew plainOf userId data)
  | fails {φ : CodePhase} {s : RecoveryStore} : CodeStep env plainOf userId q c φ s .gaveUp s

theorem codeStep_of_effect {φ : CodePhase} {c : RecoveryCall} {r : c.Answer}
    (hp : φ.Permits env userId q c) (he : recoveryEffect env plainOf c s r s') :
    CodeStep env plainOf userId q c φ s (φ.advance env q c r) s' := by
  cases c with
  | auth c =>
    cases c with
    | findUserById w =>
      obtain rfl : w = userId := hp
      obtain ⟨rfl, hr⟩ := he
      cases hq : q.isConsume with
      | false =>
        have hsame : CodePhase.advance env q φ (.auth (.findUserById w)) r = φ := by
          simp [CodePhase.advance, hq]
        rw [hsame]
        exact .aside
      | true =>
        rcases hr with rfl | ⟨e, rfl⟩
        · cases hfind : s'.users.find? w with
          | none =>
            have hsame : CodePhase.advance env q φ (.auth (.findUserById w)) (.ok none) = φ := by
              simp [CodePhase.advance, hq]
            rw [hsame]
            exact .aside
          | some user =>
            have hread := eq_hashesOf hfind
            cases φ with
            | idle =>
              have hlooked : CodePhase.advance env q .idle (.auth (.findUserById w))
                  (.ok (some user)) = .looked (s'.hashesOf w) := by
                simp [CodePhase.advance, hq, hread]
              rw [hlooked]
              exact .looks hq
            | _ =>
              simp only [CodePhase.advance, hq]
              exact .aside
        · have hsame : CodePhase.advance env q φ (.auth (.findUserById w)) (.error e) = φ := by
            simp [CodePhase.advance, hq]
          rw [hsame]
          exact .aside
    | setRecoveryHashes w hashes =>
      obtain ⟨rfl, code, read, hq, rfl, hspend⟩ := hp
      rcases he with ⟨-, ⟨e, rfl⟩, rfl⟩ | ⟨hrow, ⟨rfl, rfl⟩ | ⟨⟨e, rfl⟩, rfl | rfl⟩⟩
      · exact .fails
      · exact .spends rfl hq hspend hrow (.inl rfl)
      · exact .fails
      · exact .spends rfl hq hspend hrow (.inr rfl)
    | _ =>
      obtain rfl := he
      exact .aside
  | randomHex count =>
    obtain ⟨-, rfl⟩ := hp
    obtain ⟨hd, hnew, rfl⟩ := he
    exact .draws hd hnew
  | hashAll texts =>
    obtain rfl := hp
    obtain ⟨hr, rfl⟩ := he
    have htexts : List.filterMap plainOf r = texts := by
      have hmap : (List.map plainOf r).filterMap id = (texts.map some).filterMap id := by rw [hr]
      simpa [List.filterMap_map] using hmap
    exact .hashes htexts
  | updateMfa w data =>
    obtain ⟨rfl, -, hφ⟩ := hp
    rcases he with ⟨-, ⟨e, rfl⟩, rfl⟩ | ⟨hrow, ⟨rfl, rfl⟩ | ⟨⟨e, rfl⟩, rfl | rfl⟩⟩
    · exact .fails
    · exact .renews rfl hφ hrow (.inl rfl)
    · exact .fails
    · exact .renews rfl hφ hrow (.inr rfl)
  | getSetup w =>
    obtain rfl := he
    exact .aside
  | delSetup w =>
    obtain rfl := he
    exact .aside

end Steps

section Stages

abbrev CodeTask := Task recoveryInterface Failure RecoveryReply RecoveryRequest

variable (env : RecoveryEnv) (plainOf : String → Option String) (userId : String)

abbrev codePhase (task : CodeTask) : CodePhase := (codePhases env plainOf userId).phase task

/-- The texts of new codes that are not stored yet. -/
def CodePhase.pending (plainOf : String → Option String) : CodePhase → List String
  | .generated texts => texts
  | .hashed hashes => hashes.filterMap plainOf
  | _ => []

/-- The request has taken out the hash of the text. -/
def Spent (task : CodeTask) (text : String) : Prop :=
  ∃ code, task.request = .consume code ∧ codeText env code = text ∧
    codePhase env plainOf userId task = .spent

/-- A text is stored, or was, or is on its way to be; what was spent is not stored. -/
structure Sound (x : RecoveryStage) : Prop where
  distinct : (textsOf plainOf userId x.state).Nodup
  known : ∀ text ∈ textsOf plainOf userId x.state, text ∈ x.state.written
  drawn : ∀ text ∈ x.state.written, text ∈ x.state.generated
  fresh : ∀ task ∈ x.tasks, ((codePhase env plainOf userId task).pending plainOf).Nodup ∧
    ∀ text ∈ (codePhase env plainOf userId task).pending plainOf,
      text ∈ x.state.generated ∧ text ∉ x.state.written
  apart : ∀ (j k : ℕ) (a b : CodeTask), x.tasks[j]? = some a → x.tasks[k]? = some b → j ≠ k →
    ∀ text ∈ (codePhase env plainOf userId a).pending plainOf,
      text ∉ (codePhase env plainOf userId b).pending plainOf
  spent : ∀ task ∈ x.tasks, ∀ text, Spent env plainOf userId task text →
    text ∈ x.state.written ∧ text ∉ textsOf plainOf userId x.state
  once : ∀ (j k : ℕ) (a b : CodeTask) text, x.tasks[j]? = some a → x.tasks[k]? = some b →
    Spent env plainOf userId a text → Spent env plainOf userId b text → j = k

/-- A call that takes a code out writes while the stored list is still the one it has read. -/
def Undisturbed (x : RecoveryStage) (l : StageLabel recoveryInterface RecoveryRequest) : Prop :=
  ∀ i w hashes r, l = .act i (RecoveryCall.auth (.setRecoveryHashes w hashes)) r →
    ∀ task read, x.tasks[i]? = some task → codePhase env plainOf userId task = .looked read →
      x.state.hashesOf userId = read

variable {env plainOf userId} {s s' : RecoveryStore} {tasks : List CodeTask} {i : ℕ}
  {task task' : CodeTask}

private theorem apart_set (hx : Sound env plainOf userId ⟨s, tasks⟩) (hi : tasks[i]? = some task)
    (hpending : ∀ text ∈ (codePhase env plainOf userId task').pending plainOf,
      text ∈ (codePhase env plainOf userId task).pending plainOf ∨ text ∉ s.generated)
    (j k : ℕ) (a b : CodeTask) (ha : (tasks.set i task')[j]? = some a)
    (hb : (tasks.set i task')[k]? = some b) (hjk : j ≠ k) (text : String)
    (ht : text ∈ (codePhase env plainOf userId a).pending plainOf) :
    text ∉ (codePhase env plainOf userId b).pending plainOf := by
  have hgenerated : ∀ (m : ℕ) (c : CodeTask), tasks[m]? = some c →
      text ∈ (codePhase env plainOf userId c).pending plainOf → text ∈ s.generated := by
    intro m c hc hmem
    exact ((hx.fresh c (List.mem_of_getElem? hc)).2 text hmem).1
  intro ht'
  rcases getElem?_set_cases ha with ⟨rfl, rfl⟩ | ⟨hj, ha'⟩
  · rcases getElem?_set_cases hb with ⟨rfl, -⟩ | ⟨hk, hb'⟩
    · exact hjk rfl
    · rcases hpending text ht with h | h
      · exact hx.apart _ _ _ _ hi hb' hjk text h ht'
      · exact h (hgenerated k b hb' ht')
  · rcases getElem?_set_cases hb with ⟨rfl, rfl⟩ | ⟨hk, hb'⟩
    · rcases hpending text ht' with h | h
      · exact hx.apart _ _ _ _ ha' hi hjk text ht h
      · exact h (hgenerated j a ha' ht)
    · exact hx.apart _ _ _ _ ha' hb' hjk text ht ht'

private theorem once_set (hx : Sound env plainOf userId ⟨s, tasks⟩) (hi : tasks[i]? = some task)
    (hspent : ∀ text, Spent env plainOf userId task' text → Spent env plainOf userId task text ∨
      text ∈ textsOf plainOf userId s)
    (j k : ℕ) (a b : CodeTask) (text : String) (ha : (tasks.set i task')[j]? = some a)
    (hb : (tasks.set i task')[k]? = some b) (hsa : Spent env plainOf userId a text)
    (hsb : Spent env plainOf userId b text) : j = k := by
  have hgone : ∀ (m : ℕ) (c : CodeTask), tasks[m]? = some c → Spent env plainOf userId c text →
      text ∉ textsOf plainOf userId s := by
    intro m c hc hsc
    exact (hx.spent c (List.mem_of_getElem? hc) text hsc).2
  rcases getElem?_set_cases ha with ⟨rfl, rfl⟩ | ⟨hj, ha'⟩
  · rcases getElem?_set_cases hb with ⟨rfl, -⟩ | ⟨hk, hb'⟩
    · rfl
    · rcases hspent text hsa with h | h
      · exact hx.once _ _ _ _ text hi hb' h hsb
      · exact absurd h (hgone k b hb' hsb)
  · rcases getElem?_set_cases hb with ⟨rfl, rfl⟩ | ⟨hk, hb'⟩
    · rcases hspent text hsb with h | h
      · exact hx.once _ _ _ _ text ha' hi hsa h
      · exact absurd h (hgone j a ha' hsa)
    · exact hx.once _ _ _ _ text ha' hb' hsa hsb

private theorem sound_quiet (hx : Sound env plainOf userId ⟨s, tasks⟩) (hi : tasks[i]? = some task)
    (hhashes : s'.hashesOf userId = s.hashesOf userId) (hwritten : s'.written = s.written)
    (hgenerated : ∀ text ∈ s.generated, text ∈ s'.generated)
    (hd : ((codePhase env plainOf userId task').pending plainOf).Nodup)
    (hpending : ∀ text ∈ (codePhase env plainOf userId task').pending plainOf,
      text ∈ (codePhase env plainOf userId task).pending plainOf ∨
        (text ∉ s.generated ∧ text ∈ s'.generated))
    (hspent : ∀ text, Spent env plainOf userId task' text → Spent env plainOf userId task text) :
    Sound env plainOf userId ⟨s', tasks.set i task'⟩ := by
  have htexts : textsOf plainOf userId s' = textsOf plainOf userId s := by
    simp only [textsOf, hhashes]
  have hm : task ∈ tasks := List.mem_of_getElem? hi
  constructor
  · simp only [htexts]
    exact hx.distinct
  · simp only [htexts, hwritten]
    exact hx.known
  · simp only [hwritten]
    intro text ht
    exact hgenerated text (hx.drawn text ht)
  · intro b hb
    simp only [hwritten]
    rcases mem_set_cases hb with rfl | ⟨j, -, hj⟩
    · refine ⟨hd, ?_⟩
      intro text ht
      rcases hpending text ht with h | ⟨hnew, hmem⟩
      · have hold := (hx.fresh task hm).2 text h
        exact ⟨hgenerated text hold.1, hold.2⟩
      · exact ⟨hmem, fun hw => hnew (hx.drawn text hw)⟩
    · have hold := hx.fresh b (List.mem_of_getElem? hj)
      exact ⟨hold.1, fun text ht => ⟨hgenerated text (hold.2 text ht).1, (hold.2 text ht).2⟩⟩
  · exact apart_set hx hi fun text ht => (hpending text ht).imp_right fun h => h.1
  · intro b hb text hs
    simp only [htexts, hwritten]
    rcases mem_set_cases hb with rfl | ⟨j, -, hj⟩
    · exact hx.spent task hm text (hspent text hs)
    · exact hx.spent b (List.mem_of_getElem? hj) text hs
  · exact once_set hx hi fun text hs => .inl (hspent text hs)

private theorem sound_spends (hx : Sound env plainOf userId ⟨s, tasks⟩) (hi : tasks[i]? = some task)
    {code : String} {hashes : List String} (hq : task'.request = .consume code)
    (hstored : codeText env code ∈ textsOf plainOf userId s)
    (hd : (hashes.filterMap plainOf).Nodup)
    (hmem : ∀ hash, hash ∈ hashes ↔ hash ∈ s.hashesOf userId ∧
      plainOf hash ≠ some (codeText env code))
    (hrow : s.users.find? userId ≠ none)
    (hpending : (codePhase env plainOf userId task').pending plainOf = []) :
    Sound env plainOf userId ⟨s.setHashes userId hashes, tasks.set i task'⟩ := by
  have htexts : textsOf plainOf userId (s.setHashes userId hashes) = hashes.filterMap plainOf := by
    rw [textsOf, hashesOf_setHashes hrow]
  have hleft : ∀ text, text ∈ hashes.filterMap plainOf →
      text ∈ textsOf plainOf userId s ∧ text ≠ codeText env code := by
    intro text ht
    obtain ⟨hash, hhash, hplain⟩ := List.mem_filterMap.mp ht
    have hold := (hmem hash).mp hhash
    refine ⟨List.mem_filterMap.mpr ⟨hash, hold.1, hplain⟩, ?_⟩
    rintro rfl
    exact hold.2 hplain
  constructor
  · simpa only [htexts] using hd
  · simp only [htexts]
    intro text ht
    exact hx.known text (hleft text ht).1
  · exact hx.drawn
  · intro b hb
    rcases mem_set_cases hb with rfl | ⟨j, -, hj⟩
    · simp [hpending]
    · exact hx.fresh b (List.mem_of_getElem? hj)
  · apply apart_set hx hi
    simp [hpending]
  · intro b hb text hs
    simp only [htexts]
    rcases mem_set_cases hb with rfl | ⟨j, -, hj⟩
    · obtain ⟨code', hq', rfl, -⟩ := hs
      obtain rfl : code = code' := by simpa using hq.symm.trans hq'
      exact ⟨hx.known _ hstored, fun ht => (hleft _ ht).2 rfl⟩
    · have hold := hx.spent b (List.mem_of_getElem? hj) text hs
      exact ⟨hold.1, fun ht => hold.2 (hleft text ht).1⟩
  · apply once_set hx hi
    rintro text ⟨code', hq', rfl, -⟩
    obtain rfl : code = code' := by simpa using hq.symm.trans hq'
    exact .inr hstored

private theorem sound_renews (hx : Sound env plainOf userId ⟨s, tasks⟩) (hi : tasks[i]? = some task)
    {data : MfaUpdate} (hnew : data.mfaRecoveryCodeHashes.filterMap plainOf =
      (codePhase env plainOf userId task).pending plainOf)
    (hrow : s.users.find? userId ≠ none)
    (hpending : (codePhase env plainOf userId task').pending plainOf = [])
    (hspent : ∀ text, ¬ Spent env plainOf userId task' text) :
    Sound env plainOf userId ⟨s.renew plainOf userId data, tasks.set i task'⟩ := by
  have htexts : textsOf plainOf userId (s.renew plainOf userId data) =
      (codePhase env plainOf userId task).pending plainOf := by
    rw [textsOf, hashesOf_renew hrow, hnew]
  have hwritten : (s.renew plainOf userId data).written =
      s.written ++ (codePhase env plainOf userId task).pending plainOf := by
    simp only [RecoveryStore.renew, hnew]
  have hfresh := hx.fresh task (List.mem_of_getElem? hi)
  constructor
  · simpa only [htexts] using hfresh.1
  · simp only [htexts, hwritten]
    intro text ht
    exact List.mem_append_right _ ht
  · simp only [hwritten]
    intro text ht
    rcases List.mem_append.mp ht with ht | ht
    · exact hx.drawn text ht
    · exact (hfresh.2 text ht).1
  · intro b hb
    simp only [hwritten]
    rcases mem_set_cases hb with rfl | ⟨j, hne, hj⟩
    · simp [hpending]
    · have hold := hx.fresh b (List.mem_of_getElem? hj)
      refine ⟨hold.1, ?_⟩
      intro text ht
      refine ⟨(hold.2 text ht).1, ?_⟩
      intro hw
      rcases List.mem_append.mp hw with hw | hw
      · exact (hold.2 text ht).2 hw
      · exact hx.apart _ _ _ _ hi hj hne.symm text hw ht
  · apply apart_set hx hi
    simp [hpending]
  · intro b hb text hs
    simp only [htexts, hwritten]
    rcases mem_set_cases hb with rfl | ⟨j, -, hj⟩
    · exact absurd hs (hspent text)
    · have hold := hx.spent b (List.mem_of_getElem? hj) text hs
      exact ⟨List.mem_append_left _ hold.1, fun ht => (hfresh.2 text ht).2 hold.1⟩
  · apply once_set hx hi
    intro text hs
    exact absurd hs (hspent text)

private theorem sound_begin (hx : Sound env plainOf userId ⟨s, tasks⟩)
    (hφ : codePhase env plainOf userId task' = .idle) :
    Sound env plainOf userId ⟨s, tasks ++ [task']⟩ := by
  have hspent : ∀ text, ¬ Spent env plainOf userId task' text := by
    rintro text ⟨code, -, -, h⟩
    rw [hφ] at h
    cases h
  constructor
  · exact hx.distinct
  · exact hx.known
  · exact hx.drawn
  · intro b hb
    rcases List.mem_append.mp hb with hb | hb
    · exact hx.fresh b hb
    · obtain rfl := List.mem_singleton.mp hb
      simp [hφ, CodePhase.pending]
  · intro j k a b ha hb hjk text ht
    rcases getElem?_append_cases ha with ⟨-, rfl⟩ | ha'
    · simp [hφ, CodePhase.pending] at ht
    · rcases getElem?_append_cases hb with ⟨-, rfl⟩ | hb'
      · simp [hφ, CodePhase.pending]
      · exact hx.apart j k a b ha' hb' hjk text ht
  · intro b hb text hs
    rcases List.mem_append.mp hb with hb | hb
    · exact hx.spent b hb text hs
    · obtain rfl := List.mem_singleton.mp hb
      exact absurd hs (hspent text)
  · intro j k a b text ha hb hsa hsb
    rcases getElem?_append_cases ha with ⟨-, rfl⟩ | ha'
    · exact absurd hsa (hspent text)
    · rcases getElem?_append_cases hb with ⟨-, rfl⟩ | hb'
      · exact absurd hsb (hspent text)
      · exact hx.once j k a b text ha' hb' hsa hsb

private theorem sound_change (hx : Sound env plainOf userId ⟨s, tasks⟩)
    (hhashes : s'.hashesOf userId = s.hashesOf userId) (hgenerated : s'.generated = s.generated)
    (hwritten : s'.written = s.written) : Sound env plainOf userId ⟨s', tasks⟩ := by
  have htexts : textsOf plainOf userId s' = textsOf plainOf userId s := by
    simp only [textsOf, hhashes]
  constructor
  · simpa only [htexts] using hx.distinct
  · simpa only [htexts, hwritten] using hx.known
  · simpa only [hwritten, hgenerated] using hx.drawn
  · simpa only [hwritten, hgenerated] using hx.fresh
  · exact hx.apart
  · simpa only [htexts, hwritten] using hx.spent
  · exact hx.once

private theorem sound_act {q : RecoveryRequest} {c : RecoveryCall} (hx : Sound env plainOf userId ⟨s, tasks⟩)
    (hexact : ∀ text hash, env.bcryptCompare text hash = true ↔ plainOf hash = some text)
    (hi : tasks[i]? = some task) (hq : task.request = q) (hq' : task'.request = q)
    (hread : ∀ read hashes, c = .auth (.setRecoveryHashes userId hashes) →
      codePhase env plainOf userId task = .looked read → s.hashesOf userId = read)
    (h : CodeStep env plainOf userId q c (codePhase env plainOf userId task) s
      (codePhase env plainOf userId task') s') :
    Sound env plainOf userId ⟨s', tasks.set i task'⟩ := by
  generalize hφ : codePhase env plainOf userId task = φ at h hread
  generalize hφ' : codePhase env plainOf userId task' = φ' at h
  have hsame : ∀ text, φ' = φ → Spent env plainOf userId task' text →
      Spent env plainOf userId task text := by
    rintro text heq ⟨code, hc, ht, hs⟩
    exact ⟨code, by rw [hq, ← hq', hc], ht, by rw [hφ, ← heq, ← hφ', hs]⟩
  have hother : ∀ text, φ' ≠ .spent → ¬ Spent env plainOf userId task' text := by
    rintro text hne ⟨code, -, -, hs⟩
    exact hne (hφ'.symm.trans hs)
  have hfresh := hx.fresh task (List.mem_of_getElem? hi)
  rw [hφ] at hfresh
  cases h with
  | aside =>
    apply sound_quiet hx hi rfl rfl (fun _ => id)
    · rw [hφ']
      exact hfresh.1
    · rw [hφ, hφ']
      exact fun text => .inl
    · exact fun text => hsame text rfl
  | looks hconsume =>
    apply sound_quiet hx hi rfl rfl (fun _ => id)
    · simp [hφ', CodePhase.pending]
    · simp [hφ', CodePhase.pending]
    · exact fun text hs => absurd hs (hother text (by simp))
  | @draws _ texts hd hnew =>
    apply sound_quiet hx hi
    · rfl
    · rfl
    · intro text ht
      exact List.mem_append_left _ ht
    · rw [hφ']
      exact hd
    · rw [hφ']
      exact fun text ht => .inr ⟨hnew text ht, List.mem_append_right _ ht⟩
    · exact fun text hs => absurd hs (hother text (by simp))
  | hashes h =>
    apply sound_quiet hx hi rfl rfl (fun _ => id)
    · rw [hφ', CodePhase.pending, h]
      exact hfresh.1
    · rw [hφ, hφ', CodePhase.pending, CodePhase.pending, h]
      exact fun text => .inl
    · exact fun text hs => absurd hs (hother text (by simp))
  | @spends _ code read hashes _ hc hconsume hspend hrow hend =>
    have hhere := hread read hashes hc rfl
    subst hhere
    obtain ⟨hstored, hd, hmem⟩ := spendHash_mem hexact hx.distinct hspend
    apply sound_spends hx hi (hq'.trans hconsume) hstored hd hmem hrow
    rcases hend with rfl | rfl <;> rw [hφ'] <;> rfl
  | @renews _ _ _ data hc hnew hrow hend =>
    apply sound_renews hx hi _ hrow
    · rcases hend with rfl | rfl <;> rw [hφ'] <;> rfl
    · intro text
      apply hother
      rcases hend with rfl | rfl <;> simp
    · rcases hnew with rfl | ⟨rfl, hnone⟩
      · rw [hφ]
        rfl
      · rw [hφ, hnone]
        rfl
  | fails =>
    apply sound_quiet hx hi rfl rfl (fun _ => id)
    · simp [hφ', CodePhase.pending]
    · simp [hφ', CodePhase.pending]
    · exact fun text hs => absurd hs (hother text (by simp))

theorem codeStep_of_act {x y : RecoveryStage} {i : ℕ} {c : RecoveryCall} {r : c.Answer}
    (hk : (codePhases env plainOf userId).Kept x)
    (h : (recoveryServer env plainOf userId).Step x (.act i c r) y) :
    ∃ task task' : CodeTask, x.tasks[i]? = some task ∧ y.tasks = x.tasks.set i task' ∧
      task'.request = task.request ∧
      CodeStep env plainOf userId task.request c (codePhase env plainOf userId task) x.state
        (codePhase env plainOf userId task') y.state := by
  obtain ⟨task, task', hi, -, htasks, hq, hpermits, hphase, heffect⟩ := hk.act h
  have hphase' : codePhase env plainOf userId task' =
    CodePhase.advance env task.request (codePhase env plainOf userId task) c r := hphase
  refine ⟨task, task', hi, htasks, hq, ?_⟩
  rw [hphase']
  exact codeStep_of_effect hpermits heffect

theorem sound_step {x y : RecoveryStage} {l : StageLabel recoveryInterface RecoveryRequest}
    (hexact : ∀ text hash, env.bcryptCompare text hash = true ↔ plainOf hash = some text)
    (hk : (codePhases env plainOf userId).Kept x) (hx : Sound env plainOf userId x)
    (hread : Undisturbed env plainOf userId x l)
    (h : (recoveryServer env plainOf userId).Step x l y) : Sound env plainOf userId y := by
  cases l with
  | act i c r =>
    obtain ⟨task, task', hi, htasks, hq, hstep⟩ := codeStep_of_act hk h
    have hsound := sound_act (s := x.state) hx hexact hi rfl hq ?_ hstep
    · rw [← htasks] at hsound
      exact hsound
    · rintro read hashes rfl hlooked
      exact hread i userId hashes r rfl task read hi hlooked
  | begin q =>
    cases h
    exact sound_begin hx rfl
  | crash =>
    cases h with
    | @crash s tasks i task e hi hl =>
      have hfresh := hx.fresh task (List.mem_of_getElem? hi)
      exact sound_quiet hx hi rfl rfl (fun _ => id) hfresh.1 (fun _ => .inl) fun _ => id
  | change =>
    cases h with
    | change hc => exact sound_change hx hc.1 hc.2.1 hc.2.2

end Stages

end CloudVM.Recovery
