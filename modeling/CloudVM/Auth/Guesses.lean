import CloudVM.Auth.Challenge

/-!
# How many guesses a challenge allows

The counter of a challenge is raised after a code was compared, and the challenge is deleted after
a code was accepted; each is a command of its own. The bound and the single use hold in every run
in which a call reads the challenge only while no other guess is under way.
-/

namespace CloudVM.Guessing

open Process AuthService GuessPhase

section Store

variable {env : AuthEnv} {challengeId : String} {s s' : ChallengeStore}

abbrev challengeKeys (challengeId : String) : List RedisKey :=
  [.mfaChallenge challengeId, .mfaAttempts challengeId]

def Standing (challengeId : String) (s : ChallengeStore) : Prop :=
  s.live (.mfaChallenge challengeId) ≠ none

def tally (challengeId : String) (s : ChallengeStore) : ℕ :=
  match s.redis (.mfaAttempts challengeId) with
  | some (.counter n, _) => n
  | _ => 0

/-- The challenge has a time to live, and the counter does not expire before it. -/
structure Timed (env : AuthEnv) (challengeId : String) (s : ChallengeStore) : Prop where
  lifetime : ∀ v exp, s.redis (.mfaChallenge challengeId) = some (v, exp) →
    ∃ e, exp = some e ∧ e ≤ s.clock + env.mfaTtlSeconds
  outlives : ∀ v v' e e', s.redis (.mfaChallenge challengeId) = some (v, some e) →
    s.redis (.mfaAttempts challengeId) = some (v', some e') → e ≤ e'

/-- One step of a call and what it does to the entries of its challenge. -/
inductive GuessStep (env : AuthEnv) (challengeId : String) :
    GuessPhase → ChallengeStore → GuessPhase → ChallengeStore → Prop
  | aside {φ : GuessPhase} {s s' : ChallengeStore} (hclock : s.clock ≤ s'.clock)
      (hkeys : ∀ key ∈ challengeKeys challengeId, s'.redis key = s.redis key) :
      GuessStep env challengeId φ s φ s'
  | reads {s : ChallengeStore} (h : Standing challengeId s) :
      GuessStep env challengeId .arrived s .holding s
  | compares {s : ChallengeStore} : GuessStep env challengeId .holding s .judged s
  | dismisses {s s' : ChallengeStore} (h : s' = s ∨ s' = s.del (challengeKeys challengeId)) :
      GuessStep env challengeId .holding s .dismissed s'
  | passes {s : ChallengeStore} :
      GuessStep env challengeId .judged s .passed (s.del (challengeKeys challengeId))
  | counts {s : ChallengeStore} : GuessStep env challengeId .judged s
      (.counted (s.count (.mfaAttempts challengeId) + 1)) (s.incr (.mfaAttempts challengeId))
  | fails {s s' : ChallengeStore} (h : s' = s.del (challengeKeys challengeId) ∨
      s' = s.incr (.mfaAttempts challengeId)) : GuessStep env challengeId .judged s .judged s'
  | locks {n : ℕ} {s : ChallengeStore} :
      GuessStep env challengeId (.counted n) s .locked (s.del (challengeKeys challengeId))
  | sticks {n : ℕ} {s s' : ChallengeStore} (h : s' = s.del (challengeKeys challengeId) ∨
      s' = s.expire (.mfaAttempts challengeId) env.mfaTtlSeconds) :
      GuessStep env challengeId (.counted n) s (.counted n) s'

private theorem GuessStep.still {φ : GuessPhase} : GuessStep env challengeId φ s φ s :=
  .aside (le_refl _) fun _ _ => rfl

theorem guessStep_of_effect {φ : GuessPhase} {c : AuthCall} {r : c.Answer}
    (hp : φ.Permits env challengeId c) (he : challengeEffect c s r s') :
    GuessStep env challengeId φ s (φ.advance c r) s' := by
  cases c with
  | redisGet key =>
    obtain ⟨rfl, rfl⟩ := hp
    obtain ⟨rfl, rfl | ⟨e, rfl⟩⟩ := he
    · cases hlive : s'.live (.mfaChallenge challengeId) with
      | none => exact .still
      | some v =>
        have hstanding : Standing challengeId s' := by simp [Standing, hlive]
        cases v <;> first | exact .reads hstanding | exact .still
    · exact .still
  | redisIncr key =>
    obtain ⟨rfl, rfl⟩ := hp
    rcases he with ⟨rfl, rfl⟩ | ⟨⟨e, rfl⟩, rfl | rfl⟩
    · exact .counts
    · exact .still
    · exact .fails (.inr rfl)
  | redisExpire key ttl =>
    obtain ⟨⟨n, rfl⟩, rfl, rfl⟩ := hp
    rcases he with ⟨rfl, rfl⟩ | ⟨⟨e, rfl⟩, rfl | rfl⟩
    · exact .sticks (.inr rfl)
    · exact .still
    · exact .sticks (.inr rfl)
  | redisDel keys =>
    obtain ⟨rfl, hφ⟩ := hp
    rcases he with ⟨rfl, rfl⟩ | ⟨⟨e, rfl⟩, hs⟩
    · rcases hφ with rfl | rfl | ⟨n, rfl⟩
      · exact .dismisses (.inr rfl)
      · exact .passes
      · exact .locks
    · rcases hφ with rfl | rfl | ⟨n, rfl⟩
      · exact .dismisses hs
      · rcases hs with rfl | rfl
        · exact .still
        · exact .fails (.inl rfl)
      · rcases hs with rfl | rfl
        · exact .still
        · exact .sticks (.inl rfl)
  | findUserById userId =>
    obtain ⟨rfl, -⟩ := he
    cases φ <;> try exact .still
    have hcases : advance .holding (.findUserById userId) r = .judged ∨
        advance .holding (.findUserById userId) r = .dismissed := by
      rcases r with e | (_ | user)
      · exact .inr rfl
      · exact .inr rfl
      · cases h : user.isActive <;> simp [advance, h]
    rcases hcases with h | h
    · rw [h]
      exact .compares
    · rw [h]
      exact .dismisses (.inl rfl)
  | redisSet key v ttl =>
    obtain ⟨userId, rfl⟩ := hp
    have hkeys : ∀ key ∈ challengeKeys challengeId,
        (s.write (.loginContext userId) (some (v, some (s.clock + ttl)))).redis key = s.redis key := by
      intro key hkey
      simp only [challengeKeys, List.mem_cons, List.not_mem_nil, or_false] at hkey
      rcases hkey with rfl | rfl <;> simp [ChallengeStore.write]
    rcases he with ⟨rfl, rfl⟩ | ⟨⟨e, rfl⟩, rfl | rfl⟩
    · exact .aside (le_refl _) hkeys
    · exact .still
    · exact .aside (le_refl _) hkeys
  | setRecoveryHashes userId hashes =>
    have hset : GuessStep env challengeId φ s φ (s.setHashes userId hashes) :=
      .aside (le_refl _) fun _ _ => rfl
    rcases he with ⟨-, -, rfl⟩ | ⟨-, ⟨-, rfl⟩ | ⟨-, rfl | rfl⟩⟩
    · exact .still
    · exact hset
    · exact .still
    · exact hset
  | now =>
    obtain ⟨-, rfl⟩ := he
    exact .still
  | _ =>
    obtain rfl := he
    exact .still

theorem not_standing_del : ¬ Standing challengeId (s.del (challengeKeys challengeId)) := by
  simp [Standing, ChallengeStore.live, ChallengeStore.del]

theorem standing_of_same (hclock : s.clock ≤ s'.clock)
    (hc : s'.redis (.mfaChallenge challengeId) = s.redis (.mfaChallenge challengeId))
    (h : Standing challengeId s') : Standing challengeId s := by
  unfold Standing ChallengeStore.live at h ⊢
  rw [hc] at h
  split at h
  · exact absurd rfl h
  · simp
  · rename_i v e _
    by_cases hlt : s'.clock < e
    · have hs : s.clock < e := by omega
      simp [hs]
    · simp [hlt] at h

theorem count_of_standing (h : Standing challengeId s) (ht : Timed env challengeId s) :
    s.count (.mfaAttempts challengeId) = tally challengeId s := by
  have hexpires : ∃ v e, s.redis (.mfaChallenge challengeId) = some (v, some e) ∧ s.clock < e := by
    cases hc : s.redis (.mfaChallenge challengeId) with
    | none => simp [Standing, ChallengeStore.live, hc] at h
    | some entry =>
      obtain ⟨v, exp⟩ := entry
      obtain ⟨e, rfl, -⟩ := ht.lifetime v exp hc
      by_cases hlt : s.clock < e
      · exact ⟨v, e, rfl, hlt⟩
      · simp [Standing, ChallengeStore.live, hc, hlt] at h
  obtain ⟨v, e, hc, hlt⟩ := hexpires
  unfold ChallengeStore.count ChallengeStore.live tally
  cases ha : s.redis (.mfaAttempts challengeId) with
  | none => rfl
  | some entry =>
    obtain ⟨v', exp⟩ := entry
    cases exp with
    | none => cases v' <;> rfl
    | some e' =>
      have hle := ht.outlives v v' e e' hc ha
      have hlive : s.clock < e' := by omega
      simp only [hlive, if_true]
      cases v' <;> rfl

private theorem tally_of_same
    (ha : s'.redis (.mfaAttempts challengeId) = s.redis (.mfaAttempts challengeId)) :
    tally challengeId s' = tally challengeId s := by
  simp only [tally, ha]

theorem tally_incr : tally challengeId (s.incr (.mfaAttempts challengeId)) =
    s.count (.mfaAttempts challengeId) + 1 := by
  simp [tally, ChallengeStore.incr, ChallengeStore.write]

theorem tally_expire {ttl : ℕ} :
    tally challengeId (s.expire (.mfaAttempts challengeId) ttl) = tally challengeId s := by
  unfold tally ChallengeStore.expire ChallengeStore.write
  simp only [if_true]
  cases s.redis (.mfaAttempts challengeId) with
  | none => rfl
  | some entry =>
    obtain ⟨v, exp⟩ := entry
    cases v <;> rfl

theorem Timed.change (ht : Timed env challengeId s) (hclock : s.clock ≤ s'.clock)
    (hkeys : ∀ key ∈ challengeKeys challengeId, s'.redis key = s.redis key) :
    Timed env challengeId s' := by
  have hc := hkeys (.mfaChallenge challengeId) (by simp)
  have ha := hkeys (.mfaAttempts challengeId) (by simp)
  constructor
  · intro v exp h
    obtain ⟨e, he, hle⟩ := ht.lifetime v exp (hc ▸ h)
    exact ⟨e, he, by omega⟩
  · intro v v' e e' h h'
    exact ht.outlives v v' e e' (hc ▸ h) (ha ▸ h')

theorem Timed.step {φ φ' : GuessPhase} (ht : Timed env challengeId s)
    (h : GuessStep env challengeId φ s φ' s') : Timed env challengeId s' := by
  have hdel : Timed env challengeId (s.del (challengeKeys challengeId)) := by
    constructor <;> simp [ChallengeStore.del]
  have hincr : Timed env challengeId (s.incr (.mfaAttempts challengeId)) := by
    constructor
    · intro v exp hc
      exact ht.lifetime v exp (by simpa [ChallengeStore.incr, ChallengeStore.write] using hc)
    · intro v v' e e' hc ha
      have hc' : s.redis (.mfaChallenge challengeId) = some (v, some e) := by
        simpa [ChallengeStore.incr, ChallengeStore.write] using hc
      simp only [ChallengeStore.incr, ChallengeStore.write, if_true, Option.some.injEq,
        Prod.mk.injEq] at ha
      obtain ⟨-, ha⟩ := ha
      cases hlive : s.live (.mfaAttempts challengeId) with
      | none => simp [hlive] at ha
      | some w =>
        rw [hlive, Option.bind_some, Option.bind_eq_some_iff] at ha
        obtain ⟨⟨w', exp⟩, hw, hexp⟩ := ha
        have hexp' : exp = some e' := hexp
        exact ht.outlives v w' e e' hc' (hexp' ▸ hw)
  have hexpire : Timed env challengeId (s.expire (.mfaAttempts challengeId) env.mfaTtlSeconds) := by
    constructor
    · intro v exp hc
      exact ht.lifetime v exp (by simpa [ChallengeStore.expire, ChallengeStore.write] using hc)
    · intro v v' e e' hc ha
      have hc' : s.redis (.mfaChallenge challengeId) = some (v, some e) := by
        simpa [ChallengeStore.expire, ChallengeStore.write] using hc
      obtain ⟨e₀, he₀, hle⟩ := ht.lifetime v (some e) hc'
      have he : e ≤ s.clock + env.mfaTtlSeconds := Option.some.inj he₀ ▸ hle
      simp only [ChallengeStore.expire, ChallengeStore.write, if_true, Option.map_eq_some_iff,
        Prod.mk.injEq, Option.some.injEq] at ha
      obtain ⟨entry, -, -, rfl⟩ := ha
      exact he
  cases h with
  | aside hclock hkeys => exact ht.change hclock hkeys
  | reads | compares => exact ht
  | dismisses h => rcases h with rfl | rfl <;> assumption
  | passes | locks => exact hdel
  | counts => exact hincr
  | fails h => rcases h with rfl | rfl <;> assumption
  | sticks h => rcases h with rfl | rfl <;> assumption

end Store

section Stages

variable {env : AuthEnv} {challengeId : String}

abbrev GuessTask := Task authInterface Failure AuthReply (String × RequestInfo)

abbrev guessPhase (env : AuthEnv) (challengeId : String) (task : GuessTask) : GuessPhase :=
  (guessPhases env challengeId).phase task

/-- The guess is under way: its code may still be compared, or was compared and is not settled. -/
def UnderWay (env : AuthEnv) (challengeId : String) (task : GuessTask) : Prop :=
  (guessPhase env challengeId task = .holding ∧ task.Live) ∨
    (guessPhase env challengeId task).isPending env = true

def guesses (env : AuthEnv) (challengeId : String) (tasks : List GuessTask) : ℕ :=
  tasks.countP fun task => (guessPhase env challengeId task).isJudged

/-- How many calls have had their code accepted. -/
def successes (env : AuthEnv) (challengeId : String) (tasks : List GuessTask) : ℕ :=
  tasks.countP fun task => (guessPhase env challengeId task).isPassed

/-- A call reads the challenge only while no other guess is under way. -/
def OneAtATime (env : AuthEnv) (challengeId : String) (x : ChallengeStage)
    (l : StageLabel authInterface (String × RequestInfo)) : Prop :=
  ∀ i payload, l = .act i (AuthCall.redisGet (.mfaChallenge challengeId))
      (.ok (some (.challenge payload))) →
    ∀ j task, j ≠ i → x.tasks[j]? = some task → ¬ UnderWay env challengeId task

/-- At most one guess is under way. While it is, no code has been accepted; and while the challenge
can be read, the counter covers all guesses but that one. -/
structure Bounded (env : AuthEnv) (challengeId : String) (x : ChallengeStage) : Prop where
  timed : Timed env challengeId x.state
  alone : ∀ (i j : ℕ) (a b : GuessTask), x.tasks[i]? = some a → x.tasks[j]? = some b → UnderWay env challengeId a →
    UnderWay env challengeId b → i = j
  few : guesses env challengeId x.tasks ≤ env.mfaMaxAttempts
  once : successes env challengeId x.tasks ≤ 1
  room : ∀ task ∈ x.tasks, guessPhase env challengeId task = .holding → task.Live →
    guesses env challengeId x.tasks < env.mfaMaxAttempts
  unspent : ∀ task ∈ x.tasks, UnderWay env challengeId task →
    successes env challengeId x.tasks = 0
  fresh : Standing challengeId x.state → successes env challengeId x.tasks = 0
  covered : Standing challengeId x.state →
    guesses env challengeId x.tasks ≤ tally challengeId x.state + 1
  settled : Standing challengeId x.state →
    (∀ task ∈ x.tasks, (guessPhase env challengeId task).isPending env = false) →
    guesses env challengeId x.tasks ≤ tally challengeId x.state ∧
      tally challengeId x.state < env.mfaMaxAttempts

variable {s s' : ChallengeStore} {tasks : List GuessTask} {i : ℕ} {task task' : GuessTask}

theorem guesses_set (env : AuthEnv) (challengeId : String) (task' : GuessTask)
    (h : tasks[i]? = some task) :
    guesses env challengeId (tasks.set i task') +
        (guessPhase env challengeId task).isJudged.toNat =
      guesses env challengeId tasks + (guessPhase env challengeId task').isJudged.toNat :=
  countP_set_add h _ _

theorem successes_set (env : AuthEnv) (challengeId : String) (task' : GuessTask)
    (h : tasks[i]? = some task) :
    successes env challengeId (tasks.set i task') +
        (guessPhase env challengeId task).isPassed.toNat =
      successes env challengeId tasks + (guessPhase env challengeId task').isPassed.toNat :=
  countP_set_add h _ _

private theorem alone_set (hx : Bounded env challengeId ⟨s, tasks⟩) (hi : tasks[i]? = some task)
    (hnew : UnderWay env challengeId task' → UnderWay env challengeId task ∨
      ∀ (j : ℕ) (b : GuessTask), j ≠ i → tasks[j]? = some b → ¬ UnderWay env challengeId b)
    (j k : ℕ) (a b : GuessTask) (ha : (tasks.set i task')[j]? = some a)
    (hb : (tasks.set i task')[k]? = some b) (hua : UnderWay env challengeId a)
    (hub : UnderWay env challengeId b) : j = k := by
  rcases getElem?_set_cases ha with ⟨rfl, rfl⟩ | ⟨hj, ha'⟩
  · rcases getElem?_set_cases hb with ⟨rfl, -⟩ | ⟨hk, hb'⟩
    · rfl
    · rcases hnew hua with h | h
      · exact hx.alone _ _ _ _ hi hb' h hub
      · exact absurd hub (h k b hk hb')
  · rcases getElem?_set_cases hb with ⟨rfl, rfl⟩ | ⟨hk, hb'⟩
    · rcases hnew hub with h | h
      · exact hx.alone _ _ _ _ ha' hi hua h
      · exact absurd hua (h j a hj ha')
    · exact hx.alone _ _ _ _ ha' hb' hua hub

private theorem bounded_quiet (hx : Bounded env challengeId ⟨s, tasks⟩) (hi : tasks[i]? = some task)
    (hjudged : (guessPhase env challengeId task').isJudged = (guessPhase env challengeId task).isJudged)
    (hpassed : (guessPhase env challengeId task').isPassed = (guessPhase env challengeId task).isPassed)
    (hunder : UnderWay env challengeId task' → UnderWay env challengeId task)
    (hholding : guessPhase env challengeId task' = .holding →
      guessPhase env challengeId task = .holding ∧ task.Live)
    (ht : Timed env challengeId s')
    (hstanding : Standing challengeId s' → Standing challengeId s)
    (hcovered : Standing challengeId s' →
      guesses env challengeId tasks ≤ tally challengeId s' + 1)
    (hsettled : Standing challengeId s' →
      (∀ b ∈ tasks.set i task', (guessPhase env challengeId b).isPending env = false) →
      guesses env challengeId tasks ≤ tally challengeId s' ∧
        tally challengeId s' < env.mfaMaxAttempts) :
    Bounded env challengeId ⟨s', tasks.set i task'⟩ := by
  have hm : task ∈ tasks := List.mem_of_getElem? hi
  have hg : guesses env challengeId (tasks.set i task') = guesses env challengeId tasks := by
    have h := guesses_set env challengeId task' hi
    rw [hjudged] at h
    omega
  have hs : successes env challengeId (tasks.set i task') = successes env challengeId tasks := by
    have h := successes_set env challengeId task' hi
    rw [hpassed] at h
    omega
  constructor
  · exact ht
  · exact alone_set hx hi fun h => .inl (hunder h)
  · rw [hg]
    exact hx.few
  · rw [hs]
    exact hx.once
  · intro b hb hh hl
    rw [hg]
    rcases mem_set_cases hb with rfl | ⟨j, -, hj⟩
    · obtain ⟨hh', hl'⟩ := hholding hh
      exact hx.room task hm hh' hl'
    · exact hx.room b (List.mem_of_getElem? hj) hh hl
  · intro b hb hu
    rw [hs]
    rcases mem_set_cases hb with rfl | ⟨j, -, hj⟩
    · exact hx.unspent task hm (hunder hu)
    · exact hx.unspent b (List.mem_of_getElem? hj) hu
  · intro h
    rw [hs]
    exact hx.fresh (hstanding h)
  · intro h
    rw [hg]
    exact hcovered h
  · intro h hp
    rw [hg]
    exact hsettled h hp

private theorem pending_elsewhere (hx : Bounded env challengeId ⟨s, tasks⟩)
    (hi : tasks[i]? = some task) (hu : UnderWay env challengeId task) (j : ℕ) (b : GuessTask)
    (hne : j ≠ i) (hj : tasks[j]? = some b) : ¬ UnderWay env challengeId b :=
  fun h => hne (hx.alone j i b task hj hi h hu)

private theorem none_pending (hi : tasks[i]? = some task)
    (hself : (guessPhase env challengeId task).isPending env = false)
    (hone : ∀ (j : ℕ) (b : GuessTask), j ≠ i → tasks[j]? = some b → ¬ UnderWay env challengeId b) :
    ∀ b ∈ tasks, (guessPhase env challengeId b).isPending env = false := by
  intro b hb
  obtain ⟨j, hj⟩ := List.mem_iff_getElem?.mp hb
  by_cases hne : j = i
  · subst hne
    obtain rfl := Option.some.inj (hj.symm.trans hi)
    exact hself
  · by_contra h
    exact hone j b hne hj (.inr (by simpa using h))

private theorem bounded_reads (hx : Bounded env challengeId ⟨s, tasks⟩) (hi : tasks[i]? = some task)
    (hφ : guessPhase env challengeId task = .arrived)
    (hφ' : guessPhase env challengeId task' = .holding) (hs : Standing challengeId s)
    (hone : ∀ (j : ℕ) (b : GuessTask), j ≠ i → tasks[j]? = some b → ¬ UnderWay env challengeId b) :
    Bounded env challengeId ⟨s, tasks.set i task'⟩ := by
  have hg : guesses env challengeId (tasks.set i task') = guesses env challengeId tasks := by
    have h := guesses_set env challengeId task' hi
    rw [hφ, hφ'] at h
    exact h
  have hp : successes env challengeId (tasks.set i task') = successes env challengeId tasks := by
    have h := successes_set env challengeId task' hi
    rw [hφ, hφ'] at h
    exact h
  have hself : (guessPhase env challengeId task).isPending env = false := by
    rw [hφ]
    rfl
  have hpending := none_pending hi hself hone
  have hcounter := hx.settled hs hpending
  have hfresh := hx.fresh hs
  constructor
  · exact hx.timed
  · exact alone_set hx hi fun _ => .inr hone
  · rw [hg]
    exact hx.few
  · rw [hp]
    exact hx.once
  · intro b _ _ _
    rw [hg]
    simp only at hcounter
    omega
  · intro b _ _
    rw [hp]
    exact hfresh
  · intro _
    rw [hp]
    exact hfresh
  · intro _
    rw [hg]
    exact hx.covered hs
  · intro _ _
    rw [hg]
    exact hcounter

private theorem bounded_compares (hx : Bounded env challengeId ⟨s, tasks⟩)
    (hi : tasks[i]? = some task) (hl : task.Live)
    (hφ : guessPhase env challengeId task = .holding)
    (hφ' : guessPhase env challengeId task' = .judged) :
    Bounded env challengeId ⟨s, tasks.set i task'⟩ := by
  have hm : task ∈ tasks := List.mem_of_getElem? hi
  have hu : UnderWay env challengeId task := .inl ⟨hφ, hl⟩
  have hg : guesses env challengeId (tasks.set i task') = guesses env challengeId tasks + 1 := by
    have h := guesses_set env challengeId task' hi
    rw [hφ, hφ'] at h
    exact h
  have hp : successes env challengeId (tasks.set i task') = successes env challengeId tasks := by
    have h := successes_set env challengeId task' hi
    rw [hφ, hφ'] at h
    exact h
  have hroom := hx.room task hm hφ hl
  have hunspent := hx.unspent task hm hu
  have helse := pending_elsewhere hx hi hu
  have hself : (guessPhase env challengeId task).isPending env = false := by
    rw [hφ]
    rfl
  have hpending := none_pending hi hself helse
  constructor
  · exact hx.timed
  · exact alone_set hx hi fun _ => .inl hu
  · rw [hg]
    exact hroom
  · rw [hp]
    exact hx.once
  · intro b hb hh hbl
    rcases mem_set_cases hb with rfl | ⟨j, hne, hj⟩
    · rw [hφ'] at hh
      cases hh
    · exact absurd (.inl ⟨hh, hbl⟩) (helse j b hne hj)
  · intro b _ _
    rw [hp]
    exact hunspent
  · intro _
    rw [hp]
    exact hunspent
  · intro hs
    have hcounter := (hx.settled hs hpending).1
    rw [hg]
    simp only at hcounter ⊢
    omega
  · intro _ hnone
    have hmem : task' ∈ tasks.set i task' :=
      List.mem_set (List.getElem?_eq_some_iff.mp hi).1 task'
    have hbusy := hnone task' hmem
    rw [hφ'] at hbusy
    cases hbusy

private theorem bounded_passes (hx : Bounded env challengeId ⟨s, tasks⟩)
    (hi : tasks[i]? = some task) (hφ : guessPhase env challengeId task = .judged)
    (hφ' : guessPhase env challengeId task' = .passed) :
    Bounded env challengeId ⟨s.del (challengeKeys challengeId), tasks.set i task'⟩ := by
  have hm : task ∈ tasks := List.mem_of_getElem? hi
  have hu : UnderWay env challengeId task := by
    right
    rw [hφ]
    rfl
  have hg : guesses env challengeId (tasks.set i task') = guesses env challengeId tasks := by
    have h := guesses_set env challengeId task' hi
    rw [hφ, hφ'] at h
    simp only [isJudged, Bool.toNat_true] at h
    omega
  have hp : successes env challengeId (tasks.set i task') = successes env challengeId tasks + 1 := by
    have h := successes_set env challengeId task' hi
    rw [hφ, hφ'] at h
    exact h
  have hunspent := hx.unspent task hm hu
  have helse := pending_elsewhere hx hi hu
  have hdone : ¬ UnderWay env challengeId task' := by
    rintro (⟨h, -⟩ | h)
    · rw [hφ'] at h
      cases h
    · rw [hφ'] at h
      cases h
  constructor
  · exact hx.timed.step .passes
  · exact alone_set hx hi fun h => absurd h hdone
  · rw [hg]
    exact hx.few
  · simp only at hunspent ⊢
    omega
  · intro b hb hh hl
    rcases mem_set_cases hb with rfl | ⟨j, hne, hj⟩
    · exact absurd (.inl ⟨hh, hl⟩) hdone
    · exact absurd (.inl ⟨hh, hl⟩) (helse j b hne hj)
  · intro b hb hub
    rcases mem_set_cases hb with rfl | ⟨j, hne, hj⟩
    · exact absurd hub hdone
    · exact absurd hub (helse j b hne hj)
  · intro h
    exact absurd h not_standing_del
  · intro h
    exact absurd h not_standing_del
  · intro h
    exact absurd h not_standing_del

private theorem none_pending_before (hi : tasks[i]? = some task)
    (hback : (guessPhase env challengeId task).isPending env = true →
      (guessPhase env challengeId task').isPending env = true)
    (h : ∀ b ∈ tasks.set i task', (guessPhase env challengeId b).isPending env = false) :
    ∀ b ∈ tasks, (guessPhase env challengeId b).isPending env = false := by
  intro b hb
  obtain ⟨j, hj⟩ := List.mem_iff_getElem?.mp hb
  by_cases hne : j = i
  · subst hne
    obtain rfl := Option.some.inj (hj.symm.trans hi)
    have hnew := h task' (List.mem_set (List.getElem?_eq_some_iff.mp hi).1 task')
    by_contra hp
    rw [hback (by simpa using hp)] at hnew
    cases hnew
  · have hset : (tasks.set i task')[j]? = some b := by
      rw [List.getElem?_set_ne (Ne.symm hne)]
      exact hj
    exact h b (List.mem_of_getElem? hset)

private theorem standing_of_incr
    (h : Standing challengeId (s.incr (.mfaAttempts challengeId))) : Standing challengeId s := by
  have hc : (s.incr (.mfaAttempts challengeId)).redis (.mfaChallenge challengeId) =
      s.redis (.mfaChallenge challengeId) := by
    simp [ChallengeStore.incr, ChallengeStore.write]
  exact standing_of_same (le_refl _) hc h

private theorem standing_of_expire {ttl : ℕ}
    (h : Standing challengeId (s.expire (.mfaAttempts challengeId) ttl)) : Standing challengeId s := by
  have hc : (s.expire (.mfaAttempts challengeId) ttl).redis (.mfaChallenge challengeId) =
      s.redis (.mfaChallenge challengeId) := by
    simp [ChallengeStore.expire, ChallengeStore.write]
  exact standing_of_same (le_refl _) hc h

private theorem moved_mem (hi : tasks[i]? = some task) : task' ∈ tasks.set i task' :=
  List.mem_set (List.getElem?_eq_some_iff.mp hi).1 task'

/-- A count that is taken up covers every guess so far. -/
private theorem covered_incr (hx : Bounded env challengeId ⟨s, tasks⟩)
    (h : Standing challengeId (s.incr (.mfaAttempts challengeId))) :
    guesses env challengeId tasks ≤ tally challengeId (s.incr (.mfaAttempts challengeId)) := by
  have hcovered := hx.covered (standing_of_incr h)
  have hcount := count_of_standing (standing_of_incr h) hx.timed
  rw [tally_incr]
  simp only at hcovered hcount
  omega

private theorem bounded_steady (hx : Bounded env challengeId ⟨s, tasks⟩) (hi : tasks[i]? = some task)
    (hl : task.Live) (hphase : guessPhase env challengeId task' = guessPhase env challengeId task)
    (ht : Timed env challengeId s') (hstanding : Standing challengeId s' → Standing challengeId s)
    (htally : Standing challengeId s' → tally challengeId s' = tally challengeId s) :
    Bounded env challengeId ⟨s', tasks.set i task'⟩ := by
  apply bounded_quiet hx hi (by rw [hphase]) (by rw [hphase]) _ _ ht hstanding
  · intro h
    rw [htally h]
    exact hx.covered (hstanding h)
  · intro h hnone
    rw [htally h]
    exact hx.settled (hstanding h) (none_pending_before hi (by rw [hphase]; exact id) hnone)
  · intro h
    rw [UnderWay, hphase] at h
    exact h.imp_left fun hh => ⟨hh.1, hl⟩
  · intro h
    exact ⟨hphase ▸ h, hl⟩

private theorem bounded_over (hx : Bounded env challengeId ⟨s, tasks⟩) (hi : tasks[i]? = some task)
    (hjudged : (guessPhase env challengeId task').isJudged = (guessPhase env challengeId task).isJudged)
    (hpassed : (guessPhase env challengeId task').isPassed = (guessPhase env challengeId task).isPassed)
    (hholding : guessPhase env challengeId task' ≠ .holding)
    (hpending : (guessPhase env challengeId task').isPending env = false)
    (ht : Timed env challengeId s')
    (hstays : Standing challengeId s' →
      s' = s ∧ (guessPhase env challengeId task).isPending env = false) :
    Bounded env challengeId ⟨s', tasks.set i task'⟩ := by
  apply bounded_quiet hx hi hjudged hpassed _ _ ht
  · intro hs
    exact (hstays hs).1 ▸ hs
  · intro hs
    obtain ⟨rfl, -⟩ := hstays hs
    exact hx.covered hs
  · intro hs hnone
    obtain ⟨rfl, hbefore⟩ := hstays hs
    exact hx.settled hs (none_pending_before hi (by simp [hbefore]) hnone)
  · rintro (⟨hh, -⟩ | hp)
    · exact absurd hh hholding
    · rw [hpending] at hp
      cases hp
  · intro hh
    exact absurd hh hholding

private theorem bounded_judged (hx : Bounded env challengeId ⟨s, tasks⟩) (hi : tasks[i]? = some task)
    (hφ : guessPhase env challengeId task = .judged)
    (hjudged : (guessPhase env challengeId task').isJudged = true)
    (hpassed : (guessPhase env challengeId task').isPassed = false)
    (ht : Timed env challengeId s')
    (hstands : Standing challengeId s' → s' = s.incr (.mfaAttempts challengeId))
    (hpending : Standing challengeId s' → (guessPhase env challengeId task').isPending env = false →
      s.count (.mfaAttempts challengeId) + 1 < env.mfaMaxAttempts) :
    Bounded env challengeId ⟨s', tasks.set i task'⟩ := by
  apply bounded_quiet hx hi (by rw [hjudged, hφ]; rfl) (by rw [hpassed, hφ]; rfl) _ _ ht
  · intro hs
    obtain rfl := hstands hs
    exact standing_of_incr hs
  · intro hs
    obtain rfl := hstands hs
    exact Nat.le_succ_of_le (covered_incr hx hs)
  · intro hs hnone
    have hlt := hpending hs (hnone task' (moved_mem hi))
    obtain rfl := hstands hs
    rw [← tally_incr] at hlt
    exact ⟨covered_incr hx hs, hlt⟩
  · intro _
    right
    rw [hφ]
    rfl
  · intro hh
    rw [hh] at hjudged
    cases hjudged

theorem bounded_act (hx : Bounded env challengeId ⟨s, tasks⟩) (hi : tasks[i]? = some task)
    (hl : task.Live)
    (hstep : GuessStep env challengeId (guessPhase env challengeId task) s
      (guessPhase env challengeId task') s')
    (hone : guessPhase env challengeId task = .arrived →
      guessPhase env challengeId task' = .holding →
      ∀ (j : ℕ) (b : GuessTask), j ≠ i → tasks[j]? = some b → ¬ UnderWay env challengeId b) :
    Bounded env challengeId ⟨s', tasks.set i task'⟩ := by
  have ht := hx.timed.step hstep
  generalize hφ : guessPhase env challengeId task = φ at hstep
  generalize hφ' : guessPhase env challengeId task' = φ' at hstep
  cases hstep with
  | aside hclock hkeys =>
    have hc := hkeys (.mfaChallenge challengeId) (by simp)
    have ha := hkeys (.mfaAttempts challengeId) (by simp)
    exact bounded_steady hx hi hl (hφ'.trans hφ.symm) ht (standing_of_same hclock hc)
      fun _ => tally_of_same ha
  | reads h => exact bounded_reads hx hi hφ hφ' h (hone hφ hφ')
  | compares => exact bounded_compares hx hi hl hφ hφ'
  | dismisses h =>
    apply bounded_over hx hi (by rw [hφ, hφ']; rfl) (by rw [hφ, hφ']; rfl) (by simp [hφ'])
      (by rw [hφ']; rfl) ht
    intro hs
    rcases h with rfl | rfl
    · exact ⟨rfl, by rw [hφ]; rfl⟩
    · exact absurd hs not_standing_del
  | passes => exact bounded_passes hx hi hφ hφ'
  | counts =>
    apply bounded_judged hx hi hφ (by rw [hφ']; rfl) (by rw [hφ']; rfl) ht fun _ => rfl
    intro _ hnot
    rw [hφ'] at hnot
    simpa [isPending] using hnot
  | fails h =>
    have hgone : Standing challengeId s' → s' = s.incr (.mfaAttempts challengeId) := by
      intro hs
      rcases h with rfl | rfl
      · exact absurd hs not_standing_del
      · rfl
    apply bounded_judged hx hi hφ (by rw [hφ']; rfl) (by rw [hφ']; rfl) ht hgone
    intro _ hnot
    rw [hφ'] at hnot
    cases hnot
  | locks =>
    apply bounded_over hx hi (by rw [hφ, hφ']; rfl) (by rw [hφ, hφ']; rfl) (by simp [hφ'])
      (by rw [hφ']; rfl) ht
    intro hs
    exact absurd hs not_standing_del
  | sticks h =>
    have hstays : Standing challengeId s' →
        s' = s.expire (.mfaAttempts challengeId) env.mfaTtlSeconds := by
      intro hs
      rcases h with rfl | rfl
      · exact absurd hs not_standing_del
      · rfl
    apply bounded_steady hx hi hl (hφ'.trans hφ.symm) ht
    · intro hs
      rw [hstays hs] at hs
      exact standing_of_expire hs
    · intro hs
      rw [hstays hs, tally_expire]

private theorem bounded_begin (hx : Bounded env challengeId ⟨s, tasks⟩)
    (hφ : guessPhase env challengeId task' = .arrived) :
    Bounded env challengeId ⟨s, tasks ++ [task']⟩ := by
  have hg : guesses env challengeId (tasks ++ [task']) = guesses env challengeId tasks := by
    simp [guesses, List.countP_append, hφ, isJudged]
  have hp : successes env challengeId (tasks ++ [task']) = successes env challengeId tasks := by
    simp [successes, List.countP_append, hφ, isPassed]
  have hrest : ¬ UnderWay env challengeId task' := by simp [UnderWay, hφ, isPending]
  have hold : ∀ b ∈ tasks ++ [task'], UnderWay env challengeId b → b ∈ tasks := by
    intro b hb hu
    rcases List.mem_append.mp hb with hb | hb
    · exact hb
    · obtain rfl := List.mem_singleton.mp hb
      exact absurd hu hrest
  constructor
  · exact hx.timed
  · intro j k a b ha hb hua hub
    rcases getElem?_append_cases ha with ⟨-, rfl⟩ | ha'
    · exact absurd hua hrest
    · rcases getElem?_append_cases hb with ⟨-, rfl⟩ | hb'
      · exact absurd hub hrest
      · exact hx.alone j k a b ha' hb' hua hub
  · rw [hg]
    exact hx.few
  · rw [hp]
    exact hx.once
  · intro b hb hh hl
    rw [hg]
    exact hx.room b (hold b hb (.inl ⟨hh, hl⟩)) hh hl
  · intro b hb hu
    rw [hp]
    exact hx.unspent b (hold b hb hu) hu
  · intro h
    rw [hp]
    exact hx.fresh h
  · intro h
    rw [hg]
    exact hx.covered h
  · intro h hnone
    rw [hg]
    exact hx.settled h fun b hb => hnone b (List.mem_append_left _ hb)

private theorem bounded_change (hx : Bounded env challengeId ⟨s, tasks⟩)
    (hredis : s'.redis = s.redis) (hclock : s.clock ≤ s'.clock) :
    Bounded env challengeId ⟨s', tasks⟩ := by
  have hstanding : Standing challengeId s' → Standing challengeId s :=
    standing_of_same hclock (by rw [hredis])
  have htally : tally challengeId s' = tally challengeId s := tally_of_same (by rw [hredis])
  constructor
  · exact hx.timed.change hclock fun _ _ => by rw [hredis]
  · exact hx.alone
  · exact hx.few
  · exact hx.once
  · exact hx.room
  · exact hx.unspent
  · intro h
    exact hx.fresh (hstanding h)
  · intro h
    simp only [htally]
    exact hx.covered (hstanding h)
  · intro h
    simp only [htally]
    exact hx.settled (hstanding h)

private theorem bounded_crash (hx : Bounded env challengeId ⟨s, tasks⟩) (hi : tasks[i]? = some task)
    (hl : task.Live) (hsame : guessPhase env challengeId task' = guessPhase env challengeId task)
    (hdead : ¬ task'.Live) : Bounded env challengeId ⟨s, tasks.set i task'⟩ := by
  apply bounded_quiet hx hi (by rw [hsame]) (by rw [hsame]) _ _ hx.timed id hx.covered
  · intro hs hnone
    exact hx.settled hs (none_pending_before hi (by rw [hsame]; exact id) hnone)
  · rintro (⟨-, h⟩ | h)
    · exact absurd h hdead
    · exact .inr (hsame ▸ h)
  · intro hh
    exact ⟨hsame ▸ hh, hl⟩

theorem bounded_step {x y : ChallengeStage} {l : StageLabel authInterface (String × RequestInfo)}
    (hk : (guessPhases env challengeId).Kept x) (hx : Bounded env challengeId x)
    (hone : OneAtATime env challengeId x l) (h : (challengeServer env challengeId).Step x l y) :
    Bounded env challengeId y := by
  cases l with
  | act i c r =>
    obtain ⟨task, task', hi, hl, htasks, -, hpermits, hphase, heffect⟩ := hk.act h
    have hadvance : guessPhase env challengeId task' = (guessPhase env challengeId task).advance c r :=
      hphase
    have hallowed : (guessPhase env challengeId task).Permits env challengeId c := hpermits
    have hstep : GuessStep env challengeId (guessPhase env challengeId task) x.state
        (guessPhase env challengeId task') y.state := by
      rw [hadvance]
      exact guessStep_of_effect hallowed heffect
    have hread : guessPhase env challengeId task = .arrived →
        guessPhase env challengeId task' = .holding →
        ∀ (j : ℕ) (b : GuessTask), j ≠ i → x.tasks[j]? = some b → ¬ UnderWay env challengeId b := by
      intro harrived hholding
      rw [hadvance, harrived] at hholding
      rw [harrived] at hallowed
      cases c with
      | redisGet key =>
        obtain ⟨-, rfl⟩ := hallowed
        rcases r with e | (_ | v)
        · cases hholding
        · cases hholding
        · cases v with
          | challenge payload => exact hone i payload rfl
          | _ => cases hholding
      | _ => cases hholding
    have hbounded := bounded_act hx hi hl hstep hread
    rw [← htasks] at hbounded
    exact hbounded
  | begin q =>
    cases h
    exact bounded_begin hx rfl
  | crash =>
    cases h with
    | crash e hi hl => exact bounded_crash hx hi hl rfl Task.not_live_raise
  | change =>
    cases h with
    | change hc => exact bounded_change hx hc.1 hc.2

end Stages

section Claim

/-- The challenge has just been stored, for its whole time to live and without a counter. -/
structure Issued (env : AuthEnv) (challengeId : String) (s : ChallengeStore) : Prop where
  challenge : ∃ payload, s.redis (.mfaChallenge challengeId) =
    some (.challenge payload, some (s.clock + env.mfaTtlSeconds))
  attempts : s.redis (.mfaAttempts challengeId) = none

variable {env : AuthEnv} {challengeId : String} {s : ChallengeStore}

theorem bounded_issued (hmax : 0 < env.mfaMaxAttempts) (h : Issued env challengeId s) :
    Bounded env challengeId ⟨s, []⟩ := by
  obtain ⟨payload, hc⟩ := h.challenge
  have htally : tally challengeId s = 0 := by simp [tally, h.attempts]
  refine ⟨⟨?_, ?_⟩, ?_, ?_, ?_, ?_, ?_, ?_, ?_, ?_⟩
  · intro v exp hv
    rw [hc] at hv
    cases hv
    exact ⟨_, rfl, le_refl _⟩
  · intro v v' e e' _ ha
    rw [h.attempts] at ha
    cases ha
  · simp
  · simp [guesses]
  · simp [successes]
  · simp
  · simp
  · simp [successes]
  · simp [guesses]
  · simp [guesses, htally, hmax]

def isTokens : AuthProcess AuthReply → Bool
  | .ret (.tokens _ _) => true
  | _ => false

/-- **One challenge.** Where every call reads the challenge only while no other guess is under
way, one call at most gets a token pair, and no more codes are compared than attempts are
allowed. -/
theorem challenge_is_spent_once (hmax : 0 < env.mfaMaxAttempts)
    (hs : Issued env challengeId s)
    {trace : List (StageLabel authInterface (String × RequestInfo) × ChallengeStage)}
    {x : ChallengeStage} (h : Run (challengeServer env challengeId).Step ⟨s, []⟩ trace x)
    (hone : Along (OneAtATime env challengeId) ⟨s, []⟩ trace) :
    (x.tasks.countP fun task => isTokens task.rest) ≤ 1 ∧
      guesses env challengeId x.tasks ≤ env.mfaMaxAttempts := by
  let P := guessPhases env challengeId
  have hinv : P.Kept x ∧ Bounded env challengeId x := by
    have hstart : P.Kept ⟨s, []⟩ ∧ Bounded env challengeId ⟨s, []⟩ :=
      ⟨by simp [Server.Phased.Kept], bounded_issued hmax hs⟩
    apply h.invariant_along (J := fun x => P.Kept x ∧ Bounded env challengeId x) _ hstart hone
    intro y l z hy hl hstep
    exact ⟨P.kept_step hy.1 hstep, bounded_step hy.1 hy.2 hl hstep⟩
  have htokens : ∀ task ∈ x.tasks, isTokens task.rest = true →
      (guessPhase env challengeId task).isPassed = true := by
    intro task hm ht
    cases hrest : task.rest with
    | ret reply =>
      have hpassed := hinv.1.returns hm hrest
      have hphase : guessPhase env challengeId task = .passed := hpassed
      rw [hphase]
      rfl
    | raise e => simp [hrest, isTokens] at ht
    | call c k => simp [hrest, isTokens] at ht
  exact ⟨(List.countP_mono_left htokens).trans hinv.2.once, hinv.2.few⟩

/-- The answers of stores that work, when no time passes. -/
def promptAnswer : (c : AuthCall) → ChallengeStore → c.Answer × ChallengeStore
  | .now, s => (s.clock, s)
  | .redisGet key, s => (.ok (s.live key), s)
  | .redisSet key v ttl, s => (.ok (), s.write key (some (v, some (s.clock + ttl))))
  | .redisDel keys, s => (.ok (), s.del keys)
  | .redisIncr key, s => (.ok (s.count key + 1), s.incr key)
  | .redisExpire key ttl, s => (.ok (), s.expire key ttl)
  | .findUserById userId, s => (.ok (s.users.find? userId), s)
  | .setRecoveryHashes userId hashes, s =>
      if s.users.find? userId = none then (.error ⟨.database, "Record to update not found."⟩, s)
      else (.ok (), s.setHashes userId hashes)
  | .randomUUID, s => ("j", s)
  | .generateMfaCode, s => ("123456", s)
  | .bcryptHash text, s => (text, s)
  | .redisTtl _, s => (.ok (-2), s)
  | .redisConnect, s | .createRefreshToken _ _ _, s | .deleteTokensOf _, s | .deleteTokenRow _, s
  | .deleteToken _, s | .syncUserProjection _, s | .logMfaAudit _ _, s => (.ok (), s)
  | .findUserByEmail _, s | .findRefreshToken _, s => (.ok none, s)
  | .createUser _, s | .setGoogleId _ _, s => (.error ⟨.database, ""⟩, s)

theorem promptAnswer_allowed (q : String × RequestInfo) (log : List (Event authInterface))
    (c : AuthCall) (s : ChallengeStore) : (challengeServer env challengeId).effect q log c s
      (promptAnswer c s).1 (promptAnswer c s).2 := by
  cases c with
  | now => exact ⟨rfl, rfl⟩
  | redisGet | findUserById => exact ⟨rfl, .inl rfl⟩
  | redisSet | redisDel | redisIncr | redisExpire => exact .inl ⟨rfl, rfl⟩
  | setRecoveryHashes userId hashes =>
    by_cases h : s.users.find? userId = none
    · simp only [promptAnswer, h, if_true]
      exact .inl ⟨h, ⟨_, rfl⟩, rfl⟩
    · simp only [promptAnswer, h, if_false]
      exact .inr ⟨h, .inl ⟨rfl, rfl⟩⟩
  | _ => rfl

def adminUser : AuthUser where
  id := "u"
  email := "a@b.c"
  password := "hash of pw"
  firstName := "A"
  lastName := "B"
  role := .admin

def browser : RequestInfo := ⟨"f", "203.0.113.9", "curl", none⟩

/-- A temporary code was just sent to the administrator. -/
def issuedStore : ChallengeStore where
  users := ⟨[adminUser], by decide⟩
  redis := fun key => if key = .mfaChallenge "c" then
    some (.challenge ⟨"u", "a@b.c", "f", false, .temporary, some "123456"⟩, some 400) else none
  clock := 100

theorem issued_issuedStore : Issued .sample "c" issuedStore :=
  ⟨⟨_, rfl⟩, rfl⟩

def startStage : ChallengeStage := ⟨issuedStore, []⟩

/-- The right code, from the request to the tokens. -/
def oneGuess : List (Move (String × RequestInfo)) :=
  .begin ("123456", browser) :: List.replicate 10 (.act 0)

theorem challenge_is_spent_once_accepted : ∃ x : ChallengeStage,
    (x.tasks.countP fun task => isTokens task.rest) = 1 ∧ guesses .sample "c" x.tasks ≤ 5 := by
  have hplay : (play (challengeServer .sample "c") promptAnswer startStage oneGuess).map
      (fun x => x.tasks.countP fun task => isTokens task.rest) = some 1 := by rfl
  obtain ⟨x, hx, htokens⟩ := Option.map_eq_some_iff.mp hplay
  have hsingle : ∀ z l z', (challengeServer .sample "c").Step z l z' → z.tasks.length ≤ 1 →
      OneAtATime .sample "c" z l := by
    rintro z l z' hstep hz i payload rfl j task hne hj
    obtain ⟨q, log, k, hi⟩ := hstep.act_inv
    have hilt := (List.getElem?_eq_some_iff.mp hi).1
    have hjlt := (List.getElem?_eq_some_iff.mp hj).1
    omega
  obtain ⟨trace, hrun, halong⟩ := run_of_play_along promptAnswer_allowed hx hsingle (by decide)
  exact ⟨x, htokens, (challenge_is_spent_once (by decide) issued_issuedStore hrun halong).2⟩

/-- Two requests with the right code at the same time. -/
def twoGuesses : List (Move (String × RequestInfo)) :=
  [.begin ("123456", browser), .begin ("123456", browser)] ++ List.replicate 3 (.act 0) ++
    List.replicate 3 (.act 1) ++ List.replicate 7 (.act 0) ++ List.replicate 7 (.act 1)

/-- Six requests with a wrong code that have all read the challenge before one is counted. -/
def sixGuesses : List (Move (String × RequestInfo)) :=
  List.replicate 6 (.begin ("000000", browser)) ++
    (List.range 6).flatMap fun i => List.replicate 3 (.act i)

/-- Calls that overlap share one challenge: several get tokens, and the counter comes too late. -/
theorem overlapping_guesses :
    (¬ ∀ (env : AuthEnv) (challengeId : String) (s : ChallengeStore)
      (trace : List (StageLabel authInterface (String × RequestInfo) × ChallengeStage))
      (x : ChallengeStage), 0 < env.mfaMaxAttempts → Issued env challengeId s →
      Run (challengeServer env challengeId).Step ⟨s, []⟩ trace x →
      (x.tasks.countP fun task => isTokens task.rest) ≤ 1) ∧
    ¬ ∀ (env : AuthEnv) (challengeId : String) (s : ChallengeStore)
      (trace : List (StageLabel authInterface (String × RequestInfo) × ChallengeStage))
      (x : ChallengeStage), 0 < env.mfaMaxAttempts → Issued env challengeId s →
      Run (challengeServer env challengeId).Step ⟨s, []⟩ trace x →
      guesses env challengeId x.tasks ≤ env.mfaMaxAttempts := by
  constructor
  · intro hall
    have hplay : (play (challengeServer .sample "c") promptAnswer startStage twoGuesses).map
        (fun x => x.tasks.countP fun task => isTokens task.rest) = some 2 := by rfl
    obtain ⟨x, hx, htokens⟩ := Option.map_eq_some_iff.mp hplay
    obtain ⟨trace, hrun⟩ := run_of_play promptAnswer_allowed hx
    have hle := hall .sample "c" issuedStore trace x (by decide) issued_issuedStore hrun
    omega
  · intro hall
    have hplay : (play (challengeServer .sample "c") promptAnswer startStage sixGuesses).map
        (fun x => guesses .sample "c" x.tasks) = some 6 := by rfl
    obtain ⟨x, hx, hguesses⟩ := Option.map_eq_some_iff.mp hplay
    obtain ⟨trace, hrun⟩ := run_of_play promptAnswer_allowed hx
    have hle := hall .sample "c" issuedStore trace x (by decide) issued_issuedStore hrun
    have hmax : AuthEnv.sample.mfaMaxAttempts = 5 := by rfl
    omega

end Claim

end CloudVM.Guessing
