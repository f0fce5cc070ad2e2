import CloudVM.Framework.Run
import Mathlib.Data.List.Count
import Mathlib.Tactic.Linarith

/-!
# A counter of failures and a lock

Failures are counted under an entry that expires a while after the first of them. When the count
comes to a limit, a lock is set that lasts at least as long; while it lasts, no attempt is let
through. The two entries expire on their own, and time passes at any point of an attempt.
-/

namespace CloudVM

structure Lockout where
  clock : ℕ
  /-- The count, and when it expires. -/
  counter : Option (ℕ × Option ℕ)
  /-- When the lock expires. -/
  lock : Option ℕ
  /-- The times of the attempts that were let through and failed, the latest last. -/
  guesses : List ℕ
  /-- The failures since the counter came into being. -/
  inLife : ℕ

namespace Lockout

section Steps

variable (s t : Lockout)

def Locked (time : ℕ) : Prop := ∃ d, s.lock = some d ∧ time < d

def count (time : ℕ) : ℕ :=
  match s.counter with
  | none => 0
  | some (n, none) => n
  | some (n, some d) => if time < d then n else 0

/-- The guesses in the interval of a length from a time on. -/
def guessesIn (start length : ℕ) : ℕ :=
  s.guesses.countP fun time => start ≤ time ∧ time < start + length

/-- Time passes. -/
structure Waits : Prop where
  clock : s.clock ≤ t.clock
  counter : t.counter = s.counter
  lock : t.lock = s.lock
  guesses : t.guesses = s.guesses
  inLife : t.inLife = s.inLife

/-- A failure that was let through at `look`, made at `guess` and counted at `tally`. -/
structure FailsAt (limit window look guess tally : ℕ) : Prop where
  looked : s.clock ≤ look
  free : ¬ s.Locked look
  guessed : look ≤ guess
  counted : guess ≤ tally
  clock : tally ≤ t.clock
  guesses : t.guesses = s.guesses ++ [guess]
  /-- The first failure makes the counter and its expiry; a later one keeps the expiry. -/
  counter : (s.count tally = 0 ∧ t.inLife = 1 ∧
      ∃ d, tally + window ≤ d ∧ t.counter = some (1, some d)) ∨
    (0 < s.count tally ∧ t.inLife = s.inLife + 1 ∧
      ∃ d, s.counter = some (s.count tally, d) ∧ t.counter = some (s.count tally + 1, d))
  lock : (s.count tally + 1 < limit ∧ t.lock = s.lock) ∨
    (limit ≤ s.count tally + 1 ∧ ∃ d, t.clock + window ≤ d ∧ t.lock = some d)

def Attempts (limit window : ℕ) : Prop :=
  s.Waits t ∨ ∃ look guess tally, s.FailsAt t limit window look guess tally

end Steps

section Counting

variable {s t : Lockout} {limit window start : ℕ}

theorem count_eq_of_pos {n time : ℕ} {d : Option ℕ} (h : s.counter = some (n, d))
    (hpos : 0 < s.count time) : s.count time = n := by
  unfold count at hpos ⊢
  rw [h] at hpos ⊢
  cases d with
  | none => rfl
  | some d =>
    by_cases hd : time < d
    · simp [hd]
    · simp [hd] at hpos

theorem expired_of_count_eq_zero {n time d : ℕ} (h : s.counter = some (n, some d)) (hn : 0 < n)
    (hzero : s.count time = 0) : d ≤ time := by
  unfold count at hzero
  rw [h] at hzero
  by_contra hlt
  have htime : time < d := by omega
  simp only [htime, if_true] at hzero
  omega

theorem guessesIn_concat (start window : ℕ) {time : ℕ} (h : t.guesses = s.guesses ++ [time]) :
    t.guessesIn start window =
      s.guessesIn start window + if start ≤ time ∧ time < start + window then 1 else 0 := by
  unfold guessesIn
  rw [h, List.countP_append, List.countP_singleton]
  simp only [decide_eq_true_eq]

def Ordered (s : Lockout) : Prop := ∀ time ∈ s.guesses, time ≤ s.clock

/-- The failures of the counter's life are all in the count. -/
def Counted (s : Lockout) : Prop := s.inLife = 0 ∨ ∃ n d, s.counter = some (n, d) ∧ s.inLife ≤ n

theorem ordered_attempts (hs : s.Ordered) (h : s.Attempts t limit window) : t.Ordered := by
  rcases h with h | ⟨look, guess, tally, h⟩
  · intro time htime
    rw [h.guesses] at htime
    exact (hs time htime).trans h.clock
  · intro time htime
    rw [h.guesses] at htime
    have hlooked := h.looked
    have hguessed := h.guessed
    have hcounted := h.counted
    have hclock := h.clock
    rcases List.mem_append.mp htime with htime | htime
    · have := hs time htime
      omega
    · rw [List.mem_singleton.mp htime]
      omega

theorem counted_attempts (hs : s.Counted) (h : s.Attempts t limit window) : t.Counted := by
  rcases h with h | ⟨look, guess, tally, h⟩
  · unfold Counted
    rw [h.inLife, h.counter]
    exact hs
  · right
    rcases h.counter with ⟨-, hlife, d, -, hcounter⟩ | ⟨hpos, hlife, d, hold, hcounter⟩
    · exact ⟨1, some d, hcounter, by omega⟩
    · refine ⟨_, d, hcounter, ?_⟩
      rcases hs with hzero | ⟨n, d', hn, hle⟩
      · omega
      · have hcount := count_eq_of_pos hn hpos
        omega

/-- No guess has been made from `start` on when the last one is before it. -/
theorem guessesIn_eq_zero (window : ℕ) (hs : s.Ordered) (h : s.clock < start) :
    s.guessesIn start window = 0 := by
  unfold guessesIn
  rw [List.countP_eq_zero]
  intro time htime
  have := hs time htime
  simp only [decide_eq_true_eq]
  omega

end Counting

section Interval

variable {s t : Lockout} {limit window start : ℕ}

/-- How far the guesses of an interval have come. -/
inductive Progress (limit window start : ℕ) (s : Lockout) : Prop where
  /-- There are none. -/
  | none (h : s.guessesIn start window = 0)
  /-- All of them are in the count. -/
  | first (n : ℕ) (d : Option ℕ) (hcounter : s.counter = some (n, d)) (hn : n < limit)
      (h : s.guessesIn start window ≤ n)
  /-- The counter has expired once since, and does not do so again in the interval. -/
  | second (n d : ℕ) (hcounter : s.counter = some (n, some d)) (hpos : 0 < n) (hn : n < limit)
      (hd : start + window ≤ d) (h : s.guessesIn start window + 1 ≤ limit + n)
  /-- There will be no more. -/
  | past (h : s.guessesIn start window + 1 ≤ 2 * limit)
      (hend : start + window ≤ s.clock ∨ ∃ d, s.lock = some d ∧ start + window ≤ d)

theorem Progress.le (h : Progress limit window start s) (hlimit : 0 < limit) :
    s.guessesIn start window + 1 ≤ 2 * limit := by
  cases h with
  | none h => omega
  | first n d hcounter hn h => omega
  | second n d hcounter hpos hn hd h => omega
  | past h hend => exact h

theorem progress_waits (hs : Progress limit window start s) (h : s.Waits t) :
    Progress limit window start t := by
  have hsame : t.guessesIn start window = s.guessesIn start window := by
    unfold guessesIn
    rw [h.guesses]
  cases hs with
  | none hs => exact .none (hsame.trans hs)
  | first n d hcounter hn hs =>
    exact .first n d (h.counter.trans hcounter) hn (hsame ▸ hs)
  | second n d hcounter hpos hn hd hs =>
    exact .second n d (h.counter.trans hcounter) hpos hn hd (hsame ▸ hs)
  | past hs hend =>
    refine .past (hsame ▸ hs) ?_
    rcases hend with hend | hend
    · exact .inl (hend.trans h.clock)
    · right
      rw [h.lock]
      exact hend

/-- Once the interval is over, or a lock reaches to its end, no guess falls into it. -/
theorem not_over {look guess tally : ℕ} (h : s.FailsAt t limit window look guess tally)
    (hguess : guess < start + window) :
    ¬ (start + window ≤ s.clock ∨ ∃ d, s.lock = some d ∧ start + window ≤ d) := by
  have hlooked := h.looked
  have hguessed := h.guessed
  intro hend
  rcases hend with hend | ⟨d, hd, hend⟩
  · omega
  · exact h.free ⟨d, hd, by omega⟩

theorem progress_unlocked {look guess tally : ℕ} (hs : Progress limit window start s)
    (h : s.FailsAt t limit window look guess tally) (hstart : start ≤ guess)
    (hguess : guess < start + window) (hcount : s.count tally + 1 < limit)
    (hin : t.guessesIn start window = s.guessesIn start window + 1) :
    Progress limit window start t := by
  have hcounted := h.counted
  have hclock := h.clock
  rcases h.counter with ⟨hzero, -, d, hd, hcounter⟩ | ⟨hpos, -, d, hold, hcounter⟩
  · cases hs with
    | none hs => exact .first 1 (some d) hcounter (by omega) (by omega)
    | first n _ _ hn hs => exact .second 1 d hcounter (by omega) (by omega) (by omega) (by omega)
    | second n d' hn hpos hlimit hd' hs =>
      have hexpired := expired_of_count_eq_zero hn hpos hzero
      exact .past (by omega) (.inl (by omega))
    | past hs hend => exact (not_over h hguess hend).elim
  · cases hs with
    | none hs => exact .first _ d hcounter hcount (by omega)
    | first n d' hn hlimit hs =>
      have hsame := count_eq_of_pos hn hpos
      exact .first _ d hcounter hcount (by omega)
    | second n d' hn hpos' hlimit hd' hs =>
      have hsame := count_eq_of_pos hn hpos
      have hd : d = some d' := by
        rw [hn] at hold
        cases hold
        rfl
      exact .second _ d' (hd ▸ hcounter) (by omega) hcount hd' (by omega)
    | past hs hend => exact (not_over h hguess hend).elim

theorem progress_fails {look guess tally : ℕ} (hlimit : 0 < limit) (hordered : s.Ordered)
    (hs : Progress limit window start s) (h : s.FailsAt t limit window look guess tally) :
    Progress limit window start t := by
  have hlooked := h.looked
  have hguessed := h.guessed
  have hcounted := h.counted
  have hclock := h.clock
  have hle := hs.le hlimit
  have hconcat := guessesIn_concat start window h.guesses
  by_cases hin : start ≤ guess ∧ guess < start + window
  · rw [if_pos hin] at hconcat
    rcases h.lock with ⟨hcount, -⟩ | ⟨-, d, hd, hlock⟩
    · exact progress_unlocked hs h hin.1 hin.2 hcount hconcat
    · -- the lock now reaches to the end of the interval
      refine .past ?_ (.inr ⟨d, hlock, by omega⟩)
      cases hs with
      | none hs => omega
      | first n _ _ hn hs => omega
      | second n _ _ _ hn _ hs => omega
      | past _ hend => exact (not_over h hin.2 hend).elim
  · rw [if_neg hin] at hconcat
    by_cases hbefore : guess < start
    · have hzero := guessesIn_eq_zero window hordered (by omega : s.clock < start)
      exact .none (by omega)
    · exact .past (by omega) (.inl (by omega))

end Interval

section Locked

variable {s t : Lockout} {limit window : ℕ}

theorem clock_attempts (h : s.Attempts t limit window) : s.clock ≤ t.clock := by
  rcases h with h | ⟨look, guess, tally, h⟩
  · exact h.clock
  · exact h.looked.trans (h.guessed.trans (h.counted.trans h.clock))

theorem lock_of_failsAt {look guess tally : ℕ} (hs : s.Counted)
    (h : s.FailsAt t limit window look guess tally) (hlimit : 0 < limit)
    (hlife : limit ≤ t.inLife) : ∃ d, t.lock = some d ∧ t.clock + window ≤ d := by
  rcases h.lock with ⟨hcount, -⟩ | ⟨-, d, hd, hlock⟩
  · exfalso
    have ht : t.Counted := counted_attempts hs (.inr ⟨look, guess, tally, h⟩)
    rcases ht with hzero | ⟨n, d, hn, hle⟩
    · omega
    · rcases h.counter with ⟨-, -, d', -, hcounter⟩ | ⟨-, -, d', -, hcounter⟩
      · rw [hcounter] at hn
        cases hn
        omega
      · rw [hcounter] at hn
        cases hn
        omega
  · exact ⟨d, hlock, hd⟩

theorem lock_attempts {d : ℕ} (hs : s.lock = some d) (h : s.Attempts t limit window) :
    (t.lock = some d ∧ t.guesses = s.guesses) ∨ d ≤ t.clock := by
  rcases h with h | ⟨look, guess, tally, h⟩
  · exact .inl ⟨h.lock.trans hs, h.guesses⟩
  · right
    have hguessed := h.guessed
    have hcounted := h.counted
    have hclock := h.clock
    by_contra hlt
    exact h.free ⟨d, hs, by omega⟩

end Locked

section Runs

variable {σ ℓ : Type} {step : σ → ℓ → σ → Prop} {J : σ → Prop} {view : σ → Lockout} {s t : σ}
  {trace : List (ℓ × σ)} {limit window : ℕ}

/-- Whatever the times of the attempts, in an interval as long as the counter lasts fewer than
twice the limit are let through and fail. -/
theorem guessesIn_le (hlimit : 0 < limit)
    (hstep : ∀ s l t, J s → step s l t → J t ∧ (view s).Attempts (view t) limit window)
    (hJ : J s) (hs : (view s).guesses = []) (h : Run step s trace t) (start : ℕ) :
    (view t).guessesIn start window ≤ 2 * limit - 1 := by
  have hinv : J t ∧ (view t).Ordered ∧ Progress limit window start (view t) := by
    apply h.invariant
      (J := fun s => J s ∧ (view s).Ordered ∧ Progress limit window start (view s))
    · refine ⟨hJ, ?_, ?_⟩
      · simp [Ordered, hs]
      · exact .none (by simp [guessesIn, hs])
    · intro s l t hs hst
      have hattempts := hstep s l t hs.1 hst
      refine ⟨hattempts.1, ordered_attempts hs.2.1 hattempts.2, ?_⟩
      rcases hattempts.2 with hwaits | ⟨look, guess, tally, hfails⟩
      · exact progress_waits hs.2.2 hwaits
      · exact progress_fails hlimit hs.2.1 hs.2.2 hfails
  have hle := hinv.2.2.le hlimit
  omega

theorem lock_run
    (hstep : ∀ s l t, J s → step s l t → J t ∧ (view s).Attempts (view t) limit window) (hJ : J s)
    {d : ℕ} (hs : (view s).lock = some d) (h : Run step s trace t) :
    (view t).lock = some d ∨ d ≤ (view t).clock := by
  have hinv : J t ∧ ((view t).lock = some d ∨ d ≤ (view t).clock) := by
    apply h.invariant (J := fun s => J s ∧ ((view s).lock = some d ∨ d ≤ (view s).clock))
    · exact ⟨hJ, .inl hs⟩
    · intro s l t hs hst
      have hattempts := hstep s l t hs.1 hst
      refine ⟨hattempts.1, ?_⟩
      rcases hs.2 with hlock | hlock
      · exact (lock_attempts hlock hattempts.2).imp_left And.left
      · exact .inr (hlock.trans (clock_attempts hattempts.2))
  exact hinv.2

theorem counted_run
    (hstep : ∀ s l t, J s → step s l t → J t ∧ (view s).Attempts (view t) limit window) (hJ : J s)
    (hs : (view s).inLife = 0) (h : Run step s trace t) : J t ∧ (view t).Counted := by
  apply h.invariant (J := fun s => J s ∧ (view s).Counted) ⟨hJ, .inl hs⟩
  intro s l t hs hst
  have hattempts := hstep s l t hs.1 hst
  exact ⟨hattempts.1, counted_attempts hs.2 hattempts.2⟩

end Runs

end Lockout

end CloudVM
