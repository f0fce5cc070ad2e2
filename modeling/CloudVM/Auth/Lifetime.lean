import CloudVM.Auth.Edit
import CloudVM.Framework.Run

/-!
# The life of a refresh token

Operations are executed one at a time; between them time passes, entries of Redis get lost and
users are edited. The history says which refresh tokens are live; the table of refresh tokens
holds exactly these.
-/

namespace CloudVM

open AuthStore Process

/-- An operation of the past: what was asked, when, and how it ended. -/
structure Deed where
  request : AuthRequest
  clock : Nat
  outcome : Except Failure AuthReply

section History

def Deed.Issues (d : Deed) (t : RefreshPayload) : Prop :=
  ∃ pair rememberMe, d.outcome = .ok (.tokens pair rememberMe) ∧ pair.refreshToken = t

/-- Some operation of the history, newest first, has issued the token. -/
def Issued (history : List Deed) (t : RefreshPayload) : Prop := ∃ d ∈ history, d.Issues t

/-- The operation ends the token itself: it is refreshed or logged out, or its user logs out of
all sessions. -/
def Deed.Closes (d : Deed) (t : RefreshPayload) : Prop :=
  (d.request = .refresh (.signed t) ∧ ∃ reply, d.outcome = .ok reply) ∨
  d.request = .logout (.signed t) ∨ d.request = .logoutAll t.sub

/-- The token was issued, and since then it was neither closed nor was there a reuse event for
its user: a refresh with a token of that user, unexpired and issued before, but no longer live. -/
def Live : List Deed → RefreshPayload → Prop
  | [], _ => False
  | d :: history, t =>
      d.Issues t ∨ (Live history t ∧ ¬ d.Closes t ∧
        ¬ ∃ t', d.request = .refresh (.signed t') ∧ t'.sub = t.sub ∧ d.clock < t'.exp ∧
          Issued history t' ∧ ¬ Live history t')

/-- A refresh with a token of the user that was already spent, logged out or revoked. -/
def Deed.Reuses (d : Deed) (history : List Deed) (userId : String) : Prop :=
  ∃ t', d.request = .refresh (.signed t') ∧ t'.sub = userId ∧ d.clock < t'.exp ∧
    Issued history t' ∧ ¬ Live history t'

variable {d : Deed} {history : List Deed} {t : RefreshPayload}

theorem live_cons : Live (d :: history) t ↔
    d.Issues t ∨ (Live history t ∧ ¬ d.Closes t ∧ ¬ d.Reuses history t.sub) := Iff.rfl

theorem issued_cons : Issued (d :: history) t ↔ d.Issues t ∨ Issued history t := by
  simp [Issued]

theorem Live.issued (h : Live history t) : Issued history t := by
  induction history with
  | nil => exact h.elim
  | cons d history ih =>
    rw [issued_cons]
    rcases live_cons.mp h with h | ⟨h, -⟩
    · exact .inl h
    · exact .inr (ih h)

end History

/-- The table agrees with the history. -/
structure Agrees (history : List Deed) (s : AuthStore) : Prop where
  live : ∀ t, Live history t ↔ ∃ row ∈ s.tokens.rows, row.token = t
  row : ∀ row ∈ s.tokens.rows, row.userId = row.token.sub ∧ row.expiresAt = row.token.exp
  issued : ∀ t, Issued history t → t.jti ∈ s.drawn ∧ t.jti ≠ "" ∧ t.sub ≠ ""
  jti : ∀ t t', Issued history t → Issued history t' → t.jti = t'.jti → t = t'
  once : history.Pairwise fun d d' => ∀ t, d.Issues t → ¬ d'.Issues t
  marks : ∀ jti, s.redis (.refreshUsed jti) ≠ none →
    jti ∈ s.drawn ∧ ∀ row ∈ s.tokens.rows, row.token.jti ≠ jti

section Agrees

variable {history : List Deed} {s s' : AuthStore}

theorem Agrees.row_issued (h : Agrees history s) {row : RefreshRow}
    (hm : row ∈ s.tokens.rows) : Issued history row.token :=
  ((h.live row.token).mpr ⟨row, hm, rfl⟩).issued

private theorem Agrees.fresh {new : Option RefreshRow} {gone : RefreshPayload → Prop}
    (h : Agrees history s) (he : Edit s gone new s') {row : RefreshRow} (hn : new = some row)
    {t : RefreshPayload} (ht : Issued history t) : row.token.jti ≠ t.jti := by
  intro heq
  obtain ⟨-, -, -, -, hnot, -⟩ := he.fresh row hn
  rw [heq] at hnot
  exact hnot (h.issued t ht).1

theorem Agrees.edit {d : Deed} {gone : RefreshPayload → Prop} {new : Option RefreshRow}
    (h : Agrees history s) (he : Edit s gone new s')
    (hlive : ∀ t, Live (d :: history) t ↔
      (∃ row, new = some row ∧ row.token = t) ∨ (Live history t ∧ ¬ gone t))
    (hissues : ∀ t, d.Issues t → ∃ row, new = some row ∧ row.token = t) :
    Agrees (d :: history) s' where
  live := by
    intro t
    rw [hlive t, h.live t]
    constructor
    · intro ht
      rcases ht with ⟨row, hn, rfl⟩ | ⟨⟨row, hm, rfl⟩, hg⟩
      · exact ⟨row, (he.rows row).mpr (.inr hn), rfl⟩
      · exact ⟨row, (he.rows row).mpr (.inl ⟨hm, hg⟩), rfl⟩
    · intro ht
      obtain ⟨row, hm, rfl⟩ := ht
      rcases (he.rows row).mp hm with ⟨hm, hg⟩ | hn
      · exact .inr ⟨⟨row, hm, rfl⟩, hg⟩
      · exact .inl ⟨row, hn, rfl⟩
  row := by
    intro row hm
    rcases (he.rows row).mp hm with ⟨hm, -⟩ | hn
    · exact h.row row hm
    · obtain ⟨hu, hx, -⟩ := he.fresh row hn
      exact ⟨hu, hx⟩
  issued := by
    intro t ht
    rcases issued_cons.mp ht with ht | ht
    · obtain ⟨row, hn, rfl⟩ := hissues t ht
      obtain ⟨-, -, hj, hs, -, hd⟩ := he.fresh row hn
      exact ⟨hd, hj, hs⟩
    · obtain ⟨hd, hj, hs⟩ := h.issued t ht
      exact ⟨he.drawn hd, hj, hs⟩
  jti := by
    have hfresh : ∀ t t', d.Issues t → Issued history t' → t.jti ≠ t'.jti := by
      intro t t' ht ht'
      obtain ⟨row, hn, rfl⟩ := hissues t ht
      exact h.fresh he hn ht'
    intro t t' ht ht' heq
    rcases issued_cons.mp ht with ht | ht
    · rcases issued_cons.mp ht' with ht' | ht'
      · obtain ⟨row, hn, rfl⟩ := hissues t ht
        obtain ⟨row', hn', rfl⟩ := hissues t' ht'
        rw [hn] at hn'
        obtain rfl := Option.some.inj hn'
        rfl
      · exact (hfresh t t' ht ht' heq).elim
    · rcases issued_cons.mp ht' with ht' | ht'
      · exact (hfresh t' t ht' ht heq.symm).elim
      · exact h.jti t t' ht ht' heq
  once := by
    rw [List.pairwise_cons]
    refine ⟨fun d' hd' t ht ht' => ?_, h.once⟩
    obtain ⟨row, hn, rfl⟩ := hissues t ht
    exact h.fresh he hn ⟨d', hd', ht'⟩ rfl
  marks := by
    intro jti hj
    have hold : jti ∈ s.drawn ∧ ∀ row ∈ s.tokens.rows, row.token.jti = jti → gone row.token := by
      rcases he.marks jti hj with hj | ⟨row, hm, rfl, hg⟩
      · obtain ⟨hd, hrows⟩ := h.marks jti hj
        exact ⟨hd, fun row hm heq => (hrows row hm heq).elim⟩
      · refine ⟨(h.issued _ (h.row_issued hm)).1, fun row' hm' heq => ?_⟩
        rw [h.jti _ _ (h.row_issued hm') (h.row_issued hm) heq]
        exact hg
    refine ⟨he.drawn hold.1, fun row hm heq => ?_⟩
    rcases (he.rows row).mp hm with ⟨hm, hg⟩ | hn
    · exact hg (hold.2 row hm heq)
    · have hnot := (he.fresh row hn).2.2.2.2.1
      rw [heq] at hnot
      exact hnot hold.1

theorem Agrees.of_quiet (h : Agrees history s) (hq : Quiet s s') : Agrees history s' where
  live := by
    intro t
    rw [hq.tokens]
    exact h.live t
  row := by
    rw [hq.tokens]
    exact h.row
  issued := by
    intro t ht
    obtain ⟨hd, hj, hs⟩ := h.issued t ht
    exact ⟨hq.drawn hd, hj, hs⟩
  jti := h.jti
  once := h.once
  marks := by
    intro jti hj
    rw [hq.tokens]
    obtain ⟨hd, hrows⟩ := h.marks jti (hq.marks jti hj)
    exact ⟨hq.drawn hd, hrows⟩

theorem Agrees.quiet {d : Deed} (h : Agrees history s) (hq : Quiet s s')
    (hissues : ∀ t, ¬ d.Issues t)
    (hends : ∀ t, Live history t → ¬ d.Closes t ∧ ¬ d.Reuses history t.sub) :
    Agrees (d :: history) s' := by
  apply h.edit hq.edit
  · intro t
    rw [live_cons]
    constructor
    · intro ht
      rcases ht with ht | ht
      · exact (hissues t ht).elim
      · exact .inr ⟨ht.1, id⟩
    · intro ht
      rcases ht with ⟨row, hn, -⟩ | ht
      · cases hn
      · exact .inr ⟨ht.1, hends t ht.1⟩
  · intro t ht
    exact (hissues t ht).elim

end Agrees

namespace AuthService

variable (env : AuthEnv) {history : List Deed} {s : AuthStore}

section Refresh

theorem verify_signed {t decoded : RefreshPayload} {clock : Nat}
    (h : verify (.signed t) clock = some decoded) : decoded = t ∧ clock < t.exp := by
  simp only [verify] at h
  split at h
  · rename_i hc
    exact ⟨(Option.some.inj h).symm, hc.1⟩
  · cases h

theorem verify_issued (h : Agrees history s) {t : RefreshPayload} (ht : Issued history t)
    (hexp : s.clock < t.exp) : verify (.signed t) s.clock = some t := by
  obtain ⟨-, hj, hs⟩ := h.issued t ht
  simp [verify, hexp, hj, hs]

theorem spend_wp (h : Agrees history s) {t : RefreshPayload} {row : RefreshRow} {user : AuthUser}
    (req : RequestInfo) (hrow : row ∈ s.tokens.rows) (ht : row.token = t)
    (huser : s.users.find? row.userId = some user) :
    (spend env t row user req).Wp AnyCall serve
      (fun out s' => ∃ pair new, out = .ok (.tokens pair none) ∧
        new.token = pair.refreshToken ∧ Edit s (fun t' => t' = t) (some new) s') s := by
  have hgone : Edit s (fun t' => t' = t) none (s.eraseTokens fun r => r.id = row.id) := by
    apply Edit.of_erase
    intro r hr
    rw [decide_eq_true_eq]
    constructor
    · intro hid
      rw [s.tokens.eq_of_key_eq hr hrow hid, ht]
    · intro htoken
      exact congrArg RefreshRow.id
        (List.inj_on_of_nodup_map s.unique hr hrow (htoken.trans ht.symm))
  refine (wp_bind _ _ _ _).mpr ⟨trivial, fun r s₁ h₁ => ?_⟩
  obtain ⟨rfl, rfl⟩ := h₁
  refine (wp_bind _ _ _ _).mpr ⟨trivial, fun r s₁ h₁ => ?_⟩
  obtain ⟨rfl, rfl⟩ := h₁
  refine (wp_bind _ _ _ _).mpr ⟨trivial, fun r s₁ h₁ => ?_⟩
  obtain ⟨rfl, rfl⟩ := h₁
  have hmark := hgone.mark hrow ht
  rw [ht] at hmark
  refine (wp_bind _ _ _ _).mpr ((generateTokens_wp env user req _).mono ?_)
  intro out s₂ h₂
  cases out with
  | ok pair =>
    obtain ⟨new, hnew, hedit⟩ := h₂
    exact ⟨pair, new, rfl, hnew, hmark.mint hedit⟩
  | error e =>
    obtain ⟨hu, hid⟩ := s.users.find?_eq_some.mp huser
    rcases h₂.2 with ⟨r, hr, hj⟩ | hno
    · have hr' : r ∈ s.tokens.rows := ((Table.mem_erase _ _ _).mp hr).1
      exact (hj (h.issued _ (h.row_issued hr')).1).elim
    · exact (hno user hu rfl).elim

/-- How `refreshTokens` ends, and what it does to the table. -/
inductive Refreshed (history : List Deed) (s : AuthStore) (t : RefreshPayload) :
    Except Failure AuthReply → AuthStore → Prop
  | rotated {s' : AuthStore} {pair : TokenPair} {new : RefreshRow} (hlive : Live history t)
      (hexp : s.clock < t.exp) (hnew : new.token = pair.refreshToken)
      (he : Edit s (fun t' => t' = t) (some new) s') :
      Refreshed history s t (.ok (.tokens pair none)) s'
  | reused {s' : AuthStore} {e : Failure} (hlive : ¬ Live history t) (hexp : s.clock < t.exp)
      (he : Edit s (fun t' => t'.sub = t.sub) none s') : Refreshed history s t (.error e) s'
  | invalid {e : Failure} (hv : verify (.signed t) s.clock = none) :
      Refreshed history s t (.error e) s

theorem reuseDetected_wp (h : Agrees history s) {t : RefreshPayload} {s₀ : AuthStore}
    (hq : Quiet s₀ s) (hlive : ¬ Live history t) (hexp : s₀.clock < t.exp) :
    (reuseDetected t.sub).Wp AnyCall serve (Refreshed history s₀ t) s := by
  refine (wp_bind _ _ _ _).mpr ⟨trivial, fun r s₁ h₁ => ?_⟩
  obtain ⟨rfl, rfl⟩ := h₁
  apply Refreshed.reused hlive hexp
  apply Edit.of_quiet hq
  apply Edit.of_erase
  intro row hr
  rw [decide_eq_true_eq, (h.row row hr).1]

theorem refreshTokens_wp (h : Agrees history s) (t : RefreshPayload) (req : RequestInfo) :
    (refreshTokens env (.signed t) req).Wp AnyCall serve (Refreshed history s t) s := by
  refine (wp_bind _ _ _ _).mpr ⟨trivial, fun clock s₁ h₁ => ?_⟩
  rw [h₁.1, h₁.2]
  simp only [wp_ret, post_ok]
  cases hv : verify (.signed t) s.clock with
  | none => exact .invalid hv
  | some decoded =>
    obtain ⟨rfl, hexp⟩ := verify_signed hv
    refine (wp_bind _ _ _ _).mpr ⟨trivial, fun r s₁ h₁ => ?_⟩
    rw [h₁.1, h₁.2]
    refine (wp_bind _ _ _ _).mpr ⟨trivial, fun r s₁ h₁ => ?_⟩
    have hquiet : Quiet s s₁ := quiet_of_serve (c := .redisGet _) (.inl trivial) h₁
    have hagrees : Agrees history s₁ := h.of_quiet hquiet
    have hclock : s₁.clock = s.clock := by
      rcases h₁.2 with rfl | rfl <;> rfl
    obtain ⟨rfl, -⟩ := h₁
    refine (wp_ofExcept _ _ _).mpr ?_
    simp only [post_ok]
    split
    · rename_i hmarked
      have hlive : ¬ Live history decoded := by
        intro hlive
        obtain ⟨row, hm, ht⟩ := (hagrees.live decoded).mp hlive
        have hmark := hagrees.marks decoded.jti (Option.isSome_iff_ne_none.mp hmarked)
        exact hmark.2 row hm (by rw [ht])
      exact reuseDetected_wp hagrees hquiet hlive hexp
    · refine (wp_bind _ _ _ _).mpr ⟨trivial, fun r s₂ h₂ => ?_⟩
      rw [h₂.1, h₂.2]
      refine (wp_ofExcept _ _ _).mpr ?_
      simp only [post_ok]
      cases hfind : s₁.findToken (.signed decoded) with
      | none =>
        have hlive : ¬ Live history decoded := by
          intro hlive
          obtain ⟨row, hm, ht⟩ := (hagrees.live decoded).mp hlive
          exact findToken_none hfind row hm ht
        exact reuseDetected_wp hagrees hquiet hlive hexp
      | some found =>
        obtain ⟨row, user⟩ := found
        obtain ⟨hrow, ht, huser⟩ := findToken_some hfind
        have hlive : Live history decoded := (hagrees.live decoded).mpr ⟨row, hrow, ht⟩
        refine (wp_bind _ _ _ _).mpr ⟨trivial, fun r s₃ h₃ => ?_⟩
        rw [h₃.1, h₃.2]
        have hnot : ¬ row.expiresAt < s₁.clock := by
          rw [(hagrees.row row hrow).2, ht, hclock]
          omega
        simp only [post_ok, wp_ret, hnot, if_false]
        apply (spend_wp env hagrees req hrow ht huser).mono
        intro out s' hout
        obtain ⟨pair, new, rfl, hnew, he⟩ := hout
        exact .rotated hlive hexp hnew (Edit.of_quiet hquiet he)

end Refresh

section Operations

theorem agrees_signedIn {out : Except Failure AuthReply} {s' : AuthStore} {q : AuthRequest}
    (h : Agrees history s) (hs : SignedIn s out s')
    (hends : ∀ t, ¬ (⟨q, s.clock, out⟩ : Deed).Closes t)
    (hreuse : ∀ u, ¬ (⟨q, s.clock, out⟩ : Deed).Reuses history u) :
    Agrees (⟨q, s.clock, out⟩ :: history) s' := by
  by_cases hout : ∃ pair rememberMe, out = .ok (.tokens pair rememberMe)
  · obtain ⟨pair, rememberMe, rfl⟩ := hout
    obtain ⟨row, hrow, he⟩ := hs
    apply h.edit he
    · intro t
      rw [live_cons]
      simp [Deed.Issues, hends, hreuse, hrow]
    · intro t ht
      obtain ⟨_, _, hp, ht⟩ := ht
      cases hp
      exact ⟨row, rfl, hrow.trans ht⟩
  · have hq : Quiet s s' := by
      unfold SignedIn at hs
      split at hs
      · exact (hout ⟨_, _, rfl⟩).elim
      · exact hs
    apply h.quiet hq
    · intro t ht
      obtain ⟨pair, rememberMe, hp, -⟩ := ht
      exact hout ⟨pair, rememberMe, hp⟩
    · intro t _
      exact ⟨hends t, hreuse t.sub⟩

theorem agrees_refreshed {t : RefreshPayload} {out : Except Failure AuthReply} {s' : AuthStore}
    (h : Agrees history s) (ht : Issued history t) (hr : Refreshed history s t out s') :
    Agrees (⟨.refresh (.signed t), s.clock, out⟩ :: history) s' := by
  cases hr with
  | @rotated _ pair new hlive hexp hnew he =>
    apply h.edit he
    · intro t'
      rw [live_cons]
      have hreuse : ¬ (⟨.refresh (.signed t), s.clock, .ok (.tokens pair none)⟩ : Deed).Reuses
          history t'.sub := by
        intro hr
        obtain ⟨t₁, hq, -, -, -, hn⟩ := hr
        simp only [AuthRequest.refresh.injEq, Bearer.signed.injEq] at hq
        exact hn (hq ▸ hlive)
      simp [Deed.Issues, Deed.Closes, hreuse, hnew, eq_comm]
    · intro t' ht'
      obtain ⟨_, _, hp, ht'⟩ := ht'
      cases hp
      exact ⟨new, rfl, hnew.trans ht'⟩
  | @reused _ e hlive hexp he =>
    apply h.edit he
    · intro t'
      rw [live_cons]
      have hreuse : (⟨.refresh (.signed t), s.clock, .error e⟩ : Deed).Reuses history t'.sub ↔
          t'.sub = t.sub := by
        constructor
        · intro hr
          obtain ⟨t₁, hq, hsub, -⟩ := hr
          simp only [AuthRequest.refresh.injEq, Bearer.signed.injEq] at hq
          rw [← hsub, hq]
        · intro hsub
          exact ⟨t, rfl, hsub.symm, hexp, ht, hlive⟩
      simp [Deed.Issues, Deed.Closes, hreuse]
    · intro t' ht'
      obtain ⟨_, _, hp, -⟩ := ht'
      cases hp
  | @invalid e hv =>
    apply h.quiet (.refl s)
    · intro t' ht'
      obtain ⟨_, _, hp, -⟩ := ht'
      cases hp
    · intro t' _
      refine ⟨by simp [Deed.Closes], fun hr => ?_⟩
      obtain ⟨t₁, hq, -, hexp, -⟩ := hr
      simp only [AuthRequest.refresh.injEq, Bearer.signed.injEq] at hq
      subst hq
      rw [verify_issued h ht hexp] at hv
      cases hv

private theorem not_reuses {q : AuthRequest} {clock : Nat} {out : Except Failure AuthReply}
    (hq : ∀ t, q ≠ .refresh (.signed t)) (u : String) :
    ¬ (⟨q, clock, out⟩ : Deed).Reuses history u := by
  intro hr
  obtain ⟨t, ht, -⟩ := hr
  exact hq t ht

private theorem agrees_closed {q : AuthRequest} {text : String} {s' : AuthStore}
    {gone : RefreshPayload → Prop} (h : Agrees history s) (he : Edit s gone none s')
    (hcloses : ∀ t, (⟨q, s.clock, .ok (.message text)⟩ : Deed).Closes t ↔ gone t)
    (hq : ∀ t, q ≠ .refresh (.signed t)) :
    Agrees (⟨q, s.clock, .ok (.message text)⟩ :: history) s' := by
  apply h.edit he
  · intro t
    rw [live_cons, hcloses]
    simp [Deed.Issues, not_reuses hq]
  · intro t ht
    obtain ⟨_, _, hp, -⟩ := ht
    cases hp

theorem logout_wp (h : Agrees history s) (token : Bearer) :
    (logout token).Wp AnyCall serve
      (fun out s' => Agrees (⟨.logout token, s.clock, out⟩ :: history) s') s := by
  have hcloses : ∀ t, (⟨.logout token, s.clock, .ok (.message "Logged out successfully")⟩ :
      Deed).Closes t ↔ token = .signed t := by simp [Deed.Closes]
  have hquiet : (∀ row ∈ s.tokens.rows, .signed row.token ≠ token) →
      Edit s (fun t => token = .signed t) none s := by
    intro hno
    constructor
    · intro row
      constructor
      · intro hm
        exact .inl ⟨hm, fun ht => hno row hm ht.symm⟩
      · intro hm
        rcases hm with hm | hm
        · exact hm.1
        · cases hm
    · simp
    · exact fun _ hj => hj
    · exact fun _ hj => .inl hj
  unfold logout
  split
  · rename_i hempty
    apply agrees_closed h (hquiet ?_) hcloses (by simp)
    intro row _ ht
    rw [hempty] at ht
    cases ht
  · refine (wp_bind _ _ _ _).mpr ((wp_tryCatch _ _ _ _).mpr ⟨trivial, fun r s₁ h₁ => ?_⟩)
    rw [wp_ofExcept]
    rcases h₁ with ⟨hno, ⟨e, rfl⟩, rfl⟩ | ⟨hrow, rfl, rfl⟩
    · exact agrees_closed h (hquiet hno) hcloses (by simp)
    · refine agrees_closed h (Edit.of_erase ?_) hcloses (by simp)
      intro row _
      rw [decide_eq_true_eq]
      exact eq_comm

theorem logoutAll_wp (h : Agrees history s) (userId : String) :
    (logoutAllSessions userId).Wp AnyCall serve
      (fun out s' => Agrees (⟨.logoutAll userId, s.clock, out⟩ :: history) s') s := by
  refine (wp_bind _ _ _ _).mpr ⟨trivial, fun r s₁ h₁ => ?_⟩
  obtain ⟨rfl, rfl⟩ := h₁
  have he : Edit s (fun t => t.sub = userId) none
      (s.eraseTokens fun row => row.userId = userId) := by
    apply Edit.of_erase
    intro row hm
    rw [decide_eq_true_eq, (h.row row hm).1]
  apply agrees_closed h he ?_ (by simp)
  intro t
  simp [Deed.Closes, eq_comm]

theorem handle_wp (h : Agrees history s) (q : AuthRequest) (req : RequestInfo)
    (hsigned : ∀ t, q = .refresh (.signed t) → Issued history t) :
    (AuthRequest.handle env (q, req)).Wp AnyCall serve
      (fun out s' => Agrees (⟨q, s.clock, out⟩ :: history) s') s := by
  have hsign : ∀ p, SignsIn p → (∀ t, q ≠ .refresh t ∧ q ≠ .logout t) →
      (∀ u, q ≠ .logoutAll u) → p.Wp AnyCall serve
        (fun out s' => Agrees (⟨q, s.clock, out⟩ :: history) s') s := by
    intro p hp hq hall
    apply (hp s s (.refl s)).mono
    intro out s' hs
    apply agrees_signedIn h hs
    · intro t hc
      rcases hc with ⟨hc, -⟩ | hc | hc
      · exact (hq _).1 hc
      · exact (hq _).2 hc
      · exact hall _ hc
    · exact not_reuses fun t => (hq (.signed t)).1
  cases q with
  | register dto => exact hsign _ (signsIn_register env dto req) (by simp) (by simp)
  | login dto => exact hsign _ (signsIn_login env dto req) (by simp) (by simp)
  | google profile => exact hsign _ (signsIn_google env profile req) (by simp) (by simp)
  | verifyAdminMfa challengeId code =>
    exact hsign _ (signsIn_verifyAdminMfa env challengeId code req) (by simp) (by simp)
  | refresh token =>
    cases token with
    | signed t =>
      apply (refreshTokens_wp env h t req).mono
      intro out s' hr
      exact agrees_refreshed h (hsigned t rfl) hr
    | other text =>
      refine (wp_bind _ _ _ _).mpr ⟨trivial, fun clock s₁ h₁ => ?_⟩
      rw [h₁.2]
      apply h.quiet (.refl s)
      · intro t ht
        obtain ⟨_, _, hp, -⟩ := ht
        cases hp
      · intro t _
        exact ⟨by simp [Deed.Closes], not_reuses (by simp) _⟩
  | logout token => exact logout_wp h token
  | logoutAll userId => exact logoutAll_wp h userId

end Operations

/-- The operations so far and the store they have led to. -/
structure Past where
  history : List Deed
  store : AuthStore

/-- One operation from start to end, or a change around the service. Signatures cannot be
forged: a signed token that is presented was issued. -/
inductive SeqStep (env : AuthEnv) : Past → Unit → Past → Prop
  | operate {history : List Deed} {s s' : AuthStore} {q : AuthRequest} {req : RequestInfo}
      {out : Except Failure AuthReply}
      (hsigned : ∀ t, q = .refresh (.signed t) ∨ q = .logout (.signed t) → Issued history t)
      (he : (AuthRequest.handle env (q, req)).Ends serve s out s') :
      SeqStep env ⟨history, s⟩ () ⟨⟨q, s.clock, out⟩ :: history, s'⟩
  | pass {history : List Deed} {s s' : AuthStore} (hp : s.Passes s') :
      SeqStep env ⟨history, s⟩ () ⟨history, s'⟩

section Runs

theorem agrees_initial (users : Table AuthUser.id) (valid : ∀ u ∈ users.rows, u.Valid)
    (clock : Nat) : Agrees [] (AuthStore.initial users valid clock) where
  live := by simp [Live, AuthStore.initial]
  row := by simp [AuthStore.initial]
  issued := by simp [Issued]
  jti := by simp [Issued]
  once := .nil
  marks := by simp [AuthStore.initial]

theorem agrees_step (x : Past) (l : Unit) (y : Past) (hx : Agrees x.history x.store)
    (h : SeqStep env x l y) : Agrees y.history y.store := by
  cases h with
  | @operate history s s' q req out hsigned he =>
    exact (handle_wp env hx q req fun t ht => hsigned t (.inl ht)).ends he
  | @pass history s s' hp =>
    apply hx.of_quiet
    constructor
    · exact hp.tokens
    · rw [hp.drawn]
      exact fun _ hj => hj
    · intro jti hj hnone
      obtain ⟨v, hv⟩ := Option.ne_none_iff_exists'.mp hj
      rw [hp.redis _ v hv] at hnone
      cases hnone

/-- A token that was issued before a point of the history is live after it only if it was live
at it. -/
theorem live_of_append {later : List Deed} {t : RefreshPayload} (ht : Issued history t)
    (honce : (later ++ history).Pairwise fun d d' => ∀ t, d.Issues t → ¬ d'.Issues t)
    (h : Live (later ++ history) t) : Live history t := by
  induction later with
  | nil => exact h
  | cons d later ih =>
    rw [List.cons_append, List.pairwise_cons] at honce
    rcases live_cons.mp h with hi | ⟨h, -⟩
    · obtain ⟨d', hd', ht'⟩ := ht
      exact (honce.1 d' (List.mem_append_right _ hd') t hi ht').elim
    · exact ih honce.2 h

/-- In every sequential run a refresh always ends, and it succeeds exactly for a live token that
has not expired; after a reuse event no token issued before it can be refreshed. -/
theorem refresh_succeeds_iff {users : Table AuthUser.id} {valid : ∀ u ∈ users.rows, u.Valid}
    {clock : Nat} {trace : List (Unit × Past)} {past : Past}
    (h : Run (SeqStep env) ⟨[], AuthStore.initial users valid clock⟩ trace past)
    (t : RefreshPayload) (req : RequestInfo) :
    (∃ out s', (refreshTokens env (.signed t) req).Ends serve past.store out s') ∧
    (∀ out s', (refreshTokens env (.signed t) req).Ends serve past.store out s' →
      ((∃ pair, out = .ok (.tokens pair none)) ↔
        Live past.history t ∧ past.store.clock < t.exp)) ∧
    ∀ later d earlier, past.history = later ++ d :: earlier → d.Reuses earlier t.sub →
      Issued earlier t → ∀ out s',
        (refreshTokens env (.signed t) req).Ends serve past.store out s' → ∃ e, out = .error e := by
  have hagrees : Agrees past.history past.store :=
    h.invariant (agrees_initial users valid clock) (agrees_step env)
  have hiff : ∀ out s', (refreshTokens env (.signed t) req).Ends serve past.store out s' →
      ((∃ pair, out = .ok (.tokens pair none)) ↔
        Live past.history t ∧ past.store.clock < t.exp) := by
    intro out s' he
    cases (refreshTokens_wp env hagrees t req).ends he with
    | rotated hlive hexp _ _ => simp [hlive, hexp]
    | reused hlive _ _ => simp [hlive]
    | invalid hv =>
      simp only [reduceCtorEq, exists_false, false_iff]
      intro hl
      rw [verify_issued hagrees hl.1.issued hl.2] at hv
      cases hv
  refine ⟨ends_total serve_total _ _, hiff, ?_⟩
  intro later d earlier hsplit hreuse hissued out s' he
  have hdead : ¬ Live past.history t := by
    intro hlive
    have honce := hagrees.once
    rw [hsplit] at hlive honce
    have hlive' := live_of_append (issued_cons.mpr (.inr hissued)) honce hlive
    rcases live_cons.mp hlive' with hi | ⟨-, -, hn⟩
    · obtain ⟨d', hd', ht'⟩ := hissued
      have hd := (List.pairwise_cons.mp (List.pairwise_append.mp honce).2.1).1
      exact hd d' hd' t hi ht'
    · exact hn hreuse
  cases (refreshTokens_wp env hagrees t req).ends he with
  | rotated hlive _ _ _ => exact (hdead hlive).elim
  | reused _ _ _ => exact ⟨_, rfl⟩
  | invalid _ => exact ⟨_, rfl⟩

private theorem sample_register :
    (AuthRequest.handle .sample
      (.register ⟨"a@b.c", "pw", "A", "B"⟩, ⟨"f", "1.2.3.4", "agent", none⟩)).May serve
      (fun out s => out = .ok (.tokens ⟨⟨"u", "a@b.c", .user, "f"⟩, ⟨"u", "j", 604900⟩⟩ none) ∧
        s.clock = 100)
      (AuthStore.initial .empty (by simp) 100) := by
  apply May.call (I := authInterface) (c := AuthCall.findUserByEmail "a@b.c") (r := .ok none) ⟨rfl, rfl⟩
  apply May.call (I := authInterface) (c := AuthCall.bcryptHash "pw") (r := "hash of pw") rfl
  apply May.call (I := authInterface) (c := AuthCall.createUser ⟨"a@b.c", none, "hash of pw", "A", "B"⟩) (r := .ok _)
    (.inr ⟨by simp [Taken, initial], "u", by simp [initial],
      by simp [NewUser.toUser, AuthUser.Valid], rfl, rfl⟩)
  apply May.call (I := authInterface) (c := AuthCall.syncUserProjection _) (r := .ok ()) rfl
  apply May.call (I := authInterface) (c := AuthCall.randomUUID) (r := "j")
    ⟨by decide, by simp [initial, insertUser], rfl⟩
  apply May.call (I := authInterface) (c := AuthCall.now) (r := 100) ⟨rfl, rfl⟩
  apply May.call (I := authInterface) (c := AuthCall.createRefreshToken ⟨"u", "j", 604900⟩ "u" 604900) (r := .ok ())
    (.inr ⟨"r", by simp [initial, insertUser], by simp [initial, insertUser],
      by simp [initial, insertUser, NewUser.toUser], rfl, rfl⟩)
  apply May.call (I := authInterface) (c := AuthCall.now) (r := 100) ⟨rfl, rfl⟩
  apply May.call (I := authInterface) (c := AuthCall.redisConnect) (r := .ok ()) ⟨rfl, rfl⟩
  apply May.call (I := authInterface) (c := AuthCall.redisSet (.loginContext "u")
    (.context ⟨"f", "1.2.3.4", "agent", 100⟩) 7776000) (r := .ok ()) ⟨rfl, rfl⟩
  exact May.ret ⟨rfl, rfl⟩

/-- A token just issued by a registration can be refreshed. -/
theorem refresh_succeeds_iff_registered :
    ∃ trace past, Run (SeqStep .sample) ⟨[], AuthStore.initial .empty (by simp) 100⟩ trace past ∧
      ∀ req out s', (refreshTokens .sample (.signed ⟨"u", "j", 604900⟩) req).Ends serve past.store
        out s' → ∃ pair, out = .ok (.tokens pair none) := by
  obtain ⟨out, s', he, rfl, hclock⟩ := sample_register
  have hstep : SeqStep .sample ⟨[], AuthStore.initial .empty (by simp) 100⟩ () ⟨[_], s'⟩ :=
    .operate (by simp) he
  have hrun := Run.single hstep
  refine ⟨_, _, hrun, fun req out s'' hout => ?_⟩
  have hiff := (refresh_succeeds_iff .sample hrun ⟨"u", "j", 604900⟩ req).2.1 out s'' hout
  apply hiff.mpr
  constructor
  · exact .inl ⟨_, _, rfl, rfl⟩
  · rw [hclock]
    decide

end Runs

end AuthService

end CloudVM
