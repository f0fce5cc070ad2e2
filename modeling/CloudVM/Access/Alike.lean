import CloudVM.Access.Entrances

/-!
# The fingerprint of a request and of a socket

The auth service and the gateways read the same headers, each in its own way. The gateways do not
drop a blank address or a blank user agent.
-/

namespace CloudVM.Access

open Text

section Addresses

def Blank (s : String) : Prop := s ≠ "" ∧ jsTrim s = ""

/-- Nothing is left of an address once it is normalized. -/
def Vanishes (address : String) : Prop := jsTrim (replace address "::ffff:" "") = ""

section Replace

variable {old : List Char}

private theorem isPrefixOf_space (hold : ∀ c ∈ old, jsSpace c = false) (hne : old ≠ []) {c : Char}
    (hc : jsSpace c = true) (cs : List Char) : old.isPrefixOf (c :: cs) = false := by
  cases old with
  | nil => exact absurd rfl hne
  | cons d old =>
    have hd := hold d List.mem_cons_self
    have hdc : d ≠ c := by
      intro heq
      rw [heq, hc] at hd
      cases hd
    simp [List.isPrefixOf, hdc]

/-- An occurrence cannot reach into the white space behind. -/
private theorem isPrefixOf_append_space (hold : ∀ c ∈ old, jsSpace c = false) {after : List Char}
    (hafter : ∀ c ∈ after, jsSpace c = true) (cs : List Char) :
    old.isPrefixOf (cs ++ after) = old.isPrefixOf cs := by
  rw [Bool.eq_iff_iff, List.isPrefixOf_iff_prefix, List.isPrefixOf_iff_prefix]
  constructor
  · intro h
    rcases List.prefix_or_prefix_of_prefix h (List.prefix_append cs after) with h' | h'
    · exact h'
    · obtain ⟨rest, rfl⟩ := h'
      have hrest : rest <+: after := (List.prefix_append_right_inj _).mp h
      cases rest with
      | nil => simp
      | cons d rest =>
        have hd := hold d (by simp)
        rw [hafter d (hrest.subset List.mem_cons_self)] at hd
        cases hd
  · intro h
    exact h.trans (List.prefix_append _ _)

private theorem replaceFirst_before (hold : ∀ c ∈ old, jsSpace c = false) (hne : old ≠ [])
    {before : List Char} (hbefore : ∀ c ∈ before, jsSpace c = true) (text : List Char) :
    replaceFirst old [] (before ++ text) = before ++ replaceFirst old [] text := by
  induction before with
  | nil => rfl
  | cons c before ih =>
    have hc : old.isPrefixOf (c :: (before ++ text)) = false :=
      isPrefixOf_space hold hne (hbefore c List.mem_cons_self) _
    rw [List.cons_append, replaceFirst, hc, ih fun d hd => hbefore d (List.mem_cons_of_mem c hd)]
    rfl

private theorem replaceFirst_after (hold : ∀ c ∈ old, jsSpace c = false) (hne : old ≠ [])
    {after : List Char} (hafter : ∀ c ∈ after, jsSpace c = true) (text : List Char) :
    replaceFirst old [] (text ++ after) = replaceFirst old [] text ++ after := by
  induction text with
  | nil =>
    have hblank := replaceFirst_before hold hne hafter []
    rw [List.append_nil, replaceFirst, if_neg hne, List.append_nil] at hblank
    rw [List.nil_append, hblank, replaceFirst, if_neg hne]
    rfl
  | cons c text ih =>
    rw [List.cons_append, replaceFirst, replaceFirst, ← List.cons_append,
      isPrefixOf_append_space hold hafter]
    split
    · rename_i hfound
      rw [List.nil_append, List.nil_append, List.drop_append_of_le_length]
      exact (List.isPrefixOf_iff_prefix.mp hfound).length_le
    · rw [ih]
      rfl

end Replace

private theorem normalizeIp_surrounded {before after : List Char}
    (hbefore : ∀ c ∈ before, jsSpace c = true) (hafter : ∀ c ∈ after, jsSpace c = true)
    {s t : String} (h : s.toList = before ++ t.toList ++ after) : normalizeIp s = normalizeIp t := by
  have hold : ∀ c ∈ "::ffff:".toList, jsSpace c = false := by simp [jsSpace]
  have htrim : jsTrim (replace s "::ffff:" "") = jsTrim (replace t "::ffff:" "") := by
    rw [replace, replace, h, String.toList_empty, replaceFirst_after hold (by simp) hafter,
      replaceFirst_before hold (by simp) hbefore]
    exact stripBy_surrounded hbefore hafter _
  rw [normalizeIp, normalizeIp, htrim]

private theorem normalizeIp_trim (s : String) : normalizeIp (jsTrim s) = normalizeIp s := by
  obtain ⟨before, after, hbefore, hafter, h⟩ := stripBy_split jsSpace s
  exact (normalizeIp_surrounded hbefore hafter h).symm

private theorem normalizeIp_eq_empty (s : String) : normalizeIp s = "" ↔ Vanishes s := by
  unfold normalizeIp Vanishes
  simp only
  split
  · rename_i h
    constructor
    · intro hloop
      simp at hloop
    · intro hgone
      rw [hgone] at h
      simp at h
  · rfl

end Addresses

section Headers

theorem firstHeaderValue_eq (value : Option HeaderValue) :
    firstHeaderValue value = truthy ((headerString value).map jsTrim) := by
  cases value with
  | none => rfl
  | some value => cases value <;> rfl

theorem truthy_eq_none {value : Option String} : truthy value = none ↔ value = none ∨ value = some "" := by
  cases value with
  | none => simp [truthy]
  | some s =>
    by_cases hs : s = ""
    · simp [truthy, hs]
    · simp [truthy, hs]

theorem truthy_some {s : String} (h : s ≠ "") : truthy (some s) = some s := by simp [truthy, h]

private theorem beforeComma_trim (v : String) :
    ∃ before after, (∀ c ∈ before, jsSpace c = true) ∧ (∀ c ∈ after, jsSpace c = true) ∧
      (beforeComma v).toList = before ++ (beforeComma (jsTrim v)).toList ++ after := by
  obtain ⟨before, after, hbefore, hafter, h⟩ := stripBy_split jsSpace v
  have hcomma : ∀ c, jsSpace c = true → decide (c ≠ ',') = true := by
    intro c hc
    rw [decide_eq_true_eq]
    intro heq
    rw [heq] at hc
    exact absurd hc (by decide)
  rw [beforeComma, beforeComma, String.toList_ofList, String.toList_ofList, h, List.append_assoc,
    List.takeWhile_append_of_pos fun c hc => hcomma c (hbefore c hc), List.takeWhile_append]
  split
  · rename_i hall
    refine ⟨before, after.takeWhile (· ≠ ','), hbefore, ?_, ?_⟩
    · intro c hc
      exact hafter c ((List.takeWhile_prefix _).subset hc)
    · have hwhole : (jsTrim v).toList.takeWhile (· ≠ ',') = (jsTrim v).toList :=
        (List.takeWhile_prefix _).eq_of_length hall
      rw [hwhole, List.append_assoc]
      rfl
  · exact ⟨before, [], hbefore, by simp, by simp [jsTrim]⟩

private theorem normalizeIp_beforeComma (v : String) :
    normalizeIp (beforeComma v) = normalizeIp (beforeComma (jsTrim v)) := by
  obtain ⟨before, after, hbefore, hafter, h⟩ := beforeComma_trim v
  exact normalizeIp_surrounded hbefore hafter h

private theorem blank_beforeComma (v : String) (hv : jsTrim v ≠ "") :
    Blank (beforeComma v) ↔ beforeComma v ≠ "" ∧ beforeComma (jsTrim v) = "" := by
  obtain ⟨before, after, hbefore, hafter, h⟩ := beforeComma_trim v
  have htrim : jsTrim (beforeComma v) = jsTrim (beforeComma (jsTrim v)) := by
    have hsame := stripBy_surrounded hbefore hafter (beforeComma (jsTrim v)).toList
    rw [← h, String.ofList_toList, String.ofList_toList] at hsame
    exact hsame
  have hfirst : jsTrim (beforeComma (jsTrim v)) = "" ↔ beforeComma (jsTrim v) = "" := by
    constructor
    · intro hblank
      by_contra hne
      rw [jsTrim, stripBy_eq_empty, List.all_eq_true] at hblank
      cases hlist : (jsTrim v).toList with
      | nil => exact hv (String.toList_eq_nil_iff.mp hlist)
      | cons c cs =>
        have hc : jsSpace c = false := stripBy_head (p := jsSpace) (s := v) (by
          show (jsTrim v).toList.head? = some c
          rw [hlist]
          rfl)
        by_cases hcomma : c = ','
        · apply hne
          simp [beforeComma, hlist, hcomma]
        · have hspace := hblank c (by simp [beforeComma, hlist, hcomma])
          rw [hc] at hspace
          cases hspace
    · intro hempty
      rw [hempty]
      rfl
  rw [Blank, htrim, hfirst]

end Headers

section Agreement

variable {req : Request} {client : Handshake}

/-- The headers reach both sides alike. -/
structure SameHeaders (req : Request) (client : Handshake) : Prop where
  forwardedFor : client.forwardedFor = req.forwardedFor
  realIp : client.realIp = req.realIp
  userAgent : client.userAgent = req.userAgent

/-- Where no header gives an address, both sides see the same peer. -/
def SamePeer (req : Request) (client : Handshake) : Prop :=
  (truthy ((firstHeaderValue req.forwardedFor).map beforeComma)).or
      (firstHeaderValue req.realIp) = none →
    (truthy client.remoteAddress).or (truthy client.address) =
      (truthy req.ip).or (truthy req.remoteAddress)

/-- A blank text stands where a gateway looks for the address: as the first entry of
`x-forwarded-for`, or in `x-real-ip` while `x-forwarded-for` gives nothing. -/
def Misread (forwardedFor realIp : Option HeaderValue) : Prop :=
  (∃ v, headerString forwardedFor = some v ∧ jsTrim v ≠ "" ∧ Blank (beforeComma v)) ∨
    ((∀ v, headerString forwardedFor = some v → jsTrim v = "" ∨ beforeComma v = "") ∧
      ∃ v, headerString realIp = some v ∧ Blank v)

/-- The address of a request apart from `x-forwarded-for`. -/
def nextAddress (req : Request) : String :=
  ((firstHeaderValue req.realIp).or ((truthy req.ip).or (truthy req.remoteAddress))).getD "unknown"

/-- The user agent is not blank, and where a gateway takes a blank text for the address, the
address of the request comes to nothing as well. -/
structure ReadAlike (req : Request) : Prop where
  agent : ∀ ua, req.userAgent = some ua → jsTrim ua ≠ ""
  address : Misread req.forwardedFor req.realIp → Vanishes (nextAddress req)

private theorem normalizeIp_blank {s : String} (h : jsTrim s = "") : normalizeIp s = "" := by
  rw [← normalizeIp_trim, h]
  decide

/-- Without an address in `x-forwarded-for`. -/
private theorem realIp_agree_iff (hrest : firstHeaderValue req.realIp = none →
      (truthy client.remoteAddress).or (truthy client.address) =
        (truthy req.ip).or (truthy req.remoteAddress)) :
    normalizeIp (nextAddress req) = normalizeIp (((truthy (headerString req.realIp)).or
        ((truthy client.remoteAddress).or (truthy client.address))).getD "unknown") ↔
      ((∃ v, headerString req.realIp = some v ∧ Blank v) → Vanishes (nextAddress req)) := by
  unfold nextAddress
  rw [firstHeaderValue_eq] at hrest ⊢
  cases hreal : headerString req.realIp with
  | none =>
    rw [hreal] at hrest
    rw [hrest rfl]
    simp [truthy]
  | some v =>
    rw [hreal] at hrest
    by_cases hblank : jsTrim v = ""
    · have hnone : truthy (Option.map jsTrim (some v)) = none := truthy_eq_none.mpr (by simp [hblank])
      rw [hnone, Option.none_or]
      by_cases hempty : v = ""
      · have hreal' : truthy (some v) = none := truthy_eq_none.mpr (by simp [hempty])
        rw [hreal', Option.none_or, hrest hnone]
        refine iff_of_true rfl ?_
        intro hmis
        obtain ⟨w, hw, hne, -⟩ := hmis
        cases hw
        exact absurd hempty hne
      · rw [truthy_some hempty, Option.some_or, Option.getD_some, normalizeIp_blank hblank,
          normalizeIp_eq_empty]
        constructor
        · intro h _
          exact h
        · intro h
          exact h ⟨v, rfl, hempty, hblank⟩
    · have hempty : v ≠ "" := by
        intro heq
        rw [heq] at hblank
        exact hblank (by decide)
      rw [Option.map_some, truthy_some hblank, truthy_some hempty]
      refine iff_of_true ?_ ?_
      · exact normalizeIp_trim v
      · intro hmis
        obtain ⟨w, hw, -, hwblank⟩ := hmis
        cases hw
        exact absurd hwblank hblank

private theorem beforeComma_ne_empty {v : String} (h : beforeComma (jsTrim v) ≠ "") :
    beforeComma v ≠ "" := by
  intro hempty
  obtain ⟨before, after, -, -, hlist⟩ := beforeComma_trim v
  rw [hempty] at hlist
  have hnil := List.append_eq_nil_iff.mp hlist.symm
  exact h (String.toList_eq_nil_iff.mp (List.append_eq_nil_iff.mp hnil.1).2)

private theorem not_misread {forwardedFor realIp : Option HeaderValue} {v : String}
    (hforwarded : headerString forwardedFor = some v) (hblank : jsTrim v ≠ "")
    (hfirst : beforeComma (jsTrim v) ≠ "") : ¬ Misread forwardedFor realIp := by
  rintro (⟨w, hw, -, hwblank⟩ | ⟨hall, -⟩)
  · obtain rfl := Option.some.inj (hforwarded.symm.trans hw)
    exact absurd ((blank_beforeComma v hblank).mp hwblank).2 hfirst
  · rcases hall v hforwarded with h | h
    · exact absurd h hblank
    · exact absurd h (beforeComma_ne_empty hfirst)

theorem addresses_agree_iff (hsame : SameHeaders req client) (hpeer : SamePeer req client) :
    getClientIp req = getSocketClientIp client ↔
      (Misread req.forwardedFor req.realIp → Vanishes (nextAddress req)) := by
  have hrequest : getClientIp req = normalizeIp
      (((truthy ((firstHeaderValue req.forwardedFor).map beforeComma)).or
        ((firstHeaderValue req.realIp).or ((truthy req.ip).or (truthy req.remoteAddress)))).getD
          "unknown") := by
    rw [getClientIp, Option.or_assoc, Option.or_assoc]
  have hsocket : getSocketClientIp client = normalizeIp
      (((truthy (((headerString req.forwardedFor).filter fun value => jsTrim value ≠ "").map
        beforeComma)).or ((truthy (headerString req.realIp)).or
          ((truthy client.remoteAddress).or (truthy client.address)))).getD "unknown") := by
    rw [getSocketClientIp, hsame.forwardedFor, hsame.realIp, Option.or_assoc, Option.or_assoc]
  have hunusable : truthy ((firstHeaderValue req.forwardedFor).map beforeComma) = none →
      firstHeaderValue req.realIp = none →
        (truthy client.remoteAddress).or (truthy client.address) =
          (truthy req.ip).or (truthy req.remoteAddress) := by
    intro hfirst hreal
    apply hpeer
    rw [hfirst, hreal]
    rfl
  rw [hrequest, hsocket]
  rw [firstHeaderValue_eq] at hunusable ⊢
  cases hforwarded : headerString req.forwardedFor with
  | none =>
    rw [hforwarded] at hunusable
    have hiff := realIp_agree_iff (hunusable rfl)
    simpa [Misread, hforwarded, truthy, nextAddress] using hiff
  | some v =>
    rw [hforwarded] at hunusable
    by_cases hblank : jsTrim v = ""
    · have hnone : truthy (Option.map jsTrim (some v)) = none := truthy_eq_none.mpr (by simp [hblank])
      have hfilter : (some v).filter (fun value => decide (jsTrim value ≠ "")) = none := by
        simp [hblank]
      rw [hnone] at hunusable ⊢
      rw [hfilter]
      have hiff := realIp_agree_iff (hunusable rfl)
      simpa [Misread, hforwarded, hblank, nextAddress, truthy] using hiff
    · have hfilter : (some v).filter (fun value => decide (jsTrim value ≠ "")) = some v := by
        simp [hblank]
      rw [Option.map_some, truthy_some hblank, Option.map_some] at hunusable
      rw [Option.map_some, truthy_some hblank, Option.map_some, hfilter, Option.map_some]
      have hentry := blank_beforeComma v hblank
      by_cases hfirst : beforeComma (jsTrim v) = ""
      · rw [truthy_eq_none.mpr (.inr (congrArg some hfirst))] at hunusable ⊢
        rw [Option.none_or]
        by_cases hempty : beforeComma v = ""
        · rw [truthy_eq_none.mpr (.inr (congrArg some hempty)), Option.none_or]
          have hiff := realIp_agree_iff (hunusable rfl)
          have hnot : ¬ Blank "" := fun h => h.1 rfl
          simpa [Misread, hforwarded, hempty, hnot, nextAddress] using hiff
        · have hmis : Misread req.forwardedFor req.realIp :=
            .inl ⟨v, hforwarded, hblank, hentry.mpr ⟨hempty, hfirst⟩⟩
          rw [truthy_some hempty, Option.some_or, Option.getD_some, normalizeIp_beforeComma, hfirst,
            normalizeIp_blank (s := "") (by decide)]
          exact (normalizeIp_eq_empty _).trans ⟨fun h _ => h, fun h => h hmis⟩
      · rw [truthy_some hfirst, truthy_some (beforeComma_ne_empty hfirst)]
        apply iff_of_true (normalizeIp_beforeComma v).symm
        intro hmis
        exact absurd hmis (not_misread hforwarded hblank hfirst)

/-- Where both sides come to the same address, they hash the same text unless the user agent is
blank. -/
private theorem texts_agree_iff (hsame : SameHeaders req client) :
    getClientIp req ++ "|" ++ getUserAgent req =
        getSocketClientIp client ++ "|" ++ jsTrim (client.userAgent.getD "unknown") ↔
      getClientIp req = getSocketClientIp client ∧ ∀ ua, req.userAgent = some ua → jsTrim ua ≠ "" := by
  rw [getUserAgent, hsame.userAgent]
  cases hagent : req.userAgent with
  | none =>
    have hunknown : jsTrim "unknown" = "unknown" := by decide
    simp [truthy, hunknown]
  | some ua =>
    by_cases hblank : jsTrim ua = ""
    · -- the one text ends with `unknown`, the other with the bar
      have hlast : getClientIp req ++ "|" ++ "unknown" ≠ getSocketClientIp client ++ "|" ++ "" := by
        intro h
        have hend := congrArg (fun s => s.toList.getLast?) h
        simp at hend
      have hnone : truthy (some (jsTrim ua)) = none := truthy_eq_none.mpr (.inr (congrArg some hblank))
      rw [Option.map_some, hnone, Option.getD_none, Option.getD_some, hblank]
      refine iff_of_false hlast ?_
      intro h
      exact h.2 ua rfl hblank
    · rw [Option.map_some, truthy_some hblank]
      simp [hblank]

/-- The fingerprint of a request is that of the socket, whatever the hash, and the gateways admit
the bearer of a token that was issued for the request. -/
structure FingerprintsAgree (req : Request) (client : Handshake) : Prop where
  equal : ∀ sha256, buildRequestFingerprint sha256 req = buildSocketFingerprint sha256 client
  terminal : ∀ sha256 verify skipFp token claims, presentedToken client = some (some token) →
    verify token = some claims → claims.fp = some (buildRequestFingerprint sha256 req) →
    buildRequestFingerprint sha256 req ≠ "" →
    terminalAuthentication sha256 verify skipFp client = .user claims.caller
  vmEvents : ∀ sha256 verify skipFp token claims, presentedToken client = some (some token) →
    verify token = some claims → claims.fp = some (buildRequestFingerprint sha256 req) →
    buildRequestFingerprint sha256 req ≠ "" →
    ∃ rooms, vmEventsConnection sha256 verify skipFp client = some (claims.user, rooms)
  aiChat : ∀ sha256 verify token claims, presentedToken client = some (some token) →
    verify token = some claims → claims.fp = some (buildRequestFingerprint sha256 req) →
    buildRequestFingerprint sha256 req ≠ "" →
    aiChatConnection sha256 verify client = some claims.user

private theorem bound_of_equal {sha256 : String → String} {claims : Claims}
    (hequal : buildRequestFingerprint sha256 req = buildSocketFingerprint sha256 client)
    (hfp : claims.fp = some (buildRequestFingerprint sha256 req))
    (hne : buildRequestFingerprint sha256 req ≠ "") :
    claims.unbound (buildSocketFingerprint sha256 client) = false := by
  rw [Claims.not_unbound_iff, ← hequal]
  exact ⟨hfp, hne⟩

/-- The gateways fingerprint a client as the auth service does, unless a header is blank. -/
theorem fingerprints_agree_iff (hsame : SameHeaders req client) (hpeer : SamePeer req client) :
    FingerprintsAgree req client ↔ ReadAlike req := by
  have htexts := texts_agree_iff hsame
  have haddresses := addresses_agree_iff hsame hpeer
  constructor
  · intro h
    obtain ⟨haddress, hagent⟩ := htexts.mp (h.equal id)
    exact ⟨hagent, haddresses.mp haddress⟩
  · intro h
    have hequal : ∀ sha256,
        buildRequestFingerprint sha256 req = buildSocketFingerprint sha256 client := by
      intro sha256
      exact congrArg sha256 (htexts.mpr ⟨haddresses.mpr h.address, h.agent⟩)
    refine ⟨hequal, ?_, ?_, ?_⟩
    · intro sha256 verify skipFp token claims htoken hverify hfp hne
      simp [terminalAuthentication, htoken, hverify, bound_of_equal (hequal sha256) hfp hne]
    · intro sha256 verify skipFp token claims htoken hverify hfp hne
      simp [vmEventsConnection, htoken, hverify, bound_of_equal (hequal sha256) hfp hne]
    · intro sha256 verify token claims htoken hverify hfp hne
      simp [aiChatConnection, htoken, hverify, bound_of_equal (hequal sha256) hfp hne]

/-- A request through the proxy, with a list of addresses. -/
def proxiedRequest (userAgent : String) : Request where
  forwardedFor := some (.one " 203.0.113.7 , 10.0.0.2")
  realIp := some (.one "203.0.113.7")
  userAgent := some userAgent
  ip := some "::ffff:10.0.0.2"
  remoteAddress := some "::ffff:10.0.0.2"

def proxiedSocket (userAgent : String) : Handshake where
  token := some "t"
  authorization := none
  cookie := none
  forwardedFor := some (.one " 203.0.113.7 , 10.0.0.2")
  realIp := some (.one "203.0.113.7")
  userAgent := some userAgent
  remoteAddress := some "::ffff:10.0.0.2"
  address := some "::ffff:10.0.0.2"

theorem fingerprints_agree_iff_proxied :
    FingerprintsAgree (proxiedRequest " Mozilla/5.0") (proxiedSocket " Mozilla/5.0") := by
  refine (fingerprints_agree_iff ⟨rfl, rfl, rfl⟩ (fun _ => rfl)).mpr ⟨?_, ?_⟩
  · intro ua hua
    obtain rfl : " Mozilla/5.0" = ua := Option.some.inj hua
    decide
  · rintro (⟨v, hv, -, hblank⟩ | ⟨hnone, -⟩)
    · obtain rfl : " 203.0.113.7 , 10.0.0.2" = v := Option.some.inj hv
      exact absurd hblank.2 (by decide)
    · rcases hnone _ rfl with h | h
      · exact absurd h (by decide)
      · exact absurd h (by decide)

/-- A client with an empty user agent is one to the auth service and another to the gateways. -/
theorem empty_agent_differs : ¬ ∀ (req : Request) (client : Handshake), SameHeaders req client →
    SamePeer req client → FingerprintsAgree req client := by
  intro hall
  have hagree := hall (proxiedRequest "") (proxiedSocket "") ⟨rfl, rfl, rfl⟩ fun _ => rfl
  have hequal := hagree.equal id
  revert hequal
  decide

end Agreement

end CloudVM.Access
