import CloudVM.Access.Fingerprint
import CloudVM.Framework.Utf8

/-!
# Cookies

The auth service sets cookies, the browser keeps one value for each name and sends them all, and
every service reads the one it looks for out of the header.
-/

namespace CloudVM.Access

open Text

section Escapes

/-- What `encodeURIComponent` leaves as it is. -/
def unreserved (c : Char) : Bool :=
  ('A' ≤ c && c ≤ 'Z') || ('a' ≤ c && c ≤ 'z') || ('0' ≤ c && c ≤ '9') || "-_.!~*'()".toList.contains c

def hexUpper (n : ℕ) : Char := "0123456789ABCDEF".toList.getD n '0'

def percentByte (b : UInt8) : List Char := ['%', hexUpper (b.toNat / 16), hexUpper (b.toNat % 16)]

def escapeChar (c : Char) : List Char :=
  if unreserved c then [c] else (String.utf8EncodeChar c).flatMap percentByte

def encodeURIComponent (s : String) : String := String.ofList (s.toList.flatMap escapeChar)

private theorem hexDigit_hexUpper : ∀ n < 16, hexDigit (hexUpper n) = some n := by decide +kernel

private theorem percentBytes_percentByte (b : UInt8) (rest : List Char) :
    percentBytes (percentByte b ++ rest) = (percentBytes rest).map (b :: ·) := by
  have hb : b.toNat < 256 := b.toNat_lt
  have hsame : UInt8.ofNat (16 * (b.toNat / 16) + b.toNat % 16) = b := by
    rw [Nat.div_add_mod, UInt8.ofNat_toNat]
  simp only [percentByte, List.cons_append, List.nil_append, percentBytes,
    hexDigit_hexUpper _ (show b.toNat / 16 < 16 by omega),
    hexDigit_hexUpper _ (show b.toNat % 16 < 16 by omega), Option.bind_eq_bind, Option.bind_some, hsame]
  cases percentBytes rest <;> rfl

private theorem percentBytes_flatMap (bytes : List UInt8) (rest : List Char) :
    percentBytes (bytes.flatMap percentByte ++ rest) = (percentBytes rest).map (bytes ++ ·) := by
  induction bytes with
  | nil => simp
  | cons b bytes ih =>
    rw [List.flatMap_cons, List.append_assoc, percentBytes_percentByte, ih, Option.map_map]
    rfl

private theorem percentBytes_cons {c : Char} (hc : c ≠ '%') (rest : List Char) :
    percentBytes (c :: rest) = (percentBytes rest).map (String.utf8EncodeChar c ++ ·) := by
  have hbytes : c.toString.toUTF8.toList = String.utf8EncodeChar c := by
    rw [Utf8.toList_toUTF8, Char.toString, String.toList_singleton]
    exact List.append_nil _
  rw [percentBytes]
  · rw [hbytes]
    cases percentBytes rest <;> rfl
  · intro a b rest' heq
    exact (hc heq).elim
  · intro heq
    exact (hc heq).elim

private theorem percentBytes_escape (c : Char) (rest : List Char) :
    percentBytes (escapeChar c ++ rest) =
      (percentBytes rest).map (String.utf8EncodeChar c ++ ·) := by
  unfold escapeChar
  split
  · rename_i hc
    apply percentBytes_cons
    rintro rfl
    exact absurd hc (by decide)
  · exact percentBytes_flatMap _ rest

private theorem percentBytes_encode (text : List Char) :
    percentBytes (text.flatMap escapeChar) = some (text.flatMap String.utf8EncodeChar) := by
  induction text with
  | nil => rfl
  | cons c text ih =>
    rw [List.flatMap_cons, percentBytes_escape, ih]
    rfl

theorem decode_encodeURIComponent (s : String) :
    decodeURIComponent (encodeURIComponent s) = some s := by
  rw [decodeURIComponent, encodeURIComponent, String.toList_ofList, percentBytes_encode]
  exact Utf8.fromUTF8?_encode s

private theorem hexUpper_unreserved : ∀ n < 16, unreserved (hexUpper n) = true := by decide +kernel

private theorem escaped {s : String} {c : Char} (h : c ∈ (encodeURIComponent s).toList) :
    c = '%' ∨ unreserved c = true := by
  rw [encodeURIComponent, String.toList_ofList, List.mem_flatMap] at h
  obtain ⟨d, -, hc⟩ := h
  unfold escapeChar at hc
  split at hc
  · rename_i hd
    rw [List.mem_singleton] at hc
    exact .inr (hc ▸ hd)
  · obtain ⟨b, -, hc⟩ := List.mem_flatMap.mp hc
    have hb : b.toNat < 256 := b.toNat_lt
    simp only [percentByte, List.mem_cons, List.not_mem_nil, or_false] at hc
    rcases hc with rfl | rfl | rfl
    · exact .inl rfl
    · exact .inr (hexUpper_unreserved _ (by omega))
    · exact .inr (hexUpper_unreserved _ (by omega))

private theorem not_space_of_unreserved {c : Char} (h : unreserved c = true) : jsSpace c = false := by
  have hrange : 33 ≤ c.toNat ∧ c.toNat ≤ 126 := by
    simp only [unreserved, Bool.or_eq_true, Bool.and_eq_true, decide_eq_true_eq,
      List.contains_iff_mem] at h
    rcases h with ((h | h) | h) | h
    · exact ⟨le_trans (by decide) (show 65 ≤ c.toNat from h.1), le_trans (show c.toNat ≤ 90 from h.2) (by decide)⟩
    · exact ⟨le_trans (by decide) (show 97 ≤ c.toNat from h.1), le_trans (show c.toNat ≤ 122 from h.2) (by decide)⟩
    · exact ⟨le_trans (by decide) (show 48 ≤ c.toNat from h.1), le_trans (show c.toNat ≤ 57 from h.2) (by decide)⟩
    · have hall : "-_.!~*'()".toList.Forall fun d => 33 ≤ d.toNat ∧ d.toNat ≤ 126 := by decide
      exact List.forall_iff_forall_mem.mp hall c h
  obtain ⟨hlow, hhigh⟩ := hrange
  simp only [jsSpace, Bool.or_eq_false_iff, Bool.and_eq_false_iff, decide_eq_false_iff_not,
    beq_eq_false_iff_ne]
  omega

private theorem escaped_plain {s : String} {c : Char} (h : c ∈ (encodeURIComponent s).toList) :
    c ≠ ';' ∧ jsSpace c = false := by
  rcases escaped h with rfl | hc
  · decide
  · refine ⟨?_, not_space_of_unreserved hc⟩
    rintro rfl
    exact absurd hc (by decide)

end Escapes

section Jar

/-- A cookie as the browser keeps it. -/
structure Cookie where
  name : String
  raw : String
  named : name ≠ ""
  plain : ∀ c ∈ name.toList, c ≠ ';' ∧ c ≠ '=' ∧ jsSpace c = false
  whole : ';' ∉ raw.toList

/-- `res.cookie(name, value)`, which encodes the value. -/
def Cookie.encoded (name value : String) (named : name ≠ "")
    (plain : ∀ c ∈ name.toList, c ≠ ';' ∧ c ≠ '=' ∧ jsSpace c = false) : Cookie where
  name := name
  raw := encodeURIComponent value
  named := named
  plain := plain
  whole := fun h => (escaped_plain h).1 rfl

def Cookie.access (token : String) : Cookie :=
  .encoded "accessToken" token (by decide) (List.forall_iff_forall_mem.mp (by decide))

def Cookie.refresh (token : String) : Cookie :=
  .encoded "refreshToken" token (by decide) (List.forall_iff_forall_mem.mp (by decide))

@[simp] theorem Cookie.access_name (token : String) : (Cookie.access token).name = "accessToken" := rfl

@[simp] theorem Cookie.refresh_name (token : String) : (Cookie.refresh token).name = "refreshToken" := rfl

/-- A cookie takes the place of the one of its name. -/
def keep (c : Cookie) : List Cookie → List Cookie
  | [] => [c]
  | d :: jar => if d.name = c.name then c :: jar else d :: keep c jar

def discard (name : String) (jar : List Cookie) : List Cookie := jar.filter (·.name ≠ name)

def Cookie.render (c : Cookie) : List Char := c.name.toList ++ '=' :: c.raw.toList

/-- The header `Cookie`, which a browser without cookies does not send. -/
def cookieHeader (jar : List Cookie) : Option String :=
  if jar = [] then none else some (String.ofList ([';', ' '].intercalate (jar.map Cookie.render)))

def lookup (name : String) (jar : List Cookie) : Option Cookie := jar.find? (·.name = name)

theorem lookup_keep (c : Cookie) (name : String) (jar : List Cookie) :
    lookup name (keep c jar) = if c.name = name then some c else lookup name jar := by
  induction jar with
  | nil => by_cases hc : c.name = name <;> simp [keep, lookup, hc]
  | cons d jar ih =>
    unfold lookup at ih
    unfold keep
    split
    · rename_i hd
      simp only [lookup, List.find?_cons, hd]
      by_cases hc : c.name = name <;> simp [hc]
    · rename_i hd
      simp only [lookup, List.find?_cons, ih]
      by_cases hdn : d.name = name
      · have hc : c.name ≠ name := fun h => hd (hdn.trans h.symm)
        simp [hdn, hc]
      · simp [hdn]

theorem lookup_discard (gone name : String) (jar : List Cookie) :
    lookup name (discard gone jar) = if gone = name then none else lookup name jar := by
  unfold lookup discard
  rw [List.find?_filter]
  split
  · rename_i h
    rw [List.find?_eq_none]
    intro c _
    simp [h]
  · rename_i h
    congr 1
    funext c
    by_cases hc : c.name = name
    · simp [hc, Ne.symm h]
    · simp [hc]

private theorem splitOn_header (c : Cookie) (jar : List Cookie) :
    ([';', ' '].intercalate ((c :: jar).map Cookie.render)).splitOn ';' =
      c.render :: jar.map fun d => ' ' :: d.render := by
  have hsame : ∀ (x : List Char) (xs : List (List Char)),
      [';', ' '].intercalate (x :: xs) = [';'].intercalate (x :: xs.map (' ' :: ·)) := by
    intro x xs
    induction xs generalizing x with
    | nil => simp
    | cons y ys ih =>
      rw [List.map_cons, List.intercalate_cons_cons, List.intercalate_cons_cons, ih y]
      cases ys <;> simp
  have hclean : ∀ d : Cookie, ';' ∉ d.render := by
    intro d hmem
    rcases List.mem_append.mp hmem with h | h
    · exact (d.plain _ h).1 rfl
    rcases List.mem_cons.mp h with h | h
    · exact absurd h (by decide)
    · exact d.whole h
  rw [List.map_cons, hsame, List.splitOn_intercalate ';' _ (by simp), List.map_map]
  · rfl
  · intro piece hpiece
    rcases List.mem_cons.mp hpiece with rfl | hpiece
    · exact hclean c
    · obtain ⟨_, hd, rfl⟩ := List.mem_map.mp hpiece
      obtain ⟨d, -, rfl⟩ := List.mem_map.mp hd
      rw [List.mem_cons, not_or]
      exact ⟨by decide, hclean d⟩

private def Cookie.trimmed (c : Cookie) : List Char :=
  c.name.toList ++ '=' :: (c.raw.toList.reverse.dropWhile jsSpace).reverse

private theorem trim_render (c : Cookie) (pad : List Char) (hpad : ∀ x ∈ pad, jsSpace x = true) :
    (jsTrim (String.ofList (pad ++ c.render))).toList = c.trimmed := by
  have hpads : jsTrim (String.ofList (pad ++ c.render)) = jsTrim (String.ofList c.render) := by
    have h := stripBy_surrounded hpad (fun x hx => absurd hx List.not_mem_nil) c.render
    rwa [List.append_nil] at h
  have hfirst : c.render.dropWhile jsSpace = c.render := by
    rw [Cookie.render]
    cases hname : c.name.toList with
    | nil => exact absurd (String.toList_eq_nil_iff.mp hname) c.named
    | cons x xs =>
      have hx := (c.plain x (by simp [hname])).2.2
      rw [List.cons_append, List.dropWhile_cons_of_neg (by simp [hx])]
  rw [hpads, jsTrim, stripBy, String.toList_ofList, String.toList_ofList, hfirst, Cookie.render,
    Cookie.trimmed, List.reverse_append, List.reverse_cons, List.append_assoc, List.dropWhile_append]
  split
  · rename_i h
    rw [List.isEmpty_iff.mp h]
    simp [show jsSpace '=' = false by decide]
  · simp

private theorem before_equals (c : Cookie) (rest : List Char) :
    (c.name.toList ++ '=' :: rest).takeWhile (· ≠ '=') = c.name.toList ∧
      ((c.name.toList ++ '=' :: rest).dropWhile (· ≠ '=')).drop 1 = rest := by
  have hname : ∀ x ∈ c.name.toList, decide (x ≠ '=') = true :=
    fun x hx => decide_eq_true (c.plain x hx).2.1
  rw [List.takeWhile_append_of_pos hname, List.dropWhile_append_of_pos hname]
  simp

private theorem trimmed_parts (c : Cookie) (jar : List Cookie) :
    (c.render :: jar.map fun d => ' ' :: d.render).map
        (fun part => (jsTrim (String.ofList part)).toList) = (c :: jar).map Cookie.trimmed := by
  have hfirst := trim_render c [] fun x hx => absurd hx List.not_mem_nil
  have hlater : ∀ d : Cookie, (jsTrim (String.ofList (' ' :: d.render))).toList = d.trimmed := by
    intro d
    apply trim_render d [' ']
    intro x hx
    rw [List.mem_singleton.mp hx]
    decide
  rw [List.nil_append] at hfirst
  rw [List.map_cons, List.map_cons, List.map_map, hfirst]
  exact congrArg _ (List.map_congr_left fun d _ => hlater d)

private theorem find_trimmed (name : String) (jar : List Cookie) :
    ((jar.map Cookie.trimmed).find? fun part => String.ofList (part.takeWhile (· ≠ '=')) = name) =
      (lookup name jar).map Cookie.trimmed := by
  have hsame : ((fun part : List Char => decide (String.ofList (part.takeWhile (· ≠ '=')) = name)) ∘
      Cookie.trimmed) = fun c => decide (c.name = name) := by
    funext c
    rw [Function.comp, Cookie.trimmed, (before_equals c _).1, String.ofList_toList]
  rw [List.find?_map, hsame, lookup]

private theorem cookieHeader_sent (c : Cookie) (jar : List Cookie) :
    truthy (cookieHeader (c :: jar)) =
      some (String.ofList ([';', ' '].intercalate ((c :: jar).map Cookie.render))) := by
  have hne : [';', ' '].intercalate ((c :: jar).map Cookie.render) ≠ [] := by
    intro h
    have hsplit := splitOn_header c jar
    rw [h, List.splitOn_nil, List.cons.injEq] at hsplit
    simp [Cookie.render] at hsplit
  rw [cookieHeader, if_neg (List.cons_ne_nil _ _), truthy, Option.filter_some, if_pos]
  refine decide_eq_true fun h => hne ?_
  rw [← String.toList_ofList (l := List.intercalate _ _), h]
  rfl

/-- A service reads of a jar the cookie of the name, less white space at its end. -/
theorem extractCookieValue_header (name : String) (jar : List Cookie) :
    extractCookieValue (cookieHeader jar) name =
      match lookup name jar with
      | none => some none
      | some c => (decodeURIComponent
          (String.ofList (c.raw.toList.reverse.dropWhile jsSpace).reverse)).map some := by
  cases jar with
  | nil => rfl
  | cons c jar =>
    simp only [extractCookieValue, cookieHeader_sent, String.toList_ofList, splitOn_header,
      trimmed_parts, find_trimmed]
    cases lookup name (c :: jar) with
    | none => rfl
    | some d => simp only [Option.map_some, Cookie.trimmed, (before_equals d _).2]

theorem encoded_unpadded (value : String) :
    String.ofList ((encodeURIComponent value).toList.reverse.dropWhile jsSpace).reverse =
      encodeURIComponent value := by
  have hkept : (encodeURIComponent value).toList.reverse.dropWhile jsSpace =
      (encodeURIComponent value).toList.reverse := by
    rw [List.dropWhile_eq_self_iff]
    intro hlen hspace
    have hmem := List.mem_reverse.mp (List.getElem_mem hlen)
    rw [(escaped_plain hmem).2] at hspace
    exact Bool.noConfusion hspace
  rw [hkept, List.reverse_reverse, String.ofList_toList]

end Jar

section Sessions

/-- `parseCookie` of the HTTP services and `extractCookieValue` of the gateways are the same code. -/
def parseCookie (rawCookieHeader : Option String) (cookieName : String) : Option (Option String) :=
  extractCookieValue rawCookieHeader cookieName

/-- What changes the cookies of a browser. -/
inductive CookieEvent where
  | setAuthCookies (accessToken refreshToken : String)
  | clearAuthCookies
  /-- `google_intent`, the `rememberMe` of the page and whatever else is stored. -/
  | kept (c : Cookie) (other : c.name ≠ "accessToken" ∧ c.name ≠ "refreshToken")
  /-- A cookie expires, or the user removes it. -/
  | dropped (name : String)

def storeCookies (jar : List Cookie) : CookieEvent → List Cookie
  | .setAuthCookies accessToken refreshToken => keep (.refresh refreshToken) (keep (.access accessToken) jar)
  | .clearAuthCookies => discard "refreshToken" (discard "accessToken" jar)
  | .kept c _ => keep c jar
  | .dropped name => discard name jar

def cookieJar (events : List CookieEvent) : List Cookie := events.foldl storeCookies []

/-- The two tokens of a browser. -/
structure HeldTokens where
  access : Option String
  refresh : Option String
deriving DecidableEq, Repr

def HeldTokens.after (held : HeldTokens) : CookieEvent → HeldTokens
  | .setAuthCookies accessToken refreshToken => ⟨some accessToken, some refreshToken⟩
  | .clearAuthCookies => ⟨none, none⟩
  | .kept _ _ => held
  | .dropped name =>
      ⟨if name = "accessToken" then none else held.access,
        if name = "refreshToken" then none else held.refresh⟩

/-- The session as the history of the browser has it. -/
def heldTokens (events : List CookieEvent) : HeldTokens := events.foldl HeldTokens.after ⟨none, none⟩

/-- A jar holds the tokens, each under its name and encoded. -/
structure Holds (held : HeldTokens) (jar : List Cookie) : Prop where
  access : lookup "accessToken" jar = held.access.map Cookie.access
  refresh : lookup "refreshToken" jar = held.refresh.map Cookie.refresh

private theorem holds_after {held : HeldTokens} {jar : List Cookie} (h : Holds held jar)
    (event : CookieEvent) : Holds (held.after event) (storeCookies jar event) := by
  cases event with
  | setAuthCookies accessToken refreshToken =>
    constructor
    · simp only [storeCookies, lookup_keep, Cookie.access_name, Cookie.refresh_name, reduceIte]
      rfl
    · simp only [storeCookies, lookup_keep, Cookie.refresh_name, reduceIte]
      rfl
  | clearAuthCookies =>
    constructor
    · rw [storeCookies, lookup_discard, if_neg (by decide), lookup_discard, if_pos rfl]
      rfl
    · rw [storeCookies, lookup_discard, if_pos rfl]
      rfl
  | kept c other =>
    constructor
    · rw [storeCookies, lookup_keep, if_neg other.1, h.access]
      rfl
    · rw [storeCookies, lookup_keep, if_neg other.2, h.refresh]
      rfl
  | dropped name =>
    constructor
    · rw [storeCookies, lookup_discard, h.access, HeldTokens.after]
      split <;> rfl
    · rw [storeCookies, lookup_discard, h.refresh, HeldTokens.after]
      split <;> rfl

private theorem holds_cookieJar (events : List CookieEvent) :
    Holds (heldTokens events) (cookieJar events) := by
  induction events using List.reverseRecOn with
  | nil => exact ⟨rfl, rfl⟩
  | append_singleton events event ih =>
    rw [heldTokens, cookieJar, List.foldl_concat, List.foldl_concat]
    exact holds_after ih event

private theorem read_token {name : String} {jar : List Cookie} {token : Option String}
    {make : String → Cookie} (hmake : ∀ value, (make value).raw = encodeURIComponent value)
    (h : lookup name jar = token.map make) : parseCookie (cookieHeader jar) name = some token := by
  rw [parseCookie, extractCookieValue_header, h]
  cases token with
  | none => rfl
  | some value => simp only [Option.map_some, hmake, encoded_unpadded, decode_encodeURIComponent]

private theorem heldTokens_pair {events : List CookieEvent} {accessToken refreshToken : String}
    (h : heldTokens events = ⟨some accessToken, some refreshToken⟩) :
    ∃ before later, events = before ++ .setAuthCookies accessToken refreshToken :: later ∧
      .clearAuthCookies ∉ later ∧ ∀ a r, .setAuthCookies a r ∉ later := by
  induction events using List.reverseRecOn with
  | nil => exact absurd h (by simp [heldTokens])
  | append_singleton events event ih =>
    rw [heldTokens, List.foldl_concat] at h
    change (heldTokens events).after event = _ at h
    cases event with
    | setAuthCookies a r =>
      rw [HeldTokens.after, HeldTokens.mk.injEq, Option.some.injEq, Option.some.injEq] at h
      obtain ⟨rfl, rfl⟩ := h
      exact ⟨events, [], by simp⟩
    | clearAuthCookies => exact absurd h (by simp [HeldTokens.after])
    | kept c other =>
      obtain ⟨before, later, rfl, hclear, hset⟩ := ih h
      exact ⟨before, later ++ [.kept c other], by simp, by simp [hclear], by simp [hset]⟩
    | dropped name =>
      have hheld : heldTokens events = ⟨some accessToken, some refreshToken⟩ := by
        rw [HeldTokens.after, HeldTokens.mk.injEq] at h
        obtain ⟨haccess, hrefresh⟩ := h
        split at haccess
        · exact absurd haccess (by simp)
        split at hrefresh
        · exact absurd hrefresh (by simp)
        rw [← haccess, ← hrefresh]
      obtain ⟨before, later, rfl, hclear, hset⟩ := ih hheld
      exact ⟨before, later ++ [.dropped name], by simp, by simp [hclear], by simp [hset]⟩

/-- Whatever else a browser stores, every service reads out of its cookies the tokens of its
session, and never those of two sessions. -/
theorem cookies_carry_one_session (events : List CookieEvent) :
    parseCookie (cookieHeader (cookieJar events)) "accessToken" = some (heldTokens events).access ∧
      parseCookie (cookieHeader (cookieJar events)) "refreshToken" = some (heldTokens events).refresh ∧
      ∀ accessToken refreshToken,
        parseCookie (cookieHeader (cookieJar events)) "accessToken" = some (some accessToken) →
        parseCookie (cookieHeader (cookieJar events)) "refreshToken" = some (some refreshToken) →
        ∃ before later, events = before ++ .setAuthCookies accessToken refreshToken :: later ∧
          .clearAuthCookies ∉ later ∧ ∀ a r, .setAuthCookies a r ∉ later := by
  have hholds := holds_cookieJar events
  have haccess := read_token (fun _ => rfl) hholds.access
  have hrefresh := read_token (fun _ => rfl) hholds.refresh
  refine ⟨haccess, hrefresh, ?_⟩
  intro accessToken refreshToken ha hr
  rw [haccess, Option.some.injEq] at ha
  rw [hrefresh, Option.some.injEq] at hr
  apply heldTokens_pair
  rw [← ha, ← hr]

end Sessions

end CloudVM.Access
