import Aftercare.Domain.Grants
import Aftercare.System.Requests
import Aftercare.Text.Strings

/-!
# Introspection of tokens, with a cache

`TokenAccessGuard` of `auth/guard.py` asks about every token that it has verified whether it is still active.
`CachedIntrospector` of `auth/introspection.py` keeps what the issuer has reported for a while, so a token that
was revoked is accepted until the report runs out, and not longer (`revocation_latency`).
-/

namespace Aftercare

open Relational Text

structure IntrospectionVerdict where
  active : Bool
  subject_id : Option Identifier := none
  tenant_id : Option Identifier := none
  expires_at : Option Time := none
deriving DecidableEq

/-- What the issuer answered about a token; any exception may leave the call. -/
structure IssuerReport where
  token : String
  reported_at : Time
  answer : Result IntrospectionVerdict

structure CachedIntrospector where
  (ttl_seconds max_entries : ℕ)
  positive : 0 < max_entries
  /-- Under a fingerprint, a verdict and the end of its use. -/
  entries : List (Sha256 × IntrospectionVerdict × Time)
  /-- What the issuer was asked so far. -/
  reports : List IssuerReport

def CachedIntrospector.init (ttl_seconds max_entries : ℤ) : Result CachedIntrospector :=
  if ttl_seconds < 0 then .error (.contract .invalidInput "ttl_seconds must not be negative")
  else if h : max_entries < 1 then .error (.contract .invalidInput "max_entries must be positive")
  else pure ⟨ttl_seconds.toNat, max_entries.toNat, by omega, [], []⟩

def CachedIntrospector.ttl (cache : CachedIntrospector) : Time := 1000000 * cache.ttl_seconds

/-- `entries[key] = value` of a dictionary. -/
def setItem {κ α : Type} [DecidableEq κ] (entries : List (κ × α)) (key : κ) (value : α) : List (κ × α) :=
  if key ∈ entries.map Prod.fst then entries.map fun e => if e.1 = key then (key, value) else e
  else entries ++ [(key, value)]

def CachedIntrospector.evict (cache : CachedIntrospector) (current : Time) : CachedIntrospector :=
  let live := cache.entries.filter (current < ·.2.2)
  -- While there are still too many, the oldest one goes.
  { cache with entries := live.drop (live.length + 1 - cache.max_entries) }

/-- The last part of `introspect`, under the lock. -/
def CachedIntrospector.keep (cache : CachedIntrospector) (key : Sha256) (verdict : IntrospectionVerdict)
    (monotonic : Time) : CachedIntrospector :=
  let cache := if cache.max_entries ≤ cache.entries.length then cache.evict monotonic else cache
  { cache with entries := setItem cache.entries key (verdict, monotonic + cache.ttl) }

/-- `introspect` from the call of the issuer on. -/
def CachedIntrospector.ask (cache : CachedIntrospector) (key : Sha256) (token : String) (now monotonic : Time)
    (answer : Result IntrospectionVerdict) : CachedIntrospector × Result IntrospectionVerdict :=
  let cache := { cache with reports := ⟨token, now, answer⟩ :: cache.reports }
  match answer with
  | .error e => (cache, .error e)
  | .ok verdict =>
    if cache.ttl_seconds = 0 ∨ ∃ expiry ∈ verdict.expires_at, expiry ≤ now then (cache, .ok verdict)
    else (cache.keep key verdict monotonic, .ok verdict)

/-- `introspect` takes no time: it reads the monotonic clock once. -/
def CachedIntrospector.introspect [Hashing] (cache : CachedIntrospector) (token : String) (now monotonic : Time)
    (answer : Result IntrospectionVerdict) : CachedIntrospector × Result IntrospectionVerdict :=
  let key := Hashing.sha256 token
  match if 0 < cache.ttl_seconds then cache.entries.lookup key else none with
  | none => cache.ask key token now monotonic answer
  | some (verdict, deadline) =>
    if monotonic < deadline then (cache, .ok verdict)
    else { cache with entries := cache.entries.filter (·.1 ≠ key) }.ask key token now monotonic answer

def bearerToken (value : String) : Result String := do
  let scheme := value.toList.takeWhile (· ≠ ' ')
  require (' ' ∈ value.toList ∧ scheme.map Char.toLower = "bearer".toList)
    (.contract .unauthenticated "invalid bearer token")
  let token := strip (String.ofList (value.toList.drop (scheme.length + 1)))
  require (token ≠ [] ∧ token.any isSpace = false) (.contract .unauthenticated "invalid bearer token")
  pure (String.ofList token)

/-- A request with its times, and with what the issuer answers if asked. -/
structure AccessRequest where
  authorization : String
  (now monotonic : Time)
  answer : Result IntrospectionVerdict

structure TokenAccessGuard where
  verify : String → Time → Result AuthContext
  introspector : Option CachedIntrospector

/-- The checks of `authorize` on a verdict. -/
def IntrospectionVerdict.confirm (verdict : IntrospectionVerdict) (context : AuthContext) (current : Time) :
    Result AuthContext := do
  require (verdict.active = true) (.contract .unauthenticated "token is not active")
  require (∀ expiry ∈ verdict.expires_at, current < expiry) (.contract .unauthenticated "token is not active")
  require (∀ subject ∈ verdict.subject_id, subject = context.subject_id)
    (.contract .unauthenticated "introspection subject mismatch")
  require (∀ tenant ∈ verdict.tenant_id, tenant = context.tenant_id)
    (.contract .unauthenticated "introspection tenant mismatch")
  pure context

/-- Any other exception of the introspector becomes a contract violation. -/
def introspected : Result IntrospectionVerdict → Result IntrospectionVerdict
  | .ok verdict => .ok verdict
  | .error (.contract code message) => .error (.contract code message)
  | .error _ => .error (.contract .unauthenticated "token introspection failed")

def TokenAccessGuard.authorize [Hashing] (guard : TokenAccessGuard) (r : AccessRequest) :
    TokenAccessGuard × Result AuthContext :=
  match guard.verify r.authorization r.now, guard.introspector, bearerToken r.authorization with
  | .error e, _, _ => (guard, .error e)
  | .ok context, none, _ => (guard, .ok context)
  | .ok _, some _, .error e => (guard, .error e)
  | .ok context, some cache, .ok token =>
    let (cache, outcome) := cache.introspect token r.now r.monotonic r.answer
    ({ guard with introspector := some cache }, do (← introspected outcome).confirm context r.now)

/-- The guard after a list of requests, the newest first. -/
def TokenAccessGuard.after [Hashing] (guard : TokenAccessGuard) : List AccessRequest → TokenAccessGuard
  | [] => guard
  | r :: earlier => ((guard.after earlier).authorize r).1

/-- What the issuer behind the guard was asked so far. -/
def TokenAccessGuard.reports (guard : TokenAccessGuard) : List IssuerReport :=
  guard.introspector.elim [] (·.reports)

/-- `len` of the cache. -/
def TokenAccessGuard.size (guard : TokenAccessGuard) : ℕ := guard.introspector.elim 0 (·.entries.length)

/-! ## What the cache holds -/

section Dictionary

variable {κ α : Type} [DecidableEq κ] {entries : List (κ × α)} {key : κ} {value : α} {e : κ × α}

theorem mem_setItem (h : e ∈ setItem entries key value) : e ∈ entries ∨ e = (key, value) := by
  unfold setItem at h
  split_ifs at h
  · obtain ⟨e', he', rfl⟩ := List.mem_map.mp h
    split_ifs
    · exact .inr rfl
    · exact .inl he'
  · simpa using h

theorem length_setItem_le : (setItem entries key value).length ≤ entries.length + 1 := by
  unfold setItem
  split_ifs <;> simp

end Dictionary

namespace CachedIntrospector

variable [Hashing] {limits cache : CachedIntrospector} {offset : Time} {requests : List AccessRequest}
  {r : AccessRequest} {report : IssuerReport} {token : String} {verdict : IntrospectionVerdict}

omit [Hashing] in
theorem init_eq_ok {ttl_seconds max_entries : ℤ} (h : init ttl_seconds max_entries = .ok cache) :
    cache.entries = [] ∧ cache.reports = [] ∧ (cache.ttl_seconds : ℤ) = ttl_seconds ∧
      (cache.max_entries : ℤ) = max_entries := by
  unfold init at h
  split_ifs at h with httl hmax
  obtain rfl := pure_eq_ok.mp h
  exact ⟨rfl, rfl, Int.toNat_of_nonneg (by omega), Int.toNat_of_nonneg (by omega)⟩

/-- The cache was asked about tokens of the requests, and its entries rest on reports. -/
structure Backed (cache limits : CachedIntrospector) (offset : Time) (requests : List AccessRequest) : Prop where
  ttl : cache.ttl_seconds = limits.ttl_seconds
  max : cache.max_entries = limits.max_entries
  room : cache.entries.length ≤ cache.max_entries
  asked : ∀ report ∈ cache.reports, ∃ q ∈ requests, report.reported_at = q.now ∧
    bearerToken q.authorization = .ok report.token
  reported : ∀ e ∈ cache.entries, ∃ report ∈ cache.reports, Hashing.sha256 report.token = e.1 ∧
    report.answer = .ok e.2.1 ∧ e.2.2 = report.reported_at + offset + cache.ttl

theorem Backed.of_sublist (h : cache.Backed limits offset requests)
    {entries : List (Sha256 × IntrospectionVerdict × Time)} (hentries : entries.Sublist cache.entries) :
    Backed { cache with entries := entries } limits offset requests :=
  { h with
    room := hentries.length_le.trans h.room
    reported := fun e he => h.reported e (hentries.subset he) }

theorem Backed.mono (h : cache.Backed limits offset requests) {more : List AccessRequest} (hmore : requests ⊆ more) :
    cache.Backed limits offset more :=
  { h with asked := fun report hreport => (h.asked report hreport).imp fun _ hq => ⟨hmore hq.1, hq.2⟩ }

theorem Backed.set (h : cache.Backed limits offset requests) (hroom : cache.entries.length < cache.max_entries)
    (hmem : report ∈ cache.reports) (hverdict : report.answer = .ok verdict) : Backed { cache with
      entries := setItem cache.entries (Hashing.sha256 report.token)
        (verdict, report.reported_at + offset + cache.ttl) } limits offset requests := by
  refine { h with room := length_setItem_le.trans hroom, reported := fun e he => ?_ }
  rcases mem_setItem he with hold | rfl
  · exact h.reported e hold
  · exact ⟨report, hmem, rfl, hverdict, rfl⟩

theorem Backed.keep (h : cache.Backed limits offset requests) (hmem : report ∈ cache.reports)
    (hverdict : report.answer = .ok verdict) :
    (cache.keep (Hashing.sha256 report.token) verdict (report.reported_at + offset)).Backed limits offset requests := by
  unfold CachedIntrospector.keep
  split_ifs with hfull
  · have hevicted : (cache.evict (report.reported_at + offset)).Backed limits offset requests :=
      h.of_sublist ((List.drop_sublist _ _).trans List.filter_sublist)
    refine hevicted.set ?_ hmem hverdict
    have := cache.positive
    simp only [evict, List.length_drop]
    omega
  · exact h.set (not_le.mp hfull) hmem hverdict

omit [Hashing] in
theorem reports_ask {key : Sha256} {now monotonic : Time} {answer : Result IntrospectionVerdict} :
    (cache.ask key token now monotonic answer).1.reports = ⟨token, now, answer⟩ :: cache.reports := by
  unfold ask
  cases answer with
  | error e => rfl
  | ok verdict =>
    dsimp only
    split_ifs
    · rfl
    · unfold CachedIntrospector.keep
      split_ifs <;> rfl

/-- What `ask` leaves behind, and what it answers with. -/
theorem ask_spec (h : cache.Backed limits offset requests) (hr : r ∈ requests)
    (htoken : bearerToken r.authorization = .ok token) :
    let result := cache.ask (Hashing.sha256 token) token r.now (r.now + offset) r.answer
    result.1.Backed limits offset requests ∧ ⟨token, r.now, r.answer⟩ ∈ result.1.reports ∧ result.2 = r.answer := by
  rcases r with ⟨authorization, now, monotonic, answer⟩
  have hasked : Backed { cache with reports := ⟨token, now, answer⟩ :: cache.reports } limits offset requests :=
    { h with
      asked := List.forall_mem_cons.mpr ⟨⟨_, hr, rfl, htoken⟩, h.asked⟩
      reported := fun e he => (h.reported e he).imp fun _ hreport => ⟨List.mem_cons_of_mem _ hreport.1, hreport.2⟩ }
  simp only [reports_ask]
  unfold ask
  cases answer with
  | error e => exact ⟨hasked, List.mem_cons_self, rfl⟩
  | ok verdict =>
    dsimp only
    split_ifs
    · exact ⟨hasked, List.mem_cons_self, rfl⟩
    · exact ⟨hasked.keep List.mem_cons_self rfl, List.mem_cons_self, rfl⟩

/-- The report of this request, or an earlier one that has not run out. -/
def Sources (cache : CachedIntrospector) (token : String) (r : AccessRequest) (report : IssuerReport) : Prop :=
  report = ⟨token, r.now, r.answer⟩ ∨ report ∈ cache.reports ∧
    Hashing.sha256 report.token = Hashing.sha256 token ∧ r.now < report.reported_at + cache.ttl

/-- **One introspection** returns a report of now, or one that has not run out. -/
theorem introspect_spec (h : cache.Backed limits offset requests) (hr : r ∈ requests)
    (htoken : bearerToken r.authorization = .ok token) (hclock : r.monotonic = r.now + offset) :
    let result := cache.introspect token r.now r.monotonic r.answer
    result.1.Backed limits offset requests ∧ ∀ verdict, result.2 = .ok verdict → ∃ report ∈ result.1.reports,
      report.answer = .ok verdict ∧ cache.Sources token r report := by
  have hask : ∀ entries, entries.Sublist cache.entries →
      let result := { cache with entries := entries }.ask (Hashing.sha256 token) token r.now r.monotonic r.answer
      result.1.Backed limits offset requests ∧ ∀ verdict, result.2 = .ok verdict → ∃ report ∈ result.1.reports,
        report.answer = .ok verdict ∧ cache.Sources token r report := by
    intro entries hentries
    rw [hclock]
    obtain ⟨hbacked, hmem, hanswer⟩ := ask_spec (h.of_sublist hentries) hr htoken
    exact ⟨hbacked, fun verdict hok => ⟨_, hmem, hanswer.symm.trans hok, .inl rfl⟩⟩
  simp only [introspect]
  split
  · exact hask _ (List.Sublist.refl _)
  · rename_i verdict deadline hfound
    split_ifs with hlive
    · refine ⟨h, fun v hv => ?_⟩
      obtain rfl : verdict = v := by simpa using hv
      split_ifs at hfound
      obtain ⟨older, newer, hentries, -⟩ := List.lookup_eq_some_iff.mp hfound
      have hentry : (Hashing.sha256 token, verdict, deadline) ∈ cache.entries := by simp [hentries]
      obtain ⟨report, hmem, hkey, hanswer, rfl⟩ := h.reported _ hentry
      rw [hclock, add_right_comm] at hlive
      exact ⟨report, hmem, hanswer, .inr ⟨hmem, hkey, lt_of_add_lt_add_right hlive⟩⟩
    · exact hask _ List.filter_sublist

end CachedIntrospector

/-! ## What the guard accepts -/

section Guard

variable {limits cache : CachedIntrospector} {offset : Time}
  {requests : List AccessRequest} {r : AccessRequest} {context : AuthContext} {verdict : IntrospectionVerdict}

theorem confirm_eq_ok {current : AuthContext} {now : Time} :
    verdict.confirm current now = .ok context ↔ (verdict.active = true ∧
      (∀ expiry ∈ verdict.expires_at, now < expiry) ∧ (∀ subject ∈ verdict.subject_id, subject = current.subject_id) ∧
      ∀ tenant ∈ verdict.tenant_id, tenant = current.tenant_id) ∧ current = context := by
  simp only [IntrospectionVerdict.confirm, ok_iff, and_assoc]

theorem introspected_eq_ok {outcome : Result IntrospectionVerdict} :
    introspected outcome = .ok verdict ↔ outcome = .ok verdict := by
  unfold introspected
  split <;> simp

variable [Hashing]

/-- **One request.** The guard keeps its cache, and accepts only what it has verified and what a report of now, or
one that has not run out, admits. -/
theorem TokenAccessGuard.authorize_spec (verify : String → Time → Result AuthContext)
    (h : cache.Backed limits offset requests) (hr : r ∈ requests) (hclock : r.monotonic = r.now + offset) :
    ∃ now, (authorize ⟨verify, some cache⟩ r).1 = ⟨verify, some now⟩ ∧ now.Backed limits offset requests ∧
      ∀ context, (authorize ⟨verify, some cache⟩ r).2 = .ok context → verify r.authorization r.now = .ok context ∧
        ∃ token, bearerToken r.authorization = .ok token ∧ ∃ report ∈ now.reports, ∃ verdict,
          report.answer = .ok verdict ∧ verdict.confirm context r.now = .ok context ∧
          cache.Sources token r report := by
  unfold authorize
  split
  case h_2 hnone => cases hnone
  case h_4 current before token hverified hbefore htoken =>
    obtain rfl := Option.some.inj hbefore
    obtain ⟨hbacked, hreported⟩ := CachedIntrospector.introspect_spec h hr htoken hclock
    refine ⟨_, rfl, hbacked, fun context hok => ?_⟩
    obtain ⟨verdict, hverdict, hadmits⟩ := bind_eq_ok.mp hok
    obtain ⟨-, rfl⟩ := confirm_eq_ok.mp hadmits
    obtain ⟨report, hmem, hanswer, hsource⟩ := hreported verdict (introspected_eq_ok.mp hverdict)
    exact ⟨hverified, token, htoken, report, hmem, verdict, hanswer, hadmits, hsource⟩
  all_goals exact ⟨cache, rfl, h, fun context hok => by cases hok⟩

theorem TokenAccessGuard.after_backed (verify : String → Time → Result AuthContext)
    (hentries : cache.entries = []) (hreports : cache.reports = []) (hclocks : ∀ q ∈ requests, q.monotonic = q.now + offset) :
    ∃ now, after ⟨verify, some cache⟩ requests = ⟨verify, some now⟩ ∧ now.Backed cache offset requests := by
  induction requests with
  | nil =>
    refine ⟨cache, rfl, rfl, rfl, by simp [hentries], ?_, ?_⟩
    · simp [hreports]
    · simp [hentries]
  | cons r earlier ih =>
    obtain ⟨hclock, hclocks⟩ := List.forall_mem_cons.mp hclocks
    obtain ⟨before, hbefore, hbacked⟩ := ih hclocks
    have hmore := hbacked.mono (List.subset_cons_self r earlier)
    obtain ⟨now, hnow, hkept, -⟩ := authorize_spec verify hmore List.mem_cons_self hclock
    exact ⟨now, by rw [after, hbefore, hnow], hkept⟩

end Guard

/-- **Revocation latency.** Requests come in the order of their times, the two clocks advance together, and the
digests of the presented tokens do not collide. Of every such sequence the cache holds at most `max_entries` verdicts,
and a token that is accepted was verified now and was reported active within the lifetime of the cache, in this
request or, if the issuer fails now, in an earlier one; the report contradicts neither the identity nor the time. -/
theorem revocation_latency [Hashing] (verify : String → Time → Result AuthContext) {ttl_seconds max_entries : ℤ}
    {cache : CachedIntrospector} (hcache : CachedIntrospector.init ttl_seconds max_entries = .ok cache)
    {r : AccessRequest} {earlier : List AccessRequest} {offset : Time}
    (hclocks : ∀ q ∈ r :: earlier, q.monotonic = q.now + offset)
    (htimes : (r :: earlier).Pairwise fun q p => p.now ≤ q.now)
    (hdigests : ∀ q ∈ r :: earlier, ∀ p ∈ r :: earlier, ∀ s t, bearerToken q.authorization = .ok s →
      bearerToken p.authorization = .ok t → Hashing.sha256 s = Hashing.sha256 t → s = t) :
    let guard := TokenAccessGuard.after ⟨verify, some cache⟩ earlier
    guard.size ≤ max_entries ∧ ∀ context, (guard.authorize r).2 = .ok context →
      verify r.authorization r.now = .ok context ∧ ∃ report ∈ (guard.authorize r).1.reports, ∃ verdict,
        bearerToken r.authorization = .ok report.token ∧ report.answer = .ok verdict ∧ verdict.active = true ∧
        report.reported_at ≤ r.now ∧ r.now ≤ report.reported_at + 1000000 * ttl_seconds ∧
        (∀ e, r.answer = .error e → report ∈ guard.reports) ∧
        (∀ expiry ∈ verdict.expires_at, r.now < expiry) ∧
        (∀ subject ∈ verdict.subject_id, subject = context.subject_id) ∧
        ∀ tenant ∈ verdict.tenant_id, tenant = context.tenant_id := by
  obtain ⟨hentries, hreports, httl, hmax⟩ := CachedIntrospector.init_eq_ok hcache
  obtain ⟨hclock, hearlier⟩ := List.forall_mem_cons.mp hclocks
  obtain ⟨before, hbefore, hbacked⟩ := TokenAccessGuard.after_backed verify hentries hreports hearlier
  have hmore : before.Backed cache offset (r :: earlier) := hbacked.mono (List.subset_cons_self _ _)
  obtain ⟨now, hnow, -, haccepts⟩ := TokenAccessGuard.authorize_spec verify hmore List.mem_cons_self hclock
  rw [hbefore]
  refine ⟨?_, fun context hok => ?_⟩
  · have hsize : before.entries.length ≤ cache.max_entries := hbacked.max ▸ hbacked.room
    exact hmax ▸ Int.ofNat_le.mpr hsize
  obtain ⟨hverified, token, htoken, report, hreport, verdict, hanswer, hadmits, hsource⟩ := haccepts context hok
  obtain ⟨⟨hactive, hadmits⟩, -⟩ := confirm_eq_ok.mp hadmits
  rw [CachedIntrospector.Sources, CachedIntrospector.ttl, hbacked.ttl, httl] at hsource
  refine ⟨hverified, report, by rw [hnow]; exact hreport, verdict, ?_⟩
  rcases hsource with rfl | ⟨hmem, hdigest, hlive⟩
  · -- The issuer was asked now.
    have hnow : r.now ≤ r.now + 1000000 * ttl_seconds :=
      le_add_of_nonneg_right (mul_nonneg (by decide) (httl ▸ Int.natCast_nonneg _))
    exact ⟨htoken, hanswer, hactive, le_refl r.now, hnow, fun e he => by simp_all, hadmits⟩
  · obtain ⟨q, hq, hat, htoken'⟩ := hbacked.asked report hmem
    have hsame := hdigests q (List.mem_cons_of_mem _ hq) r List.mem_cons_self _ _ htoken' htoken hdigest
    have hpast : report.reported_at ≤ r.now := hat ▸ (List.pairwise_cons.mp htimes).1 q hq
    exact ⟨hsame ▸ htoken, hanswer, hactive, hpast, le_of_lt hlive, fun _ _ => hmem, hadmits⟩

/-- The issuer fails a second after it has reported the token active. -/
theorem failed_introspection_served :
    let reported : AccessRequest := ⟨"Bearer token-1", 0, 5, .ok ⟨true, none, none, none⟩⟩
    let failing : AccessRequest := ⟨"Bearer token-1", 1000000, 1000005, .error .value⟩
    let identity := sampleIdentity firstSubject [] none
    let guard := @TokenAccessGuard.after sampleHashing
      ⟨fun _ _ => .ok identity, some ⟨5, 1, by decide, [], []⟩⟩ [reported]
    (@TokenAccessGuard.authorize sampleHashing guard failing).2 = .ok identity ∧ guard.size ≤ 1 ∧
      ∃ report ∈ guard.reports, (1000000 : Time) ≤ report.reported_at + 5000000 := by
  intro reported failing identity guard
  have htoken : bearerToken "Bearer token-1" = .ok "token-1" := by decide
  have hok : (@TokenAccessGuard.authorize sampleHashing guard failing).2 = .ok identity := by
    simp only [guard, reported, failing, TokenAccessGuard.after, TokenAccessGuard.authorize, htoken]
    rfl
  have hsame : ∀ q ∈ [failing, reported], q.authorization = "Bearer token-1" := by decide
  obtain ⟨hsize, haccepted⟩ := @revocation_latency sampleHashing (fun _ _ => .ok identity) 5 1
    ⟨5, 1, by decide, [], []⟩ rfl failing [reported] 5 (by decide) (by decide) fun q hq p hp s t hs ht _ => by
      rw [hsame q hq, htoken] at hs
      rw [hsame p hp, htoken] at ht
      exact Except.ok.inj (hs.symm.trans ht)
  obtain ⟨-, report, -, -, -, -, -, -, hlive, hold, -⟩ := haccepted identity hok
  exact ⟨hok, by exact_mod_cast hsize, report, hold _ rfl, hlive⟩

/-! ## Verdicts that run out -/

/-- A call of `introspect`, with what the issuer answers if it is asked. -/
structure IntrospectCall where
  token : String
  (now monotonic : Time)
  answer : Result IntrospectionVerdict

namespace CachedIntrospector

variable {cache : CachedIntrospector} {offset ttl now : Time} {key : Sha256} {token : String}
  {verdict : IntrospectionVerdict} {answer : Result IntrospectionVerdict}

/-- No verdict is kept beyond its own expiry. -/
structure Lasting (cache : CachedIntrospector) (ttl offset : Time) : Prop where
  ttl_eq : cache.ttl = ttl
  expires : ∀ e ∈ cache.entries, ∀ expiry ∈ e.2.1.expires_at, e.2.2 ≤ expiry + offset

/-- The expiry has passed, or it is not before the end of the verdict's lifetime in the cache. -/
def Outlasts (ttl now : Time) (answer : Result IntrospectionVerdict) : Prop :=
  ∀ verdict, answer = .ok verdict → ∀ expiry ∈ verdict.expires_at, expiry ≤ now ∨ now + ttl ≤ expiry

theorem Lasting.keep (h : cache.Lasting ttl offset) (hlong : ∀ expiry ∈ verdict.expires_at, now + ttl ≤ expiry) :
    (cache.keep key verdict (now + offset)).Lasting ttl offset := by
  have hset : ∀ entries : List (Sha256 × IntrospectionVerdict × Time), (∀ e ∈ entries, e ∈ cache.entries) →
      Lasting { cache with entries := setItem entries key (verdict, now + offset + cache.ttl) } ttl offset := by
    refine fun entries hold => ⟨h.ttl_eq, fun e he expiry hexpiry => ?_⟩
    rcases mem_setItem he with he | rfl
    · exact h.expires e (hold e he) expiry hexpiry
    · rw [h.ttl_eq, add_right_comm]
      exact add_le_add_left (hlong expiry hexpiry) offset
  unfold CachedIntrospector.keep
  split_ifs
  · exact hset _ fun e he => List.mem_of_mem_filter (List.mem_of_mem_drop he)
  · exact hset _ fun e he => he

theorem Lasting.ask (h : cache.Lasting ttl offset) (hlong : Outlasts ttl now answer) :
    (cache.ask key token now (now + offset) answer).1.Lasting ttl offset := by
  have hasked : Lasting { cache with reports := ⟨token, now, answer⟩ :: cache.reports } ttl offset :=
    ⟨h.ttl_eq, h.expires⟩
  unfold CachedIntrospector.ask
  cases answer with
  | error e => exact hasked
  | ok verdict =>
    dsimp only
    split_ifs with hover
    · exact hasked
    · refine hasked.keep fun expiry hexpiry => (hlong verdict rfl expiry hexpiry).resolve_left fun hle => ?_
      exact hover (.inr ⟨expiry, hexpiry, hle⟩)

variable [Hashing]

theorem Lasting.introspect (h : cache.Lasting ttl offset) (hlong : Outlasts ttl now answer) :
    (cache.introspect token now (now + offset) answer).1.Lasting ttl offset := by
  simp only [CachedIntrospector.introspect]
  split
  · exact h.ask hlong
  · split_ifs
    · exact h
    · exact Lasting.ask ⟨h.ttl_eq, fun e he => h.expires e (List.mem_of_mem_filter he)⟩ hlong

/-- What is answered without a question to the issuer is an entry in use. -/
theorem introspect_cached {monotonic : Time}
    (hcached : (cache.introspect token now monotonic answer).1.reports = cache.reports)
    (hok : (cache.introspect token now monotonic answer).2 = .ok verdict) :
    ∃ e ∈ cache.entries, e.2.1 = verdict ∧ monotonic < e.2.2 := by
  simp only [CachedIntrospector.introspect] at hcached hok
  split at hcached
  · rw [reports_ask] at hcached
    exact absurd hcached (List.cons_ne_self _ _)
  · rename_i kept deadline hfound
    simp only [hfound] at hok
    split_ifs at hcached hok hfound with hlive
    · obtain ⟨older, newer, hentries, -⟩ := List.lookup_eq_some_iff.mp hfound
      exact ⟨(Hashing.sha256 token, kept, deadline), by simp [hentries], Except.ok.inj hok, hlive⟩
    · rw [reports_ask] at hcached
      exact absurd hcached (List.cons_ne_self _ _)

/-- The cache after a list of calls, the newest first. -/
def served (cache : CachedIntrospector) : List IntrospectCall → CachedIntrospector
  | [] => cache
  | c :: earlier => ((cache.served earlier).introspect c.token c.now c.monotonic c.answer).1

theorem Lasting.served (h : cache.Lasting ttl offset) {calls : List IntrospectCall}
    (hclocks : ∀ q ∈ calls, q.monotonic = q.now + offset) (hlong : ∀ q ∈ calls, Outlasts ttl q.now q.answer) :
    (cache.served calls).Lasting ttl offset := by
  induction calls with
  | nil => exact h
  | cons c earlier ih =>
    obtain ⟨hclock, hclocks⟩ := List.forall_mem_cons.mp hclocks
    obtain ⟨hnow, hlong⟩ := List.forall_mem_cons.mp hlong
    rw [CachedIntrospector.served, hclock]
    exact (ih hclocks hlong).introspect hnow

end CachedIntrospector

/-- A verdict from the cache has not expired, if every verdict that the issuer reports has no expiry, one that has
passed, or one that is not before the end of its lifetime in the cache. -/
theorem cached_verdict_unexpired [Hashing] {ttl_seconds max_entries : ℤ} {cache : CachedIntrospector}
    (hcache : CachedIntrospector.init ttl_seconds max_entries = .ok cache) {c : IntrospectCall}
    {earlier : List IntrospectCall} {offset : Time} (hclocks : ∀ q ∈ c :: earlier, q.monotonic = q.now + offset)
    (hlong : ∀ q ∈ earlier, CachedIntrospector.Outlasts (1000000 * ttl_seconds) q.now q.answer) :
    let before := cache.served earlier
    let result := before.introspect c.token c.now c.monotonic c.answer
    result.1.reports = before.reports → ∀ verdict, result.2 = .ok verdict →
      ∀ expiry ∈ verdict.expires_at, c.now < expiry := by
  intro before result hcached verdict hok expiry hexpiry
  obtain ⟨hentries, -, httl, -⟩ := CachedIntrospector.init_eq_ok hcache
  obtain ⟨hclock, hearlier⟩ := List.forall_mem_cons.mp hclocks
  have hempty : cache.Lasting (1000000 * ttl_seconds) offset :=
    ⟨by rw [CachedIntrospector.ttl, httl], by simp [hentries]⟩
  obtain ⟨e, he, rfl, hlive⟩ := CachedIntrospector.introspect_cached hcached hok
  have hdeadline := (hempty.served hearlier hlong).expires e he expiry hexpiry
  rw [hclock] at hlive
  exact lt_of_add_lt_add_right (lt_of_lt_of_le hlive hdeadline)

/-- A cache of five seconds, with the verdict that was reported about a token at time zero. -/
def filledCache (expiry : Time) : CachedIntrospector :=
  @CachedIntrospector.served sampleHashing ⟨5, 1, by decide, [], []⟩
    [⟨"token-1", 0, 5, .ok ⟨true, none, none, some expiry⟩⟩]

/-- What is answered about the token three seconds later, while the issuer fails. -/
def laterAnswer (expiry : Time) : CachedIntrospector × Result IntrospectionVerdict :=
  @CachedIntrospector.introspect sampleHashing (filledCache expiry) "token-1" 3000000 3000005 (.error .value)

/-- The verdict lasts as long as its entry. -/
theorem cached_verdict_unexpired_later :
    (laterAnswer 5000000).2 = .ok ⟨true, none, none, some 5000000⟩ ∧ (3000000 : Time) < 5000000 := by
  refine ⟨rfl, @cached_verdict_unexpired sampleHashing 5 1 _ rfl ⟨"token-1", 3000000, 3000005, .error .value⟩
    [⟨"token-1", 0, 5, .ok ⟨true, none, none, some 5000000⟩⟩] 5 (by decide) ?_ rfl _ rfl _ rfl⟩
  intro q hq verdict hverdict expiry hexpiry
  obtain rfl := List.mem_singleton.mp hq
  cases hverdict
  cases hexpiry
  exact .inr (by decide)

/-- The verdict expires a second after its report, and is still answered two seconds later. -/
theorem cached_verdict_expired : (laterAnswer 1000000).1.reports = (filledCache 1000000).reports ∧
    (laterAnswer 1000000).2 = .ok ⟨true, none, none, some 1000000⟩ ∧ (1000000 : Time) < 3000000 :=
  ⟨rfl, rfl, by decide⟩

end Aftercare
