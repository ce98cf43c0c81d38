import QuantAgent.Auth.QuotaBound

namespace QuantAgent.TokenQuota
set_option autoImplicit true

section Reservations
variable {κ : Type} {r r' : Redis} {counts : List (Count κ)}

/-- The call was charged for its idempotency key and left a reservation for it. -/
def Count.Reserves (e : Count κ) (key : RedisKey) : Prop :=
  e.reservation = some key ∧ e.fresh ∧ e.used ≤ e.token.quotaLimit

/-- While the reservation of `e` lives, a call with the same key is not charged. -/
def Count.Covers (e e' : Count κ) : Prop :=
  ∀ key, e.Reserves key → e'.reservation = some key → e'.time < e.time + e.token.window →
    e'.fresh = false ∧ e'.used = 0

structure Reserved (r : Redis) (counts : List (Count κ)) : Prop where
  lives : ∀ e ∈ counts, ∀ key, e.Reserves key → (∃ fingerprint, key = .admission fingerprint) ∧
    ∃ entry d, r.entries key = some entry ∧ entry.deadline = some d ∧ e.time + e.token.window ≤ d
  covers : counts.Pairwise Count.Covers

theorem Reserved.of_entries (h : Reserved r counts)
    (hentries : ∀ f, r'.entries (.admission f) = r.entries (.admission f)) : Reserved r' counts := by
  refine ⟨fun e he key hkey => ?_, h.covers⟩
  obtain ⟨⟨f, rfl⟩, entry, d, hentry, hd, hle⟩ := h.lives e he key hkey
  exact ⟨⟨f, rfl⟩, entry, d, (hentries f).trans hentry, hd, hle⟩

theorem Reserved.append (h : Reserved r counts) {n : Count κ}
    (hnot : ∀ key, ¬ n.Reserves key) (hcovers : ∀ e ∈ counts, e.Covers n) :
    Reserved r (counts ++ [n]) := by
  refine ⟨fun e he key hkey => ?_, ?_⟩
  · rcases List.mem_append.mp he with he | he
    · exact h.lives e he key hkey
    · obtain rfl := List.mem_singleton.mp he
      exact absurd hkey (hnot key)
  · rw [List.pairwise_append]
    refine ⟨h.covers, List.pairwise_singleton _ _, fun e he n' hn' => ?_⟩
    obtain rfl := List.mem_singleton.mp hn'
    exact hcovers e he

/-- A key without a live reservation is covered by no earlier call. -/
theorem Reserved.covers_of_dead (h : Reserved r counts) {n : Count κ}
    (hkey : n.reservation = some key) (htime : n.time = r.now) (hdead : r.live key = none) :
    ∀ e ∈ counts, e.Covers n := by
  intro e he key' hreserves hkey' hlt
  obtain rfl : key = key' := Option.some.inj (hkey.symm.trans hkey')
  obtain ⟨-, entry, d, hentry, hd, hle⟩ := h.lives e he key hreserves
  have hlive := Redis.live_of_entry hentry hd ((htime ▸ hlt).trans_le hle)
  rw [hdead] at hlive
  cases hlive

theorem Reserved.setNew (h : Reserved r counts) {n : Count κ}
    (hkey : n.reservation = some (.admission f)) (htime : n.time = r.now)
    (hdead : r.live (.admission f) = none) :
    Reserved (r.setNew (.admission f) n.token.window) (counts ++ [n]) := by
  have hset : (r.setNew (.admission f) n.token.window).entries (.admission f) =
      some ⟨1, some (r.now + n.token.window)⟩ := by
    rw [Redis.setNew, hdead]
    exact Function.update_self ..
  refine ⟨fun e he key hreserves => ?_, ?_⟩
  · rcases List.mem_append.mp he with he | he
    · obtain ⟨⟨f', rfl⟩, entry, d, hentry, hd, hle⟩ := h.lives e he key hreserves
      refine ⟨⟨f', rfl⟩, ?_⟩
      by_cases hf : f' = f
      · subst hf
        refine ⟨_, _, hset, rfl, ?_⟩
        -- the reservation it replaces has expired
        have hgone : d ≤ r.now := by
          by_contra hnot
          rw [Redis.live_of_entry hentry hd (not_le.mp hnot)] at hdead
          cases hdead
        have hwindow : (0 : ℚ) ≤ n.token.window := Nat.cast_nonneg _
        linarith
      · have hne : RedisKey.admission f' ≠ .admission f := fun hx => hf (RedisKey.admission.inj hx)
        exact ⟨entry, d, (Redis.entries_setNew_of_ne hne).trans hentry, hd, hle⟩
    · obtain rfl := List.mem_singleton.mp he
      obtain rfl : RedisKey.admission f = key := Option.some.inj (hkey.symm.trans hreserves.1)
      exact ⟨⟨f, rfl⟩, _, _, hset, rfl, by rw [htime]⟩
  · rw [List.pairwise_append]
    refine ⟨h.covers, List.pairwise_singleton _ _, fun e he n' hn' => ?_⟩
    obtain rfl := List.mem_singleton.mp hn'
    exact h.covers_of_dead hkey htime hdead e he

end Reservations

namespace QuotaSystem
variable {κ : Type}

/-- A token id always stands for one record, and no process's clock is ahead of Redis's. -/
def Admits (tokens : String → ResolvedAccountToken) (s : QuotaSystem κ) : QuotaAction κ → Prop
  | .tick _ => True
  | .start _ token _ => tokens token.tokenId = token
  | .deliver _ clock => clock ≤ s.redis.now

instance (tokens : String → ResolvedAccountToken) (s : QuotaSystem κ) (a : QuotaAction κ) :
    Decidable (s.Admits tokens a) :=
  match a with
  | .tick _ => inferInstanceAs (Decidable True)
  | .start _ token _ => inferInstanceAs (Decidable (tokens token.tokenId = token))
  | .deliver _ clock => inferInstanceAs (Decidable (clock ≤ s.redis.now))

/-- Where a call is: not stamped with a window yet, stamped, counted, or done. -/
inductive Phase (hexdigest : String → String) (s : QuotaSystem κ) (c : κ) (call : QuotaCall) : Prop
  | asked (hnew : c ∉ s.counts.map Count.caller)
      (h : call.program = call.token.checkAndConsume hexdigest call.idempotencyKey)
  | stamped (bucket : ℤ) (hnew : c ∉ s.counts.map Count.caller)
      (hbegun : bucket * (call.token.window : ℚ) ≤ s.redis.now)
      (h : call.program = call.token.consume hexdigest call.idempotencyKey bucket)
  | counted (e : Count κ) (bucket : ℤ) (he : e ∈ s.counts) (hcaller : e.caller = c)
      (htoken : e.token = call.token)
      (hbegun : bucket * (call.token.window : ℚ) ≤ s.redis.now)
      (h : call.program = .call (.expire (call.token.quotaKey bucket) call.token.window)
        fun _ => .done (call.token.verdict e.used))
  | returned (e : Count κ) (he : e ∈ s.counts) (hcaller : e.caller = c)
      (htoken : e.token = call.token) (h : call.program = .done (call.token.verdict e.used))

/-- Time goes on and other calls are counted. -/
theorem Phase.mono {s s' : QuotaSystem κ} (h : s.Phase hexdigest c call)
    (hnow : s.redis.now ≤ s'.redis.now) (hcounts : s'.counts = s.counts ++ more)
    (hothers : ∀ n ∈ more, n.caller ≠ c) : s'.Phase hexdigest c call := by
  have hstill : c ∉ s.counts.map Count.caller → c ∉ s'.counts.map Count.caller := by
    intro hnew hmem
    rw [hcounts, List.map_append, List.mem_append] at hmem
    rcases hmem with hmem | hmem
    · exact hnew hmem
    · obtain ⟨n, hn, hcaller⟩ := List.mem_map.mp hmem
      exact hothers n hn hcaller
  have hin : ∀ e ∈ s.counts, e ∈ s'.counts := by
    intro e he
    rw [hcounts]
    exact List.mem_append_left _ he
  cases h with
  | asked hnew h => exact .asked (hstill hnew) h
  | stamped bucket hnew hbegun h => exact .stamped bucket (hstill hnew) (hbegun.trans hnow) h
  | counted e bucket he hcaller htoken hbegun h =>
    exact .counted e bucket (hin e he) hcaller htoken (hbegun.trans hnow) h
  | returned e he hcaller htoken h => exact .returned e (hin e he) hcaller htoken h

structure Safe (hexdigest : String → String) (tokens : String → ResolvedAccountToken)
    (s : QuotaSystem κ) : Prop where
  numbered : Numbered tokens s.redis s.counts
  reserved : Reserved s.redis s.counts
  callers : (s.counts.map Count.caller).Nodup
  known : ∀ e ∈ s.counts, s.calls e.caller ≠ none
  calls : ∀ c call, s.calls c = some call →
    tokens call.token.tokenId = call.token ∧ s.Phase hexdigest c call

theorem Safe.idle : (idle now : QuotaSystem κ).Safe hexdigest tokens := by
  refine ⟨⟨fun token bucket e d _ hentry => ?_, fun _ _ _ _ => rfl, fun _ _ => rfl⟩,
    ⟨fun e he => ?_, .nil⟩, List.nodup_nil, fun e he => ?_, fun c call hc => ?_⟩
  · cases hentry
  · cases he
  · cases he
  · cases hc

/-- A call that has returned was counted, and got the verdict on its number. -/
theorem Safe.returned {s : QuotaSystem κ} (h : s.Safe hexdigest tokens)
    (he : e ∈ s.counts) (hcall : s.calls e.caller = some call) (hdone : call.program = .done r) :
    r = e.token.verdict e.used := by
  have hnew : ∀ {c}, c ∉ s.counts.map Count.caller → e.caller ≠ c := by
    rintro _ hnot rfl
    exact hnot (List.mem_map_of_mem he)
  obtain ⟨-, hphase⟩ := h.calls e.caller call hcall
  cases hphase with
  | asked hnot _ => exact absurd rfl (hnew hnot)
  | stamped _ hnot _ _ => exact absurd rfl (hnew hnot)
  | counted e' bucket _ _ _ _ hprogram =>
    rw [hdone] at hprogram
    cases hprogram
  | returned e' he' hcaller htoken hprogram =>
    rw [hdone] at hprogram
    obtain rfl : e' = e := List.inj_on_of_nodup_map h.callers he' he hcaller
    rw [Prog.done.inj hprogram, htoken]

theorem Safe.allowed {s : QuotaSystem κ} (h : s.Safe hexdigest tokens) (he : e ∈ s.counts)
    (hallowed : s.allowed e.caller) : e.used ≤ e.token.quotaLimit := by
  rw [QuotaSystem.allowed] at hallowed
  split at hallowed
  · rename_i hcall
    exact e.token.verdict_ok (h.returned he hcall rfl).symm
  · cases hallowed

variable [DecidableEq κ]

inductive Reachable (hexdigest : String → String) (tokens : String → ResolvedAccountToken) :
    QuotaSystem κ → Prop
  | idle (now : ℚ) : Reachable hexdigest tokens (idle now)
  | step (h : Reachable hexdigest tokens s) (a : QuotaAction κ) (ha : s.Admits tokens a) :
      Reachable hexdigest tokens (s.step hexdigest a)

/-- One call goes on: Redis and the history keep their invariants, and so do the other calls. -/
theorem Safe.update {s : QuotaSystem κ} (h : s.Safe hexdigest tokens)
    (htoken : tokens call.token.tokenId = call.token) (hnow : s.redis.now ≤ r.now)
    (hmore : ∀ n ∈ more, n.caller = c) (hlen : more.length ≤ 1)
    (hnew : more ≠ [] → c ∉ s.counts.map Count.caller)
    (hnumbered : Numbered tokens r (s.counts ++ more)) (hreserved : Reserved r (s.counts ++ more))
    (hphase : Phase hexdigest ⟨r, Function.update s.calls c (some call), s.counts ++ more⟩ c call) :
    Safe hexdigest tokens ⟨r, Function.update s.calls c (some call), s.counts ++ more⟩ := by
  refine ⟨hnumbered, hreserved, ?_, fun e he => ?_, fun c' call' hc' => ?_⟩
  · rw [List.map_append, List.nodup_append]
    cases more with
    | nil => exact ⟨h.callers, List.nodup_nil, fun _ _ _ hb => nomatch hb⟩
    | cons n more =>
      obtain rfl : more = [] := List.length_eq_zero_iff.mp (by simpa using hlen)
      refine ⟨h.callers, List.nodup_singleton _, fun a ha b hb hab => ?_⟩
      obtain rfl := List.mem_singleton.mp hb
      rw [hab, hmore n (List.mem_cons_self ..)] at ha
      exact hnew (List.cons_ne_nil _ _) ha
  · change Function.update s.calls c (some call) e.caller ≠ none
    by_cases hcaller : e.caller = c
    · rw [hcaller, Function.update_self]
      exact nofun
    · rw [Function.update_of_ne hcaller]
      rcases List.mem_append.mp he with he | he
      · exact h.known e he
      · exact absurd (hmore e he) hcaller
  · rcases update_eq_some hc' with ⟨rfl, rfl⟩ | ⟨hne, hold⟩
    · exact ⟨htoken, hphase⟩
    · obtain ⟨htoken', hphase'⟩ := h.calls c' call' hold
      exact ⟨htoken', hphase'.mono hnow rfl fun n hn => (hmore n hn).trans_ne hne.symm⟩

/-- One call goes on without being counted. -/
theorem Safe.uncounted {s : QuotaSystem κ} (h : s.Safe hexdigest tokens) (call : QuotaCall)
    (htoken : tokens call.token.tokenId = call.token) (hnow : s.redis.now ≤ r.now)
    (hnumbered : Numbered tokens r s.counts) (hreserved : Reserved r s.counts)
    (hphase : Phase hexdigest ⟨r, Function.update s.calls c (some call), s.counts⟩ c call) :
    Safe hexdigest tokens ⟨r, Function.update s.calls c (some call), s.counts⟩ := by
  rw [← List.append_nil s.counts] at hnumbered hreserved hphase ⊢
  apply h.update htoken hnow
  · exact fun _ hn => nomatch hn
  · exact Nat.zero_le _
  · exact absurd rfl
  · exact hnumbered
  · exact hreserved
  · exact hphase

theorem Safe.tick {s : QuotaSystem κ} (h : s.Safe hexdigest tokens) :
    (s.step hexdigest (.tick later)).Safe hexdigest tokens := by
  have hlater : s.redis.now ≤ max s.redis.now later := le_max_left _ _
  refine ⟨h.numbered.tick hlater, h.reserved.of_entries fun _ => rfl, h.callers, h.known,
    fun c call hc => ?_⟩
  obtain ⟨htoken, hphase⟩ := h.calls c call hc
  exact ⟨htoken, hphase.mono hlater (List.append_nil _).symm fun _ hn => nomatch hn⟩

theorem Safe.start {s : QuotaSystem κ} (h : s.Safe hexdigest tokens)
    (htoken : tokens token.tokenId = token) :
    (s.step hexdigest (.start c token key)).Safe hexdigest tokens := by
  rw [step]
  split
  · exact h
  · rename_i hnone
    have hfree : c ∉ s.counts.map Count.caller := by
      intro hmem
      obtain ⟨e, he, rfl⟩ := List.mem_map.mp hmem
      exact h.known e he hnone
    exact h.uncounted ⟨token, key, _⟩ htoken le_rfl h.numbered h.reserved (.asked hfree rfl)

/-- One call is counted. -/
theorem Safe.count {s : QuotaSystem κ} (h : s.Safe hexdigest tokens) {n : Count κ}
    (htoken : tokens call.token.tokenId = call.token) (hnow : s.redis.now ≤ r.now)
    (hnew : n.caller ∉ s.counts.map Count.caller) (hnumbered : Numbered tokens r (s.counts ++ [n]))
    (hreserved : Reserved r (s.counts ++ [n]))
    (hphase : Phase hexdigest
      ⟨r, Function.update s.calls n.caller (some call), s.counts ++ [n]⟩ n.caller call) :
    Safe hexdigest tokens ⟨r, Function.update s.calls n.caller (some call), s.counts ++ [n]⟩ := by
  apply h.update htoken hnow _ le_rfl (fun _ => hnew) hnumbered hreserved hphase
  intro n' hn'
  rw [List.mem_singleton.mp hn']

/-- A stamped call without a key: its `INCR` counts it, and the first one is yet to set the expiry. -/
theorem Safe.incr {s : QuotaSystem κ} (h : s.Safe hexdigest tokens)
    (htoken : tokens token.tokenId = token) {bucket : ℤ}
    (hbegun : bucket * (token.window : ℚ) ≤ s.redis.now)
    (hnew : c ∉ s.counts.map Count.caller) {program : QuotaProgram (Except HTTPException Unit)}
    (hprogram : program = if s.redis.value (token.quotaKey bucket) + 1 = 1 then
        .call (.expire (token.quotaKey bucket) token.window)
          fun _ => .done (token.verdict (s.redis.value (token.quotaKey bucket) + 1))
      else .done (token.verdict (s.redis.value (token.quotaKey bucket) + 1))) :
    Safe hexdigest tokens ⟨s.redis.incr (token.quotaKey bucket),
      Function.update s.calls c (some ⟨token, key, program⟩),
      s.counts ++ [⟨c, token, none, bucket, s.redis.now,
        s.redis.value (token.quotaKey bucket) + 1, true⟩]⟩ := by
  have hentries : ∀ f, (s.redis.incr (token.quotaKey bucket)).entries (.admission f) =
      s.redis.entries (.admission f) := fun _ => Redis.entries_put_of_ne RedisKey.noConfusion
  have hnow : s.redis.now ≤ (s.redis.incr (token.quotaKey bucket)).now := le_rfl
  apply h.count (n := ⟨c, token, none, bucket, s.redis.now, _, true⟩) htoken hnow hnew
  · exact h.numbered.incr (n := ⟨c, token, none, bucket, s.redis.now, _, true⟩) htoken rfl rfl rfl
  · apply (h.reserved.of_entries hentries).append
    · exact fun k hk => nomatch hk.1
    · exact fun e _ k _ hk => nomatch hk
  · have hmem := List.mem_append_right s.counts (List.mem_singleton_self
      (⟨c, token, none, bucket, s.redis.now, s.redis.value (token.quotaKey bucket) + 1, true⟩ :
        Count κ))
    by_cases hfirst : s.redis.value (token.quotaKey bucket) + 1 = 1
    · rw [if_pos hfirst] at hprogram
      exact .counted _ bucket hmem rfl rfl hbegun hprogram
    · rw [if_neg hfirst] at hprogram
      exact .returned _ hmem rfl rfl hprogram

/-- A stamped call with a key: the script answers a retry, or counts the call. -/
theorem Safe.eval {s : QuotaSystem κ} (h : s.Safe hexdigest tokens)
    (htoken : tokens token.tokenId = token) {bucket : ℤ}
    (hbegun : bucket * (token.window : ℚ) ≤ s.redis.now)
    (hnew : c ∉ s.counts.map Count.caller)
    (hreserve : s.redis.reserve (token.quotaKey bucket) (.admission f) token.window
      token.quotaLimit = ((decision, used), r)) :
    Safe hexdigest tokens ⟨r, Function.update s.calls c
        (some ⟨token, key, .done (token.verdict (if decision = 0 then 0 else used))⟩),
      s.counts ++ [⟨c, token, some (.admission f), bucket, s.redis.now, used,
        decide (decision ≠ 0)⟩]⟩ := by
  have hentries : ∀ f, (s.redis.incr (token.quotaKey bucket)).entries (.admission f) =
      s.redis.entries (.admission f) := fun _ => Redis.entries_put_of_ne RedisKey.noConfusion
  have hmem := List.mem_append_right s.counts (List.mem_singleton_self
    (⟨c, token, some (.admission f), bucket, s.redis.now, used, decide (decision ≠ 0)⟩ : Count κ))
  rcases s.redis.reserve_cases (token.quotaKey bucket) (.admission f) token.window
    token.quotaLimit with ⟨-, heq⟩ | ⟨hdead, r', hr', hcases⟩
  · obtain ⟨⟨rfl, rfl⟩, rfl⟩ : (0 = decision ∧ 0 = used) ∧ s.redis = r := by
      simpa using heq.symm.trans hreserve
    apply h.count (n := ⟨c, token, some (.admission f), bucket, s.redis.now, 0, false⟩) htoken
      le_rfl hnew
    · exact h.numbered.retry rfl
    · apply h.reserved.append
      · exact fun k hk => nomatch hk.2.1
      · exact fun e _ k _ _ _ => ⟨rfl, rfl⟩
    · exact .returned _ hmem rfl rfl rfl
  · have hnow : r'.now = s.redis.now := by
      rcases hr' with rfl | rfl
      · rfl
      · exact Redis.now_expire
    have hnumbered : ∀ fresh, fresh = true → Numbered tokens r' (s.counts ++
        [⟨c, token, some (.admission f), bucket, s.redis.now,
          s.redis.value (token.quotaKey bucket) + 1, fresh⟩]) := by
      intro fresh hfresh
      have hincr := h.numbered.incr (n := ⟨c, token, some (.admission f), bucket, s.redis.now,
        s.redis.value (token.quotaKey bucket) + 1, fresh⟩) htoken hfresh rfl rfl
      rcases hr' with rfl | rfl
      · exact hincr
      · exact hincr.expire htoken hbegun
    have hadmission : ∀ f, r'.entries (.admission f) = s.redis.entries (.admission f) := by
      intro f
      rcases hr' with rfl | rfl
      · exact hentries f
      · exact (Redis.entries_expire_of_ne RedisKey.noConfusion).trans (hentries f)
    have hreserved : Reserved r' s.counts := h.reserved.of_entries hadmission
    have hdead' : r'.live (.admission f) = none := by
      rw [Redis.live, hadmission, hnow]
      exact hdead
    rcases hcases with ⟨hover, heq⟩ | ⟨hwithin, heq⟩
    · obtain ⟨⟨rfl, rfl⟩, rfl⟩ : (2 = decision ∧
          s.redis.value (token.quotaKey bucket) + 1 = used) ∧ r' = r := by
        simpa using heq.symm.trans hreserve
      apply h.count (n := ⟨c, token, some (.admission f), bucket, s.redis.now, _, true⟩) htoken
        hnow.ge hnew
      · exact hnumbered _ rfl
      · apply hreserved.append
        · exact fun k hk => absurd hk.2.2 (not_le.mpr hover)
        · exact hreserved.covers_of_dead rfl hnow.symm hdead'
      · exact .returned _ hmem rfl rfl rfl
    · obtain ⟨⟨rfl, rfl⟩, rfl⟩ : (1 = decision ∧
          s.redis.value (token.quotaKey bucket) + 1 = used) ∧
          r'.setNew (.admission f) token.window = r := by
        simpa using heq.symm.trans hreserve
      apply h.count (n := ⟨c, token, some (.admission f), bucket, s.redis.now, _, true⟩) htoken
        (Redis.now_setNew.trans hnow).ge hnew
      · exact (hnumbered _ rfl).setNew
      · exact hreserved.setNew (n := ⟨c, token, some (.admission f), bucket, s.redis.now, _, true⟩)
          rfl hnow.symm hdead'
      · exact .returned _ hmem rfl rfl rfl

theorem Safe.deliver {s : QuotaSystem κ} (h : s.Safe hexdigest tokens)
    (hclock : clock ≤ s.redis.now) :
    (s.step hexdigest (.deliver c clock)).Safe hexdigest tokens := by
  rw [step]
  split
  · rename_i token key command next hcall
    obtain ⟨htoken, hphase⟩ := h.calls c _ hcall
    cases hphase with
    | asked hnew hprogram =>
      replace hprogram : Prog.call command next = token.checkAndConsume hexdigest key := hprogram
      rw [ResolvedAccountToken.checkAndConsume_eq] at hprogram
      cases hprogram
      have hsafe := h.uncounted ⟨token, key, token.consume hexdigest key ⌊clock / token.window⌋⟩
        htoken le_rfl h.numbered h.reserved (.stamped _ hnew (token.floor_window_le hclock) rfl)
      rw [← List.append_nil s.counts] at hsafe
      exact hsafe
    | stamped bucket hnew hbegun hprogram =>
      replace hprogram : Prog.call command next = token.consume hexdigest key bucket := hprogram
      cases hkey : key.filter (· ≠ "") with
      | none =>
        rw [ResolvedAccountToken.consume_plain hkey] at hprogram
        cases hprogram
        exact h.incr htoken hbegun hnew rfl
      | some k =>
        rw [ResolvedAccountToken.consume_keyed hkey] at hprogram
        cases hprogram
        exact h.eval htoken hbegun hnew rfl
    | counted e bucket he hcaller hsame hbegun hprogram =>
      replace hprogram : Prog.call command next = .call (.expire (token.quotaKey bucket) token.window)
        fun _ => .done (token.verdict e.used) := hprogram
      cases hprogram
      have hnow : s.redis.now ≤ (s.redis.expire (token.quotaKey bucket) token.window).now :=
        Redis.now_expire.ge
      have hentries : ∀ f, (s.redis.expire (token.quotaKey bucket) token.window).entries
          (.admission f) = s.redis.entries (.admission f) :=
        fun _ => Redis.entries_expire_of_ne RedisKey.noConfusion
      have hsafe := h.uncounted ⟨token, key, .done (token.verdict e.used)⟩ htoken hnow
        (h.numbered.expire htoken hbegun) (h.reserved.of_entries hentries)
        (.returned e he hcaller hsame rfl)
      rw [← List.append_nil s.counts] at hsafe
      exact hsafe
    | returned e he hcaller hsame hprogram => cases hprogram
  · exact h

theorem Reachable.safe {s : QuotaSystem κ} (h : Reachable hexdigest tokens s) :
    s.Safe hexdigest tokens := by
  induction h with
  | idle now => exact Safe.idle
  | step _ a ha ih =>
    cases a with
    | tick later => exact ih.tick
    | start c token key => exact ih.start ha
    | deliver c clock => exact ih.deliver ha

/-- No window lets more than `quota_limit` fresh calls through that are counted before it ends, and
a reservation spares every call with its key while it lives. -/
theorem quota_kept {s : QuotaSystem κ} (h : Reachable hexdigest tokens s) :
    (∀ token bucket, ((s.spent token bucket).filter fun e =>
        e.time < token.windowEnd bucket).length ≤ token.quotaLimit) ∧
      s.counts.Pairwise fun (e e' : Count κ) => ∀ key, e.Reserves key → e'.reservation = some key →
        e'.time < e.time + e.token.window → e'.fresh = false ∧
          ∀ call r, s.calls e'.caller = some call → call.program = .done r → r = .ok () := by
  have hsafe := h.safe
  constructor
  · intro token bucket
    apply le_trans _ (hsafe.numbered.le_limit token bucket token.quotaLimit)
    have hspent : ((s.spent token bucket).filter fun e => e.time < token.windowEnd bucket) =
        ((onTime s.counts token bucket).filter fun e => e.used ≤ token.quotaLimit).filter
          fun e => s.allowed e.caller := by
      rw [spent, onTime, List.filter_filter, List.filter_filter, List.filter_filter]
      apply List.filter_congr
      intro e he
      rw [Bool.eq_iff_iff]
      simp only [Bool.and_eq_true, decide_eq_true_eq]
      constructor
      · rintro ⟨htime, rfl, hbucket, hfresh, hallowed⟩
        exact ⟨⟨hallowed, hsafe.allowed he hallowed⟩, rfl, hbucket, hfresh, htime⟩
      · rintro ⟨⟨hallowed, -⟩, htoken, hbucket, hfresh, htime⟩
        exact ⟨htime, htoken, hbucket, hfresh, hallowed⟩
    rw [hspent]
    exact List.length_filter_le _ _
  · apply (List.Pairwise.and_mem.mp hsafe.reserved.covers).imp
    rintro e e' ⟨-, he', hcovers⟩ key hreserves hkey hlt
    obtain ⟨hretry, hused⟩ := hcovers key hreserves hkey hlt
    refine ⟨hretry, fun call r hcall hdone => ?_⟩
    rw [hsafe.returned he' hcall hdone, hused]
    exact if_neg (Nat.not_lt_zero _)

/-- Every step of a run is one the theorem is about. -/
def Admitted (hexdigest : String → String) (tokens : String → ResolvedAccountToken)
    (s : QuotaSystem κ) : List (QuotaAction κ) → Prop
  | [] => True
  | a :: acts => s.Admits tokens a ∧ Admitted hexdigest tokens (s.step hexdigest a) acts

instance (hexdigest : String → String) (tokens : String → ResolvedAccountToken) :
    (s : QuotaSystem κ) → (acts : List (QuotaAction κ)) →
      Decidable (s.Admitted hexdigest tokens acts)
  | _, [] => inferInstanceAs (Decidable True)
  | s, a :: acts =>
    have := instDecidableAdmitted hexdigest tokens (s.step hexdigest a) acts
    inferInstanceAs (Decidable (_ ∧ _))

theorem Reachable.exec {s : QuotaSystem κ} (h : Reachable hexdigest tokens s)
    (ha : s.Admitted hexdigest tokens acts) : Reachable hexdigest tokens (s.exec hexdigest acts) := by
  induction acts generalizing s with
  | nil => exact h
  | cons a acts ih => exact ih (h.step a ha.1) ha.2

section Runs

/-- A token with one request a minute. -/
def minuteToken : ResolvedAccountToken := ⟨"7f9c", "42", 1, 60⟩

/-- SHA-256 of the one text the run hashes. -/
def orderDigest : String → String :=
  fun _ => "90c92ff9c5bee446a615d0ee073a85e80aed5a87a78edc34b3d48a553fe1528b"

/-- A keyed call, its retry and a call without a key, all in the first minute. -/
def retriedRun : List (QuotaAction ℕ) :=
  [.start 0 minuteToken (some "order-1"), .deliver 0 0, .deliver 0 0, .tick 30,
    .start 1 minuteToken (some "order-1"), .deliver 1 30, .deliver 1 30,
    .start 2 minuteToken none, .deliver 2 30, .deliver 2 30]

def retried : QuotaSystem ℕ := (idle 0).exec orderDigest retriedRun

theorem retried_reachable : Reachable orderDigest (fun _ => minuteToken) retried := by
  have hadmitted : (idle 0 : QuotaSystem ℕ).Admitted orderDigest (fun _ => minuteToken)
      retriedRun := by
    decide +kernel
  exact (Reachable.idle 0).exec hadmitted

theorem quota_kept_retried : ((retried.spent minuteToken 0).filter fun e =>
      e.time < minuteToken.windowEnd 0).length ≤ 1 ∧
    (retried.spent minuteToken 0).length = 1 ∧ retried.allowed 1 = true ∧
      retried.allowed 2 = false :=
  ⟨(quota_kept retried_reachable).1 minuteToken 0, by decide +kernel, by decide +kernel,
    by decide +kernel⟩

/-- The second call reads its clock at 59.9 seconds; when its `INCR` runs, the number of the first
window has expired. All clocks agree. -/
def lateRun : List (QuotaAction ℕ) :=
  [.start 0 minuteToken none, .deliver 0 0, .deliver 0 0, .deliver 0 0, .tick (599 / 10),
    .start 1 minuteToken none, .deliver 1 (599 / 10), .tick (601 / 10),
    .deliver 1 (601 / 10), .deliver 1 (601 / 10)]

def late : QuotaSystem ℕ := (idle 0).exec orderDigest lateRun

theorem late_count_exceeds_limit : Reachable orderDigest (fun _ => minuteToken) late ∧
    (late.spent minuteToken 0).length = 2 ∧ minuteToken.quotaLimit = 1 := by
  have hadmitted : (idle 0 : QuotaSystem ℕ).Admitted orderDigest (fun _ => minuteToken)
      lateRun := by
    decide +kernel
  exact ⟨(Reachable.idle 0).exec hadmitted, by decide +kernel, rfl⟩

end Runs

end QuotaSystem

end QuantAgent.TokenQuota
