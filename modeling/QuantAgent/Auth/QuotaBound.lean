import QuantAgent.Auth.TokenQuota

namespace QuantAgent.TokenQuota
set_option autoImplicit true

namespace Redis
variable {s : Redis}

theorem live_put_self (h : ∀ d ∈ e.deadline, s.now < d) : (s.put key e).live key = some e := by
  have hentry : (s.put key e).entries key = some e := Function.update_self ..
  rw [live, hentry, Option.filter_some, if_pos]
  cases hd : e.deadline with
  | none => rfl
  | some d =>
    rw [hd] at h
    exact decide_eq_true (h d rfl)

theorem live_put_of_ne (h : k ≠ key) : (s.put key e).live k = s.live k := by
  have hentry : (s.put key e).entries k = s.entries k := Function.update_of_ne h _ _
  rw [live, live, hentry]
  rfl

theorem live_some (h : s.live key = some e) :
    s.entries key = some e ∧ ∀ d ∈ e.deadline, s.now < d := by
  obtain ⟨hentry, hall⟩ := Option.filter_eq_some_iff.mp h
  refine ⟨hentry, fun d hd => ?_⟩
  rw [hd] at hall
  exact of_decide_eq_true hall

theorem live_of_entry (h : s.entries key = some e) (hd : e.deadline = some d) (hnow : s.now < d) :
    s.live key = some e := by
  rw [live, h, Option.filter_some, hd, Option.all_some, if_pos (decide_eq_true hnow)]

theorem value_of_live (h : s.live key = some e) : s.value key = e.value := by
  rw [value, h]
  rfl

theorem value_of_dead (h : s.live key = none) : s.value key = 0 := by
  rw [value, h]
  rfl

theorem value_put_of_ne (h : k ≠ key) : (s.put key e).value k = s.value k := by
  rw [value, value, live_put_of_ne h]

theorem value_incr_self : (s.incr key).value key = s.value key + 1 := by
  rw [incr, value_of_live (live_put_self _)]
  intro d hd
  cases hlive : s.live key with
  | none =>
    rw [hlive] at hd
    cases hd
  | some e =>
    rw [hlive] at hd
    exact (live_some hlive).2 d hd

theorem value_incr_of_ne (h : k ≠ key) : (s.incr key).value k = s.value k := value_put_of_ne h

theorem value_expire (hpos : 0 < seconds) : (s.expire key seconds).value k = s.value k := by
  rw [expire]
  cases hlive : s.live key with
  | none => rfl
  | some e =>
    by_cases hk : k = key
    · subst hk
      rw [value_of_live hlive, value_of_live (live_put_self _)]
      intro d hd
      obtain rfl := Option.some.inj hd
      have hseconds : (0 : ℚ) < seconds := Nat.cast_pos.mpr hpos
      exact lt_add_of_pos_right _ hseconds
    · exact value_put_of_ne hk

theorem value_setNew (h : k ≠ key) : (s.setNew key seconds).value k = s.value k := by
  rw [setNew]
  cases hlive : s.live key with
  | none => exact value_put_of_ne h
  | some e => rfl

@[simp] theorem now_put : (s.put key e).now = s.now := rfl

@[simp] theorem now_incr : (s.incr key).now = s.now := rfl

@[simp] theorem now_expire : (s.expire key seconds).now = s.now := by
  rw [expire]
  split
  · rfl
  · rfl

@[simp] theorem now_setNew : (s.setNew key seconds).now = s.now := by
  rw [setNew]
  split
  · rfl
  · rfl

/-- A command on one key leaves the others. -/
theorem entries_put_of_ne (h : k ≠ key) : (s.put key e).entries k = s.entries k :=
  Function.update_of_ne h _ _

theorem entries_expire_of_ne (h : k ≠ key) : (s.expire key seconds).entries k = s.entries k := by
  rw [expire]
  split
  · rfl
  · exact entries_put_of_ne h

theorem entries_setNew_of_ne (h : k ≠ key) : (s.setNew key seconds).entries k = s.entries k := by
  rw [setNew]
  split
  · exact entries_put_of_ne h
  · rfl

/-- `INCR` keeps the time to live of the number it finds. -/
theorem deadline_incr (h : (s.incr key).entries k = some e) (hd : e.deadline = some d) :
    ∃ e₀, s.entries k = some e₀ ∧ e₀.deadline = some d := by
  rcases update_eq_some h with ⟨rfl, rfl⟩ | ⟨-, hold⟩
  · obtain ⟨e₀, hlive, hd₀⟩ := Option.bind_eq_some_iff.mp hd
    exact ⟨e₀, (live_some hlive).1, hd₀⟩
  · exact ⟨e, hold, hd⟩

theorem deadline_expire (h : (s.expire key seconds).entries k = some e) (hd : e.deadline = some d) :
    (k = key ∧ d = s.now + seconds) ∨ s.entries k = some e := by
  rw [expire] at h
  split at h
  · exact .inr h
  · rcases update_eq_some h with ⟨rfl, rfl⟩ | ⟨-, hold⟩
    · exact .inl ⟨rfl, (Option.some.inj hd).symm⟩
    · exact .inr hold

/-- What the script does: a live reservation answers alone, else one more unit is counted, and
reserved within the limit. -/
theorem reserve_cases (s : Redis) (quotaKey reservationKey : RedisKey) (window limit : ℕ) :
    ((s.live reservationKey).isSome ∧
        s.reserve quotaKey reservationKey window limit = ((0, 0), s)) ∨
      s.live reservationKey = none ∧ ∃ r, (r = s.incr quotaKey ∨
          r = (s.incr quotaKey).expire quotaKey window) ∧
        (limit < s.value quotaKey + 1 ∧ s.reserve quotaKey reservationKey window limit =
            ((2, s.value quotaKey + 1), r) ∨
          s.value quotaKey + 1 ≤ limit ∧ s.reserve quotaKey reservationKey window limit =
            ((1, s.value quotaKey + 1), r.setNew reservationKey window)) := by
  cases hlive : s.live reservationKey with
  | some e => exact .inl ⟨rfl, by rw [reserve, hlive]; rfl⟩
  | none =>
    right
    refine ⟨rfl, if s.value quotaKey + 1 = 1 then (s.incr quotaKey).expire quotaKey window
      else s.incr quotaKey, ?_, ?_⟩
    · split
      · exact .inr rfl
      · exact .inl rfl
    · by_cases hlimit : limit < s.value quotaKey + 1
      · exact .inl ⟨hlimit, by simp [reserve, hlive, hlimit]⟩
      · exact .inr ⟨not_lt.mp hlimit, by simp [reserve, hlive, hlimit]⟩

end Redis

namespace ResolvedAccountToken
variable (token : ResolvedAccountToken)

def windowEnd (bucket : ℤ) : ℚ := (bucket + 1) * token.window

theorem window_pos : 0 < token.window := lt_max_of_lt_right one_pos

/-- A clock is in the window it is put into, or past its beginning. -/
theorem floor_window_le {clock now : ℚ} (h : clock ≤ now) : (⌊clock / token.window⌋ : ℚ) * token.window ≤ now := by
  have hpos : (0 : ℚ) < token.window := Nat.cast_pos.mpr token.window_pos
  have hfloor : (⌊clock / token.window⌋ : ℚ) ≤ clock / token.window := Int.floor_le _
  exact ((le_div_iff₀ hpos).mp hfloor).trans h

/-- A time to live of one window, given within the window, outlasts it. -/
theorem windowEnd_le {bucket : ℤ} {now : ℚ} (h : bucket * (token.window : ℚ) ≤ now) :
    token.windowEnd bucket ≤ now + token.window := by
  rw [windowEnd, add_mul, one_mul]
  exact add_le_add_left h _

theorem quotaKey_inj {token token' : ResolvedAccountToken} {tokens : String → ResolvedAccountToken}
    (ht : tokens token.tokenId = token) (ht' : tokens token'.tokenId = token')
    (h : token.quotaKey bucket = token'.quotaKey bucket') : token = token' ∧ bucket = bucket' := by
  obtain ⟨hid, hbucket⟩ := RedisKey.quota.inj h
  exact ⟨by rw [← ht, ← ht', hid], hbucket⟩

theorem verdict_ok (h : token.verdict used = .ok ()) : used ≤ token.quotaLimit := by
  rw [verdict] at h
  split at h
  · cases h
  · rename_i hle
    exact not_lt.mp hle

end ResolvedAccountToken

section Counters
variable {κ : Type}

/-- The fresh calls counted before the end of the window they were stamped with. -/
def onTime (counts : List (Count κ)) (token : ResolvedAccountToken) (bucket : ℤ) :
    List (Count κ) :=
  counts.filter fun e =>
    e.token = token ∧ e.bucket = bucket ∧ e.fresh ∧ e.time < token.windowEnd bucket

/-- Until its window ends a counter is kept, and numbers the calls it counted from one on. -/
structure Numbered (tokens : String → ResolvedAccountToken) (r : Redis)
    (counts : List (Count κ)) : Prop where
  outlasts : ∀ token bucket e d, tokens token.tokenId = token →
    r.entries (token.quotaKey bucket) = some e → e.deadline = some d → token.windowEnd bucket ≤ d
  kept : ∀ token bucket, tokens token.tokenId = token → r.now < token.windowEnd bucket →
    r.value (token.quotaKey bucket) = (onTime counts token bucket).length
  numbers : ∀ token bucket, (onTime counts token bucket).map Count.used =
    List.range' 1 (onTime counts token bucket).length

variable {r : Redis} {counts : List (Count κ)}

theorem onTime_append_of_not {n : Count κ} (h : ¬ (n.token = token ∧ n.bucket = bucket ∧ n.fresh ∧
    n.time < token.windowEnd bucket)) :
    onTime (counts ++ [n]) token bucket = onTime counts token bucket := by
  rw [onTime, List.filter_append, List.filter_cons_of_neg (by rwa [decide_eq_true_eq]),
    List.filter_nil, List.append_nil]
  rfl

theorem onTime_append {n : Count κ} (h : n.token = token ∧ n.bucket = bucket ∧ n.fresh ∧
    n.time < token.windowEnd bucket) :
    onTime (counts ++ [n]) token bucket = onTime counts token bucket ++ [n] := by
  rw [onTime, List.filter_append, List.filter_cons_of_pos (by rwa [decide_eq_true_eq]),
    List.filter_nil]
  rfl

theorem Numbered.retry (h : Numbered tokens r counts) (hn : n.fresh = false) :
    Numbered tokens r (counts ++ [n]) := by
  have hsame : ∀ token bucket, onTime (counts ++ [n]) token bucket = onTime counts token bucket := by
    intro token bucket
    apply onTime_append_of_not
    rw [hn]
    exact fun hx => Bool.false_ne_true hx.2.2.1
  refine ⟨h.outlasts, fun token bucket => ?_, fun token bucket => ?_⟩
  · rw [hsame]
    exact h.kept token bucket
  · rw [hsame]
    exact h.numbers token bucket

theorem Numbered.tick (h : Numbered tokens r counts) (hlater : r.now ≤ later) :
    Numbered tokens { r with now := later } counts := by
  refine ⟨h.outlasts, fun token bucket htoken hend => ?_, h.numbers⟩
  have hkept := h.kept token bucket htoken (hlater.trans_lt hend)
  rw [← hkept]
  -- a counter that is not gone by the end of its window is not gone at either time
  have hlive : ({ r with now := later } : Redis).live (token.quotaKey bucket) =
      r.live (token.quotaKey bucket) := by
    rw [Redis.live, Redis.live]
    cases hentry : r.entries (token.quotaKey bucket) with
    | none => rfl
    | some e =>
      cases hd : e.deadline with
      | none => simp only [Option.filter_some, hd, Option.all_none]
      | some d =>
        have hout := h.outlasts token bucket e d htoken hentry hd
        have hnow : later < d := hend.trans_le hout
        simp only [Option.filter_some, hd, Option.all_some, hnow, hlater.trans_lt hnow]
  rw [Redis.value, Redis.value, hlive]

/-- What keeps the numbers of the counters and their times to live keeps the invariant. -/
theorem Numbered.of_value (h : Numbered tokens r counts) (hnow : r'.now = r.now)
    (hvalue : ∀ id bucket, r'.value (.quota id bucket) = r.value (.quota id bucket))
    (hdeadline : ∀ token bucket e d, tokens token.tokenId = token →
      r'.entries (token.quotaKey bucket) = some e → e.deadline = some d →
      token.windowEnd bucket ≤ d) : Numbered tokens r' counts := by
  refine ⟨hdeadline, fun token bucket htoken hend => ?_, h.numbers⟩
  rw [hnow] at hend
  rw [ResolvedAccountToken.quotaKey, hvalue]
  exact h.kept token bucket htoken hend

theorem Numbered.expire (h : Numbered tokens r counts) (htoken : tokens token.tokenId = token)
    {bucket : ℤ} (hbegun : bucket * (token.window : ℚ) ≤ r.now) :
    Numbered tokens (r.expire (token.quotaKey bucket) token.window) counts := by
  apply h.of_value Redis.now_expire
  · exact fun _ _ => Redis.value_expire token.window_pos
  · intro token' bucket' e d htoken' hentry hd
    rcases Redis.deadline_expire hentry hd with ⟨hkey, rfl⟩ | hold
    · obtain ⟨rfl, rfl⟩ := ResolvedAccountToken.quotaKey_inj htoken' htoken hkey
      exact token'.windowEnd_le hbegun
    · exact h.outlasts token' bucket' e d htoken' hold hd

theorem Numbered.setNew (h : Numbered tokens r counts) :
    Numbered tokens (r.setNew (.admission fingerprint) seconds) counts := by
  apply h.of_value Redis.now_setNew
  · exact fun _ _ => Redis.value_setNew RedisKey.noConfusion
  · intro token bucket e d htoken hentry hd
    rw [Redis.entries_setNew_of_ne RedisKey.noConfusion] at hentry
    exact h.outlasts token bucket e d htoken hentry hd

/-- One more call is counted: in time it gets the next number, and late it is not numbered. -/
theorem Numbered.incr (h : Numbered tokens r counts) {n : Count κ}
    (htoken : tokens n.token.tokenId = n.token) (hfresh : n.fresh = true) (htime : n.time = r.now)
    (hused : n.used = r.value (n.token.quotaKey n.bucket) + 1) :
    Numbered tokens (r.incr (n.token.quotaKey n.bucket)) (counts ++ [n]) := by
  have hnumber : n.time < n.token.windowEnd n.bucket →
      n.used = (onTime counts n.token n.bucket).length + 1 := by
    intro hend
    rw [hused, h.kept n.token n.bucket htoken (htime ▸ hend)]
  refine ⟨fun token bucket e d ht hentry hd => ?_, fun token bucket ht hend => ?_,
    fun token bucket => ?_⟩
  · obtain ⟨e₀, hold, hd₀⟩ := Redis.deadline_incr hentry hd
    exact h.outlasts token bucket e₀ d ht hold hd₀
  · rw [Redis.now_incr] at hend
    by_cases hsame : n.token = token ∧ n.bucket = bucket
    · obtain ⟨rfl, rfl⟩ := hsame
      rw [onTime_append ⟨rfl, rfl, hfresh, htime ▸ hend⟩, Redis.value_incr_self,
        h.kept n.token n.bucket htoken hend, List.length_append]
      rfl
    · have hkey : token.quotaKey bucket ≠ n.token.quotaKey n.bucket := by
        intro hkey
        obtain ⟨rfl, rfl⟩ := ResolvedAccountToken.quotaKey_inj ht htoken hkey
        exact hsame ⟨rfl, rfl⟩
      rw [onTime_append_of_not fun hx => hsame ⟨hx.1, hx.2.1⟩, Redis.value_incr_of_ne hkey]
      exact h.kept token bucket ht hend
  · by_cases hcount : n.token = token ∧ n.bucket = bucket ∧ n.fresh ∧
        n.time < token.windowEnd bucket
    · rw [onTime_append hcount]
      obtain ⟨rfl, rfl, -, hend⟩ := hcount
      rw [List.map_append, h.numbers, List.length_append, ← List.range'_append_1, List.map_singleton,
        hnumber hend, add_comm]
      rfl
    · rw [onTime_append_of_not hcount]
      exact h.numbers token bucket

/-- Numbers from one on are at most as many as the largest. -/
theorem Numbered.le_limit (h : Numbered tokens r counts) (token : ResolvedAccountToken)
    (bucket : ℤ) (limit : ℕ) :
    ((onTime counts token bucket).filter fun e => e.used ≤ limit).length ≤ limit := by
  have hmap : ((onTime counts token bucket).filter fun e => e.used ≤ limit).map Count.used =
      (List.range' 1 (onTime counts token bucket).length).filter (· ≤ limit) := by
    rw [← h.numbers, List.filter_map]
    rfl
  have hsub : ((List.range' 1 (onTime counts token bucket).length).filter (· ≤ limit)) ⊆
      List.range' 1 limit := by
    intro k hk
    obtain ⟨hmem, hle⟩ := List.mem_filter.mp hk
    rw [List.mem_range'_1] at hmem ⊢
    have hle := of_decide_eq_true hle
    omega
  have hnodup := (List.nodup_range' (s := 1)
    (n := (onTime counts token bucket).length)).filter (· ≤ limit)
  rw [← List.length_map Count.used, hmap]
  exact (hnodup.subperm hsub).length_le.trans_eq List.length_range'

end Counters

end QuantAgent.TokenQuota
