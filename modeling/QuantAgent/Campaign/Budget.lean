import QuantAgent.Lib.PyFloat

namespace QuantAgent.Campaign
set_option autoImplicit true

/-- `_bounded_positive_env`; `raw` is the variable's number, if it is set and is one. -/
def boundedPositiveEnv (raw : Option ℤ) (default maximum : ℕ) : ℕ :=
  match raw with
  | some value => if value ≤ 0 then default else min value.toNat maximum
  | none => default

/-- `ResearchCampaignBudget` -/
structure ResearchCampaignBudget where
  maxRounds : ℕ
  maxTotalCandidates : ℕ
  maxConsecutiveNoProgress : ℕ
  rounds_pos : 0 < maxRounds
  candidates_pos : 0 < maxTotalCandidates
  no_progress_pos : 0 < maxConsecutiveNoProgress

theorem boundedPositiveEnv_pos (raw : Option ℤ) {default maximum : ℕ} (hdefault : 0 < default)
    (hmaximum : 0 < maximum) : 0 < boundedPositiveEnv raw default maximum := by
  unfold boundedPositiveEnv
  split
  · split
    · exact hdefault
    · omega
  · exact hdefault

/-- `from_environment` -/
def ResearchCampaignBudget.fromEnvironment (rounds candidates noProgress : Option ℤ) :
    ResearchCampaignBudget where
  maxRounds := boundedPositiveEnv rounds 3 6
  maxTotalCandidates := boundedPositiveEnv candidates 24 36
  maxConsecutiveNoProgress := boundedPositiveEnv noProgress 2 3
  rounds_pos := boundedPositiveEnv_pos rounds (by decide) (by decide)
  candidates_pos := boundedPositiveEnv_pos candidates (by decide) (by decide)
  no_progress_pos := boundedPositiveEnv_pos noProgress (by decide) (by decide)

inductive StopReason where
  | objectiveTargetReached
  | roundBudgetExhausted
  | candidateBudgetExhausted
  | noProgressBudgetExhausted
  | wallBudgetInsufficient
  | noDistinctCandidates
deriving DecidableEq, Repr

/-- `ResearchCampaign`, without the history it only publishes. -/
structure ResearchCampaign (κ : Type) where
  budget : ResearchCampaignBudget
  baselineCandidateCount : ℕ
  seen : List κ
  roundsStarted : ℕ
  admittedRefinementCandidates : ℕ
  duplicateCandidatesRejected : ℕ
  consecutiveNoProgress : ℕ
  stopReason : Option StopReason

namespace ResearchCampaign
variable {κ : Type} [DecidableEq κ]

def start (budget : ResearchCampaignBudget) (identities : List κ) : ResearchCampaign κ where
  budget := budget
  baselineCandidateCount := identities.dedup.length
  seen := identities.dedup
  roundsStarted := 0
  admittedRefinementCandidates := 0
  duplicateCandidatesRejected := 0
  consecutiveNoProgress := 0
  stopReason := none

def totalCandidateCount (campaign : ResearchCampaign κ) : ℕ :=
  campaign.baselineCandidateCount + campaign.admittedRefinementCandidates

/-- Why no further round may start, if there is a reason. -/
def exhausted (campaign : ResearchCampaign κ) : Option StopReason :=
  if campaign.budget.maxRounds ≤ campaign.roundsStarted then some .roundBudgetExhausted
  else if campaign.budget.maxTotalCandidates ≤ campaign.totalCandidateCount then
    some .candidateBudgetExhausted
  else if campaign.budget.maxConsecutiveNoProgress ≤ campaign.consecutiveNoProgress then
    some .noProgressBudgetExhausted
  else none

/-- `allow_next_round`, with the reason it records. -/
def allowNextRound (campaign : ResearchCampaign κ) : Bool × ResearchCampaign κ :=
  match campaign.stopReason with
  | some _ => (false, campaign)
  | none =>
    match campaign.exhausted with
    | some reason => (false, { campaign with stopReason := some reason })
    | none => (true, campaign)

/-- The scan of `admit_candidate_identities`: what it admits, and what it leaves behind. -/
structure Admission (κ : Type) where
  admitted : List κ
  seen : List κ
  rejected : ℕ
  full : Bool

/-- One proposal at a time; the scan ends when a new one finds no room. -/
def admitNew (remaining : ℕ) (scan : Admission κ) : List κ → Admission κ
  | [] => scan
  | identity :: identities =>
    if identity ∈ scan.seen then
      admitNew remaining { scan with rejected := scan.rejected + 1 } identities
    else if remaining ≤ scan.admitted.length then { scan with full := true }
    else
      admitNew remaining
        { scan with
          admitted := scan.admitted ++ [identity]
          seen := identity :: scan.seen } identities

theorem admitted_subset {remaining : ℕ} {scan : Admission κ} {identities : List κ} :
    scan.admitted ⊆ (admitNew remaining scan identities).admitted := by
  induction identities generalizing scan with
  | nil => exact List.Subset.refl _
  | cons identity identities ih =>
    rw [admitNew]
    split
    · let passed : Admission κ := { scan with rejected := scan.rejected + 1 }
      have hpassed : passed.admitted ⊆ (admitNew remaining passed identities).admitted := ih
      exact hpassed
    · split
      · exact List.Subset.refl _
      · exact fun x hx => ih (List.mem_append_left _ hx)

theorem mem_of_admitted {remaining : ℕ} {scan : Admission κ} {identities : List κ}
    (h : x ∈ (admitNew remaining scan identities).admitted) : x ∈ scan.admitted ∨ x ∈ identities := by
  induction identities generalizing scan with
  | nil => exact .inl h
  | cons identity identities ih =>
    rw [admitNew] at h
    split at h
    · exact (ih h).imp_right (List.mem_cons_of_mem _)
    · split at h
      · exact .inl h
      · rcases ih h with h | h
        · rcases List.mem_append.mp h with h | h
          · exact .inl h
          · exact .inr (List.mem_singleton.mp h ▸ List.mem_cons_self)
        · exact .inr (List.mem_cons_of_mem _ h)

/-- With room for one, a scan that meets a new identity admits one. -/
theorem admit_ne_nil {remaining : ℕ} {scan : Admission κ} {identities : List κ}
    (hroom : scan.admitted.length < remaining) (hmem : identity ∈ identities)
    (hfresh : identity ∉ scan.seen) : (admitNew remaining scan identities).admitted ≠ [] := by
  induction identities generalizing scan with
  | nil => cases hmem
  | cons first identities ih =>
    rw [admitNew]
    split
    · rename_i hseen
      refine ih hroom ?_ hfresh
      rcases List.mem_cons.mp hmem with rfl | hmem
      · exact absurd hseen hfresh
      · exact hmem
    · rw [if_neg (Nat.not_le_of_lt hroom)]
      exact List.ne_nil_of_mem (admitted_subset (List.mem_append_right _ List.mem_cons_self))

/-- `admit_candidate_identities` -/
def admitCandidateIdentities (campaign : ResearchCampaign κ) (identities : List κ) :
    List κ × ResearchCampaign κ :=
  match campaign.allowNextRound with
  | (false, campaign) => ([], campaign)
  | (true, campaign) =>
    let remaining := campaign.budget.maxTotalCandidates - campaign.totalCandidateCount
    let scan := admitNew remaining ⟨[], campaign.seen, 0, false⟩ identities
    (scan.admitted,
      { campaign with
        seen := scan.seen
        admittedRefinementCandidates :=
          campaign.admittedRefinementCandidates + scan.admitted.length
        duplicateCandidatesRejected := campaign.duplicateCandidatesRejected + scan.rejected
        stopReason := if scan.full then some .candidateBudgetExhausted else campaign.stopReason })

/-- `record_round`, where the caller says whether the round was progress. -/
def recordRound (campaign : ResearchCampaign κ) (progress : Bool) : ResearchCampaign κ :=
  let consecutiveNoProgress := if progress then 0 else campaign.consecutiveNoProgress + 1
  { campaign with
    roundsStarted := campaign.roundsStarted + 1
    consecutiveNoProgress := consecutiveNoProgress
    stopReason :=
      if ¬ progress ∧ campaign.budget.maxConsecutiveNoProgress ≤ consecutiveNoProgress then
        some .noProgressBudgetExhausted
      else campaign.stopReason }

def stop (campaign : ResearchCampaign κ) (reason : StopReason) (replace : Bool) : ResearchCampaign κ :=
  if campaign.stopReason = none ∨ replace then { campaign with stopReason := some reason }
  else campaign

end ResearchCampaign

end QuantAgent.Campaign
