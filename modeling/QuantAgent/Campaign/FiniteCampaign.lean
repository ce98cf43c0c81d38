import QuantAgent.Campaign.Runs

namespace QuantAgent.Campaign
set_option autoImplicit true

/-- What one round of the loop meets: whether the result it starts from clears the floor, the wall
clock, the identities proposed to it, and whether its evaluation, if that does not fail, is
progress. -/
structure Round (κ : Type) where
  floorCleared : Bool
  pastDeadline : Bool
  fits : Bool
  proposed : List κ
  evaluation : Option Bool

/-- One call of `admit_candidate_identities`, between the ledgers before and after it. -/
structure AdmissionStep (κ : Type) where
  before : ResearchCampaign κ
  admitted : List κ
  after : ResearchCampaign κ

/-- The loop over identities: every identity handed to an evaluation, the admissions in order and
the ledger at the end. -/
structure Rounds (κ : Type) where
  evaluated : List κ
  steps : List (AdmissionStep κ)
  campaign : ResearchCampaign κ

/-- The identities admitted by a list of steps. -/
def admittedBy (steps : List (AdmissionStep κ)) : List κ := steps.flatMap AdmissionStep.admitted

section Ledger
variable {κ : Type} [DecidableEq κ]

namespace ResearchCampaign

/-- A scan adds distinct identities it has not seen, no more than there is room for. -/
theorem admitNew_spec (remaining : ℕ) (scan : Admission κ) (identities : List κ)
    (hroom : scan.admitted.length ≤ remaining) :
    ∃ new, (admitNew remaining scan identities).admitted = scan.admitted ++ new ∧ new.Nodup ∧
      (∀ k ∈ new, k ∉ scan.seen) ∧
      (∀ k, k ∈ (admitNew remaining scan identities).seen ↔ k ∈ scan.seen ∨ k ∈ new) ∧
      scan.admitted.length + new.length ≤ remaining := by
  induction identities generalizing scan with
  | nil =>
    refine ⟨[], (List.append_nil _).symm, List.nodup_nil, List.forall_mem_nil _, ?_, hroom⟩
    intro k
    rw [admitNew]
    simp only [List.not_mem_nil, or_false]
  | cons identity identities ih =>
    rw [admitNew]
    split
    · exact ih { scan with rejected := scan.rejected + 1 } hroom
    · rename_i hfresh
      split
      · refine ⟨[], (List.append_nil _).symm, List.nodup_nil, List.forall_mem_nil _, ?_, hroom⟩
        intro k
        simp only [List.not_mem_nil, or_false]
      · rename_i hfull
        have hlength : (scan.admitted ++ [identity]).length ≤ remaining := by
          rw [List.length_append, List.length_singleton]
          omega
        obtain ⟨new, hadmitted, hnodup, hnew, hseen, htotal⟩ := ih
          { scan with
            admitted := scan.admitted ++ [identity]
            seen := identity :: scan.seen } hlength
        have hidentity : identity ∉ new := fun h => hnew identity h List.mem_cons_self
        refine ⟨identity :: new, ?_, List.nodup_cons.mpr ⟨hidentity, hnodup⟩, ?_, ?_, ?_⟩
        · rw [hadmitted, List.append_assoc, List.singleton_append]
        · intro k hk
          rcases List.mem_cons.mp hk with rfl | hk
          · exact hfresh
          · exact fun h => hnew k hk (List.mem_cons_of_mem _ h)
        · intro k
          rw [hseen, List.mem_cons, List.mem_cons]
          exact or_right_comm.trans (or_assoc.trans (or_congr_right or_comm)) |>.trans (by tauto)
        · rw [List.length_append, List.length_singleton] at htotal
          rw [List.length_cons]
          omega

omit [DecidableEq κ] in
/-- A ledger that may start a round has no stop reason yet. -/
theorem allowNextRound_stopReason {campaign campaign' : ResearchCampaign κ}
    (h : campaign.allowNextRound = (true, campaign')) : campaign.stopReason = none := by
  unfold allowNextRound at h
  split at h
  · cases h
  · assumption

/-- A stop reason closes the ledger to every proposal. -/
theorem admitCandidateIdentities_stopped {campaign : ResearchCampaign κ} (identities : List κ)
    (h : campaign.stopReason ≠ none) : campaign.admitCandidateIdentities identities = ([], campaign) := by
  have hclosed : campaign.allowNextRound = (false, campaign) := by
    unfold allowNextRound
    split
    · rfl
    · contradiction
  unfold admitCandidateIdentities
  rw [hclosed]

/-- What a call of `admit_candidate_identities` on an open ledger leaves behind. -/
structure Admits (campaign : ResearchCampaign κ) (admitted : List κ) (after : ResearchCampaign κ) :
    Prop where
  nodup : admitted.Nodup
  fresh : ∀ k ∈ admitted, k ∉ campaign.seen
  seen : ∀ k, k ∈ after.seen ↔ k ∈ campaign.seen ∨ k ∈ admitted
  budget : after.budget = campaign.budget
  baseline : after.baselineCandidateCount = campaign.baselineCandidateCount
  count : after.admittedRefinementCandidates = campaign.admittedRefinementCandidates + admitted.length
  total : campaign.totalCandidateCount + admitted.length ≤ campaign.budget.maxTotalCandidates
  rounds : after.roundsStarted = campaign.roundsStarted

theorem admitCandidateIdentities_spec {campaign campaign' : ResearchCampaign κ}
    (h : campaign.allowNextRound = (true, campaign')) (identities : List κ) :
    campaign.Admits (campaign.admitCandidateIdentities identities).1
      (campaign.admitCandidateIdentities identities).2 := by
  obtain ⟨rfl, -, htotal⟩ := allowNextRound_true h
  obtain ⟨new, hadmitted, hnodup, hfresh, hseen, hroom⟩ := admitNew_spec
    (campaign'.budget.maxTotalCandidates - campaign'.totalCandidateCount)
    ⟨[], campaign'.seen, 0, false⟩ identities (Nat.zero_le _)
  rw [List.nil_append] at hadmitted
  rw [List.length_nil, Nat.zero_add] at hroom
  unfold admitCandidateIdentities
  rw [h]
  dsimp only
  rw [hadmitted]
  exact
    { nodup := hnodup
      fresh := hfresh
      seen := hseen
      budget := rfl
      baseline := rfl
      count := rfl
      total := by omega
      rounds := rfl }

end ResearchCampaign

/-- The refinement loop on identities; `world` is the sequence of rounds still ahead of it. -/
def refineRounds (world : ℕ → Round κ) (state : Rounds κ) : Rounds κ :=
  let round := world 0
  if round.floorCleared then
    { state with campaign := state.campaign.stop .objectiveTargetReached true }
  else
    match h : state.campaign.allowNextRound with
    | (false, campaign) => { state with campaign := campaign }
    | (true, _) =>
      if round.pastDeadline then state
      else if ¬ round.fits then
        { state with campaign := state.campaign.stop .wallBudgetInsufficient false }
      else
        let admission := state.campaign.admitCandidateIdentities round.proposed
        let steps := state.steps ++ [⟨state.campaign, admission.1, admission.2⟩]
        let improved := round.proposed.filter fun identity => identity ∈ admission.1
        if improved = [] then
          { state with steps := steps, campaign := admission.2.stop .noDistinctCandidates false }
        else
          let evaluated := state.evaluated ++ improved
          match round.evaluation with
          | none => ⟨evaluated, steps, admission.2⟩
          | some progress =>
            refineRounds (fun i => world (i + 1))
              ⟨evaluated, steps, admission.2.recordRound progress⟩
  termination_by state.campaign.budget.maxRounds - state.campaign.roundsStarted
  decreasing_by
    obtain ⟨-, hrounds, -⟩ := ResearchCampaign.allowNextRound_true h
    have hframe := state.campaign.admitCandidateIdentities_frame round.proposed
    change admission.2.budget.maxRounds - (admission.2.roundsStarted + 1) < _
    rw [hframe.1, hframe.2]
    omega

/-- The loop from a fresh ledger, after the baseline has been evaluated. -/
def campaignRounds (budget : ResearchCampaignBudget) (baseline : List κ) (world : ℕ → Round κ) :
    Rounds κ :=
  refineRounds world ⟨baseline, [], .start budget baseline⟩

/-- The ledger of the loop between two rounds, against what was evaluated and admitted so far. -/
structure Accounts (budget : ResearchCampaignBudget) (baseline : List κ) (state : Rounds κ) :
    Prop where
  sameBudget : state.campaign.budget = budget
  baselineCount : state.campaign.baselineCandidateCount = baseline.dedup.length
  count : state.campaign.admittedRefinementCandidates = (admittedBy state.steps).length
  seen : ∀ k, k ∈ state.campaign.seen ↔ k ∈ baseline ∨ k ∈ admittedBy state.steps
  evaluated : ∀ k ∈ state.evaluated, k ∈ baseline ∨ k ∈ admittedBy state.steps
  once : (baseline.dedup ++ admittedBy state.steps).Nodup
  total : admittedBy state.steps = [] ∨
    baseline.dedup.length + (admittedBy state.steps).length ≤ budget.maxTotalCandidates
  rounds : state.steps.length ≤ budget.maxRounds
  started : state.campaign.roundsStarted ≤ state.steps.length
  unstopped : ∀ step ∈ state.steps, step.before.stopReason = none
  stopped : state.steps.Pairwise fun earlier later =>
    earlier.after.stopReason ≠ none → later.admitted = []

/-- Between two rounds every admission has become a round, and a stop reason is still there. -/
structure Between (state : Rounds κ) : Prop where
  started : state.campaign.roundsStarted = state.steps.length
  kept : state.campaign.stopReason = none → ∀ step ∈ state.steps, step.after.stopReason = none

theorem Accounts.start (budget : ResearchCampaignBudget) (baseline : List κ) :
    Accounts budget baseline ⟨baseline, [], .start budget baseline⟩ where
  sameBudget := rfl
  baselineCount := rfl
  count := rfl
  seen := by
    intro k
    simp only [ResearchCampaign.start, List.mem_dedup, admittedBy, List.flatMap_nil,
      List.not_mem_nil, or_false]
  evaluated := fun _ => .inl
  once := by
    rw [admittedBy, List.flatMap_nil, List.append_nil]
    exact List.nodup_dedup baseline
  total := .inl rfl
  rounds := Nat.zero_le _
  started := Nat.le_refl _
  unstopped := List.forall_mem_nil _
  stopped := List.Pairwise.nil

/-- A ledger that differs only in its stop reason keeps the accounts. -/
theorem Accounts.of_stop {state : Rounds κ} (h : Accounts budget baseline state)
    {reason : Option StopReason} :
    Accounts budget baseline
      { state with campaign := { state.campaign with stopReason := reason } } :=
  { h with }

theorem Accounts.stop {state : Rounds κ} (h : Accounts budget baseline state) (reason : StopReason)
    (replace : Bool) :
    Accounts budget baseline { state with campaign := state.campaign.stop reason replace } := by
  unfold ResearchCampaign.stop
  split
  · exact h.of_stop
  · exact h

theorem Accounts.refused {state : Rounds κ} (h : Accounts budget baseline state)
    (hrefused : state.campaign.allowNextRound = (false, campaign)) :
    Accounts budget baseline { state with campaign := campaign } := by
  unfold ResearchCampaign.allowNextRound at hrefused
  split at hrefused
  · cases hrefused
    exact h
  · split at hrefused
    · cases hrefused
      exact h.of_stop
    · cases hrefused

omit [DecidableEq κ] in
theorem admittedBy_append (steps : List (AdmissionStep κ)) (step : AdmissionStep κ) :
    admittedBy (steps ++ [step]) = admittedBy steps ++ step.admitted := by
  rw [admittedBy, List.flatMap_append, List.flatMap_singleton]
  rfl

/-- An admission on an open ledger, and the evaluation of what it let in. -/
theorem Accounts.admit {state : Rounds κ} (h : Accounts budget baseline state) (hb : Between state)
    (hopen : state.campaign.allowNextRound = (true, campaign'))
    (hadmits : state.campaign.Admits admitted after) {improved : List κ}
    (himproved : ∀ k ∈ improved, k ∈ admitted) :
    Accounts budget baseline
      ⟨state.evaluated ++ improved, state.steps ++ [⟨state.campaign, admitted, after⟩], after⟩ := by
  obtain ⟨-, hrounds, -⟩ := ResearchCampaign.allowNextRound_true hopen
  have hnone := ResearchCampaign.allowNextRound_stopReason hopen
  have hbudget := h.sameBudget
  constructor
  case sameBudget => exact hadmits.budget.trans h.sameBudget
  case baselineCount => exact hadmits.baseline.trans h.baselineCount
  case count =>
    rw [admittedBy_append, List.length_append, hadmits.count, h.count]
  case seen =>
    intro k
    rw [hadmits.seen, h.seen, admittedBy_append, List.mem_append, or_assoc]
  case evaluated =>
    intro k hk
    rw [admittedBy_append, List.mem_append]
    rcases List.mem_append.mp hk with hk | hk
    · exact (h.evaluated k hk).imp_right .inl
    · exact .inr (.inr (himproved k hk))
  case once =>
    rw [admittedBy_append, ← List.append_assoc]
    refine h.once.append hadmits.nodup ?_
    intro k hold hnew
    apply hadmits.fresh k hnew
    rw [h.seen]
    exact (List.mem_append.mp hold).imp_left List.mem_dedup.mp
  case total =>
    refine .inr ?_
    have htotal := hadmits.total
    rw [ResearchCampaign.totalCandidateCount, h.baselineCount, h.count, hbudget] at htotal
    rw [admittedBy_append, List.length_append, ← Nat.add_assoc]
    exact htotal
  case rounds =>
    rw [hb.started, hbudget] at hrounds
    rw [List.length_append, List.length_singleton]
    omega
  case started =>
    have hstarted := h.started
    rw [List.length_append, List.length_singleton]
    change after.roundsStarted ≤ _
    rw [hadmits.rounds]
    omega
  case unstopped =>
    intro step hstep
    rcases List.mem_append.mp hstep with hstep | hstep
    · exact h.unstopped step hstep
    · rw [List.mem_singleton.mp hstep]
      exact hnone
  case stopped =>
    refine List.pairwise_append.mpr ⟨h.stopped, List.pairwise_singleton _ _, ?_⟩
    intro step hstep _ _ hstop
    exact absurd (hb.kept hnone step hstep) hstop

/-- A round that is recorded is a round started, and clears no stop reason. -/
theorem Accounts.record {state : Rounds κ} {step : AdmissionStep κ} {evaluated : List κ}
    (h : Accounts budget baseline ⟨evaluated, state.steps ++ [step], step.after⟩)
    (hb : Between state) (hnone : state.campaign.stopReason = none)
    (hrounds : step.after.roundsStarted = state.campaign.roundsStarted) (progress : Bool) :
    Accounts budget baseline ⟨evaluated, state.steps ++ [step], step.after.recordRound progress⟩ ∧
      Between ⟨evaluated, state.steps ++ [step], step.after.recordRound progress⟩ := by
  have hstarted : (step.after.recordRound progress).roundsStarted = (state.steps ++ [step]).length := by
    change step.after.roundsStarted + 1 = _
    rw [hrounds, hb.started, List.length_append, List.length_singleton]
  refine ⟨{ h with started := Nat.le_of_eq hstarted }, hstarted, ?_⟩
  intro hkept
  have hafter : step.after.stopReason = none := by
    simp only [ResearchCampaign.recordRound, ite_eq_right_iff, reduceCtorEq, imp_false,
      ite_eq_iff, and_false, false_or] at hkept
    exact hkept.2
  intro earlier hearlier
  rcases List.mem_append.mp hearlier with hearlier | hearlier
  · exact hb.kept hnone earlier hearlier
  · rw [List.mem_singleton.mp hearlier]
    exact hafter

/-- What the limits of a campaign promise of a run of its loop. -/
structure FiniteCampaign (budget : ResearchCampaignBudget) (baseline : List κ) (run : Rounds κ) :
    Prop where
  rounds : run.steps.length ≤ budget.maxRounds
  started : run.campaign.roundsStarted ≤ budget.maxRounds
  evaluated : run.evaluated.dedup.length ≤ max baseline.dedup.length budget.maxTotalCandidates
  once : (baseline.dedup ++ admittedBy run.steps).Nodup
  unstopped : ∀ step ∈ run.steps, step.before.stopReason ≠ none → step.admitted = []
  stopped : run.steps.Pairwise fun earlier later =>
    earlier.after.stopReason ≠ none → later.admitted = []

theorem Accounts.evaluated_le {run : Rounds κ} (h : Accounts budget baseline run) :
    run.evaluated.dedup.length ≤ max baseline.dedup.length budget.maxTotalCandidates := by
  have hsubset : run.evaluated.dedup ⊆ baseline.dedup ++ admittedBy run.steps := by
    intro k hk
    rw [List.mem_append, List.mem_dedup]
    exact h.evaluated k (List.mem_dedup.mp hk)
  have hlength := ((List.nodup_dedup run.evaluated).subperm hsubset).length_le
  rw [List.length_append] at hlength
  rcases h.total with hnone | htotal
  · rw [hnone, List.length_nil] at hlength
    omega
  · omega

theorem Accounts.finite {run : Rounds κ} (h : Accounts budget baseline run) :
    FiniteCampaign budget baseline run where
  rounds := h.rounds
  started := h.started.trans h.rounds
  evaluated := h.evaluated_le
  once := h.once
  unstopped := fun step hstep hstop => absurd (h.unstopped step hstep) hstop
  stopped := h.stopped

theorem mem_improved {proposed admitted : List κ}
    (h : k ∈ proposed.filter fun identity => identity ∈ admitted) : k ∈ proposed ∧ k ∈ admitted := by
  obtain ⟨hproposed, hadmitted⟩ := List.mem_filter.mp h
  exact ⟨hproposed, of_decide_eq_true hadmitted⟩

/-- Every way the loop ends leaves the accounts in order. -/
theorem refineRounds_accounts {budget : ResearchCampaignBudget} {baseline : List κ}
    (world : ℕ → Round κ) (state : Rounds κ) (h : Accounts budget baseline state)
    (hb : Between state) : Accounts budget baseline (refineRounds world state) := by
  fun_induction refineRounds world state with
  | case1 => exact h.stop _ _
  | case2 =>
    rename_i hrefused
    exact h.refused hrefused
  | case3 => exact h
  | case4 => exact h.stop _ _
  | case5 =>
    rename_i round _ _ hopen _ _ _ _ _ _
    have hadmits := ResearchCampaign.admitCandidateIdentities_spec hopen round.proposed
    have hadmitted := h.admit hb hopen hadmits (List.forall_mem_nil _)
    rw [List.append_nil] at hadmitted
    exact hadmitted.stop _ _
  | case6 =>
    rename_i round _ _ hopen _ _ _ _ _ _ _ _
    have hadmits := ResearchCampaign.admitCandidateIdentities_spec hopen round.proposed
    exact h.admit hb hopen hadmits fun k hk => (mem_improved hk).2
  | case7 =>
    rename_i round _ _ hopen _ _ admission _ improved _ _ progress _ ih
    have hadmits := ResearchCampaign.admitCandidateIdentities_spec hopen round.proposed
    have himproved : ∀ k ∈ improved, k ∈ admission.1 := fun k hk => (mem_improved hk).2
    have hadmitted := h.admit hb hopen hadmits himproved
    obtain ⟨haccounts, hbetween⟩ := hadmitted.record hb
      (ResearchCampaign.allowNextRound_stopReason hopen) hadmits.rounds progress
    exact ih haccounts hbetween

end Ledger

section Node
variable {F κ : Type} [NumPy F] [DecidableEq κ] {shop : Workshop F κ} {session : Session F}
  {clock : Clock} {strategy : StrategySpec F} {plan : CodeGenerationPlan F} {maxPositions : ℕ}

/-- The identities of a run of the node, and its ledger, are those of a run of the loop. -/
def Follows (shop : Workshop F κ) (run : CampaignRun F κ) (rounds : Rounds κ) : Prop :=
  rounds.evaluated = run.candidates.map shop.identity ∧ rounds.campaign = run.campaign

/-- A round that starts in time, with the identities of the candidates proposed to it. -/
def Round.timely (proposed : List κ) (evaluation : Option Bool) : Round κ :=
  ⟨false, false, true, proposed, evaluation⟩

/-- A sequence of rounds by its first one. -/
def Round.followedBy (round : Round κ) (rest : ℕ → Round κ) : ℕ → Round κ
  | 0 => round
  | i + 1 => rest i

/-- What a round does that starts in time on an open ledger. -/
theorem refineRounds_timely {rest : ℕ → Round κ} {state : Rounds κ} {evaluation : Option Bool}
    (hopen : state.campaign.allowNextRound = (true, campaign))
    (himproved : (proposed.filter fun identity =>
      identity ∈ (state.campaign.admitCandidateIdentities proposed).1) = improved) :
    refineRounds ((Round.timely proposed evaluation).followedBy rest) state =
      let admission := state.campaign.admitCandidateIdentities proposed
      let steps := state.steps ++ [⟨state.campaign, admission.1, admission.2⟩]
      if improved = [] then
        { state with steps := steps, campaign := admission.2.stop .noDistinctCandidates false }
      else
        match evaluation with
        | none => ⟨state.evaluated ++ improved, steps, admission.2⟩
        | some progress =>
          refineRounds rest
            ⟨state.evaluated ++ improved, steps, admission.2.recordRound progress⟩ := by
  rw [refineRounds]
  simp only [Round.followedBy, Round.timely, Bool.false_eq_true, ↓reduceIte]
  split
  · rename_i hrefused
    rw [hopen] at hrefused
    cases hrefused
  · subst himproved
    rfl

variable (shop) in
/-- The candidates of the admitted identities, by their identities. -/
theorem improved_map (proposed : List (CodeCandidate F)) (admitted : List κ) :
    ((proposed.map shop.identity).filter fun identity => identity ∈ admitted) =
      (proposed.filter fun candidate => shop.identity candidate ∈ admitted).map shop.identity := by
  rw [List.filter_map]
  rfl

theorem refine_follows (candidates : List (CodeCandidate F)) (result : CandidateBacktestResult F)
    (campaign : ResearchCampaign κ) (roundsRun : ℕ) (steps : List (AdmissionStep κ)) :
    ∃ world, Follows shop
      (refine shop session clock strategy plan maxPositions candidates result campaign roundsRun)
      (refineRounds world ⟨candidates.map shop.identity, steps, campaign⟩) := by
  fun_induction refine shop session clock strategy plan maxPositions candidates result campaign
    roundsRun generalizing steps with
  | case1 =>
    refine ⟨fun _ => ⟨true, false, false, [], none⟩, ?_⟩
    rw [refineRounds]
    exact ⟨rfl, rfl⟩
  | case2 =>
    rename_i hrefused
    refine ⟨fun _ => .timely [] none, ?_⟩
    rw [refineRounds]
    simp only [Round.timely, Bool.false_eq_true, ↓reduceIte]
    split
    · rename_i hcampaign
      rw [hrefused] at hcampaign
      cases hcampaign
      exact ⟨rfl, rfl⟩
    · rename_i hopen
      rw [hrefused] at hopen
      cases hopen
  | case3 =>
    rename_i hopen _ _
    refine ⟨fun _ => ⟨false, true, false, [], none⟩, ?_⟩
    rw [refineRounds]
    simp only [Bool.false_eq_true, ↓reduceIte]
    split
    · rename_i hrefused
      rw [hopen] at hrefused
      cases hrefused
    · exact ⟨rfl, rfl⟩
  | case4 =>
    rename_i hopen _ _ _
    refine ⟨fun _ => ⟨false, false, false, [], none⟩, ?_⟩
    rw [refineRounds]
    simp only [Bool.false_eq_true, ↓reduceIte]
    split
    · rename_i hrefused
      rw [hopen] at hrefused
      cases hrefused
    · exact ⟨rfl, rfl⟩
  | case5 =>
    rename_i hopen _ _ _ proposed admission improved hnone
    refine ⟨(Round.timely (proposed.map shop.identity) none).followedBy fun _ => .timely [] none, ?_⟩
    have himproved := improved_map shop proposed admission.1
    rw [refineRounds_timely hopen himproved, if_pos (List.map_eq_nil_iff.mpr hnone)]
    exact ⟨rfl, rfl⟩
  | case6 =>
    rename_i hopen _ _ _ proposed admission improved hsome _ _ _
    refine ⟨(Round.timely (proposed.map shop.identity) none).followedBy fun _ => .timely [] none, ?_⟩
    have himproved := improved_map shop proposed admission.1
    rw [refineRounds_timely hopen himproved, if_neg (mt List.map_eq_nil_iff.mp hsome)]
    exact ⟨List.map_append.symm, rfl⟩
  | case7 =>
    rename_i hopen _ _ _ proposed admission improved hsome _ _ _ _ progress ih
    obtain ⟨world, hworld⟩ := ih (steps ++ [⟨_, admission.1, admission.2⟩])
    refine ⟨(Round.timely (proposed.map shop.identity) (some progress)).followedBy world, ?_⟩
    have himproved := improved_map shop proposed admission.1
    rw [refineRounds_timely hopen himproved, if_neg (mt List.map_eq_nil_iff.mp hsome)]
    rw [List.map_append] at hworld
    exact hworld

/-- A run of the node fails on its baseline, before there is a ledger, or follows a run of the loop. -/
theorem backtestNode_follows (shop : Workshop F κ) (session : Session F) (clock : Clock)
    (budget : ResearchCampaignBudget) (strategy : StrategySpec F) (maxPositions : ℕ)
    (generated : Loop3Result F) :
    (∃ error, runCandidateBacktest session generated.candidates = .error error) ∨
      ∃ world, Follows shop
        (backtestNode shop session clock budget strategy maxPositions generated)
        (campaignRounds budget (generated.candidates.map shop.identity) world) := by
  unfold backtestNode
  cases runCandidateBacktest session generated.candidates with
  | error error => exact .inl ⟨error, rfl⟩
  | ok result => exact .inr (refine_follows _ _ _ _ [])

/-- The loop is finite for every budget, every baseline and every sequence of rounds, and every run
of the node is a run of it. -/
theorem backtestNode_finite :
    (∀ (budget : ResearchCampaignBudget) (baseline : List κ) (world : ℕ → Round κ),
      FiniteCampaign budget baseline (campaignRounds budget baseline world)) ∧
    ∀ (shop : Workshop F κ) (session : Session F) (clock : Clock) (budget : ResearchCampaignBudget)
      (strategy : StrategySpec F) (maxPositions : ℕ) (generated : Loop3Result F),
      (∃ error, runCandidateBacktest session generated.candidates = .error error) ∨
        ∃ world, Follows shop
          (backtestNode shop session clock budget strategy maxPositions generated)
          (campaignRounds budget (generated.candidates.map shop.identity) world) := by
  refine ⟨?_, backtestNode_follows⟩
  intro budget baseline world
  have hfresh : Between (⟨baseline, [], .start budget baseline⟩ : Rounds κ) :=
    ⟨rfl, fun _ => List.forall_mem_nil _⟩
  exact (refineRounds_accounts world _ (.start budget baseline) hfresh).finite

end Node

end QuantAgent.Campaign
