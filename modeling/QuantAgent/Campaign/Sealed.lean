import QuantAgent.Campaign.Provenance
import QuantAgent.Campaign.RiskPolicy

namespace QuantAgent.Campaign
open QuantAgent.Features
set_option autoImplicit true

/-- What a sealed spec fixes of a candidate: its conditions, its ranking and its timing. -/
structure SealedRule (F : Type) [PyFloat F] where
  blueprintId : Option String
  profile : Profile
  entryConditions : List (DescribedCondition F)
  exitConditions : List (DescribedCondition F)
  rankingMetric : Option String
  rankingDirection : RankingDirection
  executionMode : ExecutionMode
  holdingDays : Option ℕ

/-- A map over places that does not look at them. -/
theorem map_zipIdx_of_eq {f : α × ℕ → β} {g : α → β} {xs : List α} (n : ℕ)
    (h : ∀ x ∈ xs, ∀ i, f (x, i) = g x) : (xs.zipIdx n).map f = xs.map g := by
  calc
    _ = (xs.zipIdx n).map (g ∘ Prod.fst) :=
      List.map_congr_left fun item hitem => h item.1 (List.fst_mem_of_mem_zipIdx hitem) item.2
    _ = ((xs.zipIdx n).map Prod.fst).map g := (List.map_map).symm
    _ = xs.map g := by rw [List.zipIdx_map_fst]

section Rules
variable {F : Type} [PyFloat F]

/-- The rule a candidate is evaluated under; Python code has none. -/
def CodeCandidate.rule? (candidate : CodeCandidate F) : Option (SealedRule F) :=
  match candidate.representation with
  | .structured ir parameters =>
    some
      { blueprintId := parameters.blueprintId
        profile := parameters.profile
        entryConditions := ir.entryConditions
        exitConditions := ir.exitConditions
        rankingMetric := ir.rankingMetric
        rankingDirection := ir.rankingDirection
        executionMode := ir.executionMode
        holdingDays := ir.holdingDays }
  | .pythonFallback _ => none

/-- The rule of a formula, as the catalogue states it. -/
def StrategyBlueprintTemplate.rule (template : StrategyBlueprintTemplate F) : SealedRule F where
  blueprintId := some template.catalogId
  profile := template.profile
  entryConditions := template.entryConditions
  exitConditions := template.exitConditions
  rankingMetric := some template.rankingMetric
  rankingDirection := template.rankingDirection
  executionMode := template.executionMode
  holdingDays := none

/-- The rule of a researched candidate. -/
def ResearchCandidateV3.rule (candidate : ResearchCandidateV3 F) : SealedRule F where
  blueprintId := none
  profile := .compiledConditions
  entryConditions := candidate.entryConditions
  exitConditions := candidate.exitConditions
  rankingMetric := none
  rankingDirection := .desc
  executionMode := if candidate.rebalanceIntervalDays.isSome then .scheduledRotation else .eventDriven
  holdingDays := candidate.holdingDays

/-- A spec with its candidates sealed: an exploration accepted against its policy, or a researched
candidate. -/
inductive SealedSpec (catalog : BlueprintCatalog F) where
  | exploration (policy : ActiveExplorationPolicyV2 F) (spec : ExplorationExecutionSpecV2)
      (accepted : validateExplorationSpecAgainstPolicy catalog spec policy = .ok ())
  | research (spec : ResearchCandidateExecutionSpecV3 F)

/-- The formulas an exploration names. -/
def ExplorationExecutionSpecV2.templates (catalog : BlueprintCatalog F)
    (spec : ExplorationExecutionSpecV2) : List (StrategyBlueprintTemplate F) :=
  spec.candidates.filterMap fun candidate => catalog.get? candidate.catalogId

def SealedSpec.rules {catalog : BlueprintCatalog F} : SealedSpec catalog → List (SealedRule F)
  | .exploration _ spec _ => (spec.templates catalog).map StrategyBlueprintTemplate.rule
  | .research spec => [spec.candidate.rule]

/-- A candidate names a formula of the catalogue, under the signature it carries. -/
def Names (catalog : BlueprintCatalog F) (candidate : ExplorationCandidateRefV2)
    (template : StrategyBlueprintTemplate F) : Prop :=
  catalog.get? candidate.catalogId = some template ∧
    candidate.executionSignature = template.executionSignature

theorem BlueprintCatalog.catalogId_of_get? {catalog : BlueprintCatalog F} {id : String}
    {template : StrategyBlueprintTemplate F} (h : catalog.get? id = some template) :
    template.catalogId = id := by
  simpa using List.find?_some h

theorem validateCandidateRef_ok {catalog : BlueprintCatalog F} {seen seen' : List String}
    {candidate : ExplorationCandidateRefV2}
    (h : validateCandidateRef catalog seen candidate = .ok seen') :
    ∃ template, Names catalog candidate template := by
  unfold validateCandidateRef at h
  split at h
  · cases h
  · split at h
    · cases h
    · rename_i template hfound
      split at h
      · rename_i hsignature
        exact ⟨template, hfound, hsignature⟩
      · cases h

theorem templates_of_refs {catalog : BlueprintCatalog F} {candidates : List ExplorationCandidateRefV2}
    {seen seen' : List String}
    (h : candidates.foldlM (validateCandidateRef catalog) seen = .ok seen') :
    List.Forall₂ (Names catalog) candidates
      (candidates.filterMap fun candidate => catalog.get? candidate.catalogId) := by
  induction candidates generalizing seen with
  | nil => exact .nil
  | cons candidate candidates ih =>
    rw [List.foldlM_cons] at h
    obtain ⟨middle, hfirst, hrest⟩ := bind_eq_ok.mp h
    obtain ⟨template, hfound, hsignature⟩ := validateCandidateRef_ok hfirst
    rw [List.filterMap_cons, hfound]
    exact .cons ⟨hfound, hsignature⟩ (ih hrest)

/-- Every candidate of an accepted exploration names a formula. -/
theorem acceptedTemplates {catalog : BlueprintCatalog F} {spec : ExplorationExecutionSpecV2}
    {policy : ActiveExplorationPolicyV2 F}
    (h : validateExplorationSpecAgainstPolicy catalog spec policy = .ok ()) :
    List.Forall₂ (Names catalog) spec.candidates (spec.templates catalog) := by
  unfold validateExplorationSpecAgainstPolicy at h
  obtain ⟨_, -, h⟩ := bind_eq_ok.mp h
  dsimp only at h
  repeat' split at h
  all_goals first
    | cases h
    | exact templates_of_refs (bind_eq_ok.mp h).choose_spec.1

section Named
variable {catalog : BlueprintCatalog F} {candidates : List ExplorationCandidateRefV2}
  {templates : List (StrategyBlueprintTemplate F)}

theorem catalogIds_of_names (h : List.Forall₂ (Names catalog) candidates templates) :
    templates.map StrategyBlueprintTemplate.catalogId =
      candidates.map ExplorationCandidateRefV2.catalogId := by
  induction h with
  | nil => rfl
  | cons hname _ ih =>
    rw [List.map_cons, List.map_cons, ih, BlueprintCatalog.catalogId_of_get? hname.1]

theorem signatures_of_names (h : List.Forall₂ (Names catalog) candidates templates) :
    templates.map StrategyBlueprintTemplate.executionSignature =
      candidates.map ExplorationCandidateRefV2.executionSignature := by
  induction h with
  | nil => rfl
  | cons hname _ ih => rw [List.map_cons, List.map_cons, ih, hname.2]

end Named

/-- A catalogue id has no comma, and neither has a digest, so joining them loses nothing. -/
theorem CatalogIdPattern.item {id : String} (h : CatalogIdPattern id) : id ≠ "" ∧ ',' ∉ id.toList := by
  obtain ⟨rest, hne, hid, hchars⟩ := h
  constructor
  · rintro rfl
    simp at hid
  · rw [hid, List.mem_append]
    rintro (h | h)
    · revert h
      decide
    · have hcomma := hchars _ h
      revert hcomma
      decide

theorem HexDigest.item {digest : String} (h : HexDigest digest) :
    digest ≠ "" ∧ ',' ∉ digest.toList := by
  constructor
  · rintro rfl
    exact absurd h.1 (by decide)
  · intro hmem
    have hcomma := h.2 _ hmem
    revert hcomma
    decide

end Rules

section Execution
variable {F : Type} [NumPy F] [NextFloat F] [DecidableEq κ] {catalog : BlueprintCatalog F}
  {policy : ActiveExplorationPolicyV2 F} {spec : ExplorationExecutionSpecV2}
  {templates : List (StrategyBlueprintTemplate F)} {digest : String}

/-- What a strategy of an exploration hands to the generation of candidates. -/
structure ExplorationStrategy (spec : ExplorationExecutionSpecV2) (strategy : StrategySpec F) : Prop where
  automatic : strategy.selectionMode = .automatic
  unresearched : strategy.riskConstraints.researchSnapshotHash = none
  ids : strategy.riskConstraints.sealedCandidateIds =
    some (pyJoin ',' (spec.candidates.map ExplorationCandidateRefV2.catalogId))
  signatures : strategy.riskConstraints.sealedCandidateSignatures =
    some (pyJoin ',' (spec.candidates.map ExplorationCandidateRefV2.executionSignature))

theorem strategyOfExploration_ok (h : List.Forall₂ (Names catalog) spec.candidates templates) :
    ∃ strategy, strategyOfExploration digest catalog policy spec = .ok strategy ∧
      ExplorationStrategy spec strategy := by
  have hlength := h.length_eq
  have htwo := spec.two_le
  unfold strategyOfExploration
  cases htemplates : templates with
  | nil =>
    rw [htemplates, List.length_nil] at hlength
    omega
  | cons first rest =>
    refine ⟨_, bind_eq_ok.mpr ⟨first :: rest, mapM_eq_ok.mpr ?_, rfl⟩, ⟨rfl, rfl, rfl, rfl⟩⟩
    refine (htemplates ▸ h).imp fun candidate template hname => ?_
    rw [hname.1]
    rfl

/-- The formulas an exploration seals are the ones its candidates are generated from. -/
theorem selectedTemplates_of_names {shop : Workshop F κ} {strategy : StrategySpec F}
    (hstrategy : ExplorationStrategy spec strategy)
    (h : List.Forall₂ (Names shop.catalog) spec.candidates templates) :
    selectedTemplates shop strategy = .ok templates := by
  have hids : splitItems ',' (strategy.riskConstraints.sealedCandidateIds.getD "") =
      spec.candidates.map ExplorationCandidateRefV2.catalogId := by
    rw [hstrategy.ids, Option.getD_some, splitItems_pyJoin]
    intro id hid
    obtain ⟨candidate, -, rfl⟩ := List.mem_map.mp hid
    exact candidate.id_pattern.item
  have hsignatures : splitItems ',' (strategy.riskConstraints.sealedCandidateSignatures.getD "") =
      spec.candidates.map ExplorationCandidateRefV2.executionSignature := by
    rw [hstrategy.signatures, Option.getD_some, splitItems_pyJoin]
    intro digest hdigest
    obtain ⟨candidate, -, rfl⟩ := List.mem_map.mp hdigest
    exact candidate.signature_pattern.item
  have hne : spec.candidates.map ExplorationCandidateRefV2.catalogId ≠ [] := by
    intro hnil
    have htwo := spec.two_le
    rw [List.map_eq_nil_iff.mp hnil, List.length_nil] at htwo
    omega
  unfold selectedTemplates
  dsimp only
  rw [hids, if_neg hne, hsignatures]
  refine bind_eq_ok.mpr ⟨templates, mapM_eq_ok.mpr (List.forall₂_map_left_iff.mpr ?_), ?_⟩
  · refine h.imp fun candidate template hname => ?_
    rw [hname.1]
    rfl
  · rw [if_pos (signatures_of_names h)]
    rfl

theorem automaticPlan_ok {shop : Workshop F κ} {strategy : StrategySpec F}
    (h : selectedTemplates shop strategy = .ok templates) (hne : templates ≠ []) :
    ∃ plan, automaticPlan shop strategy = .ok plan ∧
      plan.generatedStrategies = templates.map (blueprintOf strategy.riskConstraints) := by
  unfold automaticPlan
  refine ⟨_, bind_eq_ok.mpr ⟨templates, h, dif_neg hne⟩, rfl⟩

/-- Digests do not collide on what a sealed rule is told apart by. -/
structure DigestsTellApart (shop : Workshop F κ) : Prop where
  parameters : ∀ p q, shop.parameterIdentity p = shop.parameterIdentity q →
    p.profile = q.profile ∧ p.blueprintId = q.blueprintId
  candidates : ∀ i p j q, shop.candidateIdentity i p = shop.candidateIdentity j q →
    p.profile = q.profile ∧ p.blueprintId = q.blueprintId

/-- The parameters a sealed formula is executed with. -/
def templateParameters (strategy : StrategySpec F) (plan : CodeGenerationPlan F) (maxPositions : ℕ)
    (template : StrategyBlueprintTemplate F) : CandidateParameters F :=
  normalizeParameters strategy plan maxPositions
    (blueprintParameters plan maxPositions (blueprintOf strategy.riskConstraints template))

/-- The candidate a sealed formula is executed as. -/
def templateCandidate (shop : Workshop F κ) (strategy : StrategySpec F) (plan : CodeGenerationPlan F)
    (maxPositions : ℕ) (template : StrategyBlueprintTemplate F) : CodeCandidate F :=
  structuredCandidate shop template.catalogId
    (blueprintIr (blueprintOf strategy.riskConstraints template))
    (templateParameters strategy plan maxPositions template)

section Generated
variable {shop : Workshop F κ} {strategy : StrategySpec F} {plan : CodeGenerationPlan F}
  {maxPositions : ℕ}

theorem nodup_catalogIds (h : List.Forall₂ (Names catalog) spec.candidates templates) :
    (templates.map StrategyBlueprintTemplate.catalogId).Nodup :=
  catalogIds_of_names h ▸ spec.ids_unique

/-- What tells the formulas apart keeps them apart. -/
theorem nodup_of_catalogIds {g : StrategyBlueprintTemplate F → α}
    (h : (templates.map StrategyBlueprintTemplate.catalogId).Nodup)
    (hg : ∀ s t, g s = g t → s.catalogId = t.catalogId) : (templates.map g).Nodup :=
  List.pairwise_map.mpr ((List.pairwise_map.mp h).imp fun hne heq => hne (hg _ _ heq))

theorem minimumCandidateCount_exploration (hstrategy : ExplorationStrategy spec strategy) :
    isResearchedStrategy strategy = false ∧ minimumCandidateCount strategy = generatedCandidates := by
  have hnot : isResearchedStrategy strategy = false := by
    rw [isResearchedStrategy, hstrategy.unresearched]
  exact ⟨hnot, by rw [minimumCandidateCount, hnot]; rfl⟩

theorem defaultParameterSets_exploration (hstrategy : ExplorationStrategy spec strategy)
    (hne : plan.generatedStrategies ≠ []) :
    defaultParameterSets strategy plan maxPositions =
      .ok (plan.generatedStrategies.map (blueprintParameters plan maxPositions)) := by
  rw [defaultParameterSets, (minimumCandidateCount_exploration hstrategy).1,
    if_neg Bool.false_ne_true, if_pos hne]
  rfl

theorem normalizedPool_exploration (hstrategy : ExplorationStrategy spec strategy)
    (hgenerated : plan.generatedStrategies = templates.map (blueprintOf strategy.riskConstraints))
    (maxPositions : ℕ) {defaults : List (CandidateParameters F)}
    (hdefaults : defaults = plan.generatedStrategies.map (blueprintParameters plan maxPositions)) :
    defaults.zipIdx.map (fun (item, index) =>
        normalizeParameters strategy plan maxPositions (admittedProfile strategy defaults item index)) =
      templates.map (templateParameters strategy plan maxPositions) := by
  have hadmitted : ∀ defaults item index, admittedProfile strategy defaults item index = item :=
    fun _ _ _ => if_neg fun h => h.2.2 hstrategy.automatic
  rw [map_zipIdx_of_eq 0 fun item _ index =>
    congrArg (normalizeParameters strategy plan maxPositions) (hadmitted defaults item index),
    hdefaults, hgenerated, List.map_map, List.map_map]
  rfl

/-- At most three of the sealed formulas come through, and no fewer than three may. -/
theorem parameterSets_exploration (hdigests : DigestsTellApart shop)
    (hstrategy : ExplorationStrategy spec strategy)
    (hnames : List.Forall₂ (Names catalog) spec.candidates templates)
    (hgenerated : plan.generatedStrategies = templates.map (blueprintOf strategy.riskConstraints))
    (hne : templates ≠ []) (proposed : List (CandidateParameters F)) :
    normalizedParameterSets shop proposed strategy plan maxPositions =
      if templates.length < generatedCandidates then
        .error (.valueError ("unable to create " ++ toString generatedCandidates ++
          " distinct structured candidates"))
      else
        .ok ((templates.take generatedCandidates).map (templateParameters strategy plan maxPositions)) := by
  have hplan : plan.generatedStrategies ≠ [] := by
    rw [hgenerated]
    exact fun hnil => hne (List.map_eq_nil_iff.mp hnil)
  have hnodup : ((templates.map (templateParameters strategy plan maxPositions)).map
      shop.parameterIdentity).Nodup := by
    rw [List.map_map]
    exact nodup_of_catalogIds (nodup_catalogIds hnames) fun s t heq =>
      Option.some.inj (hdigests.parameters _ _ heq).2
  unfold normalizedParameterSets
  rw [defaultParameterSets_exploration hstrategy hplan]
  dsimp only [bind, Except.bind]
  rw [if_pos hstrategy.automatic, normalizedPool_exploration hstrategy hgenerated maxPositions rfl,
    takeDistinct_of_nodup hnodup fun _ _ => List.not_mem_nil,
    (minimumCandidateCount_exploration hstrategy).2, ← List.map_take, List.length_map,
    List.length_take]
  by_cases hfew : templates.length < generatedCandidates
  · rw [if_pos hfew, if_pos (lt_of_le_of_lt (Nat.min_le_right _ _) hfew)]
    rfl
  · rw [if_neg hfew, if_neg (by omega)]
    rfl

theorem blueprintFor_template (hnames : List.Forall₂ (Names catalog) spec.candidates templates)
    (hgenerated : plan.generatedStrategies = templates.map (blueprintOf strategy.riskConstraints))
    {template : StrategyBlueprintTemplate F} (h : template ∈ templates) :
    blueprintFor plan.generatedStrategies (templateParameters strategy plan maxPositions template) =
      some (blueprintOf strategy.riskConstraints template) := by
  change (Dict.index GeneratedStrategyBlueprint.blueprintId plan.generatedStrategies).get?
    template.catalogId = _
  rw [hgenerated]
  obtain ⟨found, hfound⟩ := Dict.mem_iff_get?.mp (Dict.mem_index.mpr
    ⟨_, List.mem_map_of_mem h, rfl⟩ : template.catalogId ∈ Dict.index
      GeneratedStrategyBlueprint.blueprintId (templates.map (blueprintOf strategy.riskConstraints)))
  obtain ⟨hmem, hid⟩ := Dict.mem_of_get?_index hfound
  obtain ⟨other, hother, rfl⟩ := List.mem_map.mp hmem
  have hsame : other = template :=
    List.inj_on_of_nodup_map (nodup_catalogIds hnames) hother h hid
  rw [hfound, hsame]

theorem generatedCandidates_exploration (hstrategy : ExplorationStrategy spec strategy)
    (hnames : List.Forall₂ (Names catalog) spec.candidates templates)
    (hgenerated : plan.generatedStrategies = templates.map (blueprintOf strategy.riskConstraints))
    (ir : StrategyIR F) (n : ℕ) :
    (((templates.take n).map (templateParameters strategy plan maxPositions)).zipIdx 1).map
        (fun (parameters, index) =>
          generatedCandidate shop strategy ir plan.generatedStrategies parameters index) =
      (templates.take n).map (templateCandidate shop strategy plan maxPositions) := by
  have hsealed : strategy.riskConstraints.sealedCandidateIds.getD "" ≠ "" := by
    intro hempty
    have htwo := spec.two_le
    have hids : splitItems ',' (pyJoin ',' (spec.candidates.map ExplorationCandidateRefV2.catalogId)) =
        spec.candidates.map ExplorationCandidateRefV2.catalogId := by
      refine splitItems_pyJoin fun id hid => ?_
      obtain ⟨candidate, -, rfl⟩ := List.mem_map.mp hid
      exact candidate.id_pattern.item
    rw [hstrategy.ids, Option.getD_some] at hempty
    rw [hempty] at hids
    have hnil : spec.candidates.map ExplorationCandidateRefV2.catalogId = [] := hids.symm.trans rfl
    rw [List.map_eq_nil_iff.mp hnil, List.length_nil] at htwo
    omega
  have hcandidate : ∀ template ∈ templates, ∀ index,
      generatedCandidate shop strategy ir plan.generatedStrategies
          (templateParameters strategy plan maxPositions template) index =
        templateCandidate shop strategy plan maxPositions template := by
    intro template htemplate index
    rw [generatedCandidate, blueprintFor_template hnames hgenerated htemplate]
    exact congrArg (structuredCandidate shop · _ _) (if_pos hsealed)
  rw [List.zipIdx_map, List.map_map]
  exact map_zipIdx_of_eq 1 fun template htemplate index =>
    hcandidate template (List.mem_of_mem_take htemplate) index

/-- Each set of parameters becomes a candidate of its formula, named after it. -/
theorem structuredCandidates_exploration (hstrategy : ExplorationStrategy spec strategy)
    (hnames : List.Forall₂ (Names catalog) spec.candidates templates)
    (hgenerated : plan.generatedStrategies = templates.map (blueprintOf strategy.riskConstraints))
    (hthree : generatedCandidates ≤ templates.length) (ir : StrategyIR F) :
    structuredCandidates shop strategy ir
        ((templates.take generatedCandidates).map (templateParameters strategy plan maxPositions))
        plan.generatedStrategies =
      .ok ((templates.take generatedCandidates).map
        (templateCandidate shop strategy plan maxPositions)) := by
  unfold structuredCandidates
  rw [List.take_of_length_le (by rw [List.length_map]; exact List.length_take_le _ _)]
  dsimp only
  rw [generatedCandidates_exploration hstrategy hnames hgenerated ir generatedCandidates,
    (minimumCandidateCount_exploration hstrategy).2, if_neg ?_]
  · rfl
  · rw [List.length_map, List.length_take]
    omega

/-- An exploration hands over its first three formulas, if it has as many. -/
theorem generated_exploration (hdigests : DigestsTellApart shop)
    (hstrategy : ExplorationStrategy spec strategy)
    (hnames : List.Forall₂ (Names catalog) spec.candidates templates)
    (hplan : automaticPlan shop strategy = .ok plan)
    (hgenerated : plan.generatedStrategies = templates.map (blueprintOf strategy.riskConstraints))
    {generated : Loop3Result F} :
    generateLoop3Candidates shop strategy maxPositions = .ok generated ↔
      generatedCandidates ≤ templates.length ∧
        generated = ⟨(templates.take generatedCandidates).map
          (templateCandidate shop strategy plan maxPositions), plan⟩ ∧
        generated.candidates.any CodeCandidate.validationOk := by
  have hne : templates ≠ [] := by
    intro hnil
    have hlength := hnames.length_eq
    have htwo := spec.two_le
    rw [hnil, List.length_nil] at hlength
    omega
  have hplanned : plan.generatedStrategies ≠ [] := by
    rw [hgenerated]
    exact fun hnil => hne (List.map_eq_nil_iff.mp hnil)
  have hsets : ∀ proposed, normalizedParameterSets shop proposed strategy plan maxPositions = _ :=
    fun proposed => parameterSets_exploration hdigests hstrategy hnames hgenerated hne proposed
  have hbuild : buildCodeGenerationPlan shop strategy = .ok plan := by
    rw [buildCodeGenerationPlan, if_pos hstrategy.automatic, hplan]
  rw [generateLoop3Candidates_eq_ok]
  constructor
  · rintro ⟨-, hplan', hvalid, proposed, parameterSets, -, hparameters, hcandidates⟩
    obtain ⟨candidates, codePlan⟩ := generated
    obtain rfl : plan = codePlan := Except.ok.inj (hbuild.symm.trans hplan')
    rw [hsets proposed] at hparameters
    split at hparameters
    · cases hparameters
    · rename_i hthree
      have hthree := Nat.le_of_not_lt hthree
      cases hparameters
      rw [structuredCandidates_exploration hstrategy hnames hgenerated hthree] at hcandidates
      cases hcandidates
      exact ⟨hthree, rfl, hvalid⟩
  · rintro ⟨hthree, rfl, hvalid⟩
    refine ⟨fun h => ?_, hbuild, hvalid, _, _,
      defaultParameterSets_exploration hstrategy hplanned, ?_,
      structuredCandidates_exploration hstrategy hnames hgenerated hthree _⟩
    · rw [(minimumCandidateCount_exploration hstrategy).1] at h
      cases h
    · rw [hsets, if_neg (Nat.not_lt_of_le hthree)]

/-- The one set of parameters proposed for a researched rule. -/
def researchDefault (strategy : StrategySpec F) (maxPositions : ℕ) : CandidateParameters F :=
  let plan := namedPlan strategy
  gridParameters strategy plan maxPositions .compiledConditions
    (max 3 (min 252 (cyclic plan.lookbacks plan.lookbacks_ne 0)))
    (cyclic plan.thresholds plan.thresholds_ne 0)

/-- The candidate a researched rule is executed as. -/
def researchCandidate (shop : Workshop F κ) (strategy : StrategySpec F) (maxPositions : ℕ) :
    CodeCandidate F :=
  structuredCandidate shop "A1" (normalizedStrategyIr strategy (namedPlan strategy))
    (normalizeParameters strategy (namedPlan strategy) maxPositions
      (researchDefault strategy maxPositions))

/-- A strategy of a researched spec, as the generation of candidates sees it. -/
structure ResearchStrategy (strategy : StrategySpec F) : Prop where
  researched : isResearchedStrategy strategy
  stated : strategy.selectionMode ≠ .automatic

theorem researchStrategy (digest : String) (spec : ResearchCandidateExecutionSpecV3 F) :
    ResearchStrategy (strategyOfResearch digest spec) where
  researched := decide_eq_true spec.snapshot_pattern.item.1
  stated := nofun

theorem defaultParameterSets_research (hstrategy : ResearchStrategy strategy)
    (hcompiles : compiles strategy.entryConditions) :
    defaultParameterSets strategy (namedPlan strategy) maxPositions =
      .ok [researchDefault strategy maxPositions] := by
  rw [defaultParameterSets, if_pos hstrategy.researched, if_pos hcompiles]
  rfl

/-- The rule is proposed twice, and taken once. -/
theorem parameterSets_research (hstrategy : ResearchStrategy strategy)
    (hcompiles : compiles strategy.entryConditions) :
    normalizedParameterSets shop [researchDefault strategy maxPositions] strategy (namedPlan strategy)
        maxPositions =
      .ok [normalizeParameters strategy (namedPlan strategy) maxPositions
        (researchDefault strategy maxPositions)] := by
  have hadmitted : ∀ defaults item index, admittedProfile strategy defaults item index = item :=
    fun _ _ _ => if_neg fun h => h.2.1 hcompiles
  have hminimum : minimumCandidateCount strategy = 1 := if_pos hstrategy.researched
  unfold normalizedParameterSets
  rw [defaultParameterSets_research hstrategy hcompiles]
  dsimp only [bind, Except.bind]
  rw [if_neg hstrategy.stated, map_zipIdx_of_eq 0 fun item _ index =>
    congrArg (normalizeParameters strategy (namedPlan strategy) maxPositions) (hadmitted _ item index),
    hminimum]
  simp [takeDistinct, generatedCandidates]
  rfl

theorem structuredCandidates_research (hstrategy : ResearchStrategy strategy) :
    structuredCandidates shop strategy (normalizedStrategyIr strategy (namedPlan strategy))
        [normalizeParameters strategy (namedPlan strategy) maxPositions
          (researchDefault strategy maxPositions)] (namedPlan strategy).generatedStrategies =
      .ok [researchCandidate shop strategy maxPositions] := by
  have hminimum : minimumCandidateCount strategy = 1 := if_pos hstrategy.researched
  rw [namedPlan_unplanned]
  unfold structuredCandidates
  rw [hminimum]
  rfl

/-- A researched rule is generated alone, or not at all. -/
theorem generated_research (hstrategy : ResearchStrategy strategy) {generated : Loop3Result F} :
    generateLoop3Candidates shop strategy maxPositions = .ok generated ↔
      unsupportedConditions strategy = [] ∧ compiles strategy.entryConditions ∧
        generated = ⟨[researchCandidate shop strategy maxPositions], namedPlan strategy⟩ ∧
        generated.candidates.any CodeCandidate.validationOk := by
  have hbuild : buildCodeGenerationPlan shop strategy = .ok (namedPlan strategy) := by
    rw [buildCodeGenerationPlan, if_neg hstrategy.stated]
    rfl
  rw [generateLoop3Candidates_eq_ok]
  constructor
  · rintro ⟨hsupported, hplan, hvalid, proposed, parameterSets, hproposed, hparameters, hcandidates⟩
    obtain ⟨candidates, codePlan⟩ := generated
    obtain rfl : namedPlan strategy = codePlan := Except.ok.inj (hbuild.symm.trans hplan)
    have hcompiles : compiles strategy.entryConditions = true := by
      by_contra hcompiles
      rw [defaultParameterSets, if_pos hstrategy.researched, if_neg hcompiles] at hproposed
      cases hproposed
    rw [defaultParameterSets_research hstrategy hcompiles] at hproposed
    cases hproposed
    rw [parameterSets_research hstrategy hcompiles] at hparameters
    cases hparameters
    rw [structuredCandidates_research hstrategy] at hcandidates
    cases hcandidates
    exact ⟨hsupported hstrategy.researched, hcompiles, rfl, hvalid⟩
  · rintro ⟨hsupported, hcompiles, rfl, hvalid⟩
    exact ⟨fun _ => hsupported, hbuild, hvalid, _, _, defaultParameterSets_research hstrategy hcompiles,
      parameterSets_research hstrategy hcompiles, structuredCandidates_research hstrategy⟩

end Generated

end Execution

end QuantAgent.Campaign
